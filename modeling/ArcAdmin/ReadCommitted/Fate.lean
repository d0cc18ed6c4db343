import ArcAdmin.ReadCommitted.Invariant

/-!
# The fate of one row

A number is drawn once, so a row under a drawn key is inserted once. What the row protocol keeps
of such a row is therefore true of it for good: no transaction, however it is interleaved with the
others, can put another row in its place.

* **`RowFate`** — a relation between a committed row and the same row as a connection sees it, kept
  by every step of the row protocol;
* **`RowFate.steps`** — it holds of every connection in every later configuration;
* **`Steps.row_kept`** — a fact about a committed row that the protocol keeps is never lost;
* **`Steps.row_gone`** — a row that has been deleted never comes back.
-/

namespace ReadCommitted

open Schema (Id Row Ev serialNo clash Allowed)

variable {T : Type} [Schema T] {ε ρ Req : Type}

/-- **A relation between a row as committed and as a connection sees it** that every step of the
row protocol keeps. The key is drawn from a sequence. -/
structure RowFate (t : T) (id : Id t) (G : Option (Row t) → Option (Row t) → Prop) : Prop where
  serial : (serialNo t id).isSome
  step : ∀ s r new evs, Allowed t id (some r) new evs → G s (some r) → G s new
  committed : ∀ s v, G s v → G s s
  seen : ∀ s v, G s v → G v v

/-- Nobody can insert a row under the key any more, or an inserted row does no harm. -/
def Conn.Settled (c : Conn T) (t : T) (id : Id t) (G : Option (Row t) → Option (Row t) → Prop) :
    Prop :=
  Key.Drawn ⟨t, id⟩ c.server.seq ∨ ∀ new evs, Allowed t id none new evs → G none new

/-- What a connection knows about the row: it is settled, and the relation holds. -/
def Conn.Fated (c : Conn T) (t : T) (id : Id t) (G : Option (Row t) → Option (Row t) → Prop) :
    Prop :=
  c.Settled t id G ∧ G (c.server.store.get t id) (c.view.get t id)

namespace RowFate

variable {t : T} {id : Id t} {G : Option (Row t) → Option (Row t) → Prop}

/-- Numbers are never given back. -/
theorem settled_mono {c c' : Conn T} (hseq : c.server.seq ≤ c'.server.seq)
    (h : c.Settled t id G) : c'.Settled t id G :=
  h.imp_left fun hd => hd.mono hseq

/-- **Acts keep the fate of a row.** -/
theorem effect (h : RowFate t id G) {p : Nat} {c c' : Conn T} (hwf : c.Wf) (hc : c.Fated t id G)
    (heff : Effect p c c') : c'.Fated t id G := by
  obtain ⟨hset, hG⟩ := hc
  cases heff with
  | same => exact ⟨hset, hG⟩
  | begin => exact ⟨hset, h.committed _ _ hG⟩
  | commit tx s => exact ⟨hset, h.seen _ _ hG⟩
  | rollback => exact ⟨hset, h.committed _ _ hG⟩
  | draw => exact ⟨settled_mono (Nat.le_succ _) hset, hG⟩
  | note tx s e => exact ⟨hset, hG⟩
  | acquire tx s t' id' m r hr => exact ⟨hset, hG⟩
  | write tx s t' id' m v evs d hm hok hdrawn =>
    refine ⟨settled_mono (Nat.le_add_right _ _) hset, ?_⟩
    by_cases hk : (⟨t, id⟩ : Key T) = ⟨t', id'⟩
    · cases hk
      have hnew : G (s.store.get t id) v := by
        cases hr : (tx.view s.store).get t id with
        | some r =>
          rw [hr] at hok
          have hold : G (s.store.get t id) (some r) := by
            rw [← hr]
            exact hG
          exact h.step _ r v evs hok hold
        | none =>
          -- an insert draws the number of the key, so that nothing has been stored under it
          obtain ⟨n, hn⟩ := Option.isSome_iff_exists.1 h.serial
          obtain ⟨hseq, _⟩ := hdrawn hr n hn
          have hundrawn : ¬Key.Drawn (⟨t, id⟩ : Key T) s.seq := by
            intro hd
            have hlt := hd n hn
            omega
          have hnone : s.store.get t id = none := by
            cases hs : s.store.get t id with
            | none => rfl
            | some r => exact absurd (hwf.1.store_drawn t id r hs) hundrawn
          rw [hr] at hok
          rw [hnone]
          exact hset.resolve_left hundrawn v evs hok
      simpa using hnew
    · have hget := Store.get_set_of_key_ne (tx.view s.store) v hk
      simpa [hget] using hG

/-- **Interference keeps the fate of a row.** -/
theorem interferes (h : RowFate t id G) {I : Nat → Conn T → Prop} {cond : Nat → Conn T → Prop}
    {p : Nat} {c c' : Conn T} (hwf : c.Wf) (hc : c.Fated t id G)
    (hI : ∀ q c, I q c → c.Wf ∧ c.Fated t id G) (hi : Interferes I cond p c c') :
    c'.Fated t id G := by
  obtain ⟨hset, hG⟩ := hc
  have hwfI : ∀ q c, I q c → c.Wf := fun q c hq => (hI q c hq).1
  obtain ⟨otx, s⟩ := c
  cases hi with
  | tick d => exact ⟨hset, by cases otx <;> exact hG⟩
  | draw d => exact ⟨settled_mono (Nat.le_add_right _ _) hset, by cases otx <;> exact hG⟩
  | commit q tx hq hcompat hIq hcond =>
    have hcommit : Interferes I cond p ⟨otx, s⟩ ⟨otx, s.commit q tx⟩ :=
      .commit _ q tx hq hcompat hIq hcond
    refine ⟨hset, ?_⟩
    by_cases ho : (⟨otx, s⟩ : Conn T).Owns ⟨t, id⟩
    · obtain ⟨hstore, hview⟩ := hcommit.get_of_owns hwfI ho
      rw [hstore, hview]
      exact hG
    · -- a row that is not owned is seen as the other transaction has left it
      have hview : (⟨otx, s.commit q tx⟩ : Conn T).view.get t id = (tx.view s.store).get t id := by
        cases otx with
        | none => rfl
        | some tx₀ =>
          have hno : ¬tx₀.Owns ⟨t, id⟩ := fun hown => ho ⟨tx₀, rfl, hown⟩
          exact (hwf.2 tx₀ rfl).view_get _ hno
      rw [hview]
      exact h.seen _ _ (hI q _ hIq).2.2

variable {prog : Req → Prog T ε ρ} {cond : Nat → Conn T → Prop} {s₀ : Server T}
  {C C' : Config T ε ρ Req}

/-- **The fate of a row holds in every later configuration.** -/
theorem steps (h : RowFate t id G) (h₀ : s₀.Wf) (hC : ReachableIf prog cond s₀ C)
    (hG : ∀ p, (C.conn p).Fated t id G) (hs : Steps prog cond C C') :
    ∀ p, (C'.conn p).Fated t id G := by
  have hwf : ∀ p, (C'.conn p).Wf ∧ (C'.conn p).Fated t id G := by
    induction hs with
    | refl => exact fun p => ⟨ReachableIf.wf h₀ hC p, hG p⟩
    | tail hsteps hstep ih =>
      refine local_step (I := fun _ c => c.Wf ∧ c.Fated t id G) ?_ ?_
        (ReachableIf.locksExclude (hC.trans hsteps)) ih hstep
      · intro p a c hc _
        exact ⟨hc.1.effect (a.step_effect p c), h.effect hc.1 hc.2 (a.step_effect p c)⟩
      · intro p c c' hc hi
        exact ⟨hc.1.interferes (fun _ _ h => h.1) hi, h.interferes hc.1 hc.2 (fun _ _ h => h) hi⟩
  exact fun p => (hwf p).2

end RowFate

/-! ## Facts about one row that are never lost

The instances that are needed: a fact that the protocol keeps, and the absence of a row. Neither
needs to know anything about the programs.
-/

section Steps

variable {t : T} {id : Id t} {prog : Req → Prog T ε ρ} {cond : Nat → Conn T → Prop}
  {s₀ : Server T} {C C₁ C' : Config T ε ρ Req}

/-- A committed row has a drawn key. -/
theorem ReachableIf.drawn (h₀ : s₀.Wf) (hC : ReachableIf prog cond s₀ C) {r : Row t}
    (hr : C.server.store.get t id = some r) : Key.Drawn ⟨t, id⟩ C.server.seq :=
  (ReachableIf.wf h₀ hC 0).1.store_drawn t id r hr

/-- Numbers are never given back. -/
theorem Steps.drawn {k : Key T} (hs : Steps prog cond C C') (hk : k.Drawn C.server.seq) :
    k.Drawn C'.server.seq := by
  induction hs with
  | refl => exact hk
  | @tail C₁ C₂ _ hstep ih =>
    cases hstep with
    | spawn req => exact ih
    | drop p => exact ih
    | tick d => exact ih
    | act p pr a k' hp hcode hen hcond =>
      rw [Config.server_perform]
      rcases a.step_server p (C₁.conn p) with ⟨d, hserver⟩ | ⟨tx, _, _, hserver⟩
      · rw [hserver]
        exact ih.mono (Nat.le_add_right _ _)
      · rw [hserver]
        exact ih

/-- **What every transaction sees of a committed row** is what the protocol keeps of it. -/
theorem ReachableIf.row_seen (h₀ : s₀.Wf) (hC : ReachableIf prog cond s₀ C)
    (hserial : (serialNo t id).isSome) {F : Option (Row t) → Prop}
    (hF : ∀ r new evs, Allowed t id (some r) new evs → F (some r) → F new) {r : Row t}
    (hr : C.server.store.get t id = some r) (hFr : F (some r)) (p : Nat) :
    F ((C.conn p).view.get t id) := by
  -- from the start: whoever sees a row that is committed, sees it in a state that the protocol
  -- has led it to
  let G (s v : Option (Row t)) : Prop := ∀ r, s = some r → F (some r) → F v
  have hG : RowFate t id G :=
    { serial := hserial
      step := fun s r new evs hok hv r' hs hFr' => hF r new evs hok (hv r' hs hFr')
      committed := fun s _ _ _ hs hFr => by rw [hs]; exact hFr
      seen := fun _ v _ _ hv hFr => by rw [hv]; exact hFr }
  have hinit : ∀ p, ((Config.idle s₀ : Config T ε ρ Req).conn p).Fated t id G := by
    intro p
    have hinsert : ∀ new evs, Allowed t id none new evs → G none new :=
      fun new evs _ r hr => by cases hr
    refine ⟨.inr hinsert, fun r hr hFr => ?_⟩
    have hview : (s₀.store.get t id) = some r := hr
    show F (s₀.store.get t id)
    rw [hview]
    exact hFr
  exact (hG.steps h₀ .refl hinit hC p).2 r hr hFr

/-- **A fact about a committed row that the protocol keeps is never lost.** -/
theorem Steps.row_kept (h₀ : s₀.Wf) (hC : ReachableIf prog cond s₀ C)
    (hserial : (serialNo t id).isSome) {F : Option (Row t) → Prop}
    (hF : ∀ r new evs, Allowed t id (some r) new evs → F (some r) → F new) {r : Row t}
    (hr : C.server.store.get t id = some r) (hFr : F (some r)) (hs : Steps prog cond C C') :
    F (C'.server.store.get t id) := by
  have hfate : RowFate t id fun s v => F s ∧ F v :=
    { serial := hserial
      step := fun s r new evs hok hv => ⟨hv.1, hF r new evs hok hv.2⟩
      committed := fun s v h => ⟨h.1, h.1⟩
      seen := fun s v h => ⟨h.2, h.2⟩ }
  have hstart : ∀ p, (C.conn p).Fated t id fun s v => F s ∧ F v := by
    intro p
    refine ⟨.inl (hC.drawn h₀ hr), ?_, hC.row_seen h₀ hserial hF hr hFr p⟩
    show F (C.server.store.get t id)
    rw [hr]
    exact hFr
  exact (hfate.steps h₀ hC hstart hs 0).2.1

/-- **A row that has been deleted never comes back.** -/
theorem Steps.row_gone (h₀ : s₀.Wf) (hC : ReachableIf prog cond s₀ C)
    (hserial : (serialNo t id).isSome) {r : Row t} (hr : C.server.store.get t id = some r)
    (hs : Steps prog cond C C₁) (hgone : C₁.server.store.get t id = none)
    (hs' : Steps prog cond C₁ C') : C'.server.store.get t id = none := by
  -- once it is gone, no transaction sees it any more
  have hseen : RowFate t id fun s v => s = none → v = none :=
    { serial := hserial
      step := fun s r new evs _ hv hnone => by cases hv hnone
      committed := fun s v _ h => h
      seen := fun s v _ h => h }
  have hstart : ∀ p, (C.conn p).Fated t id fun s v => s = none → v = none := by
    intro p
    refine ⟨.inl (hC.drawn h₀ hr), fun hnone => ?_⟩
    have hsome : (C.conn p).server.store.get t id = some r := hr
    rw [hsome] at hnone
    cases hnone
  have hfate : RowFate t id fun s v => s = none ∧ v = none :=
    { serial := hserial
      step := fun s r new evs _ hv => by cases hv.2
      committed := fun s v h => ⟨h.1, h.1⟩
      seen := fun s v h => ⟨h.2, h.2⟩ }
  have hreach : ReachableIf prog cond s₀ C₁ := hC.trans hs
  have hmid : ∀ p, (C₁.conn p).Fated t id fun s v => s = none ∧ v = none := by
    intro p
    obtain ⟨_, hview⟩ := hseen.steps h₀ hC hstart hs p
    exact ⟨.inl (hs.drawn (hC.drawn h₀ hr)), hgone, hview hgone⟩
  exact (hfate.steps h₀ hreach hmid hs' 0).2.1

end Steps

end ReadCommitted

import ArcAdmin.ReadCommitted.Invariant

/-!
# Row laws: the history of one row is sequential

Row locks make the changes of one row, and the events about it, a sequence: whoever writes the row
next sees what the last writer committed. So a relation between a row and the events about it that
every protocol step keeps holds in every interleaving of all programs.

* **`history`** — the events about one row, in the order in which they were committed;
* **`RowLaw`** — a relation between a row and its history that the row protocol keeps;
* **`RowLaw.reachable`** — it holds of the committed rows, and of the rows as each transaction
  sees them, in every reachable configuration.
-/

namespace ReadCommitted

open Schema (Id Row Ev serialNo clash Allowed)

variable {T : Type} [Schema T] {ε ρ Req : Type}

/-- The events of the journal about the row at `k`, earliest first. -/
def history (log : List (Entry T)) (k : Key T) : List (Ev T) :=
  (log.filter fun e => e.key = some k).map fun e => e.ev

/-- The events about the row at `k` among the notes of a transaction. -/
def noted (notes : List (Option (Key T) × Ev T)) (k : Key T) : List (Ev T) :=
  (notes.filter fun n => n.1 = some k).map fun n => n.2

/-- The history of a row as a connection sees it: the journal, then its own events. -/
def Conn.history (c : Conn T) (k : Key T) : List (Ev T) :=
  ReadCommitted.history c.server.log k ++ noted c.notes k

theorem mem_noted {notes : List (Option (Key T) × Ev T)} {k : Key T} {e : Ev T} :
    e ∈ noted notes k ↔ (some k, e) ∈ notes := by
  simp [noted]

@[simp] theorem noted_nil (k : Key T) : noted ([] : List (Option (Key T) × Ev T)) k = [] := rfl

theorem noted_append (ns ms : List (Option (Key T) × Ev T)) (k : Key T) :
    noted (ns ++ ms) k = noted ns k ++ noted ms k := by
  simp [noted]

/-- Events left by a write are about the row written. -/
theorem noted_write_self (k : Key T) (evs : List (Ev T)) :
    noted (evs.map fun e => (some k, e)) k = evs := by
  simp [noted, List.filter_map, Function.comp_def]

/-- Events left by a write are about no other row. -/
theorem noted_write_of_ne {k k' : Key T} (h : k' ≠ k) (evs : List (Ev T)) :
    noted (evs.map fun e => (some k, e)) k' = [] := by
  have h' : ¬k = k' := fun e => h e.symm
  simp [noted, List.filter_map, Function.comp_def, h']

/-- The notes of a transaction become part of the history when it commits. -/
@[simp] theorem history_commit (s : Server T) (p : Nat) (tx : Tx T) (k : Key T) :
    history (s.commit p tx).log k = history s.log k ++ noted tx.notes k := by
  simp [history, noted, Server.commit_log, List.filter_map, Function.comp_def]

@[simp] theorem Conn.history_none (s : Server T) (k : Key T) :
    (⟨none, s⟩ : Conn T).history k = ReadCommitted.history s.log k := by
  simp [Conn.history]

@[simp] theorem Conn.history_some (tx : Tx T) (s : Server T) (k : Key T) :
    (⟨some tx, s⟩ : Conn T).history k = ReadCommitted.history s.log k ++ noted tx.notes k := rfl

theorem mem_history {log : List (Entry T)} {k : Key T} {ev : Ev T} :
    ev ∈ history log k ↔ ∃ e ∈ log, e.key = some k ∧ e.ev = ev := by
  simp [history, and_assoc]

/-- A transaction has no events about a row it does not own. -/
theorem Tx.Wf.noted_eq_nil {tx : Tx T} {s : Server T} (h : tx.Wf s) {k : Key T}
    (hno : ¬tx.Owns k) : noted tx.notes k = [] := by
  unfold noted
  rw [List.map_eq_nil_iff, List.filter_eq_nil_iff]
  intro n hn hk
  exact hno (h.notes_owned n hn k (by simpa using hk))

/-- **A number that has not been drawn has no history.** -/
theorem Conn.Wf.history_eq_nil {c : Conn T} (h : c.Wf) {k : Key T} {n : Nat}
    (hk : k.serialNo = some n) (hn : c.server.seq ≤ n) : c.history k = [] := by
  have hlog : ReadCommitted.history c.server.log k = [] := by
    unfold ReadCommitted.history
    rw [List.map_eq_nil_iff, List.filter_eq_nil_iff]
    intro e he hek
    have := h.1.log_drawn e he k (by simpa using hek) n hk
    omega
  have hnoted : noted c.notes k = [] := by
    obtain ⟨otx, s⟩ := c
    cases otx with
    | none => rfl
    | some tx =>
      refine (h.2 tx rfl).noted_eq_nil ?_
      rintro ⟨m, _, hmem⟩
      have hlt : n < s.seq := (h.2 tx rfl).locks_drawn _ hmem n hk
      exact absurd hn (Nat.not_le.2 hlt)
  rw [Conn.history, hlog, hnoted]
  rfl

/-- **A row law**: a relation between a row of table `t` and its history that every step of the
row protocol keeps. A drawn key enters the table with no history. -/
structure RowLaw (t : T) (L : Id t → Option (Row t) → List (Ev T) → Prop) : Prop where
  step : ∀ id old new evs notes, Allowed t id old new notes →
    (old = none → (serialNo t id).isSome → evs = []) → L id old evs → L id new (evs ++ notes)

/-- The law holds of every row as the connection sees it. -/
def Conn.Obeys (c : Conn T) (t : T) (L : Id t → Option (Row t) → List (Ev T) → Prop) : Prop :=
  ∀ id, L id (c.view.get t id) (c.history ⟨t, id⟩)

/-- The law holds of every row, as committed and as the connection sees it. -/
def Conn.Lawful (c : Conn T) (t : T) (L : Id t → Option (Row t) → List (Ev T) → Prop) : Prop :=
  (⟨none, c.server⟩ : Conn T).Obeys t L ∧ c.Obeys t L

namespace RowLaw

variable {t : T} {L : Id t → Option (Row t) → List (Ev T) → Prop}

/-- **Acts keep a row law.** -/
theorem effect (law : RowLaw t L) {p : Nat} {c c' : Conn T} (hwf : c.Wf) (h : c.Lawful t L)
    (heff : Effect p c c') : c'.Lawful t L := by
  obtain ⟨hs, hc⟩ := h
  cases heff with
  | same => exact ⟨hs, hc⟩
  | begin => exact ⟨hs, fun id => hs id⟩
  | commit tx s =>
    have hcommit : (⟨none, s.commit p tx⟩ : Conn T).Obeys t L := fun id => by
      simpa using hc id
    exact ⟨hcommit, hcommit⟩
  | rollback => exact ⟨hs, hs⟩
  | draw =>
    exact ⟨hs, fun id => hc id⟩
  | note tx s e =>
    refine ⟨hs, fun id => ?_⟩
    have hnoted : noted (tx.notes ++ [(none, e)]) (⟨t, id⟩ : Key T) = noted tx.notes ⟨t, id⟩ := by
      simp [noted]
    have hnote := hc id
    rw [Conn.history_some] at hnote ⊢
    rw [hnoted]
    exact hnote
  | acquire tx s t' id m r hr => exact ⟨hs, fun id => hc id⟩
  | write tx s t' id' m v evs d hm hok hdrawn =>
    refine ⟨hs, fun id => ?_⟩
    by_cases hk : (⟨t, id⟩ : Key T) = ⟨t', id'⟩
    · cases hk
      have hstep := law.step id _ v (Conn.history ⟨some tx, s⟩ ⟨t, id⟩) evs hok
        (fun hnone hser => by
          obtain ⟨n, hn⟩ := Option.isSome_iff_exists.1 hser
          exact hwf.history_eq_nil hn (by rw [(hdrawn hnone n hn).1]))
        (hc id)
      simpa [noted_append, noted_write_self] using hstep
    · have hget := Store.get_set_of_key_ne (tx.view s.store) v hk
      simpa [noted_append, noted_write_of_ne hk, hget] using hc id

/-- **Interference keeps a row law.** -/
theorem interferes {I : Nat → Conn T → Prop} {cond : Nat → Conn T → Prop} {p : Nat}
    {c c' : Conn T} (hwf : c.Wf) (h : c.Lawful t L)
    (hI : ∀ q c, I q c → c.Wf ∧ c.Lawful t L) (hi : Interferes I cond p c c') :
    c'.Lawful t L := by
  obtain ⟨hs, hc⟩ := h
  obtain ⟨otx, s⟩ := c
  cases hi with
  | tick d => exact ⟨hs, fun id => by cases otx <;> exact hc id⟩
  | draw d => exact ⟨hs, fun id => by cases otx <;> exact hc id⟩
  | commit q tx hq hcompat hIq hcond =>
    obtain ⟨hwfq, _, hq⟩ := hI q _ hIq
    have hcommit : (⟨none, s.commit q tx⟩ : Conn T).Obeys t L := fun id => by
      simpa using hq id
    refine ⟨hcommit, fun id => ?_⟩
    cases otx with
    | none => exact hcommit id
    | some tx₀ =>
      have hw₀ := hwf.2 tx₀ rfl
      by_cases ho : tx₀.Owns ⟨t, id⟩
      · -- an owned row: the commit neither wrote it nor left an event about it
        have hno := (hcompat tx₀ rfl).not_owns ho
        have hstore : (tx.view s.store).get t id = s.store.get t id :=
          (hwfq.2 tx rfl).view_get s.store hno
        have hget := tx₀.view_get_congr t id hstore
        have hnoted : noted tx.notes (⟨t, id⟩ : Key T) = [] := (hwfq.2 tx rfl).noted_eq_nil hno
        simpa [hget, hnoted] using hc id
      · -- another row: the connection sees it as committed
        have hget := hw₀.view_get (tx.view s.store) ho
        have hnoted : noted tx₀.notes (⟨t, id⟩ : Key T) = [] := hw₀.noted_eq_nil ho
        simpa [hget, hnoted] using hcommit id

/-- **A row law holds in every reachable configuration.** -/
theorem reachable (law : RowLaw t L) {prog : Req → Prog T ε ρ} {cond : Nat → Conn T → Prop}
    {s₀ : Server T} (h₀ : s₀.Wf) (hL : ∀ id, L id (s₀.store.get t id) (history s₀.log ⟨t, id⟩))
    {C : Config T ε ρ Req} (h : ReachableIf prog cond s₀ C) (p : Nat) :
    (C.conn p).Lawful t L := by
  have hinit : (⟨none, s₀⟩ : Conn T).Obeys t L := fun id => by
    simpa using hL id
  refine (local_invariant (fun _ c => c.Wf ∧ c.Lawful t L)
    (fun _ => ⟨⟨h₀, fun _ h => by cases h⟩, hinit, hinit⟩) ?_ ?_ h p).2
  · intro p a c hc _
    exact ⟨hc.1.effect (a.step_effect p c), law.effect hc.1 hc.2 (a.step_effect p c)⟩
  · intro p c c' hc hi
    exact ⟨hc.1.interferes (fun _ _ h => h.1) hi, interferes hc.1 hc.2 (fun _ _ h => h) hi⟩

end RowLaw

end ReadCommitted

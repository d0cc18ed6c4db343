import ArcAdmin.ReadCommitted.Duties
import ArcAdmin.ReadCommitted.Fate
import ArcAdmin.ReadCommitted.Script
import ArcAdmin.ReadCommitted.Sweep
import ArcAdmin.Proofs.Logins
import ArcAdmin.Proofs.Outside
import ArcAdmin.Sample

/-!
# Recovery codes

`replace_recovery_codes` deletes the codes of a user and inserts ten new ones. Codes that another
transaction commits between the snapshot of the `DELETE` and the end of the transaction are neither
deleted nor noticed. If there are none, then all codes of the user that are committed when the
transaction commits were in the snapshot, so they have been deleted, and only the new ones remain.

* **`ReplacesAlone`** — nobody has committed other codes of the user in between;
* **`NewCodes`** — what a transaction knows of the codes of a user once it has deleted the old ones;
* **`requests_replace`** — every request owes that of each user whose codes it changes, and has swept the
  codes of that user before;
* **`recoveryCodes_replaced`** — in runs whose replacements are alone, the stored codes of a user are
  those of the latest replacement, and there are at most ten.
-/

namespace ArcAdmin

open ReadCommitted
open Prog.All

/-! ## Stored codes

A code is issued to a user when its row is inserted; the event of the insertion names the user,
and the moment of the `DELETE` before it.
-/

/-- The recovery codes of a user that are stored, used or not. -/
def codesOf (s : Store Table) (userId : Nat) : List Nat :=
  ((s.rows .userMfaRecoveryCodes).filter fun e => e.2.userId == userId).map (·.1)

theorem mem_codesOf {s : Store Table} {userId id : Nat} :
    id ∈ codesOf s userId ↔
      ∃ row : RecoveryCodeRow, s.get .userMfaRecoveryCodes id = some row ∧ row.userId = userId := by
  constructor
  · intro h
    obtain ⟨e, he, rfl⟩ := List.mem_map.1 h
    obtain ⟨hrow, huser⟩ := List.mem_filter.1 he
    exact ⟨e.2, Store.mem_rows.1 hrow, eq_of_beq huser⟩
  · rintro ⟨row, hrow, huser⟩
    refine List.mem_map.2 ⟨(id, row), List.mem_filter.2 ⟨Store.mem_rows.2 hrow, ?_⟩, rfl⟩
    simpa using huser

theorem codesOf_nodup (s : Store Table) (userId : Nat) : (codesOf s userId).Nodup := by
  have hsub := (List.filter_sublist (l := s.rows .userMfaRecoveryCodes)
    (p := fun e => e.2.userId == userId)).map Prod.fst
  exact (Store.rows_keys_nodup s .userMfaRecoveryCodes).sublist hsub

/-- Whose recovery code has been issued, and how much of the journal had been written when the codes
before it were deleted. -/
def Event.issued? : Event → Option (Nat × Nat)
  | .recoveryCodeIssued userId clearedAsOf => some (userId, clearedAsOf)
  | _ => none

/-- **Nobody else has committed recovery codes of a user** to whom the transaction issues some, since the
snapshot of the `DELETE` that cleared the codes of that user. -/
def ReplacesAlone (c : Conn Table) : Prop :=
  ∀ n ∈ c.notes, ∀ i ∈ n.2.issued?.toList, ∀ e ∈ c.server.log.drop i.2,
    ∀ j ∈ e.ev.issued?.toList, j.1 ≠ i.1

instance : DecidablePred ReplacesAlone := fun c => by
  unfold ReplacesAlone
  infer_instance

/-- How recovery codes come to be stored: they are issued to a user, and stay with that user. -/
def codeBirths : Origin (T := Table) .userMfaRecoveryCodes where
  later r₀ r := RecoveryCodeRow.userId r = RecoveryCodeRow.userId r₀
  refl _ := rfl
  trans h h' := h'.trans h
  born r e := ∃ a, e = .recoveryCodeIssued (RecoveryCodeRow.userId r) a
  born_later := by
    rintro r₀ r _ hlater ⟨a, rfl⟩
    exact ⟨a, by rw [hlater]⟩
  step := by
    intro id old new evs hok
    cases old with
    | none =>
      obtain ⟨⟨a, hevs⟩, _⟩ : recoveryCodeProtocol none (some new) evs := hok
      exact .inr ⟨_, by rw [hevs]; exact List.mem_singleton_self _, a, rfl⟩
    | some r =>
      obtain ⟨_, _, _, huser, _⟩ : recoveryCodeProtocol (some r) (some new) evs := hok
      exact .inl ⟨r, rfl, huser⟩

/-- The recovery codes of a user. -/
def codesPart (userId : Nat) : Part codeBirths where
  Has _ r := RecoveryCodeRow.userId r = userId
  has_of_later hlater h := hlater.symm.trans h

/-! ## What a replacement knows

Of the codes of the user that are locked, only those remain that the transaction has inserted.
-/

/-- **Of the codes of the user that the transaction has locked, only `ins` are left**, and those it
has inserted itself. -/
structure NewCodes (userId : Nat) (ins : List Nat) (c : Conn Table) : Prop where
  owned : c.Owned .userMfaRecoveryCodes fun id v =>
    ∀ r : RecoveryCodeRow, v = some r → r.userId = userId → id ∈ ins
  inserted : ∀ id ∈ ins, c.Owns ⟨.userMfaRecoveryCodes, id⟩ ∧
    c.server.store.get .userMfaRecoveryCodes id = none

/-- What a transaction that replaces codes owes: the codes that it leaves are new ones, and not too
many. -/
def Replaced (c : Conn Table) (userId : Nat) : Prop :=
  ∃ ins : List Nat, ins.length ≤ Services.Mfa.recoveryCodeCount ∧ NewCodes userId ins c

/-- The transaction has issued a recovery code to the user. -/
def Issued (c : Conn Table) (userId clearedAsOf : Nat) : Prop :=
  ∃ id : Nat, c.Notes ⟨.userMfaRecoveryCodes, id⟩ (.recoveryCodeIssued userId clearedAsOf)

/-- The transaction has changed which recovery codes of the user are stored. -/
def ChangesCodes (c : Conn Table) (userId : Nat) : Prop :=
  ∃ id, ¬(id ∈ codesOf c.view userId ↔ id ∈ codesOf c.server.store userId)

/-- Every transaction owes it of the users to whom it issues codes, and it changes the codes of no
others. -/
def codesContract : Contract Table where
  base _ c := c.Wf ∧ c.Accounted codeBirths
  inv _ := True
  guar _ c := (∀ u a, Issued c u a → c.Swept (codesPart u) a ∧ Replaced c u) ∧
    ∀ u, ChangesCodes c u → ∃ a, Issued c u a

theorem codesContract_wf : codesContract.WellFormed := fun _ _ h => h.1

theorem codesContract_accounts : codesContract.Accounts codeBirths := fun _ _ h => h.2

section Codes

variable {p u : Nat} {ins : List Nat} {c c' : Conn Table} {env : External}
  {config : AuthSessionConfig}

theorem NewCodes.sameTable (hs : SameTable .userMfaRecoveryCodes c c') (h : NewCodes u ins c) :
    NewCodes u ins c' := by
  refine ⟨h.owned.sameTable hs, fun id hid => ?_⟩
  rw [hs.owns (id : Nat), hs.store]
  exact h.inserted id hid

theorem stable_newCodes : (codesContract.judge p).Stable (NewCodes u ins) := by
  intro c c' hr h
  refine ⟨Contract.stable_ownedRows codesContract_wf c c' hr h.owned, fun id hid => ?_⟩
  obtain ⟨hown, hnone⟩ := h.inserted id hid
  refine ⟨hr.2.2.2.2.owns hown, ?_⟩
  rw [(hr.2.2.2.2.get_of_owns codesContract_wf.commits hown).1]
  exact hnone

/-- **`DELETE`**: no locked code of the user is left. -/
theorem clearRecoveryCodes_newCodes (W : Nat → Option RecoveryCodeRow → Prop) :
    Triple (codesContract.judge p) p (fun c => c.Owned .userMfaRecoveryCodes W)
      ((Repositories.Mfa.clearRecoveryCodesStmt u).exec : Db _) fun _ => NewCodes u [] := by
  have hclear : Triple (codesContract.judge p) p (fun c => c.Owned .userMfaRecoveryCodes W)
      ((Repositories.Mfa.clearRecoveryCodesStmt u).exec : Db _) fun _ c =>
        c.Owned .userMfaRecoveryCodes fun id v =>
          ∀ r : RecoveryCodeRow, v = some r → r.userId = u → id ∈ ([] : List Nat) := by
    refine Triple.clear (t := Table.userMfaRecoveryCodes) codesContract_wf
      (fun _ (row : RecoveryCodeRow) => row.userId == u) (fun _ => rfl) (fun _ _ _ _ => rfl) ?_ ?_
    · intro id v _ hgone r hr huser
      have hne := hgone r hr
      simp [huser] at hne
    · intro id r v _ hgone r' hr' huser
      have hne := hgone r' hr'
      simp [huser] at hne
  exact hclear.post fun _ c hc => ⟨hc, fun id hid => by cases hid⟩

/-- **`INSERT`**: one more new code. -/
theorem addRecoveryCode_newCodes (codeHash : String) (clearedAsOf : Nat) :
    Triple (codesContract.judge p) p (NewCodes u ins)
      (Repositories.Mfa.addRecoveryCode u codeHash clearedAsOf)
      fun _ c => ∃ n, NewCodes u (ins ++ [n]) c := by
  have hsome : (codesContract.judge p).Stable fun c => ∃ n, NewCodes u (ins ++ [n]) c :=
    .exists fun _ => stable_newCodes
  refine (Triple.outside stable_newCodes (fun _ _ hs h => h.sameTable hs)
    query_outside).bind fun s => ?_
  have hinsert : Triple (codesContract.judge p) p (NewCodes u ins)
      ((Repositories.Mfa.addRecoveryCodeStmt s u codeHash clearedAsOf).exec
        (dbError .uniqueViolation))
      fun _ c => ∃ n, NewCodes u (ins ++ [n]) c := by
    refine Triple.insert stable_newCodes (fun _ => hsome) fun tx s' hb hc _ => ⟨s'.seq, ?_, ?_⟩
    · refine Conn.Owned.write hc.owned (fun id _ v hv r hr huser => ?_) fun _ _ _ => ?_
      · exact List.mem_append_left _ (hv r hr huser)
      · exact List.mem_append_right _ (List.mem_singleton_self _)
    · intro id hid
      rcases List.mem_append.1 hid with hin | hlast
      · obtain ⟨⟨tx', htx', hown⟩, hnone⟩ := hc.inserted id hin
        cases htx'
        exact ⟨⟨_, rfl, hown.write⟩, hnone⟩
      · have heq : id = s'.seq := List.mem_singleton.1 hlast
        subst heq
        refine ⟨⟨_, rfl, tx.owns_write .userMfaRecoveryCodes s'.seq _ _ rfl⟩, ?_⟩
        -- the number has not been drawn before
        cases hr : s'.store.get .userMfaRecoveryCodes s'.seq with
        | none => rfl
        | some r =>
          have hwf : (⟨some tx, s'⟩ : Conn Table).Wf := hb.1.1
          have hlt := hwf.1.store_drawn .userMfaRecoveryCodes s'.seq r hr s'.seq rfl
          exact absurd hlt (Nat.lt_irrefl _)
  refine hinsert.bind fun _ => ?_
  refine Triple.outside (t := Table.userMfaRecoveryCodes) hsome (fun _ _ hs h => ?_)
    (references_outside (by decide) _ _ _)
  obtain ⟨n, hn⟩ := h
  exact ⟨n, hn.sameTable hs⟩

theorem stampRecoveryCodes_outside :
    ((Repositories.Mfa.stampRecoveryCodesStmt u).exec : Db _).All
      (Act.Outside .userMfaRecoveryCodes) := by
  have hne : Table.userMfaSettings ≠ .userMfaRecoveryCodes := by decide
  exact Prog.All.update (fun _ _ => hne) trivial

/-- **The codes of the user have been replaced.** -/
theorem replaceRecoveryCodes_newCodes (W : Nat → Option RecoveryCodeRow → Prop)
    (hashes : List String) :
    Triple (codesContract.judge p) p (fun c => c.Owned .userMfaRecoveryCodes W)
      (Repositories.Mfa.replaceRecoveryCodes u hashes)
      fun _ c => ∃ ins : List Nat, ins.length = hashes.length ∧ NewCodes u ins c := by
  let I (done : List String) (c : Conn Table) : Prop :=
    ∃ ins : List Nat, ins.length = done.length ∧ NewCodes u ins c
  have hst : ∀ done, (codesContract.judge p).Stable (I done) := fun _ =>
    .exists fun _ => (Judge.Stable.const _).and stable_newCodes
  have hclear : Triple (codesContract.judge p) p (fun c => c.Owned .userMfaRecoveryCodes W)
      ((Repositories.Mfa.clearRecoveryCodesStmt u).exec : Db _) fun _ => I [] :=
    (clearRecoveryCodes_newCodes W).post fun _ c hc => ⟨[], rfl, hc⟩
  refine Triple.queryThen hclear fun s => ?_
  refine (Triple.forEachDone (I := I) hst (fun done hash _ => ?_) []).bind fun _ => ?_
  · refine Triple.ofExists fun ins => Triple.assuming fun hlen => ?_
    refine (addRecoveryCode_newCodes hash _).post fun _ c ⟨n, hn⟩ => ⟨ins ++ [n], ?_, hn⟩
    simp [hlen]
  · refine (Triple.outside (hst _) (fun _ _ hs h => ?_) stampRecoveryCodes_outside).bind fun _ =>
      Triple.ret (hst _) fun _ _ hc => hc
    obtain ⟨ins, hlen, hnew⟩ := h
    exact ⟨ins, hlen, hnew.sameTable hs⟩

/-! ## Whose codes are issued

A transaction replaces the codes of one user, and those of the others stay.
-/

/-- Any change that issues no code, and removes none. -/
def noNewCodes : Change Table
  | .userMfaRecoveryCodes, _, old, new, evs =>
    (old.isSome ∧ new.isSome) ∧ ∀ e ∈ evs, Event.issued? e = none
  | _, _, _, _, _ => True

/-- Any change that issues codes to nobody but the user, and removes codes of nobody else. -/
def codesFor (userId clearedAsOf : Nat) : Change Table
  | .userMfaRecoveryCodes, _, old, new, evs =>
    (new = none → ∀ r : RecoveryCodeRow, old = some r → r.userId = userId) ∧
      ∀ e ∈ evs, ∀ i, Event.issued? e = some i → i = (userId, clearedAsOf)
  | _, _, _, _, _ => True

variable {a : Nat}

theorem free_noNewCodes {t : Table} (ht : t ≠ .userMfaRecoveryCodes) : Free noNewCodes t := by
  intro id old new evs
  cases t <;> trivial

theorem free_codesFor {t : Table} (ht : t ≠ .userMfaRecoveryCodes) : Free (codesFor u a) t := by
  intro id old new evs
  cases t <;> trivial

/-- A code is still stored, and it stays with its owner. -/
def Stays (_ : Nat) (old new : Option RecoveryCodeRow) : Prop :=
  ∀ r, old = some r → ∃ r', new = some r' ∧ r'.userId = r.userId

/-- No code has been issued, and none has been removed. -/
structure Untouched (c : Conn Table) : Prop where
  issues : ∀ u a, ¬Issued c u a
  kept : c.RowRel .userMfaRecoveryCodes Stays

/-- A code stays with its owner, unless the user was the owner. -/
def StaysOr (u : Nat) (_ : Nat) (old new : Option RecoveryCodeRow) : Prop :=
  ∀ r, old = some r → (new = none → r.userId = u) ∧ ∀ r', new = some r' → r'.userId = r.userId

/-- Codes have been issued to nobody but the user, and removed of nobody else. -/
structure OnlyOf (u a : Nat) (c : Conn Table) : Prop where
  issues : ∀ u' a', Issued c u' a' → u' = u ∧ a' = a
  removed : c.RowRel .userMfaRecoveryCodes (StaysOr u)

/-- What statements note about the codes, they note about changes. -/
theorem Issued.framed {φ : Change Table} {a : Nat} (hf : Framed φ c c') (h : Issued c' u a) :
    Issued c u a ∨ ∃ (id : Nat) (old new : Option RecoveryCodeRow) (evs : List Event),
      φ .userMfaRecoveryCodes id old new evs ∧ .recoveryCodeIssued u a ∈ evs := by
  obtain ⟨id, hid⟩ := h
  rcases hid.of_framed hf with hold | ⟨old, new, evs, hchange, hmem⟩
  · exact .inl ⟨id, hold⟩
  · exact .inr ⟨id, old, new, evs, hchange, hmem⟩

theorem issued_noted {e : Event} {a : Nat} : Issued (c.noted e) u a ↔ Issued c u a := by
  unfold Issued
  simp only [Conn.notes_noted]

theorem Untouched.framed (hf : Framed noNewCodes c c') (h : Untouched c) : Untouched c' := by
  refine ⟨fun u a hissued => ?_, ?_⟩
  · rcases hissued.framed hf with hold | ⟨id, old, new, evs, hchange, hmem⟩
    · exact h.issues u a hold
    · have hno : Event.issued? (.recoveryCodeIssued u a) = none := hchange.2 _ hmem
      cases hno
  · refine RowRel.framed (fun id old v v' evs hchange hok hold r hr => ?_) h.kept hf
    obtain ⟨r₀, rfl, huser₀⟩ := hold r hr
    obtain ⟨r', rfl⟩ := Option.isSome_iff_exists.1 hchange.1.2
    obtain ⟨_, _, _, huser, _⟩ : recoveryCodeProtocol (some r₀) (some r') evs := hok
    exact ⟨r', rfl, huser.trans huser₀⟩

theorem OnlyOf.framed {a : Nat} (hf : Framed (codesFor u a) c c') (h : OnlyOf u a c) :
    OnlyOf u a c' := by
  refine ⟨fun u' a' hissued => ?_, ?_⟩
  · rcases hissued.framed hf with hold | ⟨id, old, new, evs, hchange, hmem⟩
    · exact h.issues u' a' hold
    · have heq : (u', a') = (u, a) := hchange.2 _ hmem (u', a') rfl
      injection heq with hu ha
      exact ⟨hu, ha⟩
  · refine RowRel.framed (fun id old v v' evs hchange hok hold r hr => ?_) h.removed hf
    obtain ⟨hgone, hsame⟩ := hold r hr
    cases v with
    | none =>
      refine ⟨fun _ => hgone rfl, fun r' hr' => ?_⟩
      -- a code that the transaction inserts is the user's
      subst hr'
      obtain ⟨⟨a', hevs⟩, _⟩ : recoveryCodeProtocol none (some r') evs := hok
      have heq : (r'.userId, a') = (u, a) := hchange.2 _ (by
        rw [hevs]
        exact List.mem_singleton_self _) _ rfl
      injection heq with hu _
      rw [hu, hgone rfl]
    | some r₀ =>
      refine ⟨fun hnone => ?_, fun r' hr' => ?_⟩
      · rw [← hsame r₀ rfl]
        exact hchange.1 hnone r₀ rfl
      · subst hr'
        obtain ⟨_, _, _, huser, _⟩ : recoveryCodeProtocol (some r₀) (some r') evs := hok
        exact huser.trans (hsame r₀ rfl)


theorem issued_aside {a : Nat} (hs : Aside .userMfaRecoveryCodes c c') :
    Issued c' u a ↔ Issued c u a := by
  refine exists_congr fun id => ?_
  unfold Conn.Notes
  rw [← mem_noted, ← mem_noted, hs.noted]

theorem stable_issued (P : (Nat → Nat → Prop) → Prop) :
    (codesContract.judge p).Stable fun c => P (Issued c) := by
  intro c c' hr hc
  have hsame : Issued c' = Issued c := by
    unfold Issued Conn.Notes Conn.notes
    rw [Contract.private_judge c c' hr]
  rw [hsame]
  exact hc

theorem stable_untouched : (codesContract.judge p).Stable Untouched := by
  intro c c' hr h
  refine ⟨stable_issued (fun issued => ∀ u a, ¬issued u a) c c' hr h.issues, ?_⟩
  exact Contract.stable_rowRel codesContract_wf (fun _ v r hr => ⟨r, hr, rfl⟩) c c' hr h.kept

theorem stable_onlyOf : (codesContract.judge p).Stable (OnlyOf u a) := by
  intro c c' hr h
  refine ⟨stable_issued (fun issued => ∀ u' a', issued u' a' → u' = u ∧ a' = a) c c' hr h.issues, ?_⟩
  refine Contract.stable_rowRel codesContract_wf (fun _ v r hr => ⟨fun hnone => ?_, fun r' hr' => ?_⟩)
    c c' hr h.removed
  · rw [hr] at hnone
    cases hnone
  · rw [hr] at hr'
    cases hr'
    rfl

theorem Untouched.of_clean (h : c.Clean) : Untouched c := by
  refine ⟨fun u a hissued => ?_, RowRel.of_view_eq (fun _ v r hr => ⟨r, hr, rfl⟩) fun id => ?_⟩
  · obtain ⟨id, hid⟩ := hissued
    unfold Conn.Notes at hid
    rw [h.notes] at hid
    cases hid
  · rw [h.view_eq]

theorem Untouched.onlyOf (h : Untouched c) : OnlyOf u a c := by
  refine ⟨fun u' a' hissued => absurd hissued (h.issues u' a'), fun id r hr => ?_⟩
  obtain ⟨r₀, hr₀, huser⟩ := h.kept id r hr
  refine ⟨fun hnone => ?_, fun r' hr' => ?_⟩
  · rw [hr₀] at hnone
    cases hnone
  · rw [hr₀] at hr'
    cases hr'
    exact huser

/-- **A user whose codes have changed** is one to whom codes were issued, or one whose codes were
removed. -/
theorem ChangesCodes.cases (hacc : c.Accounted codeBirths) (h : ChangesCodes c u) :
    (∃ a, Issued c u a) ∨ ∃ (id : Nat) (r : RecoveryCodeRow),
      c.server.store.get .userMfaRecoveryCodes id = some r ∧ r.userId = u ∧
        ∀ r' : RecoveryCodeRow, c.view.get .userMfaRecoveryCodes id = some r' → r'.userId ≠ u := by
  obtain ⟨id, hchange⟩ := h
  by_cases hview : id ∈ codesOf c.view u
  · -- a code that was not the user's before
    obtain ⟨r, hr, huser⟩ := mem_codesOf.1 hview
    refine .inl ?_
    rcases hacc id r hr with ⟨r₀, hr₀, hlater⟩ | ⟨_, he, a, rfl⟩
    · have hlater' : r.userId = RecoveryCodeRow.userId r₀ := hlater
      have hstored : id ∈ codesOf c.server.store u :=
        mem_codesOf.2 ⟨r₀, hr₀, hlater'.symm.trans huser⟩
      exact absurd (iff_of_true hview hstored) hchange
    · rw [huser] at he
      exact ⟨a, id, mem_noted.1 he⟩
  · have hstored : id ∈ codesOf c.server.store u := by
      by_contra hno
      exact hchange (iff_of_false hview hno)
    obtain ⟨r, hr, huser⟩ := mem_codesOf.1 hstored
    exact .inr ⟨id, r, hr, huser, fun r' hr' huser' => hview (mem_codesOf.2 ⟨r', hr', huser'⟩)⟩

/-- A transaction that has not touched codes owes nothing. -/
theorem Untouched.guar (hb : (codesContract.judge p).base c) (h : Untouched c) :
    (codesContract.judge p).guar c := by
  refine ⟨⟨fun u a hissued => absurd hissued (h.issues u a), fun u hchange => ?_⟩, fun _ _ => trivial⟩
  rcases hchange.cases hb.1.2 with hissued | ⟨id, r, hr, huser, hgone⟩
  · exact hissued
  · obtain ⟨r', hr', huser'⟩ := h.kept id r hr
    exact absurd (huser'.trans huser) (hgone r' hr')

/-- Whatever issues no code, and removes none, is carried past. -/
theorem carried_untouched : Carried (codesContract.judge p) noNewCodes Untouched where
  stable := stable_untouched
  frame _ _ hf h := h.framed hf
  clean _ h := .of_clean h
  note _ e _ h := ⟨fun u a hissued => h.issues u a (issued_noted.1 hissued), RowRel.noted h.kept e⟩
  guar _ hb h := h.guar hb

/-- Statements outside a transaction that replaces. -/
theorem besideReplacing {α : Type} {m : Db α} (hm : m.All (Act.Steps noNewCodes)) :
    Triple (codesContract.judge p) p Untouched m fun _ => Untouched :=
  Triple.speaks carried_untouched (steps_tells hm)

/-! ## Transactions that replace

From the `DELETE` to the commit, with what has been swept.
-/

/-- **A transaction that has replaced the codes of the user**: it has swept them, and it has issued new
ones, to nobody else. -/
structure ReplacingAt (u a : Nat) (c : Conn Table) : Prop where
  swept : c.Swept (codesPart u) a
  onlyOf : OnlyOf u a c
  issued : Issued c u a
  replaced : Replaced c u

def Replacing (u : Nat) (c : Conn Table) : Prop := ∃ a, ReplacingAt u a c

theorem stable_replacing : (codesContract.judge p).Stable (Replacing u) := by
  rintro c c' hr ⟨a, h⟩
  refine ⟨a, ?_, stable_onlyOf c c' hr h.onlyOf, ?_, ?_⟩
  · exact Contract.stable_swept codesContract_accounts a c c' hr h.swept
  · exact stable_issued (fun issued => issued u a) c c' hr h.issued
  · obtain ⟨ins, hlen, hnew⟩ := h.replaced
    exact ⟨ins, hlen, stable_newCodes c c' hr hnew⟩

theorem Replacing.aside (hs : Aside .userMfaRecoveryCodes c c') (h : Replacing u c) :
    Replacing u c' := by
  obtain ⟨a, h⟩ := h
  refine ⟨a, Conn.SweptBut.aside hs h.swept, ⟨fun u' a' hissued => ?_, fun id => ?_⟩, ?_, ?_⟩
  · exact h.onlyOf.issues u' a' ((issued_aside hs).1 hissued)
  · rw [hs.store, hs.view id]
    exact h.onlyOf.removed id
  · exact (issued_aside hs).2 h.issued
  · obtain ⟨ins, hlen, hnew⟩ := h.replaced
    exact ⟨ins, hlen, hnew.sameTable hs.toSameTable⟩

/-- Statements after the replacement. -/
theorem afterReplacing {α : Type} {m : Db α} (hm : m.All (Act.Outside .userMfaRecoveryCodes)) :
    Triple (codesContract.judge p) p (Replacing u) m fun _ => Replacing u :=
  Triple.aside stable_replacing (fun _ _ hs h => h.aside hs) hm

/-- A code that has been inserted has been issued. -/
theorem addRecoveryCode_issued (codeHash : String) (clearedAsOf : Nat) :
    Triple (codesContract.judge p) p (fun _ => True)
      (Repositories.Mfa.addRecoveryCode u codeHash clearedAsOf)
      fun _ c => Issued c u clearedAsOf := by
  have htrue : (codesContract.judge p).Stable fun _ => True := Judge.Stable.const True
  have hissued : (codesContract.judge p).Stable fun c => Issued c u clearedAsOf :=
    stable_issued fun issued => issued u clearedAsOf
  refine (Triple.within (P := fun _ => True) htrue (fun _ _ _ _ => trivial)
    (query_within (φ := anything))).bind fun s => ?_
  refine Triple.bind (R := fun _ c => Issued c u clearedAsOf) ?_ fun _ =>
    Triple.aside hissued (fun _ _ hs h => (issued_aside hs).2 h)
      (references_outside (by decide) _ _ _)
  refine Triple.insert htrue (fun _ => hissued) fun tx s' _ _ _ => ⟨s'.seq, ?_⟩
  exact List.mem_append_right _ (List.mem_singleton_self _)

/-- What is done after the snapshot of the `DELETE` concerns the user only. -/
theorem clearRecoveryCodes_codesFor (s : Snap) :
    ((Repositories.Mfa.clearRecoveryCodesStmt u).execOn s : Db _).All
      (Act.Within (codesFor u a)) := by
  refine Prog.All.deleteOn fun id r hr => ⟨fun _ r' hr' => ?_, fun e he => by cases he⟩
  cases hr'
  exact eq_of_beq hr

theorem addRecoveryCode_codesFor (hash : String) :
    (Repositories.Mfa.addRecoveryCode u hash a).All (Act.Within (codesFor u a)) := by
  refine .bind query_within fun s => .bind (Prog.All.insert fun n => ⟨fun h => (by cases h), ?_⟩)
    fun _ => references_within _ _ _
  intro e he i hi
  rw [List.mem_singleton.1 he] at hi
  exact (Option.some.inj hi).symm

/-- **All codes of the user that the `DELETE` could see** are locked in the end, and codes have been
issued to nobody else. -/
theorem replaceRecoveryCodes_sweeps {hashes : List String} (hne : hashes ≠ []) :
    Triple (codesContract.judge p) p Untouched (Repositories.Mfa.replaceRecoveryCodes u hashes)
      fun _ c => ∃ a, c.Swept (codesPart u) a ∧ OnlyOf u a c ∧ Issued c u a := by
  have hquery : Triple (codesContract.judge p) p Untouched (query : Db Snap)
      fun s c => c.Sweeping (codesPart u) s [] ∧ OnlyOf u s.asOf c := by
    refine ((Triple.startSweep codesContract_wf codesContract_accounts (codesPart u)).and
      (besideReplacing (within_steps query_within))).conseq
      (fun _ hc => ⟨trivial, hc⟩) fun _ _ hc => ⟨hc.1, hc.2.onlyOf⟩
  refine hquery.bind fun s => ?_
  have honly : ∀ {α : Type} {m : Db α}, m.All (Act.Within (codesFor u s.asOf)) →
      Triple (codesContract.judge p) p (OnlyOf u s.asOf) m fun _ => OnlyOf u s.asOf := fun hm =>
    Triple.within stable_onlyOf (fun _ _ hf h => h.framed hf) hm
  have hdelete : Triple (codesContract.judge p) p (fun c => c.Sweeping (codesPart u) s [])
      ((Repositories.Mfa.clearRecoveryCodesStmt u).execOn s : Db _)
      fun _ c => c.Swept (codesPart u) s.asOf :=
    Triple.sweepDelete codesContract_wf codesContract_accounts
      (fun _ r hr => beq_iff_eq.2 hr) fun _ _ _ _ _ => rfl
  refine (hdelete.and (honly (clearRecoveryCodes_codesFor s))).bind fun _ => ?_
  -- from here on rows are inserted, and the settings of the user are stamped
  have hstamp : ((Repositories.Mfa.stampRecoveryCodesStmt u).exec : Db _).All
      (Act.Within (codesFor u s.asOf)) :=
    Prog.All.update (fun _ _ _ _ => free_codesFor (by decide) _ _ _ _) trivial
  have hkeep : ∀ {α : Type} {m : Db α}, m.All (Act.Within (codesFor u s.asOf)) →
      Triple (codesContract.judge p) p
        (fun c => c.Swept (codesPart u) s.asOf ∧ OnlyOf u s.asOf c) m
        fun _ c => c.Swept (codesPart u) s.asOf ∧ OnlyOf u s.asOf c := fun hm =>
    (Triple.keepSwept codesContract_accounts (hm.mono fun _ ha => ha.mono
      fun _ _ _ _ _ _ => trivial)).and (honly hm)
  have hloop : Triple (codesContract.judge p) p (fun _ => True)
      (Prog.forEach hashes fun hash => Repositories.Mfa.addRecoveryCode u hash s.asOf)
      fun _ c => Issued c u s.asOf := by
    have hst : ∀ done : List String, (codesContract.judge p).Stable fun c =>
        done ≠ [] → Issued c u s.asOf := fun done =>
      stable_issued fun issued => done ≠ [] → issued u s.asOf
    refine ((Triple.forEachDone (I := fun done c => done ≠ [] → Issued c u s.asOf) hst
      (fun done hash _ => ?_) []).conseq (fun _ _ h => absurd rfl h) fun _ c hc => hc ?_)
    · exact (addRecoveryCode_issued hash s.asOf).conseq (fun _ _ => trivial) fun _ _ hc _ => hc
    · exact hne
  refine (((hkeep (Prog.All.forEach fun hash => addRecoveryCode_codesFor hash)).and hloop).pre
    fun _ hc => ⟨hc, trivial⟩).bind fun _ => ?_
  have hissued : Triple (codesContract.judge p) p (fun c => Issued c u s.asOf)
      ((Repositories.Mfa.stampRecoveryCodesStmt u).exec : Db _) fun _ c => Issued c u s.asOf :=
    Triple.aside (stable_issued fun issued => issued u s.asOf)
      (fun _ _ hs h => (issued_aside hs).2 h) stampRecoveryCodes_outside
  refine ((hkeep hstamp).and hissued).bind fun _ => Triple.ret ?_ fun c _ hc =>
    ⟨s.asOf, hc.1.1, hc.1.2, hc.2⟩
  exact ((Contract.stable_swept codesContract_accounts _).and stable_onlyOf).and
    (stable_issued fun issued => issued u s.asOf)

/-- **The replacement.** -/
theorem replaceRecoveryCodes_replacing {hashes : List String}
    (hlen : hashes.length = Services.Mfa.recoveryCodeCount) :
    Triple (codesContract.judge p) p Untouched (Repositories.Mfa.replaceRecoveryCodes u hashes)
      fun _ => Replacing u := by
  have hne : hashes ≠ [] := by
    rintro rfl
    cases hlen
  refine ((replaceRecoveryCodes_newCodes (fun _ _ => True) hashes).and
    (replaceRecoveryCodes_sweeps hne)).conseq (fun _ hc => ⟨fun _ _ => trivial, hc⟩) ?_
  rintro _ c ⟨⟨ins, hins, hcodes⟩, a, hswept, honly, hissued⟩
  exact ⟨a, hswept, honly, hissued, ins, by omega, hcodes⟩

/-- What a transaction that has replaced codes has done of what it owes. -/
theorem Replacing.guar (hb : (codesContract.judge p).base c) (h : Replacing u c) :
    (codesContract.judge p).guar c := by
  obtain ⟨a, h⟩ := h
  refine ⟨⟨fun u' a' hissued => ?_, fun u' hchange => ?_⟩, fun _ _ => trivial⟩
  · obtain ⟨rfl, rfl⟩ := h.onlyOf.issues u' a' hissued
    exact ⟨h.swept, h.replaced⟩
  · rcases hchange.cases hb.1.2 with hissued | ⟨id, r, hr, rfl, hgone⟩
    · exact hissued
    · -- a code has been removed, so it was a code of the user
      obtain ⟨hremoved, hkept⟩ := h.onlyOf.removed id r hr
      have hnone : c.view.get .userMfaRecoveryCodes id = none := by
        cases hview : c.view.get .userMfaRecoveryCodes id with
        | none => rfl
        | some r' => exact absurd (hkept r' hview) (hgone r' hview)
      rw [hremoved hnone]
      exact ⟨a, h.issued⟩

/-- **A transaction that has replaced codes may commit.** -/
theorem commitReplacing :
    Triple (codesContract.judge p) p (Replacing u) (commitTx : Db Unit) fun _ => Untouched :=
  (Triple.commitTx Contract.private_judge stable_replacing fun _ hb hc => hc.guar hb).post
    fun _ _ htx => .of_clean (.inl htx)

/-! ## Requests

Two requests replace codes: the regeneration, and the enrolment of TOTP.
-/

theorem ordinary_noCodes : Ordinary noNewCodes :=
  .of_free fun t ht => free_noNewCodes (by
    rintro rfl
    revert ht
    decide)

theorem admits_noCodes (userId : Nat) (completed : Option (Nat × Factor)) :
    Admits env noNewCodes userId completed :=
  admits_of_free (free_noNewCodes (by decide)) userId completed

/-- Outside a replacement. -/
theorem codeLogins : Logins env config (codesContract.judge p) p noNewCodes Untouched
    fun _ _ => True :=
  Carried.logins carried_untouched ordinary_noCodes fun _ _ _ => admits_noCodes _ _

/-- A successful traversal has one result for each element. -/
theorem length_of_mapM {α β ε : Type} {f : α → Except ε β} {as : List α} {bs : List β}
    (h : as.mapM f = .ok bs) : bs.length = as.length := by
  induction as generalizing bs with
  | nil =>
    cases h
    rfl
  | cons a as ih =>
    rw [List.mapM_cons] at h
    cases hb : f a with
    | error e =>
      rw [hb] at h
      cases h
    | ok b =>
      cases hbs : as.mapM f with
      | error e =>
        rw [hb, hbs] at h
        cases h
      | ok bs' =>
        rw [hb, hbs] at h
        cases h
        simp [ih hbs]


theorem generateRecoveryCodes_length :
    Triple (codesContract.judge p) p Untouched (Services.Mfa.generateRecoveryCodes env)
      fun codes c => codes.length = Services.Mfa.recoveryCodeCount ∧ Untouched c := by
  refine (besideReplacing (within_steps fresh_within)).bind fun n => Triple.ret stable_untouched fun _ _ hc => ⟨?_, hc⟩
  rw [List.length_map, List.length_range]

theorem hashRecoveryCodes_length (codes : List String) :
    Triple (codesContract.judge p) p Untouched (Services.Mfa.hashRecoveryCodes env codes)
      fun hashes c => hashes.length = codes.length ∧ Untouched c := by
  refine (besideReplacing (within_steps fresh_within)).bind fun n => ?_
  refine (Triple.okOrThrow stable_untouched).post fun hashes c hc => ⟨?_, hc.2⟩
  rw [length_of_mapM hc.1, List.length_zipIdx]

/-- **`regenerate_recovery_codes`.** -/
theorem regenerateRecoveryCodes_replaces (userId : Nat) (req : MfaFactorRevokeRequest) :
    Triple (codesContract.judge p) p Untouched
      (Services.Mfa.regenerateRecoveryCodes env userId req) fun _ => Untouched := by
  refine (besideReplacing (Services.Mfa.verifyPasswordAndTotp_steps ordinary_noCodes _ _ _)).bind
    fun _ => ?_
  refine generateRecoveryCodes_length.bind fun codes => Triple.assuming fun hcodes => ?_
  refine (hashRecoveryCodes_length codes).bind fun hashes => Triple.assuming fun hhashes => ?_
  refine (besideReplacing begin_steps).bind fun _ => ?_
  refine (replaceRecoveryCodes_replacing (hhashes.trans hcodes)).bind fun _ => ?_
  refine (afterReplacing (Repositories.AuthSessions.revokeAllForUser_outside (by decide) _)).bind
    fun revoked => ?_
  refine (afterReplacing (Services.Auth.recordSessionRevocation_outside (by decide) _ _ _ _)).bind
    fun _ => ?_
  refine (afterReplacing (Repositories.AuditLogs.record_outside (by decide) _ _ _ _ _)).bind
    fun _ => ?_
  exact commitReplacing.bind fun _ => besideReplacing .ret

/-- **`verify_totp_enrollment`.** -/
theorem verifyTotpEnrollment_replaces (challengeToken code : String) :
    Triple (codesContract.judge p) p Untouched
      (Services.Mfa.verifyTotpEnrollment env config challengeToken code) fun _ => Untouched := by
  have L : Logins env config (codesContract.judge p) p noNewCodes Untouched fun _ _ => True :=
    codeLogins
  have hchallenges : Free noNewCodes .authMfaChallenges := free_noNewCodes (by decide)
  refine (L.quiet begin_steps).bind fun _ => ?_
  refine (L.within (Services.Mfa.lockChallenge_within _ _)).bind fun _ => ?_
  refine (L.within (all_okOrThrow _)).bind fun _ => ?_
  refine (L.within (all_okOr _ _)).bind fun _ => ?_
  refine ((L.checkCode _ _ _).post fun _ _ hc => hc.1).bind fun r => ?_
  obtain ⟨user, counter⟩ := r
  cases counter with
  | none => exact L.quiet (Services.Mfa.failChallenge_steps ordinary_noCodes hchallenges.alters _ _)
  | some counter =>
    refine (L.quiet rollback_steps).bind fun _ => ?_
    refine generateRecoveryCodes_length.bind fun codes => Triple.assuming fun hcodes => ?_
    refine (hashRecoveryCodes_length codes).bind fun hashes => Triple.assuming fun hhashes => ?_
    -- the transaction that enrolls
    refine (L.quiet begin_steps).bind fun _ => ?_
    refine (L.within (Services.Mfa.lockChallenge_within _ _)).bind fun challenge => ?_
    refine (L.within (all_okOrThrow _)).bind fun _ => ?_
    refine (L.within (Repositories.Mfa.enableTotp_within
      (fun _ _ _ => free_noNewCodes (by decide) _ _ _ _) _ _)).bind fun _ => ?_
    refine (replaceRecoveryCodes_replacing (hhashes.trans hcodes)).bind fun _ => ?_
    refine (afterReplacing (Repositories.Mfa.consumeChallenge_outside (by decide) _ _)).bind
      fun _ => ?_
    refine (afterReplacing (Repositories.AuditLogs.record_outside (by decide) _ _ _ _ _)).bind
      fun _ => ?_
    refine commitReplacing.bind fun _ => ?_
    exact ((L.openSession _ trivial _ _).pre fun _ hc => ⟨hc, trivial⟩).bind fun _ => L.within .ret

/-- **Every request owes what a replacement owes.** -/
theorem requests_replace (env : External) (config : AuthSessionConfig) {s₀ : Server Table}
    (h₀ : s₀.Wf) : codesContract.Kept (serve env config) s₀ fun _ _ _ _ => True where
  base _ hC p := ⟨hC.wf h₀ p, codeBirths.reachable h₀ hC p⟩
  init := trivial
  advance _ _ _ _ := trivial
  prog p req := by
    have L : Logins env config (codesContract.judge p) p noNewCodes Untouched fun _ _ => True :=
      codeLogins
    have hfree : ∀ t : Table, t ≠ .userMfaRecoveryCodes → Free noNewCodes t := fun _ ht =>
      free_noNewCodes ht
    have hserve : Triple (codesContract.judge p) p Untouched (serve env config req)
        fun _ => Untouched := by
      by_cases hissues : req.issuesCodes = false
      · refine L.serve ordinary_noCodes req (Request.permitted (fun t ht => hfree t ?_)
          (fun _ _ => hfree _ (by decide) _ _ _ _) (fun _ => hfree _ (by decide))
          (fun _ _ _ => ⟨⟨rfl, rfl⟩, fun e he => ?_⟩) (hfree _ (by decide)).alters
          (fun _ => hfree _ (by decide))
          (fun hi => absurd (hi.symm.trans hissues) (by decide)) fun _ _ _ _ => ?_)
          (fun _ _ => trivial) fun _ _ => trivial
        · rintro rfl
          revert ht
          decide
        · rw [List.mem_singleton.1 he]
          rfl
        · exact hfree _ (by decide) _ _ _ _
      · cases req with
        | verifyTotp req =>
          refine Triple.bind ?_ fun _ => L.within .ret
          refine (L.within (Repositories.Mfa.challengeKind_within _)).bind fun _ => ?_
          refine (L.within (all_okOr _ _)).bind fun kind => ?_
          split
          · exact verifyTotpEnrollment_replaces _ _
          · exact L.verifyTotpLogin ordinary_noCodes (hfree _ (by decide)).alters
              (fun _ _ => trivial) _ _
        | regenerateRecoveryCodes parts req =>
          refine (L.quiet (authenticate_steps ordinary_noCodes _)).bind fun _ => ?_
          exact (regenerateRecoveryCodes_replaces _ _).bind fun _ => L.within .ret
        | _ => exact absurd rfl hissues
    exact hserve.conseq (fun c hc => .of_clean (.inl hc)) fun _ _ _ => trivial

end Codes

/-! ## Runs

What is stored of the user when a replacement commits is what it has inserted, since everything
else was committed before its snapshot and has been deleted.
-/

/-- **What the commit of a replacement makes of the codes of the user**, if nobody else has committed
any: they are new, and not too many. -/
theorem Replaced.codesOf {c : Conn Table} {u a : Nat} (h : Replaced c u) (hwf : c.Wf)
    (hopen : c.tx.isSome) (hswept : c.Swept (codesPart u) a) (hissued : Issued c u a)
    (halone : ReplacesAlone c) :
    (∀ id ∈ codesOf c.view u, c.server.store.get .userMfaRecoveryCodes id = none) ∧
      (ArcAdmin.codesOf c.view u).length ≤ Services.Mfa.recoveryCodeCount := by
  obtain ⟨ins, hlen, hnew⟩ := h
  have hin : ∀ id ∈ ArcAdmin.codesOf c.view u, id ∈ ins := by
    intro id hid
    obtain ⟨row, hrow, huser⟩ := mem_codesOf.1 hid
    refine hnew.owned id (hswept.owns hwf hopen (fun i r hi e he => ?_) hrow huser) row hrow huser
    -- a birth since the snapshot would be that of a code of the user
    rintro ⟨a', rfl⟩
    obtain ⟨entry, hentry, _, hev⟩ := mem_history.1 he
    obtain ⟨n, hn⟩ := hissued
    have hother := halone (some ⟨.userMfaRecoveryCodes, n⟩, .recoveryCodeIssued u a) hn (u, a) (List.mem_singleton_self _) entry
      hentry (RecoveryCodeRow.userId r, a') (by rw [hev]; exact List.mem_singleton_self _)
    exact hother hi
  refine ⟨fun id hid => (hnew.inserted id (hin id hid)).2, ?_⟩
  have hle := (List.subperm_of_subset (codesOf_nodup c.view u) hin).length_le
  omega

section Runs

variable {env : External} {config : AuthSessionConfig} {cond : Nat → Conn Table → Prop}
  {s₀ : Server Table} {C C' : Db.Config}

/-- The step changes which recovery codes of the user are stored: it is the commit of a replacement. -/
def Replaces (C C' : Db.Config) (userId : Nat) : Prop :=
  ∃ id, ¬(id ∈ codesOf C'.server.store userId ↔ id ∈ codesOf C.server.store userId)

/-- Steps among which there is no replacement. -/
abbrev Unreplaced (env : External) (config : AuthSessionConfig) (cond : Nat → Conn Table → Prop)
    (userId : Nat) : Db.Config → Db.Config → Prop :=
  Relation.ReflTransGen fun C C' => Step (serve env config) cond C C' ∧ ¬Replaces C C' userId

/-- **The stored codes of the user come from the latest replacement**: from the step that leads from
`C₁` to `C₂`. -/
def FromLatest (env : External) (config : AuthSessionConfig) (cond : Nat → Conn Table → Prop)
    (s₀ : Server Table) (C : Db.Config) (userId : Nat) : Prop :=
  ∃ C₁ C₂, ReachableIf (serve env config) cond s₀ C₁ ∧ Step (serve env config) cond C₁ C₂ ∧
    Replaces C₁ C₂ userId ∧ Unreplaced env config cond userId C₂ C ∧
    (∀ id ∈ codesOf C.server.store userId, id ∈ codesOf C₂.server.store userId ∧
      C₁.server.store.get .userMfaRecoveryCodes id = none) ∧
    (codesOf C.server.store userId).length ≤ Services.Mfa.recoveryCodeCount

/-- **Regenerating replaces the whole set**, where replacements do not overlap: in every run of all
requests in which, between the snapshot of the `DELETE` of a replacement and its commit, nobody else
commits recovery codes of that user, the stored codes of a user, used or not, are the initial ones as
long as nobody has replaced them, and from then on those that the latest replacement has inserted,
`RECOVERY_CODE_COUNT` at most. -/
theorem recoveryCodes_replaced (env : External) (config : AuthSessionConfig) (h₀ : s₀.Wf)
    (hC : ReachableIf (serve env config) (fun _ c => ReplacesAlone c) s₀ C) (userId : Nat) :
    (Unreplaced env config (fun _ c => ReplacesAlone c) userId (Config.idle s₀) C ∧
        ∀ id, id ∈ codesOf C.server.store userId ↔ id ∈ codesOf s₀.store userId) ∨
      FromLatest env config (fun _ c => ReplacesAlone c) s₀ C userId := by
  induction hC with
  | refl => exact .inl ⟨.refl, fun _ => Iff.rfl⟩
  | @tail C C' hreach hstep ih =>
    by_cases hrep : Replaces C C' userId
    · -- the latest replacement is this one
      refine .inr ⟨C, C', hreach, hstep, hrep, .refl, ?_⟩
      rcases Contract.guar_of_step (requests_replace env config h₀)
        (ReachableIf.reachable hreach) hstep with
        ⟨hstore, _⟩ | ⟨p, tx, _, hserver, ⟨⟨hwf, _⟩, howes, hchanges⟩, halone⟩
      · obtain ⟨id, hid⟩ := hrep
        rw [hstore] at hid
        exact absurd Iff.rfl hid
      · have hchange : ChangesCodes ⟨some tx, C.server⟩ userId := by
          obtain ⟨id, hid⟩ := hrep
          rw [hserver] at hid
          exact ⟨id, hid⟩
        obtain ⟨a, hissued⟩ := hchanges userId hchange
        obtain ⟨hswept, hreplaced⟩ := howes userId a hissued
        obtain ⟨hfresh, hlen⟩ := hreplaced.codesOf hwf rfl hswept hissued halone
        rw [hserver]
        exact ⟨fun id hid => ⟨hid, hfresh id hid⟩, hlen⟩
    · have hsame : ∀ id, id ∈ codesOf C'.server.store userId ↔ id ∈ codesOf C.server.store userId := by
        intro id
        by_contra hid
        exact hrep ⟨id, hid⟩
      rcases ih with ⟨hquiet, hinit⟩ | ⟨C₁, C₂, hC₁, hlatest, hrep', hquiet, hcodes, hlen⟩
      · exact .inl ⟨hquiet.tail ⟨hstep, hrep⟩, fun id => (hsame id).trans (hinit id)⟩
      · refine .inr ⟨C₁, C₂, hC₁, hlatest, hrep', hquiet.tail ⟨hstep, hrep⟩,
          fun id hid => hcodes id ((hsame id).1 hid), ?_⟩
        have hle := (List.subperm_of_subset (codesOf_nodup C'.server.store userId) fun id hid =>
          (hsame id).1 hid).length_le
        omega

end Runs

/-! ### Two regenerations

One after the other, and one during the other.
-/

/-- `agent` logs in, and asks for new recovery codes. -/
def agentLogin : List (Cue Request) :=
  [.start (Sample.login "agent"), .run 0 100, .start (Sample.verifyTotp 20), .run 1 200]

def regenerate : Request :=
  .regenerateRecoveryCodes (Sample.parts 23 0) ⟨"old password of agent", "000000"⟩

/-- One request. -/
def oneRegeneration : Stage Table ApiError Reply Request :=
  Stage.afterIf (fun _ c => ReplacesAlone c) (serve Sample.external Sample.config)
    Sample.server (agentLogin ++ [.start regenerate, .run 2 200])

/-- The first request has inserted ten codes. -/
theorem oneRegeneration_codes :
    codesOf oneRegeneration.server.store 13 = [36, 35, 34, 33, 32, 31, 30, 29, 28, 27] := by
  decide +kernel

/-- The first request has ended all sessions of `agent`, who logs in again, and asks for new codes once
more. -/
def nextRegeneration : Stage Table ApiError Reply Request :=
  Stage.afterIf (fun _ c => ReplacesAlone c) (serve Sample.external Sample.config)
    Sample.server (agentLogin ++ [.start regenerate, .run 2 200, .wait (20 * second),
      .start (Sample.login "agent"), .run 3 100, .start (Sample.verifyTotp 39), .run 4 200,
      .start (.regenerateRecoveryCodes (Sample.parts 42 0) ⟨"old password of agent", "000000"⟩),
      .run 5 200])

theorem nextRegeneration_codes :
    codesOf nextRegeneration.server.store 13 = [55, 54, 53, 52, 51, 50, 49, 48, 47, 46] := by
  decide +kernel

/-- The second request has replaced the codes of the first one. -/
theorem recoveryCodes_replaced_sample :
    codesOf oneRegeneration.config.server.store 13 = [36, 35, 34, 33, 32, 31, 30, 29, 28, 27] ∧
      codesOf nextRegeneration.config.server.store 13 =
        [55, 54, 53, 52, 51, 50, 49, 48, 47, 46] ∧
      FromLatest Sample.external Sample.config (fun _ c => ReplacesAlone c) Sample.server
        nextRegeneration.config 13 := by
  have hreach : ReachableIf (serve Sample.external Sample.config) (fun _ c => ReplacesAlone c)
      Sample.server nextRegeneration.config := Stage.reachable_afterIf _ _ _ _
  rw [Stage.server_config, Stage.server_config]
  refine ⟨oneRegeneration_codes, nextRegeneration_codes, ?_⟩
  rcases recoveryCodes_replaced Sample.external Sample.config Sample.server_wf hreach 13 with
    ⟨_, hinit⟩ | hlatest
  · have hnone : codesOf Sample.server.store 13 = [] := by decide
    have hstored : 55 ∈ codesOf nextRegeneration.config.server.store 13 := by
      rw [Stage.server_config, nextRegeneration_codes]
      exact List.mem_cons_self
    have hin := (hinit 55).1 hstored
    rw [hnone] at hin
    cases hin
  · exact hlatest

/-- Two requests, the second of which runs through while the first is between its `DELETE` and its
first `INSERT`. -/
def twoRegenerations : Stage Table ApiError Reply Request :=
  Stage.after (serve Sample.external Sample.config) Sample.server
    (agentLogin ++ [.start regenerate, .run 2 16, .wait (20 * second), .start regenerate,
      .run 3 200, .run 2 200])

theorem twoRegenerations_codes : (codesOf twoRegenerations.server.store 13).length = 20 := by
  decide +kernel

/-- Twenty codes are left. -/
theorem recoveryCodes_mixed :
    ∃ C : Db.Config, Reachable (serve Sample.external Sample.config) Sample.server C ∧
      ¬((Unreplaced Sample.external Sample.config (fun _ _ => True) 13 (Config.idle Sample.server) C ∧
            ∀ id, id ∈ codesOf C.server.store 13 ↔ id ∈ codesOf Sample.server.store 13) ∨
          FromLatest Sample.external Sample.config (fun _ _ => True) Sample.server C 13) := by
  have hreach : Reachable (serve Sample.external Sample.config) Sample.server
      twoRegenerations.config := Stage.reachable_after _ _ _
  refine ⟨_, hreach, ?_⟩
  have hcount : (codesOf twoRegenerations.config.server.store 13).length = 20 := by
    rw [Stage.server_config]
    exact twoRegenerations_codes
  rintro (⟨_, hinit⟩ | ⟨_, _, _, _, _, _, _, hlen⟩)
  · have hle := (List.subperm_of_subset (codesOf_nodup _ 13) fun id hid => (hinit id).1 hid).length_le
    have hnone : codesOf Sample.server.store 13 = [] := by decide
    rw [hnone, hcount] at hle
    cases hle
  · have hten : Services.Mfa.recoveryCodeCount = 10 := rfl
    omega

end ArcAdmin

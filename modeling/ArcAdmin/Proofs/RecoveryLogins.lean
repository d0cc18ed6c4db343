import ArcAdmin.Proofs.Logins
import ArcAdmin.Proofs.RecoveryCodes
import ArcAdmin.ReadCommitted.Duties

/-!
# Logins with recovery codes

A recovery code leaves an event about its row when it is issued and another one when it is used, and the
login that it is used for leaves one of its own. The use and the login are committed together, so whoever
has logged in with a code has used it up, whatever runs at the same time.

* **`rowLaw_code`** — a code is issued once and used at most once;
* **`Backed`** — a transaction that logs in with a code has used it;
* **`requests_spendCodes`** — every transaction that commits is backed;
* **`recoveryCode_spent`** — one code, one login, which is committed together with the use of the code.
-/

namespace ArcAdmin

open ReadCommitted
open Prog.All

/-! ## The life of a recovery code

The row protocol lets a code be used once. Its deletion leaves no trace, so the journal keeps what
has happened before.
-/

/-- A recovery code is issued once and then used at most once, as its row tells. Its deletion leaves no
event, so what has happened to it stays known. -/
def codeLaw (_ : Nat) (row : Option RecoveryCodeRow) (past : List Event) : Prop :=
  (past = [] ∧ row = none) ∨ ∃ userId clearedAsOf,
    (past = [.recoveryCodeIssued userId clearedAsOf] ∧ ∀ r, row = some r → r.usedAt.isSome = false) ∨
      (past = [.recoveryCodeIssued userId clearedAsOf, .recoveryCodeUsed] ∧
        ∀ r, row = some r → r.usedAt.isSome = true)

/-- A row that is gone leaves nothing to be said about it. -/
theorem codeLaw.gone {id : Nat} {row : Option RecoveryCodeRow} {past : List Event}
    (h : codeLaw id row past) : codeLaw id none past := by
  rcases h with ⟨hpast, _⟩ | ⟨u, a, hpast⟩
  · exact .inl ⟨hpast, rfl⟩
  · refine .inr ⟨u, a, hpast.imp (fun h => ⟨h.1, fun r hr => ?_⟩) fun h => ⟨h.1, fun r hr => ?_⟩⟩
    · cases hr
    · cases hr

theorem rowLaw_code : RowLaw (T := Table) .userMfaRecoveryCodes codeLaw where
  step id old new evs notes hok hfresh hlaw := by
    have hprotocol : recoveryCodeProtocol old new notes := hok
    cases new with
    | none =>
      -- a code that is replaced leaves no event
      have hnotes : notes = [] := by cases old <;> exact hprotocol
      rw [hnotes, List.append_nil]
      exact hlaw.gone
    | some row =>
      cases old with
      | none =>
        -- issued, and not used
        obtain ⟨⟨a, hnotes⟩, hunused⟩ := hprotocol
        have hpast : evs = [] := hfresh rfl rfl
        refine .inr ⟨row.userId, a, .inl ⟨?_, fun r hr => ?_⟩⟩
        · rw [hpast, hnotes]
          rfl
        · cases hr
          rw [hunused]
          rfl
      | some before =>
        -- used, for the first time
        obtain ⟨hnotes, hunused, hused, _⟩ := hprotocol
        rcases hlaw with ⟨_, hnone⟩ | ⟨u, a, ⟨hpast, _⟩ | ⟨_, hwas⟩⟩
        · cases hnone
        · refine .inr ⟨u, a, .inr ⟨?_, fun r hr => ?_⟩⟩
          · rw [hpast, hnotes]
            rfl
          · cases hr
            exact hused
        · have hbefore := hwas before rfl
          rw [hunused] at hbefore
          cases hbefore

/-- The code has been used at most once. -/
theorem codeLaw.uses {id : Nat} {row : Option RecoveryCodeRow} {past : List Event}
    (h : codeLaw id row past) : (past.filter fun e => e == .recoveryCodeUsed).length ≤ 1 := by
  rcases h with ⟨rfl, _⟩ | ⟨u, a, ⟨rfl, _⟩ | ⟨rfl, _⟩⟩ <;> simp

/-- As long as it is stored, the row tells whether it has been used. -/
theorem codeLaw.isUsed {id : Nat} {r : RecoveryCodeRow} {past : List Event}
    (h : codeLaw id (some r) past) : r.usedAt.isSome = true ↔ .recoveryCodeUsed ∈ past := by
  rcases h with ⟨_, hnone⟩ | ⟨u, a, ⟨rfl, hunused⟩ | ⟨rfl, hused⟩⟩
  · cases hnone
  · simp [hunused r rfl]
  · simp [hused r rfl]

/-! ## Using up a code

The use of the code and the login are noted by the same transaction, in this order.
-/

/-- The program has logged a user in with that code. -/
def RecoveredWith (log : List (Entry Table)) (p code : Nat) : Prop :=
  ∃ userId asOf, (⟨p, none, .recoveryLogin userId code asOf⟩ : Entry Table) ∈ log

/-- Whoever has logged in with a code has used it up. -/
def CodesSpent (log : List (Entry Table)) : Prop :=
  ∀ p code, RecoveredWith log p code →
    Logged log p ⟨.userMfaRecoveryCodes, code⟩ .recoveryCodeUsed

/-- **A transaction that logs in with a code** has used it. -/
def Backed (c : Conn Table) : Prop :=
  ∀ userId code asOf, ((none : Option (Key Table)), Event.recoveryLogin userId code asOf) ∈ c.notes →
    c.Notes ⟨.userMfaRecoveryCodes, code⟩ .recoveryCodeUsed

/-- **What its commit adds to the journal** contains the use of every code that it logs in with. -/
theorem Backed.spends {tx : Tx Table} {s : Server Table} (h : Backed ⟨some tx, s⟩) (p : Nat) :
    CodesSpent (tx.notes.map fun n => ⟨p, n.1, n.2⟩) := by
  rintro q code ⟨userId, asOf, hmem⟩
  obtain ⟨n, hn, heq⟩ := List.mem_map.1 hmem
  injection heq with hpid hkey hev
  have hnote : (none, Event.recoveryLogin userId code asOf) ∈ tx.notes := by
    rw [← hkey, ← hev]
    exact hn
  rw [← hpid]
  exact List.mem_map.2 ⟨_, h userId code asOf hnote, rfl⟩

/-- What holds of two parts of the journal holds of the whole. -/
theorem CodesSpent.append {log log' : List (Entry Table)} (h : CodesSpent log)
    (h' : CodesSpent log') : CodesSpent (log ++ log') := by
  rintro p code ⟨userId, asOf, hmem⟩
  rcases List.mem_append.1 hmem with hold | hnew
  · exact List.mem_append_left _ (h p code ⟨userId, asOf, hold⟩)
  · exact List.mem_append_right _ (h' p code ⟨userId, asOf, hnew⟩)

def recoveryContract : Contract Table where
  base _ c := c.Wf
  inv s := CodesSpent s.log
  guar _ c := Backed c

/-- Every event but a login with a recovery code. -/
def NoRecovery (e : Event) : Prop := ∀ userId code asOf, e ≠ .recoveryLogin userId code asOf

section Contract

variable {p : Nat} {c : Conn Table} {env : External} {config : AuthSessionConfig} {code : Nat}

theorem backed_stable : (recoveryContract.judge p).Stable Backed := by
  intro c c' hr hc
  have htx : c'.tx = c.tx := hr.2.2.2.2.tx_eq
  intro userId code asOf hmem
  unfold Conn.Notes
  rw [Conn.notes, htx] at hmem ⊢
  exact hc userId code asOf hmem

theorem backed_of_clean (h : c.Clean) : Backed c := by
  intro userId code asOf hmem
  rw [h.notes] at hmem
  cases hmem

/-- Statements note changes of rows, and log nobody in. -/
theorem backed_frameClosed : FrameClosed anything Backed := by
  intro c c' hf hc userId code asOf hmem
  refine Conn.Notes.framed (hc userId code asOf ?_) hf
  rcases hf.tx with ⟨hnone, hnone'⟩ | ⟨tx, tx', htx, htx', _, _, ns, hns, hall⟩
  · simpa only [Conn.notes, hnone, hnone'] using hmem
  · simp only [Conn.notes, htx, htx', hns] at hmem ⊢
    rcases List.mem_append.1 hmem with hold | hnew
    · exact hold
    · obtain ⟨k, hk, _⟩ := hall _ hnew
      cases hk

/-- The transaction has left that event of its own. -/
theorem own_noted {e e' : Event} (h : (none, e) ∈ (c.noted e').notes) :
    (none, e) ∈ c.notes ∨ e = e' := by
  obtain ⟨otx, s⟩ := c
  cases otx with
  | none => cases h
  | some tx =>
    rcases List.mem_append.1 h with hold | hnew
    · exact .inl hold
    · exact .inr (congrArg Prod.snd (List.mem_singleton.1 hnew))

/-- **Whatever logs nobody in with a recovery code** is carried past. -/
theorem carried_backed : Carried (recoveryContract.judge p) anything Backed NoRecovery where
  stable := backed_stable
  frame := backed_frameClosed
  clean _ h := backed_of_clean h
  note c e he hc userId code asOf hmem := by
    rcases own_noted hmem with hold | hnew
    · exact Conn.notes_noted.2 (hc userId code asOf hold)
    · exact absurd hnew.symm (he userId code asOf)
  guar c hb hc := by
    refine ⟨hc, fun tx htx => ?_⟩
    obtain ⟨otx, s⟩ := c
    cases htx
    show CodesSpent (s.commit p tx).log
    rw [Server.commit_log]
    exact hb.2.append (hc.spends p)

theorem recoveryLogins : Logins env config (recoveryContract.judge p) p anything Backed
    (fun _ _ => True) NoRecovery :=
  Carried.logins carried_backed ordinary_anything fun _ _ _ => fun _ _ _ _ _ _ => trivial

/-- The code has been used in this transaction. -/
def Spends (code : Nat) (c : Conn Table) : Prop :=
  Backed c ∧ c.Notes ⟨.userMfaRecoveryCodes, code⟩ .recoveryCodeUsed

theorem spends_stable : (recoveryContract.judge p).Stable (Spends code) :=
  backed_stable.and (Conn.Notes.stable Contract.private_judge _ _)

/-- Statements between the use of a code and the commit. -/
theorem spendsWithin {α : Type} {m : Db α} (hm : m.All (Act.Within anything)) :
    Triple (recoveryContract.judge p) p (Spends code) m fun _ => Spends code :=
  Triple.within spends_stable
    (fun c c' hf hc => ⟨backed_frameClosed c c' hf hc.1, hc.2.framed hf⟩) hm

/-- **`consume_recovery_code`**: if it returns `true`, the code has been used. -/
theorem consumeRecoveryCode_spends (userId id : Nat) :
    Triple (recoveryContract.judge p) p Backed (Repositories.Mfa.consumeRecoveryCode userId id)
      fun consumed c => Backed c ∧ (consumed = true → Spends id c) := by
  have hprivate : (recoveryContract.judge p).Private := Contract.private_judge
  have hpost : ∀ q : Prop, (recoveryContract.judge p).Stable fun c => Backed c ∧ (q → Spends id c) :=
    fun q => backed_stable.and fun c c' hr hc hq => spends_stable c c' hr (hc hq)
  have hexec : Triple (recoveryContract.judge p) p Backed
      ((Repositories.Mfa.consumeRecoveryCodeStmt userId id).exec : Db _)
      fun rows c => Backed c ∧ (rows ≠ [] → Spends id c) := by
    refine (Triple.updateNoting hprivate backed_stable backed_frameClosed
      (u := Repositories.Mfa.consumeRecoveryCodeStmt userId id) fun _ _ _ _ => trivial).post
      fun rows c hc => ⟨hc.1, fun hrows => ⟨hc.1, ?_⟩⟩
    obtain ⟨s, i, r, hcond, hnotes⟩ := hc.2 hrows
    have hid : i = id := by
      simp only [Repositories.Mfa.consumeRecoveryCodeStmt, Bool.and_eq_true, beq_iff_eq] at hcond
      exact hcond.1.1
    subst hid
    exact hnotes _ (List.mem_singleton_self _)
  refine hexec.bind fun rows => Triple.ret (hpost _) fun c _ hc => ⟨hc.1, fun h => hc.2 ?_⟩
  rintro rfl
  cases h

/-- The code that `spendRecoveryCode` returns has been used. -/
theorem spendRecoveryCode_spends (userId : Nat) (matchingId : Option Nat) :
    Triple (recoveryContract.judge p) p Backed
      (Services.Mfa.spendRecoveryCode userId matchingId) fun consumed c =>
        Backed c ∧ ∀ code, consumed = some code → Spends code c := by
  cases matchingId with
  | none => exact Triple.ret backed_stable fun c _ hc => ⟨hc, fun code hcode => by cases hcode⟩
  | some id =>
    refine (consumeRecoveryCode_spends userId id).bind fun consumed => Triple.ret ?_
      fun c _ hc => ⟨hc.1, fun code hcode => ?_⟩
    · exact backed_stable.and fun c c' hr hc hq => spends_stable c c' hr (hc hq)
    · cases consumed with
      | false => cases hcode
      | true =>
        cases hcode
        exact hc.2 rfl

/-- **The login is noted** after its code has been used. -/
theorem noteLogin_spends (userId asOf : Nat) :
    Triple (recoveryContract.judge p) p (Spends code)
      (noteEvent (.recoveryLogin userId code asOf) : Db Unit) fun _ => Spends code := by
  refine Triple.noteEvent spends_stable spends_stable fun c _ hc => ?_
  have hused : (c.noted (.recoveryLogin userId code asOf)).Notes ⟨.userMfaRecoveryCodes, code⟩
      .recoveryCodeUsed := Conn.notes_noted.2 hc.2
  refine ⟨fun userId' code' asOf' hmem => ?_, hused⟩
  rcases own_noted hmem with hold | hnew
  · exact Conn.notes_noted.2 (hc.1 userId' code' asOf' hold)
  · injection hnew with _ hcode _
    rw [hcode]
    exact hused

/-- **`verify_recovery_login`.** -/
theorem verifyRecoveryLogin_backed (challengeToken recoveryCode : String) :
    Triple (recoveryContract.judge p) p Backed
      (Services.Mfa.verifyRecoveryLogin env config challengeToken recoveryCode)
      fun _ => Backed := by
  have h : Ordinary anything := ordinary_anything
  have L : Logins env config (recoveryContract.judge p) p anything Backed (fun _ _ => True)
    NoRecovery := recoveryLogins
  have hchallenges : Alters anything Table.authMfaChallenges := free_anything.alters
  refine (L.within (Repositories.Mfa.challenge_within _ _)).bind fun _ => ?_
  refine (L.within (all_okOr _ _)).bind fun _ => ?_
  refine (L.within (Repositories.Mfa.recoveryCodes_within _)).bind fun _ => ?_
  refine (L.within (all_okOrThrow _)).bind fun _ => ?_
  refine (L.quiet begin_steps).bind fun _ => ?_
  refine (L.within (Services.Mfa.lockChallenge_within _ _)).bind fun challenge => ?_
  refine (spendRecoveryCode_spends _ _).bind fun consumed => ?_
  cases consumed with
  | none =>
    exact (L.quiet (Services.Mfa.failChallenge_steps h hchallenges _ _)).pre fun _ hc => hc.1
  | some code =>
    refine Triple.pre (P := Spends code) ?_ fun c hc => hc.2 code rfl
    refine (spendsWithin (all_okOrThrow _)).bind fun login => ?_
    refine (spendsWithin (Repositories.Mfa.consumeChallenge_within hchallenges _ _)).bind
      fun _ => ?_
    refine (spendsWithin (Repositories.AuthSessions.revokeAllForUser_within h.sessions _)).bind
      fun revoked => ?_
    refine (noteLogin_spends _ _).bind fun _ => ?_
    refine (spendsWithin (Services.Auth.recordSessionRevocation_within h.auditLogs _ _ _ _)).bind
      fun _ => ?_
    refine (spendsWithin (Repositories.AuditLogs.record_within h.auditLogs _ _ _ _ _)).bind
      fun _ => ?_
    refine ((L.quiet commit_steps).pre fun _ hc => hc.1).bind fun _ => ?_
    refine (L.findById _).bind fun _ => L.found.bind fun user => ?_
    exact L.openSession _ trivial _ _

/-- Only `verify_recovery_login` logs in with a recovery code. -/
theorem Request.Notes.noRecovery {req : Request} {e : Event} (h : req.Notes e)
    (hreq : ∀ r, req ≠ .verifyRecoveryCode r) : NoRecovery e := by
  rintro userId code asOf rfl
  cases req with
  | verifyRecoveryCode r => exact hreq r rfl
  | _ => exact h

/-- **Every request** logs in with a code only if it uses the code up. -/
theorem requests_spendCodes (env : External) (config : AuthSessionConfig) {s₀ : Server Table}
    (h₀ : s₀.Wf) (hlog : s₀.log = []) :
    recoveryContract.Kept (serve env config) s₀ fun _ _ _ _ => True where
  base _ hC p := hC.wf h₀ p
  init := by
    rintro q code ⟨userId, asOf, hmem⟩
    rw [hlog] at hmem
    cases hmem
  advance _ _ _ h := h
  prog p req := by
    have L : Logins env config (recoveryContract.judge p) p anything Backed (fun _ _ => True)
      NoRecovery := recoveryLogins
    have hothers : ∀ req : Request, (∀ r, req ≠ .verifyRecoveryCode r) →
        Triple (recoveryContract.judge p) p Backed (serve env config req) fun _ => Backed :=
      fun req hreq => L.serve ordinary_anything req
        (Request.permitted_of_free (fun _ _ => free_anything) free_anything.alters fun _ =>
          free_anything) (fun _ he => he.noRecovery hreq) fun _ _ => trivial
    have hserve : Triple (recoveryContract.judge p) p Backed (serve env config req)
        fun _ => Backed := by
      cases req with
      | verifyRecoveryCode req =>
        exact (verifyRecoveryLogin_backed _ _).bind fun _ => L.within .ret
      | _ => exact hothers _ fun _ h => by cases h
    exact hserve.conseq (fun _ hc => backed_of_clean (.inl hc)) fun _ _ _ => trivial

end Contract

/-! ## The main theorem

The use happens once in any run, so it tells which request has logged in with the code.
-/

/-- **The step commits the use of a code together with the login**: what it adds to the journal contains
both or neither. -/
theorem spent_of_step {env : External} {config : AuthSessionConfig} {s₀ : Server Table}
    (h₀ : s₀.Wf) (hlog : s₀.log = []) {C C' : Db.Config} (hC : Reachable (serve env config) s₀ C)
    (hstep : Step (serve env config) (fun _ _ => True) C C') :
    CodesSpent (C'.server.log.drop C.server.log.length) := by
  rcases Contract.guar_of_step (requests_spendCodes env config h₀ hlog) hC hstep with
    ⟨_, hsame⟩ | ⟨p, tx, _, hserver, ⟨_, hbacked⟩, _⟩
  · rw [hsame, List.drop_length]
    rintro p code ⟨userId, asOf, hmem⟩
    cases hmem
  · rw [hserver, Server.commit_log, List.drop_left]
    exact hbacked.spends p

/-- **A recovery code is spent once.** In every interleaving of all requests, a recovery code is used
at most once, as its row tells as long as it is stored. A request that logs a user in with a code has used
it up, and no other request ever logs in with it. The step that commits the login commits the use of the
code too. -/
theorem recoveryCode_spent (env : External) (config : AuthSessionConfig) {s₀ : Server Table}
    (h₀ : s₀.Wf) (hlog : s₀.log = []) (hrows : s₀.store.rows .userMfaRecoveryCodes = [])
    {C : Db.Config} (hC : Reachable (serve env config) s₀ C) (code : Nat) :
    ((history C.server.log ⟨.userMfaRecoveryCodes, code⟩).filter fun e : Event =>
        e == .recoveryCodeUsed).length ≤ 1 ∧
      (∀ row : RecoveryCodeRow, C.server.store.get .userMfaRecoveryCodes code = some row →
        (row.usedAt.isSome = true ↔
          .recoveryCodeUsed ∈ history C.server.log ⟨.userMfaRecoveryCodes, code⟩)) ∧
      (∀ p, RecoveredWith C.server.log p code →
        Logged C.server.log p ⟨.userMfaRecoveryCodes, code⟩ .recoveryCodeUsed ∧
          ∀ q, RecoveredWith C.server.log q code → q = p) ∧
      ∀ C', Step (serve env config) (fun _ _ => True) C C' →
        ∀ p, RecoveredWith (C'.server.log.drop C.server.log.length) p code →
          Logged (C'.server.log.drop C.server.log.length) p ⟨.userMfaRecoveryCodes, code⟩
            .recoveryCodeUsed := by
  have hstart : ∀ id : Nat, codeLaw id (s₀.store.get .userMfaRecoveryCodes id)
      (history s₀.log ⟨.userMfaRecoveryCodes, id⟩) := by
    intro id
    have hnone : s₀.store.get .userMfaRecoveryCodes id = none := Store.get_of_rows_nil hrows id
    rw [hlog, hnone]
    exact .inl ⟨rfl, rfl⟩
  have hlaw : codeLaw code (C.server.store.get .userMfaRecoveryCodes code)
      (history C.server.log ⟨.userMfaRecoveryCodes, code⟩) := by
    have hlawful := (rowLaw_code.reachable h₀ hstart hC 0).1 code
    rw [Conn.history_none] at hlawful
    exact hlawful
  have hspent : CodesSpent C.server.log :=
    (Contract.sound (requests_spendCodes env config h₀ hlog) hC).1
  refine ⟨hlaw.uses, fun row hrow => ?_, fun p hp => ⟨hspent p code hp, fun q hq => ?_⟩,
    fun C' hstep p hp => spent_of_step h₀ hlog hC hstep p code hp⟩
  · rw [hrow] at hlaw
    exact hlaw.isUsed
  · -- two logins would be two uses
    exact (Logged.unique hlaw.uses (hspent q code hq) (hspent p code hp) rfl rfl).1

/-- The event is a login with that code. -/
def Event.recoversWith (code : Nat) : Event → Bool
  | .recoveryLogin _ used _ => used == code
  | _ => false

theorem recoveredWith_of_any {log : List (Entry Table)} {p code : Nat}
    (h : (log.any fun e => e.pid == p && e.key.isNone && Event.recoversWith code e.ev) = true) :
    RecoveredWith log p code := by
  obtain ⟨⟨pid, key, ev⟩, hmem, hgood⟩ := List.any_eq_true.1 h
  simp only [Bool.and_eq_true, beq_iff_eq, Option.isNone_iff_eq_none] at hgood
  obtain ⟨⟨rfl, rfl⟩, hev⟩ := hgood
  cases ev with
  | recoveryLogin userId used asOf =>
    have hused : used = code := eq_of_beq hev
    subst hused
    exact ⟨userId, asOf, hmem⟩
  | _ => cases hev

/-- The sample installation, where every password and every recovery code that is typed is right. -/
def rightPasswords : External := { Sample.external with verifyPassword := fun _ _ => some true }

/-- `agent` has asked for new recovery codes, and is about to commit the login with one of them. -/
def agentRecovering : Stage Table ApiError Reply Request :=
  Stage.after (serve rightPasswords Sample.config) Sample.server
    (agentLogin ++ [.start regenerate, .run 2 200, .start (Sample.login "agent"), .run 3 200,
      .start (.verifyRecoveryCode ⟨Sample.token 39 0, "AAAA-AAAA-AAAA-AAAA-AAAA"⟩), .run 4 15])

def agentRecovered : Stage Table ApiError Reply Request := agentRecovering.next 4

/-- What the commit adds to the journal. -/
def agentRecovery : List (Entry Table) :=
  agentRecovered.server.log.drop agentRecovering.server.log.length

theorem agentRecovery_code : (agentRecovery.any fun e =>
    e.pid == 4 && e.key.isNone && Event.recoversWith 27 e.ev) = true := by
  decide +kernel

theorem agentRecovering_reachable :
    Reachable (serve rightPasswords Sample.config) Sample.server agentRecovering.config :=
  Stage.reachable_after _ _ _

theorem recoveryCode_spent_sample :
    Logged (agentRecovered.config.server.log.drop agentRecovering.config.server.log.length) 4
        ⟨.userMfaRecoveryCodes, (27 : Nat)⟩ .recoveryCodeUsed ∧
      ∀ q, RecoveredWith agentRecovered.config.server.log q 27 → q = 4 := by
  have hnew : RecoveredWith
      (agentRecovered.config.server.log.drop agentRecovering.config.server.log.length) 4 27 := by
    rw [Stage.server_config, Stage.server_config]
    exact recoveredWith_of_any agentRecovery_code
  have hne : agentRecovered ≠ agentRecovering := by
    intro h
    have hany := agentRecovery_code
    rw [agentRecovery, h, List.drop_length] at hany
    cases hany
  have hstep : Step (serve rightPasswords Sample.config) (fun _ _ => True) agentRecovering.config
      agentRecovered.config := Stage.step_next _ _ 4 hne
  have hrecovered : RecoveredWith agentRecovered.config.server.log 4 27 := by
    obtain ⟨userId, asOf, hmem⟩ := hnew
    exact ⟨userId, asOf, List.mem_of_mem_drop hmem⟩
  have hbefore := recoveryCode_spent rightPasswords Sample.config Sample.server_wf rfl (by decide)
    agentRecovering_reachable 27
  have hafter := recoveryCode_spent rightPasswords Sample.config Sample.server_wf rfl (by decide)
    (agentRecovering_reachable.tail hstep) 27
  exact ⟨hbefore.2.2.2 _ hstep 4 hnew, (hafter.2.2.1 4 hrecovered).2⟩

end ArcAdmin

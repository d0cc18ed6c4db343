import ArcAdmin.Schema

/-!
# Re-authentication grants

`repositories/step_up.rs` and `repositories/module_unlock.rs`: single-use tokens for sensitive
requests, and the unlocks of a module for one session.
-/

namespace ArcAdmin.Repositories

open ReadCommitted

namespace StepUp

def createStmt (s : Snap) (tokenHash : Nat → String) (sessionId userId : Nat) (scope : String)
    (expiresAt : Nat) : Insert Table .authStepUpTokens where
  key n := n
  row n :=
    { tokenHash := tokenHash n
      sessionId, userId, scope, expiresAt
      consumedAt := none
      createdAt := s.now }
  evs _ := [.stepUpIssued sessionId userId scope expiresAt]
  hkey _ _ h := (Option.some.inj h).symm
  ok _ := ⟨rfl, rfl⟩

def create (tokenHash : Nat → String) (sessionId userId : Nat) (scope : String)
    (expiresAt : Nat) : Db Nat := do
  let s ← query
  let id ← (createStmt s tokenHash sessionId userId scope expiresAt).exec
    (dbError .uniqueViolation)
  references .authSessions sessionId (fun _ => true) (dbError .foreignKeyViolation)
  references .users userId (fun _ => true) (dbError .foreignKeyViolation)
  return id

def consumeStmt (tokenHash : String) (sessionId userId : Nat) (scope : String) :
    Update Table .authStepUpTokens where
  cond s _ row :=
    row.tokenHash == tokenHash && row.sessionId == sessionId && row.userId == userId &&
      row.scope == scope && row.consumedAt.isNone && s.now < row.expiresAt
  set s row := { row with consumedAt := some s.now }
  evs s row := [.stepUpConsumed row.sessionId row.userId row.scope s.now]
  ok s i row h := by
    obtain ⟨hrow, hexpires⟩ := Bool.and_eq_true_iff.1 h
    have hopen : row.consumedAt = none := by simpa using (Bool.and_eq_true_iff.1 hrow).2
    exact ⟨s.now, rfl, hopen, by simpa using hexpires, rfl⟩

def consume (tokenHash : String) (sessionId userId : Nat) (scope : String) : Db Bool := do
  let rows ← (consumeStmt tokenHash sessionId userId scope).exec
  return rows.length == 1

def pruneStmt : Delete Table .authStepUpTokens where
  cond s _ row := row.expiresAt + day < s.now || row.consumedAt.any fun t => t + day < s.now
  ok _ _ _ _ := rfl

def prune : Db Nat := do
  let gone ← pruneStmt.exec
  return gone.length

end StepUp

namespace ModuleUnlock

def activeExpiresAt (sessionId userId : Nat) (module' : String) : Db (Option Nat) := do
  let s ← poolQuery
  return ((s.store.get .authModuleUnlocks (sessionId, module')).filter
    fun m : ModuleUnlockRow => m.userId == userId && s.now < m.expiresAt).map
      fun m => m.expiresAt

def upsertStmt (s : Snap) (sessionId userId : Nat) (module' : String) (expiresAt : Nat) :
    Upsert Table .authModuleUnlocks where
  id := (sessionId, module')
  row := { userId, issuedAt := s.now, expiresAt }
  set _ := some { userId, issuedAt := s.now, expiresAt }
  hkey := rfl
  okInsert := rfl
  okUpdate _ _ _ := rfl

def upsert (sessionId userId : Nat) (module' : String) (expiresAt : Nat) : Db Unit := do
  let s ← query
  let row ← (upsertStmt s sessionId userId module' expiresAt).exec (dbError .rowNotFound)
  Prog.whenever row.2 do
    references .authSessions sessionId (fun _ => true) (dbError .foreignKeyViolation)
    references .users userId (fun _ => true) (dbError .foreignKeyViolation)

def pruneStmt : Delete Table .authModuleUnlocks where
  cond s _ row := row.expiresAt < s.now
  ok _ _ _ _ := rfl

def prune : Db Nat := do
  let gone ← pruneStmt.exec
  return gone.length

end ModuleUnlock

end ArcAdmin.Repositories

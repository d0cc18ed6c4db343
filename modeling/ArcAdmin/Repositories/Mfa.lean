import ArcAdmin.Repositories.AuthSessions

/-!
# MFA repository

`repositories/mfa.rs`: factors, challenges and recovery codes. `consumeChallenge` is told with
which factor the challenge was answered, for the journal only.
-/

namespace ArcAdmin.Repositories.Mfa

open ReadCommitted

structure MfaSummaryRow where
  required : Bool
  webauthnUserId : Option String
  totpEnabled : Bool
  recoveryCodesRemaining : Nat
  passkeyCount : Nat
deriving DecidableEq, Repr

/-- A challenge as a statement read it. -/
structure Challenge where
  id : Nat
  row : ChallengeRow
deriving DecidableEq, Repr

def summaryOf (s : Snap) (userId : Nat) : MfaSummaryRow where
  required := AuthSessions.holdsSuperAdmin s userId
  webauthnUserId :=
    (s.store.get .userMfaSettings userId).map fun m : MfaSettingsRow => m.webauthnUserId
  totpEnabled := AuthSessions.totpEnabled s userId
  recoveryCodesRemaining := ((s.store.rows .userMfaRecoveryCodes).filter fun e =>
    e.2.userId == userId && e.2.usedAt.isNone).length
  passkeyCount := ((s.store.rows .userPasskeys).filter fun e => e.2.userId == userId).length

def summary (userId : Nat) : Db MfaSummaryRow := do
  let s ← poolQuery
  return summaryOf s userId

def ensureSettingsStmt (s : Snap) (userId : Nat) (webauthnUserId : String) :
    Upsert Table .userMfaSettings where
  id := userId
  row :=
    { webauthnUserId
      totpSecretCiphertext := none
      totpEnabledAt := none
      recoveryCodesIssuedAt := none
      lastReauthTotpCounter := none
      lastReauthTotpUsedAt := none
      createdAt := s.now
      updatedAt := s.now }
  set row := some row
  hkey := rfl
  okInsert := ⟨rfl, rfl, rfl⟩
  okUpdate _ _ h := .inl (by cases h; exact ⟨rfl, rfl, rfl, rfl⟩)

def ensureSettings (userId : Nat) (webauthnUserId : String) : Db String := do
  let s ← query
  let row ← (ensureSettingsStmt s userId webauthnUserId).exec (dbError .rowNotFound)
  Prog.whenever row.2 (references .users userId (fun _ => true) (dbError .foreignKeyViolation))
  return row.1.webauthnUserId

def enableTotpStmt (userId : Nat) (ciphertext : String) : Update Table .userMfaSettings where
  cond _ i _ := i == userId
  set s row :=
    { row with
      totpSecretCiphertext := some ciphertext
      totpEnabledAt := some s.now
      updatedAt := s.now }
  evs _ _ := [.totpEnabled]
  ok _ _ _ _ := .inr (.inl ⟨rfl, rfl, rfl⟩)

def enableTotp (userId : Nat) (ciphertext : String) : Db Unit := do
  let _ ← (enableTotpStmt userId ciphertext).exec

def consumeReauthTotpCounterStmt (userId counter : Nat) : Update Table .userMfaSettings where
  cond _ i row := i == userId && row.lastReauthTotpCounter.all (· < counter)
  set s row :=
    { row with
      lastReauthTotpCounter := some counter
      lastReauthTotpUsedAt := some s.now
      updatedAt := s.now }
  evs _ _ := [.totpReauthenticated counter]
  ok s i row h := by
    refine .inr (.inr ⟨counter, rfl, rfl, rfl, fun last hlast => ?_, rfl⟩)
    have hall := (Bool.and_eq_true_iff.1 h).2
    rw [hlast] at hall
    simpa using hall

def consumeReauthTotpCounter (userId counter : Nat) : Db Bool := do
  let rows ← (consumeReauthTotpCounterStmt userId counter).exec
  return !rows.isEmpty

/-- A challenge that is about to be inserted. -/
structure NewChallenge where
  tokenHash : Nat → String
  userId : Nat
  kind : String
  persistent : Bool
  state : ChallengeState
  expiresAt : Nat
  checkedAt : Nat
  successorOf : Option Nat

def createChallengeStmt (s : Snap) (new : NewChallenge) : Insert Table .authMfaChallenges where
  key n := n
  row n :=
    { tokenHash := new.tokenHash n
      userId := new.userId
      kind := new.kind
      persistent := new.persistent
      state := new.state
      attemptCount := 0
      maxAttempts := 5
      expiresAt := new.expiresAt
      consumedAt := none
      createdAt := s.now
      checkedAt := new.checkedAt }
  evs _ := [.challengeIssued new.userId new.kind new.expiresAt new.successorOf]
  hkey _ _ h := (Option.some.inj h).symm
  ok _ := ⟨rfl, Nat.succ_pos 4, rfl, new.successorOf, rfl⟩

def createChallenge (new : NewChallenge) : Db Nat := do
  let s ← query
  let id ← (createChallengeStmt s new).exec (dbError .uniqueViolation)
  references .users new.userId (fun _ => true) (dbError .foreignKeyViolation)
  return id

def consumeLoginChallengesForUserStmt (userId : Nat) : Update Table .authMfaChallenges where
  cond _ _ row := row.userId == userId && row.consumedAt.isNone && isLoginKind row.kind
  set s row := { row with consumedAt := some s.now }
  evs _ _ := [.challengeSuperseded]
  ok s i row h := by
    have hopen : row.consumedAt = none := by
      simpa using (Bool.and_eq_true_iff.1 (Bool.and_eq_true_iff.1 h).1).2
    exact ⟨rfl, .inr (.inl ⟨rfl, rfl, hopen, rfl⟩)⟩

def consumeLoginChallengesForUser (userId : Nat) : Db Nat := do
  let rows ← (consumeLoginChallengesForUserStmt userId).exec
  return rows.length

/-- The `WHERE` clause of the challenge lookups. -/
def isOpen (s : Snap) (tokenHash : String) (expectedKind : String) (row : ChallengeRow) : Bool :=
  row.tokenHash == tokenHash && row.kind == expectedKind && row.consumedAt.isNone &&
    s.now < row.expiresAt

def challengeForUpdate (tokenHash expectedKind : String) : Db (Option Challenge) := do
  let locked : List (Nat × ChallengeRow) ←
    selectForUpdate Table.authMfaChallenges fun s _ (row : ChallengeRow) =>
      isOpen s tokenHash expectedKind row
  return locked.head?.map fun e => ⟨e.1, e.2⟩

def challenge (tokenHash expectedKind : String) : Db (Option Challenge) := do
  let s ← poolQuery
  return ((s.store.rows .authMfaChallenges).find? fun e =>
    isOpen s tokenHash expectedKind e.2).map fun e => ⟨e.1, e.2⟩

def challengeKind (tokenHash : String) : Db (Option String) := do
  let s ← poolQuery
  return ((s.store.rows .authMfaChallenges).find? fun e =>
    e.2.tokenHash == tokenHash && e.2.consumedAt.isNone && s.now < e.2.expiresAt).map (·.2.kind)

def totpSecretForUpdate (userId : Nat) : Db (Option String) := do
  let s ← query
  return (s.store.get .userMfaSettings userId).bind fun m : MfaSettingsRow =>
    if m.totpEnabledAt.isSome then m.totpSecretCiphertext else none

def recordChallengeFailureStmt (challengeId : Nat) : Update Table .authMfaChallenges where
  cond _ i _ := i == challengeId
  set s row :=
    { row with
      attemptCount := row.attemptCount + 1
      consumedAt :=
        if row.attemptCount + 1 ≥ row.maxAttempts then some s.now else row.consumedAt }
  evs _ _ := [.challengeFailed]
  ok s i row _ := by
    refine ⟨rfl, .inl ⟨rfl, rfl, fun h => ?_, fun h => ?_⟩⟩
    · simp [h]
    · have h' : ¬row.attemptCount + 1 ≥ row.maxAttempts := Nat.not_le.2 h
      simp [h']

def recordChallengeFailure (challengeId : Nat) : Db Bool := do
  let rows ← (recordChallengeFailureStmt challengeId).exec
  let row ← Prog.okOr rows.head? (dbError .rowNotFound)
  return decide (row.attemptCount ≥ row.maxAttempts)

def consumeChallengeStmt (challengeId : Nat) (factor : Factor) :
    Update Table .authMfaChallenges where
  cond _ i _ := i == challengeId
  set s row := { row with consumedAt := some s.now }
  evs s row := [.challengeSucceeded row.userId s.now factor]
  ok s _ _ _ := ⟨rfl, .inr (.inr ⟨s.now, factor, rfl, rfl, rfl⟩)⟩

def consumeChallenge (challengeId : Nat) (factor : Factor) : Db Unit := do
  let _ ← (consumeChallengeStmt challengeId factor).exec

def pruneChallengesStmt : Delete Table .authMfaChallenges where
  cond s _ row := row.expiresAt + day < s.now || row.consumedAt.any fun t => t + day < s.now
  ok _ _ _ _ := rfl

def pruneChallenges : Db Nat := do
  let gone ← pruneChallengesStmt.exec
  return gone.length

def clearRecoveryCodesStmt (userId : Nat) : Delete Table .userMfaRecoveryCodes where
  cond _ _ row := row.userId == userId
  ok _ _ _ _ := rfl

/-- The journal is told how much of it had been written when the `DELETE` before the insertion took
its snapshot. -/
def addRecoveryCodeStmt (s : Snap) (userId : Nat) (codeHash : String) (clearedAsOf : Nat) :
    Insert Table .userMfaRecoveryCodes where
  key n := n
  row _ := { userId, codeHash, usedAt := none, createdAt := s.now }
  evs _ := [.recoveryCodeIssued userId clearedAsOf]
  hkey _ _ h := (Option.some.inj h).symm
  ok _ := ⟨⟨clearedAsOf, rfl⟩, rfl⟩

def addRecoveryCode (userId : Nat) (codeHash : String) (clearedAsOf : Nat) : Db Unit := do
  let s ← query
  let _ ← (addRecoveryCodeStmt s userId codeHash clearedAsOf).exec (dbError .uniqueViolation)
  references .users userId (fun _ => true) (dbError .foreignKeyViolation)

def stampRecoveryCodesStmt (userId : Nat) : Update Table .userMfaSettings where
  cond _ i _ := i == userId
  set s row := { row with recoveryCodesIssuedAt := some s.now, updatedAt := s.now }
  evs _ _ := []
  ok _ _ _ _ := .inl ⟨rfl, rfl, rfl, rfl⟩

def replaceRecoveryCodes (userId : Nat) (hashes : List String) : Db Unit := do
  let s ← query
  let _ ← (clearRecoveryCodesStmt userId).execOn s
  Prog.forEach hashes fun hash => addRecoveryCode userId hash s.asOf
  let _ ← (stampRecoveryCodesStmt userId).exec

/-- The unused recovery codes of a user in a snapshot, in the order of their keys. -/
def unusedCodes (s : Snap) (userId : Nat) : List (Nat × RecoveryCodeRow) :=
  ((s.store.rows .userMfaRecoveryCodes).filter fun e =>
    e.2.userId == userId && e.2.usedAt.isNone).insertionSort fun a b => a.1 ≤ b.1

def recoveryCodes (userId : Nat) : Db (List (Nat × RecoveryCodeRow)) := do
  let s ← poolQuery
  return unusedCodes s userId

def consumeRecoveryCodeStmt (userId id : Nat) : Update Table .userMfaRecoveryCodes where
  cond _ i row := i == id && row.userId == userId && row.usedAt.isNone
  set s row := { row with usedAt := some s.now }
  evs _ _ := [.recoveryCodeUsed]
  ok s i row h := by
    have hunused : row.usedAt = none := by simpa using (Bool.and_eq_true_iff.1 h).2
    exact ⟨rfl, hunused, rfl, rfl, rfl⟩

def consumeRecoveryCode (userId id : Nat) : Db Bool := do
  let rows ← (consumeRecoveryCodeStmt userId id).exec
  return !rows.isEmpty

/-- The passkeys of a user in a snapshot, oldest first. -/
def passkeysOf (s : Snap) (userId : Nat) : List (Nat × PasskeyRow) :=
  ((s.store.rows .userPasskeys).filter fun e => e.2.userId == userId).insertionSort
    fun a b => a.2.createdAt < b.2.createdAt ∨ (a.2.createdAt = b.2.createdAt ∧ a.1 ≤ b.1)

/-- The passkeys that a statement lists, and how much of the journal had been written when it took its
snapshot. -/
structure PasskeyList where
  keys : List (Nat × PasskeyRow)
  asOf : Nat

def listPasskeys (userId : Nat) : Db PasskeyList := do
  let s ← poolQuery
  return ⟨passkeysOf s userId, s.asOf⟩

def createPasskeyStmt (s : Snap) (userId : Nat) (name credentialId credential : String) :
    Insert Table .userPasskeys where
  key n := n
  row _ :=
    { userId, name, credentialId, credential
      lastUsedAt := none
      createdAt := s.now
      updatedAt := s.now }
  evs _ := []
  hkey _ _ h := (Option.some.inj h).symm
  ok := insert_noEvents

def createPasskey (userId : Nat) (name credentialId credential : String) : Db Nat := do
  let s ← query
  let id ← (createPasskeyStmt s userId name credentialId credential).exec
    (dbError .uniqueViolation)
  references .users userId (fun _ => true) (dbError .foreignKeyViolation)
  return id

def updatePasskeyAfterUseStmt (id : Nat) (credential : String) : Update Table .userPasskeys where
  cond _ i _ := i == id
  set s row := { row with credential, lastUsedAt := some s.now, updatedAt := s.now }
  evs _ _ := []
  ok _ _ _ _ := ⟨rfl, rfl⟩

def updatePasskeyAfterUse (id : Nat) (credential : String) : Db Unit := do
  let _ ← (updatePasskeyAfterUseStmt id credential).exec

def deletePasskeyStmt (userId id : Nat) : Delete Table .userPasskeys where
  cond _ i row := i == id && row.userId == userId
  ok _ _ _ _ := rfl

def deletePasskey (userId id : Nat) : Db Bool := do
  let gone ← (deletePasskeyStmt userId id).exec
  return !gone.isEmpty

end ArcAdmin.Repositories.Mfa

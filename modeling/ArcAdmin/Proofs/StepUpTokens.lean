import ArcAdmin.ReadCommitted.Duties
import ArcAdmin.ReadCommitted.Script
import ArcAdmin.Sample
import ArcAdmin.System

/-!
# The life of a step-up token

A token is issued once, for one session, user and scope. It is used up at most once, before it
expires, and then by one program. So what is done with tokens is bounded by what was issued.

* **`TokenLife`** — what may happen to a token;
* **`stepUp_tokens`** — in every interleaving of all requests every token has such a life, and no
  more programs have used up tokens for a session, user and scope than tokens were issued for them.
-/

namespace ArcAdmin

open ReadCommitted

/-! ## The life of one token

The protocol of the table allows a token to be issued, and to be used before its deadline. Its
deletion leaves no event.
-/

/-- What happens to a token: it is issued, and it may be used up while it has not expired. -/
structure TokenLife where
  sessionId : Nat
  userId : Nat
  scope : String
  expiresAt : Nat
  usedAt : Option Nat
  inTime : ∀ at', usedAt = some at' → at' < expiresAt

namespace TokenLife

variable {life : TokenLife}

/-- The events of that life. -/
def events (life : TokenLife) : List Event :=
  .stepUpIssued life.sessionId life.userId life.scope life.expiresAt ::
    life.usedAt.toList.map (.stepUpConsumed life.sessionId life.userId life.scope ·)

/-- The row tells the same. -/
structure Of (life : TokenLife) (row : StepUpTokenRow) : Prop where
  session : row.sessionId = life.sessionId
  user : row.userId = life.userId
  scope : row.scope = life.scope
  expires : row.expiresAt = life.expiresAt
  used : row.consumedAt = life.usedAt

/-- A token that has just been issued. -/
def fresh (row : StepUpTokenRow) : TokenLife where
  sessionId := row.sessionId
  userId := row.userId
  scope := row.scope
  expiresAt := row.expiresAt
  usedAt := none
  inTime := by simp

theorem fresh_of {row : StepUpTokenRow} (h : row.consumedAt = none) : (fresh row).Of row where
  session := rfl
  user := rfl
  scope := rfl
  expires := rfl
  used := h

/-- The token is used up. -/
def use (life : TokenLife) (now : Nat) (h : now < life.expiresAt) : TokenLife :=
  { life with
    usedAt := some now
    inTime := by
      intro at' hat
      cases hat
      exact h }

theorem events_use {now : Nat} (h : now < life.expiresAt) (hopen : life.usedAt = none) :
    (life.use now h).events =
      life.events ++ [.stepUpConsumed life.sessionId life.userId life.scope now] := by
  simp [events, use, hopen]

end TokenLife

/-- What a token row has to do with the events about it. -/
def tokenLaw (_ : Nat) (row : Option StepUpTokenRow) (past : List Event) : Prop :=
  (row = none ∧ past = []) ∨ ∃ life : TokenLife, past = life.events ∧ ∀ r, row = some r → life.Of r

/-- **The protocol of the row makes a life of it.** -/
theorem rowLaw_token : RowLaw (T := Table) .authStepUpTokens tokenLaw where
  step id old new evs notes hok hfresh hlaw := by
    have hprotocol : stepUpProtocol old new notes := hok
    cases new with
    | none =>
      -- a row that is pruned leaves no event
      have hnotes : notes = [] := by cases old <;> exact hprotocol
      rw [hnotes, List.append_nil]
      rcases hlaw with ⟨_, hpast⟩ | ⟨life, hpast, _⟩
      · exact .inl ⟨rfl, hpast⟩
      · exact .inr ⟨life, hpast, fun r hr => by cases hr⟩
    | some row =>
      cases old with
      | none =>
        obtain ⟨hnotes, hopen⟩ := hprotocol
        have hpast : evs = [] := hfresh rfl rfl
        refine .inr ⟨.fresh row, ?_, ?_⟩
        · rw [hpast, hnotes]
          rfl
        · intro r hr
          cases hr
          exact TokenLife.fresh_of hopen
      | some before =>
        obtain ⟨now, hnotes, hopen, hexpires, hrow⟩ := hprotocol
        rcases hlaw with ⟨hnone, _⟩ | ⟨life, hpast, hof⟩
        · cases hnone
        · have hbefore := hof before rfl
          have hnow : now < life.expiresAt := by
            rw [← hbefore.expires]
            exact hexpires
          have hunused : life.usedAt = none := hbefore.used.symm.trans hopen
          refine .inr ⟨life.use now hnow, ?_, ?_⟩
          · rw [TokenLife.events_use hnow hunused, hpast, hnotes, hbefore.session, hbefore.user,
              hbefore.scope]
          · intro r hr
            cases hr
            rw [hrow]
            exact ⟨hbefore.session, hbefore.user, hbefore.scope, hbefore.expires, rfl⟩

/-! ## Counting

Each use is the use of one token, which has been issued for the same session, user and scope. So
the uses are counted token by token.
-/

/-- The event issues a token for that session, user and scope. -/
def Event.issues (sessionId userId : Nat) (scope : String) : Event → Bool
  | .stepUpIssued s u sc _ => s == sessionId && u == userId && sc == scope
  | _ => false

/-- The event uses up a token of that session, user and scope. -/
def Event.uses (sessionId userId : Nat) (scope : String) : Event → Bool
  | .stepUpConsumed s u sc _ => s == sessionId && u == userId && sc == scope
  | _ => false

/-- The entry is about a token. -/
def aboutToken (e : Entry Table) : Bool := e.key.any fun k => decide (k.1 = Table.authStepUpTokens)

/-- How many tokens have been issued for that session, user and scope. -/
def issued (log : List (Entry Table)) (sessionId userId : Nat) (scope : String) : Nat :=
  log.countP fun e => aboutToken e && e.ev.issues sessionId userId scope

/-- How many tokens of that session, user and scope have been used up. -/
def used (log : List (Entry Table)) (sessionId userId : Nat) (scope : String) : Nat :=
  log.countP fun e => aboutToken e && e.ev.uses sessionId userId scope

/-- In one life, as often as it was used up the token was issued. -/
theorem TokenLife.uses_le (life : TokenLife) (sessionId userId : Nat) (scope : String) :
    life.events.countP (Event.uses sessionId userId scope) ≤
      life.events.countP (Event.issues sessionId userId scope) := by
  cases hused : life.usedAt with
  | none => simp [events, hused, Event.uses, Event.issues]
  | some at' =>
    by_cases h : (life.sessionId == sessionId && life.userId == userId && life.scope == scope) = true
    · simp [events, hused, Event.uses, Event.issues, h]
    · simp [events, hused, Event.uses, Event.issues, h]

/-- The entries about one row, by their events. -/
theorem countP_history (log : List (Entry Table)) (id : Nat) (P : Event → Bool) :
    ((log.filter fun e => e.key = some ⟨.authStepUpTokens, id⟩).countP fun e =>
      aboutToken e && P e.ev) = (history log ⟨.authStepUpTokens, id⟩).countP P := by
  unfold history
  rw [List.countP_map]
  refine List.countP_congr fun e he => ?_
  have hkey : e.key = some ⟨.authStepUpTokens, id⟩ := by simpa using (List.mem_filter.1 he).2
  simp [aboutToken, hkey]

/-- Entries about anything else do not count. -/
theorem countP_other {log : List (Entry Table)} {key : Option (Key Table)}
    (hkey : ∀ id : Nat, key ≠ some ⟨.authStepUpTokens, id⟩) (P : Event → Bool) :
    ((log.filter fun e => e.key = key).countP fun e => aboutToken e && P e.ev) = 0 := by
  rw [List.countP_eq_zero]
  intro e he
  have heq : e.key = key := by simpa using (List.mem_filter.1 he).2
  cases key with
  | none => simp [aboutToken, heq]
  | some k =>
    obtain ⟨t, id⟩ := k
    by_cases ht : t = Table.authStepUpTokens
    · subst ht
      exact absurd rfl (hkey id)
    · simp [aboutToken, heq, ht]

/-- **Where every token has a life, no more are used up than were issued.** -/
theorem used_le_issued {log : List (Entry Table)}
    (hlife : ∀ id : Nat, history log ⟨.authStepUpTokens, id⟩ = [] ∨
      ∃ life : TokenLife, history log ⟨.authStepUpTokens, id⟩ = life.events)
    (sessionId userId : Nat) (scope : String) :
    used log sessionId userId scope ≤ issued log sessionId userId scope := by
  refine countP_le_of_fibers (fun e => e.key) _ _ log fun key => ?_
  by_cases hkey : ∃ id : Nat, key = some ⟨.authStepUpTokens, id⟩
  · obtain ⟨id, rfl⟩ := hkey
    rw [countP_history, countP_history]
    rcases hlife id with hnone | ⟨life, hpast⟩
    · rw [hnone]
      exact le_rfl
    · rw [hpast]
      exact life.uses_le sessionId userId scope
  · rw [countP_other fun id hid => hkey ⟨id, hid⟩]
    exact Nat.zero_le _

/-- The program has used up a token of that session, user and scope. -/
def UsedToken (log : List (Entry Table)) (p sessionId userId : Nat) (scope : String) : Prop :=
  ∃ (token : Nat) (at' : Nat),
    Logged log p ⟨.authStepUpTokens, token⟩ (.stepUpConsumed sessionId userId scope at')

/-- Each program that has used up a token has left an entry of its own. -/
theorem programs_le_used {log : List (Entry Table)} {sessionId userId : Nat} {scope : String}
    {ps : List Nat} (hnodup : ps.Nodup) (hps : ∀ p ∈ ps, UsedToken log p sessionId userId scope) :
    ps.length ≤ used log sessionId userId scope := by
  have hsub : ps ⊆ (log.filter fun e =>
      aboutToken e && e.ev.uses sessionId userId scope).map Entry.pid := by
    intro p hp
    obtain ⟨token, at', hlogged⟩ := hps p hp
    exact List.mem_map.2 ⟨_, List.mem_filter.2 ⟨hlogged, by simp [aboutToken, Event.uses]⟩, rfl⟩
  have hle := (hnodup.subperm hsub).length_le
  rw [List.length_map] at hle
  rw [used, List.countP_eq_length_filter]
  exact hle

/-! ## The main theorem

The law of the row in every run, and the counts that follow from it.
-/

/-- **The life of a step-up token.** In every interleaving of all requests, a token is issued once,
and used up at most once and before it expires, as its row tells as long as it is stored; and for
every session, user and scope at most as many programs have used up a token as tokens were
issued. -/
theorem stepUp_tokens (env : External) (config : AuthSessionConfig) {s₀ : Server Table}
    (h₀ : s₀.Wf) (hlog : s₀.log = []) (hrows : s₀.store.rows .authStepUpTokens = [])
    {C : Db.Config} (hC : Reachable (serve env config) s₀ C) :
    (∀ token : Nat, (history C.server.log ⟨.authStepUpTokens, token⟩ = [] ∨
        ∃ life : TokenLife, history C.server.log ⟨.authStepUpTokens, token⟩ = life.events) ∧
      ∀ row : StepUpTokenRow, C.server.store.get .authStepUpTokens token = some row →
        ∃ life : TokenLife, life.Of row ∧
          history C.server.log ⟨.authStepUpTokens, token⟩ = life.events) ∧
    ∀ (sessionId userId : Nat) (scope : String) (ps : List Nat), ps.Nodup →
      (∀ p ∈ ps, UsedToken C.server.log p sessionId userId scope) →
      ps.length ≤ issued C.server.log sessionId userId scope := by
  have hlaw : ∀ token : Nat, tokenLaw token (C.server.store.get .authStepUpTokens token)
      (history C.server.log ⟨.authStepUpTokens, token⟩) := by
    have hstart : ∀ token : Nat, tokenLaw token (s₀.store.get .authStepUpTokens token)
        (history s₀.log ⟨.authStepUpTokens, token⟩) := by
      intro token
      rw [hlog]
      exact .inl ⟨Store.get_of_rows_nil hrows token, rfl⟩
    intro token
    have hlawful := (rowLaw_token.reachable h₀ hstart hC 0).1 token
    rw [Conn.history_none] at hlawful
    exact hlawful
  have hlife : ∀ token : Nat, history C.server.log ⟨.authStepUpTokens, token⟩ = [] ∨
      ∃ life : TokenLife, history C.server.log ⟨.authStepUpTokens, token⟩ = life.events :=
    fun token => (hlaw token).imp (·.2) fun ⟨life, hpast, _⟩ => ⟨life, hpast⟩
  refine ⟨fun token => ⟨hlife token, fun row hrow => ?_⟩, ?_⟩
  · rcases hlaw token with ⟨hnone, _⟩ | ⟨life, hpast, hof⟩
    · rw [hnone] at hrow
      cases hrow
    · exact ⟨life, hof row hrow, hpast⟩
  · intro sessionId userId scope ps hnodup hps
    calc ps.length ≤ used C.server.log sessionId userId scope := programs_le_used hnodup hps
      _ ≤ issued C.server.log sessionId userId scope :=
        used_le_issued hlife sessionId userId scope

/-- `helper` has re-authenticated and used up the token, and is about to commit the deletion of the
account of `clerk`. -/
def accountDeletion : Stage Table ApiError Reply Request :=
  Stage.after (serve Sample.external Sample.config) Sample.server
    [.start (Sample.login "helper"), .run 0 200,
      .start (Sample.stepUp 20 "helper" Services.StepUp.usersDeleteScope), .run 1 100,
      .start (.deleteUser (Sample.parts 20 22) 12), .run 2 27]

theorem accountDeletion_reachable :
    Reachable (serve Sample.external Sample.config) Sample.server accountDeletion.config :=
  Stage.reachable_after _ _ _

theorem stepUp_tokens_sample : ∃ row : StepUpTokenRow,
    accountDeletion.config.server.store.get .authStepUpTokens (22 : Nat) = some row ∧
      ∃ life : TokenLife, life.Of row ∧
        history accountDeletion.config.server.log ⟨.authStepUpTokens, (22 : Nat)⟩ = life.events := by
  have hstored : (accountDeletion.config.server.store.get .authStepUpTokens (22 : Nat)).isSome = true := by
    decide +kernel
  obtain ⟨row, hrow⟩ := Option.isSome_iff_exists.1 hstored
  exact ⟨row, hrow, ((stepUp_tokens Sample.external Sample.config Sample.server_wf rfl (by decide)
    accountDeletion_reachable).1 22).2 row hrow⟩

end ArcAdmin

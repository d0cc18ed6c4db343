import ArcAdmin.External
import ArcAdmin.Schema

/-!
# The course of a challenge

What may happen to a challenge from its issue to its end, as a list of events, and what each
statement on challenges adds to it.

* **`Course`** — the events of one challenge;
* **`challengeLaw`** — a challenge and its history are those of one course;
* **`challengeLaw.failed`**, **`challengeLaw.ended`** — a wrong answer to an open challenge, and the
  end of one.
-/

namespace ArcAdmin

/-! ## Courses

A course is what a challenge goes through, written as data: the issue, a number of wrong answers,
and an end if it has one. Its events are what the journal holds of the challenge.
-/

/-- The wrong answers that a challenge takes. -/
def maxAttempts : Nat := 5

/-- How a challenge ends. -/
inductive ChallengeEnding where
  | pending
  | exhausted
  | superseded
  | succeeded (at' : Nat) (factor : Factor)
deriving DecidableEq, Repr

namespace ChallengeEnding

def events (userId : Nat) : ChallengeEnding → List Event
  | .pending | .exhausted => []
  | .superseded => [.challengeSuperseded]
  | .succeeded at' factor => [.challengeSucceeded userId at' factor]

/-- A challenge of that kind may end so after so many wrong answers. -/
def Fits (kind : String) (expiresAt failures : Nat) : ChallengeEnding → Prop
  | .pending => failures < maxAttempts
  | .exhausted => failures = maxAttempts
  | .superseded => failures < maxAttempts ∧ isLoginKind kind = true
  | .succeeded at' factor => failures < maxAttempts ∧ at' < expiresAt ∧ factor.kind = kind

/-- Behind one more wrong answer: the last of them closes the challenge. -/
def afterFailure (failures : Nat) : ChallengeEnding :=
  if failures + 1 ≥ maxAttempts then .exhausted else .pending

theorem afterFailure_eq_pending_iff {failures : Nat} :
    afterFailure failures = .pending ↔ ¬failures + 1 ≥ maxAttempts := by
  unfold afterFailure
  by_cases hlast : failures + 1 ≥ maxAttempts <;> simp [hlast]

theorem afterFailure_events (failures userId : Nat) : (afterFailure failures).events userId = [] := by
  unfold afterFailure
  by_cases hlast : failures + 1 ≥ maxAttempts <;> simp [hlast, events]

theorem afterFailure_fits {failures : Nat} (hfew : failures < maxAttempts) (kind : String)
    (expiresAt : Nat) : (afterFailure failures).Fits kind expiresAt (failures + 1) := by
  unfold afterFailure
  by_cases hlast : failures + 1 ≥ maxAttempts
  · rw [if_pos hlast]
    show failures + 1 = maxAttempts
    omega
  · rw [if_neg hlast]
    show failures + 1 < maxAttempts
    omega

end ChallengeEnding

/-- **The course of a challenge**: what it was issued with, how often it was answered wrongly, and how
it ended. -/
structure Course where
  userId : Nat
  kind : String
  expiresAt : Nat
  successorOf : Option Nat
  failures : Nat
  ending : ChallengeEnding
  fits : ending.Fits kind expiresAt failures

namespace Course

/-- What a course leaves in the journal. -/
def events (course : Course) : List Event :=
  .challengeIssued course.userId course.kind course.expiresAt course.successorOf ::
    (List.replicate course.failures .challengeFailed ++ course.ending.events course.userId)

/-- The row of the challenge tells the same. -/
structure Of (course : Course) (row : ChallengeRow) : Prop where
  userId : course.userId = row.userId
  kind : course.kind = row.kind
  expiresAt : course.expiresAt = row.expiresAt
  failures : course.failures = row.attemptCount
  ending : course.ending = .pending ↔ row.consumedAt = none

end Course

/-- **The law of the challenges**: the history of a challenge is a course, and its row tells the
same. -/
def challengeLaw (env : External) (id : Nat) (row : Option ChallengeRow) (past : List Event) :
    Prop :=
  match row with
  | none => past = [] ∨ ∃ course : Course, past = course.events
  | some row => row.tokenHash = env.tokenHash (env.randomToken id 0) ∧
      row.maxAttempts = maxAttempts ∧ ∃ course : Course, course.Of row ∧ past = course.events

/-! ## Answers

A right answer ends a course, so there is one at most.
-/

/-- The event is a right answer. -/
def Event.answers : Event → Bool
  | .challengeSucceeded .. => true
  | _ => false

theorem Course.answers_le (course : Course) :
    (course.events.filter Event.answers).length ≤ 1 := by
  have hfailures : (List.replicate course.failures Event.challengeFailed).filter Event.answers =
      [] := by
    rw [List.filter_eq_nil_iff]
    intro e he
    rw [List.eq_of_mem_replicate he]
    decide
  have hissue : (Event.challengeIssued course.userId course.kind course.expiresAt
      course.successorOf).answers = false := rfl
  have hend : (course.ending.events course.userId).length ≤ 1 := by
    cases course.ending <;> simp [ChallengeEnding.events]
  rw [Course.events, List.filter_cons_of_neg (by simp [hissue]), List.filter_append, hfailures,
    List.nil_append]
  exact (List.length_filter_le _ _).trans hend

/-- The right answer in a course is how it ends. -/
theorem Course.ending_of_answer {course : Course} {userId at' : Nat} {factor : Factor}
    (h : .challengeSucceeded userId at' factor ∈ course.events) :
    course.userId = userId ∧ course.ending = .succeeded at' factor := by
  rcases List.mem_cons.1 h with hissue | hlater
  · cases hissue
  · rcases List.mem_append.1 hlater with hfailure | hend
    · cases List.eq_of_mem_replicate hfailure
    · cases hending : course.ending with
      | pending | exhausted | superseded =>
        rw [hending] at hend
        simp [ChallengeEnding.events] at hend
      | succeeded at'' factor' =>
        rw [hending] at hend
        have heq : Event.challengeSucceeded userId at' factor =
            .challengeSucceeded course.userId at'' factor' := List.mem_singleton.1 hend
        injection heq with huser hat hfactor
        exact ⟨huser.symm, by rw [hat, hfactor]⟩

/-- **A challenge is answered once.** -/
theorem challengeLaw.answers_le {env : External} {id : Nat} {row : Option ChallengeRow}
    {past : List Event} (h : challengeLaw env id row past) :
    (past.filter Event.answers).length ≤ 1 := by
  cases row with
  | none =>
    rcases h with rfl | ⟨course, rfl⟩
    · exact Nat.zero_le _
    · exact course.answers_le
  | some row =>
    obtain ⟨_, _, course, _, rfl⟩ := h
    exact course.answers_le

/-- Stored or not, a challenge has no history or that of a course. -/
theorem challengeLaw.course {env : External} {id : Nat} {row : Option ChallengeRow}
    {past : List Event} (h : challengeLaw env id row past) :
    past = [] ∨ ∃ course : Course, past = course.events := by
  cases row with
  | none => exact h
  | some row =>
    obtain ⟨_, _, course, _, hpast⟩ := h
    exact .inr ⟨course, hpast⟩

/-! ## What statements do to a course

A statement on an open challenge adds one event to a course that has not ended, and the row is
changed in step with it.
-/

section Law

variable {env : External} {id : Nat} {row : ChallengeRow} {past : List Event}

/-- The course of an open challenge. -/
theorem challengeLaw.pending (h : challengeLaw env id (some row) past)
    (hopen : row.consumedAt = none) : ∃ course : Course, course.Of row ∧ past = course.events ∧
      course.ending = .pending ∧ course.failures < maxAttempts := by
  obtain ⟨_, _, course, hof, hpast⟩ := h
  have hpending : course.ending = .pending := hof.ending.2 hopen
  have hfits := course.fits
  rw [hpending] at hfits
  exact ⟨course, hof, hpast, hpending, hfits⟩

/-- A challenge that is removed leaves its history behind. -/
theorem challengeLaw.removed {row : Option ChallengeRow} (h : challengeLaw env id row past) :
    challengeLaw env id none past := h.course

/-- **A new challenge.** -/
theorem challengeLaw_issued {new : ChallengeRow} {successorOf : Option Nat}
    (htoken : new.tokenHash = env.tokenHash (env.randomToken id 0))
    (hmax : new.maxAttempts = maxAttempts) (hcount : new.attemptCount = 0)
    (hopen : new.consumedAt = none) : challengeLaw env id (some new)
      [.challengeIssued new.userId new.kind new.expiresAt successorOf] := by
  refine ⟨htoken, hmax, ⟨new.userId, new.kind, new.expiresAt, successorOf, 0, .pending, ?_⟩, ?_, rfl⟩
  · show 0 < maxAttempts
    decide
  · exact ⟨rfl, rfl, rfl, hcount.symm, fun _ => hopen, fun _ => rfl⟩

/-- **The end of an open challenge**, other than by its last wrong answer. -/
theorem challengeLaw.ended (h : challengeLaw env id (some row) past)
    (hopen : row.consumedAt = none) (ending : ChallengeEnding) (hend : ending ≠ .pending)
    (hfits : ∀ n, n < maxAttempts → ending.Fits row.kind row.expiresAt n) (now : Nat) :
    challengeLaw env id (some { row with consumedAt := some now })
      (past ++ ending.events row.userId) := by
  obtain ⟨course, hof, hpast, hpending, hfew⟩ := h.pending hopen
  refine ⟨h.1, h.2.1, ⟨course.userId, course.kind, course.expiresAt, course.successorOf,
    course.failures, ending, ?_⟩, ⟨hof.userId, hof.kind, hof.expiresAt, hof.failures, ?_⟩, ?_⟩
  · rw [hof.kind, hof.expiresAt]
    exact hfits _ hfew
  · simp [hend]
  · rw [hpast, Course.events, Course.events, hpending, hof.userId]
    simp [ChallengeEnding.events]

/-- **A wrong answer.** -/
theorem challengeLaw.failed (h : challengeLaw env id (some row) past)
    (hopen : row.consumedAt = none) (now : Nat) :
    challengeLaw env id (some { row with
      attemptCount := row.attemptCount + 1
      consumedAt := if row.attemptCount + 1 ≥ row.maxAttempts then some now else row.consumedAt })
      (past ++ [.challengeFailed]) := by
  obtain ⟨course, hof, hpast, hpending, hfew⟩ := h.pending hopen
  have hmax : row.maxAttempts = maxAttempts := h.2.1
  have hcount : course.failures = row.attemptCount := hof.failures
  refine ⟨h.1, hmax, ⟨course.userId, course.kind, course.expiresAt, course.successorOf,
    course.failures + 1, .afterFailure course.failures, ChallengeEnding.afterFailure_fits hfew _ _⟩,
    ⟨hof.userId, hof.kind, hof.expiresAt, ?_, ?_⟩, ?_⟩
  · show course.failures + 1 = row.attemptCount + 1
    omega
  · show ChallengeEnding.afterFailure course.failures = .pending ↔
      (if row.attemptCount + 1 ≥ row.maxAttempts then some now else row.consumedAt) = none
    rw [ChallengeEnding.afterFailure_eq_pending_iff, hcount, hmax, hopen]
    by_cases hlast : row.attemptCount + 1 ≥ maxAttempts <;> simp [hlast]
  · show past ++ [.challengeFailed] = .challengeIssued course.userId course.kind course.expiresAt
      course.successorOf :: (List.replicate (course.failures + 1) .challengeFailed ++
        (ChallengeEnding.afterFailure course.failures).events course.userId)
    rw [hpast, Course.events, hpending, ChallengeEnding.afterFailure_events, List.replicate_succ']
    simp [ChallengeEnding.events]

end Law

end ArcAdmin

import ArcAdmin.Flow.Verify
import Mathlib.Data.List.Forall2

/-!
# The verdict of the verification

Whatever the commands, the services, the scan and the audit do, the report of a verification holds
one result for each step that is asked for, in the order of the configuration, and passes only if
everything did. A step that fails is recorded, and the loop goes on to the next one. The exception
is a command that cannot be run at all: `Task::run` returns an error, and `execute` passes it on with
`?`, so that there is no report and the steps behind it are not run.

The proof follows the program from the inside out. A run is the list of its exchanges with the
outside, and each program has a lemma that says what its runs exchange when they end with a value
(`…_ok`) and one for when they end with an error (`…_error`).

* **`Halts`**, **`Unrunnable`** — the answers that end a verification, and whose fault they are;
* **`EndsOnce`** — the first such answer is the last thing that matters: after a command that cannot
  be run nothing else is asked;
* **`Agrees`** — the service manager knows what became of every service;
* **`Recorded`** — what the result of a step says of the run of the step;
* **`EachOnce`** — one result for each step that is asked for;
* **`runSteps_ok`** — the loop over the steps;
* **`verdict`** — the verdict is sound exactly when every command could be run;
* **`verdict_missingProgram`** — a program that is not installed.
-/

namespace ArcAdmin

namespace Flow

open Dialogue

/-! ## Commands

The questions that a command asks, from the creation of its log to its end.
-/

def Ended.success : Ended → Bool
  | .exited status => status.success
  | _ => false

def Ended.isTimedOut : Ended → Bool
  | .timedOut _ => true
  | _ => false

theorem Ended.success_iff {ended : Ended} : ended.success = true ↔ ended = .exited ⟨some 0⟩ := by
  unfold Ended.success
  split
  · next status =>
    obtain ⟨code⟩ := status
    simp [ExitStatus.success]
  · next hnot => exact ⟨fun h => (nomatch h), fun h => absurd h (hnot _)⟩

@[simp] theorem Task.result_label (task : Task) (ended : Ended) (d : Nat) :
    (task.result ended d).label = task.label := by cases ended <;> rfl

@[simp] theorem Task.result_log (task : Task) (ended : Ended) (d : Nat) :
    (task.result ended d).log = task.log := by cases ended <;> rfl

@[simp] theorem Task.result_timedOut (task : Task) (ended : Ended) (d : Nat) :
    (task.result ended d).timedOut = ended.isTimedOut := by cases ended <;> rfl

@[simp] theorem Task.result_passed (task : Task) (ended : Ended) (d : Nat) :
    (task.result ended d).passed = ended.success := by
  cases ended <;> simp [Task.result, Ended.success]

theorem Task.result_cancelled {task : Task} {ended : Ended} {d : Nat} :
    (task.result ended d).cancelled = true ↔ ∃ status, ended = .cancelled status := by
  cases ended <;> simp [Task.result]

/-- The calls of a command. -/
def Call.OfTask : Call → Prop
  | .instant | .createLog _ | .spawn _ | .wait _ | .readLog _ => True
  | _ => False

/-- The call that starts a service. -/
def Call.OfService : Call → Prop
  | .startService _ _ => True
  | _ => False

theorem Call.OfTask.not_ofService {call : Call} (h : call.OfTask) : ¬call.OfService := by
  cases call <;> first | exact h.elim | exact id

/-! ## What ends a verification

Which answers leave the program without a value, told apart by whether a step is to blame.
-/

/-- The answers that end a verification although no step is to blame: a file of the report could not
be written, the scan or the audit could not be made, or the verification was cancelled. -/
def Halts : Exchange → Prop
  | ⟨.cancelled, answer⟩ => answer = true
  | ⟨.wait _, answer⟩ => ∃ status, answer = .ok (.cancelled status)
  | ⟨.writeScope _, answer⟩ => ∃ error, answer = .error error
  | ⟨.scan _, answer⟩ => ∃ error, answer = .error error
  | ⟨.audit, answer⟩ => ∃ error, answer = .error error
  | ⟨.writeReport _, answer⟩ => ∃ error, answer = .error error
  | _ => False

/-- The answers with which the command of a step cannot be run: its log cannot be created, its program
cannot be started, or it cannot be waited for. -/
def Unrunnable : Exchange → Prop
  | ⟨.createLog _, answer⟩ => ∃ error, answer = .error error
  | ⟨.spawn _, answer⟩ => ∃ error, answer = .error error
  | ⟨.wait _, answer⟩ => ∃ error, answer = .error error
  | _ => False

/-- The answers that end a verification with an error. -/
def Aborts (x : Exchange) : Prop := Halts x ∨ Unrunnable x

/-- A call whose answers end nothing. -/
def Call.Harmless (call : Call) : Prop := ∀ answer, ¬Aborts ⟨call, answer⟩

theorem Call.OfService.harmless {call : Call} (h : call.OfService) : call.Harmless := by
  cases call <;> first | exact h.elim | exact fun _ => not_or.2 ⟨id, id⟩

/-- **What ends a program is the last thing that matters**: a run that returns a value has not been
ended by anything, and where a command could not be run nothing else ends the run. -/
structure EndsOnce {α : Type} (m : Flow α) : Prop where
  ok : ∀ {t : List Exchange} {a : α}, m.Trace t (.ok a) → ∀ x ∈ t, ¬Aborts x
  unrunnable : ∀ {t : List Exchange} {r : Except Error α}, m.Trace t r →
    (∃ x ∈ t, Unrunnable x) → ∀ y ∈ t, ¬Halts y

namespace EndsOnce

variable {α β : Type} {m : Flow α}

/-- A program that asks harmless questions only is ended by nothing. -/
theorem of_asks (h : m.Asks Call.Harmless) : EndsOnce m where
  ok ht _ hx := h.mem ht hx _
  unrunnable ht _ _ hy hhalts := h.mem ht hy _ (.inl hhalts)

theorem pure {a : α} : EndsOnce (Pure.pure a : Flow α) := of_asks asks_pure

theorem throw {error : Error} : EndsOnce (.throw error : Flow α) := of_asks asks_throw

theorem query {call : Call} (h : call.Harmless) : EndsOnce (ask call) :=
  of_asks (asks_query.2 h)

/-- Two programs after each other: the second is reached only if nothing has ended the first. -/
theorem bind {f : α → Flow β} (hm : EndsOnce m) (hf : ∀ a, EndsOnce (f a)) :
    EndsOnce (m >>= f) where
  ok h x hx := by
    obtain ⟨t₁, t₂, a, rfl, h₁, h₂⟩ := trace_bind_ok.1 h
    exact (List.mem_append.1 hx).elim (hm.ok h₁ x) ((hf a).ok h₂ x)
  unrunnable h hex y hy := by
    rcases trace_bind.1 h with ⟨t₁, t₂, a, rfl, h₁, h₂⟩ | ⟨error, h₁, _⟩
    · obtain ⟨x, hx, hun⟩ := hex
      rcases List.mem_append.1 hx with hx | hx
      · exact absurd (.inr hun) (hm.ok h₁ x hx)
      · rcases List.mem_append.1 hy with hy | hy
        · exact fun hhalts => hm.ok h₁ y hy (.inl hhalts)
        · exact (hf a).unrunnable h₂ ⟨x, hx, hun⟩ y hy
    · exact hm.unrunnable h₁ hex y hy

/-- One question whose error ends the verification. -/
theorem attempt {call : Call} {f : call.Answer → Except Error α}
    (hok : ∀ answer a, f answer = .ok a → ¬Aborts ⟨call, answer⟩)
    (hnot : ∀ answer, Unrunnable ⟨call, answer⟩ → ¬Halts ⟨call, answer⟩) :
    EndsOnce (Dialogue.attempt call f : Flow α) where
  ok h x hx := by
    obtain ⟨answer, rfl, ha⟩ := trace_attempt.1 h
    obtain rfl := List.mem_singleton.1 hx
    exact hok answer _ ha.symm
  unrunnable h hex y hy := by
    obtain ⟨answer, rfl, _⟩ := trace_attempt.1 h
    obtain ⟨x, hx, hun⟩ := hex
    obtain rfl := List.mem_singleton.1 hx
    obtain rfl := List.mem_singleton.1 hy
    exact hnot answer hun

/-- The question whether the verification has been cancelled, which ends it if so. -/
theorem unlessCancelled {message : Error} (hm : EndsOnce m) :
    EndsOnce (do
      let cancelled : Bool ← ask .cancelled
      if cancelled then bail message else m) where
  ok h x hx := by
    obtain ⟨cancelled, t, rfl, h₁⟩ := trace_query_bind.1 h
    cases cancelled with
    | true => cases (trace_throw.1 h₁).2
    | false =>
      rcases List.mem_cons.1 hx with rfl | hx
      · rintro (hhalts | hun)
        · cases (show false = true from hhalts)
        · exact hun
      · exact hm.ok h₁ x hx
  unrunnable h hex y hy := by
    obtain ⟨cancelled, t, rfl, h₁⟩ := trace_query_bind.1 h
    cases cancelled with
    | true =>
      obtain ⟨rfl, _⟩ := trace_throw.1 h₁
      obtain ⟨x, hx, hun⟩ := hex
      obtain rfl := List.mem_singleton.1 hx
      exact hun.elim
    | false =>
      obtain ⟨x, hx, hun⟩ := hex
      rcases List.mem_cons.1 hx with rfl | hx
      · exact hun.elim
      · rcases List.mem_cons.1 hy with rfl | hy
        · intro hhalts
          cases (show false = true from hhalts)
        · exact hm.unrunnable h₁ ⟨x, hx, hun⟩ y hy

end EndsOnce

section Task

variable {engine : RegexEngine} {task : Task} {t : List Exchange}

theorem asks_taskRun : task.run.Asks Call.OfTask := by
  unfold Task.run
  refine .bind (asks_attempt.2 trivial) fun _ => .bind (asks_query.2 trivial) fun _ =>
    .bind (asks_attempt.2 trivial) fun _ => .bind (asks_attempt.2 trivial) fun _ =>
    .bind (asks_query.2 trivial) fun _ => asks_pure

theorem asks_parsed {parser : Option ParserConfig} {result : TaskResult} :
    (parsed engine parser result).Asks Call.OfTask := by
  unfold parsed
  split
  · exact .bind (asks_query.2 trivial) fun _ => asks_lift
  · exact asks_pure

theorem asks_execute {parser : Option ParserConfig} :
    (execute engine task parser).Asks Call.OfTask := by
  unfold execute
  refine .bind asks_taskRun fun result => .bind asks_parsed fun result => ?_
  split
  · exact asks_throw
  · exact asks_pure

/-- The run of a command that could be started. -/
theorem taskRun_ok {result : TaskResult} (h : task.run.Trace t (.ok result)) :
    ∃ (started now : Nat) (ended : Ended),
      t = [⟨.createLog task.log, .ok ()⟩, ⟨.instant, started⟩, ⟨.spawn task, .ok ()⟩,
        ⟨.wait task, .ok ended⟩, ⟨.instant, now⟩] ∧
      result = task.result ended (now - started) := by
  obtain ⟨_, _, _, rfl, hcreate, h₁⟩ := trace_bind_ok.1 h
  obtain ⟨started, _, rfl, h₂⟩ := trace_query_bind.1 h₁
  obtain ⟨_, _, _, rfl, hspawn, h₃⟩ := trace_bind_ok.1 h₂
  obtain ⟨_, _, ended, rfl, hwait, h₄⟩ := trace_bind_ok.1 h₃
  obtain ⟨now, _, rfl, h₅⟩ := trace_query_bind.1 h₄
  obtain ⟨rfl, hresult⟩ := trace_pure.1 h₅
  obtain ⟨created, rfl, hcreated⟩ := trace_attempt.1 hcreate
  obtain ⟨spawned, rfl, hspawned⟩ := trace_attempt.1 hspawn
  obtain ⟨_, rfl, hended⟩ := trace_attempt.1 hwait
  cases hended
  cases hresult
  cases hcreated
  cases spawned with
  | error cause => cases hspawned
  | ok => exact ⟨started, now, ended, rfl, rfl⟩

/-- A command ends the verification only if it cannot be run at all. -/
theorem taskRun_error {error : Error} (h : task.run.Trace t (.error error)) :
    (∃ x ∈ t, Unrunnable x) ∧ ∀ y ∈ t, ¬Halts y := by
  rcases trace_bind.1 h with ⟨t₁, t₂, _, rfl, hcreate, h₁⟩ | ⟨error, hcreate, _⟩
  · obtain ⟨_, rfl, _⟩ := trace_attempt.1 hcreate
    obtain ⟨_, _, rfl, h₂⟩ := trace_query_bind.1 h₁
    rcases trace_bind.1 h₂ with ⟨_, _, _, rfl, hspawn, h₃⟩ | ⟨error, hspawn, _⟩
    · obtain ⟨_, rfl, _⟩ := trace_attempt.1 hspawn
      rcases trace_bind.1 h₃ with ⟨_, _, _, rfl, _, h₄⟩ | ⟨error, hwait, _⟩
      · obtain ⟨_, _, rfl, h₅⟩ := trace_query_bind.1 h₄
        cases (trace_pure.1 h₅).2
      · -- it could be started, but not be waited for
        obtain ⟨answer, rfl, hanswer⟩ := trace_attempt.1 hwait
        have hfailed : answer = .error error := hanswer.symm
        subst hfailed
        refine ⟨⟨⟨.wait task, .error error⟩, by simp, error, rfl⟩, ?_⟩
        simp [Halts]
    · -- it could not be started
      obtain ⟨answer, rfl, hanswer⟩ := trace_attempt.1 hspawn
      refine ⟨⟨⟨.spawn task, answer⟩, by simp, ?_⟩, by simp [Halts]⟩
      cases answer with
      | ok => cases hanswer
      | error cause => exact ⟨cause, rfl⟩
  · -- its log could not be created
    obtain ⟨answer, rfl, hanswer⟩ := trace_attempt.1 hcreate
    exact ⟨⟨⟨.createLog task.log, answer⟩, by simp, error, hanswer.symm⟩, by simp [Halts]⟩

end Task

/-! ## Parsers

A parser only ever turns a passing result into a failing one.
-/

/-- A log holds at least as many results as a parser wants, counted over all its patterns. -/
def ParserConfig.Satisfied (engine : RegexEngine) (content : String) : ParserConfig → Prop
  | .regex patterns capture minimum => ∃ ansi regexes, engine ansiPattern = .ok ansi ∧
      List.Forall₂ (fun pattern regex => engine pattern = .ok regex) patterns regexes ∧
      minimum ≤ (regexes.flatMap (captured · capture (ansi.replaceAll content ""))).sum

/-- The patterns of a parser can be compiled. -/
def ParserConfig.Compiles (engine : RegexEngine) : ParserConfig → Prop
  | .regex patterns _ _ => ∀ pattern ∈ patterns, ∃ regex, engine pattern = .ok regex

section Parser

variable {engine : RegexEngine}

/-- The count, which may have wrapped, is at most the number of results. -/
theorem countResults_ok {capture : Nat} {normalized : String} {patterns : List String}
    {count total : Nat} (h : countResults engine capture normalized patterns count = .ok total) :
    ∃ regexes, List.Forall₂ (fun pattern regex => engine pattern = .ok regex) patterns regexes ∧
      total ≤ count + (regexes.flatMap (captured · capture normalized)).sum := by
  induction patterns generalizing count with
  | nil =>
    cases h
    exact ⟨[], .nil, Nat.le_add_right _ _⟩
  | cons pattern rest ih =>
    obtain ⟨regex, hregex, hrest⟩ := bind_ok.1 h
    obtain ⟨regexes, hregexes, htotal⟩ := ih hrest
    refine ⟨regex :: regexes, .cons hregex hregexes, ?_⟩
    rw [List.flatMap_cons, List.sum_append]
    have hwrap := Nat.mod_le (captured regex capture normalized).sum (2 ^ 64)
    have hwrap' := Nat.mod_le (count + (captured regex capture normalized).sum % 2 ^ 64) (2 ^ 64)
    omega

theorem countResults_isOk {capture : Nat} {normalized : String} {patterns : List String}
    (h : ∀ pattern ∈ patterns, ∃ regex, engine pattern = .ok regex) (count : Nat) :
    ∃ total, countResults engine capture normalized patterns count = .ok total := by
  induction patterns generalizing count with
  | nil => exact ⟨count, rfl⟩
  | cons pattern rest ih =>
    obtain ⟨regex, hregex⟩ := h pattern List.mem_cons_self
    obtain ⟨total, htotal⟩ := ih (fun p hp => h p (List.mem_cons_of_mem _ hp))
      ((count + (captured regex capture normalized).sum % 2 ^ 64) % 2 ^ 64)
    exact ⟨total, bind_ok.2 ⟨regex, hregex, htotal⟩⟩

variable {parser : ParserConfig} {result judged : TaskResult} {content : String}

/-- What a parser changes of a result, and when it lets it pass. -/
theorem judge_ok (h : judge engine parser result content = .ok judged) :
    judged.label = result.label ∧ judged.timedOut = result.timedOut ∧
      judged.cancelled = result.cancelled ∧
      (judged.passed = true → parser.Satisfied engine content) := by
  obtain ⟨patterns, capture, minimum⟩ := parser
  obtain ⟨counted, hcounted, h₁⟩ := bind_ok.1 h
  obtain ⟨ansi, hansi, h₂⟩ := bind_ok.1 hcounted
  obtain ⟨count, hcount, h₃⟩ := bind_ok.1 h₂
  cases h₃
  simp only at h₁
  split at h₁
  · cases h₁
    exact ⟨rfl, rfl, rfl, fun hpassed => (nomatch hpassed)⟩
  · next hfew =>
    cases h₁
    obtain ⟨regexes, hregexes, htotal⟩ := countResults_ok hcount
    refine ⟨rfl, rfl, rfl, fun _ => ⟨ansi, regexes, hansi, hregexes, ?_⟩⟩
    omega

theorem judge_isOk (hansi : ∃ ansi, engine ansiPattern = .ok ansi) (h : parser.Compiles engine) :
    ∃ judged, judge engine parser result content = .ok judged := by
  obtain ⟨patterns, capture, minimum⟩ := parser
  obtain ⟨ansi, hansi⟩ := hansi
  obtain ⟨count, hcount⟩ := countResults_isOk h 0
  have hcounted : parseResultCount engine content (.regex patterns capture minimum) =
      .ok (count, minimum) := bind_ok.2 ⟨ansi, hansi, bind_ok.2 ⟨count, hcount, rfl⟩⟩
  by_cases hfew : count < minimum
  · exact ⟨_, bind_ok.2 ⟨_, hcounted, if_pos hfew⟩⟩
  · exact ⟨_, bind_ok.2 ⟨_, hcounted, if_neg hfew⟩⟩

end Parser

/-! ## Commands with parsers

The result of a command and what its parser makes of the log.
-/

section Execute

variable {engine : RegexEngine} {task : Task} {parser : Option ParserConfig} {t : List Exchange}

theorem parsed_ok {result judged : TaskResult}
    (h : (parsed engine parser result).Trace t (.ok judged)) :
    judged.label = result.label ∧ judged.timedOut = result.timedOut ∧
      judged.cancelled = result.cancelled ∧ (judged.passed = true → result.passed = true ∧
        ∀ p, parser = some p →
          ∃ content, ⟨.readLog result.log, content⟩ ∈ t ∧ p.Satisfied engine content) := by
  unfold parsed at h
  split at h
  · next p hpassed =>
    obtain ⟨content, rest, rfl, h₁⟩ := trace_query_bind.1 h
    obtain ⟨rfl, hjudge⟩ := trace_lift.1 h₁
    obtain ⟨hlabel, htimedOut, hcancelled, hsatisfied⟩ := judge_ok hjudge.symm
    refine ⟨hlabel, htimedOut, hcancelled, fun hp => ⟨hpassed, fun q hq => ?_⟩⟩
    cases hq
    exact ⟨content, by simp, hsatisfied hp⟩
  · next hnot =>
    obtain ⟨rfl, heq⟩ := trace_pure.1 h
    cases heq
    exact ⟨rfl, rfl, rfl, fun hp => ⟨hp, fun p hparser => absurd hparser (hnot p hp)⟩⟩

/-- **A command that was run leaves a result**, which passes only if everything went well. -/
theorem execute_ok {result : TaskResult} (h : (execute engine task parser).Trace t (.ok result)) :
    ∃ ended, ⟨.wait task, .ok ended⟩ ∈ t ∧ result.label = task.label ∧
      result.timedOut = ended.isTimedOut ∧
      (result.passed = true → ended = .exited ⟨some 0⟩ ∧ ∀ p, parser = some p →
        ∃ content, ⟨.readLog task.log, content⟩ ∈ t ∧ p.Satisfied engine content) := by
  obtain ⟨_, _, ran, rfl, hrun, h₁⟩ := trace_bind_ok.1 h
  obtain ⟨_, _, judged, rfl, hparsed, h₂⟩ := trace_bind_ok.1 h₁
  obtain ⟨started, now, ended, rfl, rfl⟩ := taskRun_ok hrun
  obtain ⟨hlabel, htimedOut, _, hpassed⟩ := parsed_ok hparsed
  split at h₂
  · cases (trace_throw.1 h₂).2
  · obtain ⟨rfl, heq⟩ := trace_pure.1 h₂
    cases heq
    refine ⟨ended, by simp, hlabel.trans (by simp), htimedOut.trans (by simp), fun hp => ?_⟩
    obtain ⟨hsuccess, hsatisfied⟩ := hpassed hp
    rw [Task.result_passed, Ended.success_iff] at hsuccess
    refine ⟨hsuccess, fun p hparser => ?_⟩
    obtain ⟨content, hread, hcontent⟩ := hsatisfied p hparser
    rw [Task.result_log] at hread
    exact ⟨content, by simp [hread], hcontent⟩

/-- **Only a command that cannot be run, or a cancellation, ends the verification**: a parser that
was validated has a result for every log. -/
theorem execute_error {error : Error} (hansi : ∃ ansi, engine ansiPattern = .ok ansi)
    (hparser : ∀ p, parser = some p → p.Compiles engine)
    (h : (execute engine task parser).Trace t (.error error)) : ∃ x ∈ t, Aborts x := by
  rcases trace_bind.1 h with ⟨t₁, t₂, ran, rfl, hrun, h₁⟩ | ⟨_, hrun, _⟩
  · obtain ⟨started, now, ended, rfl, rfl⟩ := taskRun_ok hrun
    rcases trace_bind.1 h₁ with ⟨_, _, judged, rfl, hparsed, h₂⟩ | ⟨error, hparsed, _⟩
    · obtain ⟨_, _, hcancelled, _⟩ := parsed_ok hparsed
      split at h₂
      · next hc =>
        rw [hcancelled, Task.result_cancelled] at hc
        obtain ⟨status, rfl⟩ := hc
        exact ⟨⟨.wait task, .ok (.cancelled status)⟩, by simp, .inl ⟨status, rfl⟩⟩
      · cases (trace_pure.1 h₂).2
    · unfold parsed at hparsed
      split at hparsed
      · next p _ =>
        obtain ⟨content, rest, rfl, h₃⟩ := trace_query_bind.1 hparsed
        obtain ⟨judged, hjudged⟩ : ∃ judged,
            judge engine p (task.result ended (now - started)) content = .ok judged :=
          judge_isOk hansi (hparser p rfl)
        rw [hjudged] at h₃
        cases (trace_lift.1 h₃).2
      · cases (trace_pure.1 hparsed).2
  · obtain ⟨⟨x, hx, hun⟩, _⟩ := taskRun_error hrun
    exact ⟨x, hx, .inr hun⟩

/-- A parser reads a log, which ends nothing. -/
theorem parsed_harmless {result : TaskResult} : (parsed engine parser result).Asks Call.Harmless := by
  unfold parsed
  split
  · exact .bind (asks_query.2 fun _ => not_or.2 ⟨id, id⟩) fun _ => asks_lift
  · exact asks_pure

/-- A command that was run and not cancelled has ended nothing. -/
theorem taskRun_quiet {result : TaskResult} (h : task.run.Trace t (.ok result)) :
    (∀ x ∈ t, ¬Unrunnable x) ∧ (result.cancelled ≠ true → ∀ x ∈ t, ¬Halts x) := by
  obtain ⟨started, now, ended, rfl, rfl⟩ := taskRun_ok h
  constructor
  · simp [Unrunnable]
  · intro hcancelled x hx hhalts
    rw [Ne, Task.result_cancelled] at hcancelled
    simp only [List.mem_cons, List.not_mem_nil, or_false] at hx
    rcases hx with rfl | rfl | rfl | rfl | rfl
    · exact hhalts
    · exact hhalts
    · exact hhalts
    · obtain ⟨status, hended⟩ := hhalts
      exact hcancelled ⟨status, Except.ok.inj hended⟩
    · exact hhalts

theorem endsOnce_execute : EndsOnce (execute engine task parser) where
  ok h x hx := by
    obtain ⟨t₁, _, ran, rfl, hrun, h₁⟩ := trace_bind_ok.1 h
    obtain ⟨t₂, _, judged, rfl, hparsed, h₂⟩ := trace_bind_ok.1 h₁
    obtain ⟨_, _, hcancelled, _⟩ := parsed_ok hparsed
    split at h₂
    · cases (trace_throw.1 h₂).2
    · next hnot =>
      obtain ⟨rfl, _⟩ := trace_pure.1 h₂
      obtain ⟨hrunnable, hquiet⟩ := taskRun_quiet hrun
      rw [List.append_nil] at hx
      rcases List.mem_append.1 hx with hx | hx
      · exact not_or.2 ⟨hquiet (by rwa [← hcancelled]) x hx, hrunnable x hx⟩
      · exact parsed_harmless.mem hparsed hx _
  unrunnable h hex := by
    rcases trace_bind.1 h with ⟨t₁, _, ran, rfl, hrun, h₁⟩ | ⟨_, hrun, _⟩
    · -- the command was run: neither it nor its parser is to blame
      obtain ⟨x, hx, hun⟩ := hex
      have hrest : (do
          let result ← parsed engine parser ran
          if result.cancelled then bail "verification cancelled" else pure result :
            Flow TaskResult).Asks Call.Harmless := by
        refine .bind parsed_harmless fun result => ?_
        split
        · exact asks_throw
        · exact asks_pure
      rcases List.mem_append.1 hx with hx | hx
      · exact absurd hun ((taskRun_quiet hrun).1 x hx)
      · exact absurd (.inr hun) (hrest.mem h₁ hx _)
    · exact (taskRun_error hrun).2

end Execute

/-! ## Services

What the manager knows is what has been exchanged with the outside.
-/

/-- A service has been started, and is reached by the value of the variable that it injects. -/
def Started (config : FlowConfig) (t : List Exchange) (id : String) (value : String × String) : Prop :=
  ∃ service, config.service id = some service ∧ ⟨.startService id service, .ok value⟩ ∈ t

/-- A service could not be started. -/
def ServiceFailed (t : List Exchange) (id : String) : Prop :=
  ∃ service error, ⟨.startService id service, .error error⟩ ∈ t

/-- A service is up: it has been started, and never failed to start. -/
def Up (config : FlowConfig) (t : List Exchange) (id : String) (value : String × String) : Prop :=
  Started config t id value ∧ ¬ServiceFailed t id

/-- The manager knows what became of every service that was asked for, and no service is asked for
twice: what runs has not failed. -/
structure Agrees (config : FlowConfig) (services : ServiceManager) (t : List Exchange) : Prop where
  running : ∀ {id value}, services.running.lookup id = some value →
    Started config t id value ∧ services.failures.lookup id = none
  failures : ∀ {id}, ServiceFailed t id → (services.failures.lookup id).isSome = true
  failed : ∀ {id}, (services.failures.lookup id).isSome = true → ServiceFailed t id

/-- A service that is running in `services` still runs in `services'`. -/
def Keeps (services services' : ServiceManager) : Prop :=
  ∀ {id value}, services.running.lookup id = some value → services'.running.lookup id = some value

section Services

variable {config : FlowConfig} {id : String} {value : String × String}
  {services services' : ServiceManager} {t before : List Exchange}

theorem Keeps.refl : Keeps services services := fun h => h

theorem Keeps.trans {services'' : ServiceManager} (h : Keeps services services')
    (h' : Keeps services' services'') : Keeps services services'' := fun hid => h' (h hid)

theorem Started.append (h : Started config before id value) (t : List Exchange) :
    Started config (before ++ t) id value :=
  h.imp fun _ hx => ⟨hx.1, List.mem_append_left _ hx.2⟩

theorem ServiceFailed.append (h : ServiceFailed before id) (t : List Exchange) :
    ServiceFailed (before ++ t) id :=
  h.imp fun _ => Exists.imp fun _ hx => List.mem_append_left _ hx

/-- What the manager has running is up. -/
theorem Agrees.up (h : Agrees config services t) (hid : services.running.lookup id = some value) :
    Up config t id value := by
  obtain ⟨hstarted, hnone⟩ := h.running hid
  refine ⟨hstarted, fun hfailed => ?_⟩
  have hsome := h.failures hfailed
  rw [hnone] at hsome
  cases hsome

/-- Calls that start no service change nothing. -/
theorem Agrees.append (h : Agrees config services before) (ht : ∀ x ∈ t, ¬x.1.OfService) :
    Agrees config services (before ++ t) where
  running hid := ⟨(h.running hid).1.append t, (h.running hid).2⟩
  failures := by
    rintro id ⟨service, error, hx⟩
    rcases List.mem_append.1 hx with hx | hx
    · exact h.failures ⟨service, error, hx⟩
    · exact absurd trivial (ht _ hx)
  failed hid := (h.failed hid).append t

/-- A service that is asked for the first time and could be started. -/
theorem Agrees.note_ok (h : Agrees config services before) {service : ServiceConfig}
    (hconfig : config.service id = some service) (hfailures : services.failures.lookup id = none)
    (value : String × String) :
    Agrees config (services.note id (.ok value))
      (before ++ [⟨.startService id service, .ok value⟩]) where
  running {id'} {value'} hid := by
    change List.lookup id' ((id, value) :: services.running) = some value' at hid
    rw [List.lookup_cons] at hid
    split at hid
    · next heq =>
      obtain rfl := beq_iff_eq.1 heq
      cases hid
      exact ⟨⟨service, hconfig, by simp⟩, hfailures⟩
    · exact ⟨(h.running hid).1.append _, (h.running hid).2⟩
  failures := by
    rintro id' ⟨service', error, hx⟩
    rcases List.mem_append.1 hx with hx | hx
    · exact h.failures ⟨service', error, hx⟩
    · cases List.mem_singleton.1 hx
  failed hid := (h.failed hid).append _

/-- A service that is asked for the first time and could not be started. -/
theorem Agrees.note_error (h : Agrees config services before) {service : ServiceConfig}
    (hrunning : services.running.lookup id = none) (detail : Error) :
    Agrees config (services.note id (.error detail))
      (before ++ [⟨.startService id service, .error detail⟩]) where
  running {id'} {value'} hid := by
    refine ⟨(h.running hid).1.append _, ?_⟩
    show List.lookup id' ((id, detail) :: services.failures) = none
    rw [List.lookup_cons]
    split
    · next heq =>
      obtain rfl := beq_iff_eq.1 heq
      cases hrunning.symm.trans hid
    · exact (h.running hid).2
  failures := by
    rintro id' ⟨service', error, hx⟩
    show (List.lookup id' ((id, detail) :: services.failures)).isSome = true
    rw [List.lookup_cons]
    split
    · rfl
    · next hne =>
      rcases List.mem_append.1 hx with hx | hx
      · exact h.failures ⟨service', error, hx⟩
      · cases List.mem_singleton.1 hx
        simp at hne
  failed {id'} hid := by
    change (List.lookup id' ((id, detail) :: services.failures)).isSome = true at hid
    rw [List.lookup_cons] at hid
    split at hid
    · next heq =>
      obtain rfl := beq_iff_eq.1 heq
      exact ⟨service, detail, by simp⟩
    · exact (h.failed hid).append _

theorem keeps_note (hrunning : services.running.lookup id = none)
    (started : Except Error (String × String)) : Keeps services (services.note id started) := by
  intro id' value' hid
  cases started with
  | ok value =>
    show List.lookup id' ((id, value) :: services.running) = some value'
    rw [List.lookup_cons]
    split
    · next heq =>
      obtain rfl := beq_iff_eq.1 heq
      cases hrunning.symm.trans hid
    · exact hid
  | error detail => exact hid

/-- **A service is started once**: one that runs is handed out again, one that failed stays
failed. -/
theorem environment_ok {result : Except Error (String × String)}
    (hknown : (config.service id).isSome = true) (hagrees : Agrees config services before)
    (h : (services.environment config id).Trace t (.ok (result, services'))) :
    Agrees config services' (before ++ t) ∧ Keeps services services' ∧
      (∀ value, result = .ok value → services'.running.lookup id = some value) ∧
      ∀ error, result = .error error → ServiceFailed (before ++ t) id := by
  unfold ServiceManager.environment at h
  split at h
  · next detail _ _ hfailed =>
    -- it has failed before
    obtain ⟨rfl, heq⟩ := trace_pure.1 h
    cases heq
    refine ⟨by rwa [List.append_nil], Keeps.refl, fun _ heq => (nomatch heq), fun _ _ =>
      (hagrees.failed ?_).append _⟩
    rw [hfailed]
    rfl
  · next service _ hrunning =>
    -- it has been started before
    obtain ⟨rfl, heq⟩ := trace_pure.1 h
    cases heq
    refine ⟨by rwa [List.append_nil], Keeps.refl, fun value heq => ?_, fun _ heq => (nomatch heq)⟩
    cases heq
    exact hrunning
  · next hnone =>
    rw [hnone] at hknown
    cases hknown
  · next service hfailures hrunning hconfig =>
    -- it is asked for the first time
    obtain ⟨started, rest, rfl, h₁⟩ := trace_query_bind.1 h
    obtain ⟨rfl, heq⟩ := trace_pure.1 h₁
    cases heq
    cases result with
    | ok value =>
      refine ⟨hagrees.note_ok hconfig hfailures value, keeps_note hrunning _, fun _ heq => ?_,
        fun _ heq => (nomatch heq)⟩
      cases heq
      exact List.lookup_cons_self
    | error detail =>
      exact ⟨hagrees.note_error hrunning detail, keeps_note hrunning _, fun _ heq => (nomatch heq),
        fun _ _ => ⟨service, detail, by simp⟩⟩

/-- The services of a step, up to the first that fails. -/
theorem serviceEnvironment_ok {ids : List String} {env : List (String × String)}
    {result : Except (String × Error) (List (String × String))}
    (hknown : ∀ id ∈ ids, (config.service id).isSome = true)
    (hagrees : Agrees config services before)
    (h : (serviceEnvironment config ids services env).Trace t (.ok (result, services'))) :
    Agrees config services' (before ++ t) ∧ Keeps services services' ∧
      (∀ all, result = .ok all → ∃ values, all = env ++ values ∧
        List.Forall₂ (fun id value => services'.running.lookup id = some value) ids values) ∧
      ∀ id error, result = .error (id, error) → id ∈ ids ∧ ServiceFailed (before ++ t) id := by
  induction ids generalizing services before t env with
  | nil =>
    obtain ⟨rfl, heq⟩ := trace_pure.1 h
    cases heq
    refine ⟨by rwa [List.append_nil], Keeps.refl, fun all heq => ?_, fun _ _ heq => (nomatch heq)⟩
    cases heq
    exact ⟨[], (List.append_nil _).symm, .nil⟩
  | cons id rest ih =>
    obtain ⟨hid, hrest⟩ := List.forall_mem_cons.1 hknown
    obtain ⟨t₁, t₂, ⟨started, services₁⟩, rfl, henv, h₁⟩ := trace_bind_ok.1 h
    obtain ⟨hagrees₁, hkeeps₁, hstarted, hfailed⟩ := environment_ok hid hagrees henv
    cases started with
    | error error =>
      obtain ⟨rfl, heq⟩ := trace_pure.1 h₁
      cases heq
      refine ⟨by rwa [List.append_nil], hkeeps₁, fun _ heq => (nomatch heq), fun id' _ heq => ?_⟩
      cases heq
      rw [List.append_nil]
      exact ⟨List.mem_cons_self, hfailed _ rfl⟩
    | ok value =>
      obtain ⟨hagrees₂, hkeeps₂, hall, hfailed₂⟩ := ih hrest hagrees₁ h₁
      rw [List.append_assoc] at hagrees₂ hfailed₂
      refine ⟨hagrees₂, hkeeps₁.trans hkeeps₂, fun all heq => ?_, fun id' error heq => ?_⟩
      · obtain ⟨values, rfl, hvalues⟩ := hall all heq
        exact ⟨value :: values, by simp, .cons (hkeeps₂ (hstarted value rfl)) hvalues⟩
      · obtain ⟨hmem, hf⟩ := hfailed₂ id' error heq
        exact ⟨List.mem_cons_of_mem _ hmem, hf⟩

theorem asks_environment : (services.environment config id).Asks Call.OfService := by
  unfold ServiceManager.environment
  split
  · exact asks_pure
  · exact asks_pure
  · exact asks_pure
  · exact .bind (asks_query.2 trivial) fun _ => asks_pure

theorem environment_ne_error {error : Error} :
    ¬(services.environment config id).Trace t (.error error) := by
  intro h
  unfold ServiceManager.environment at h
  split at h
  · cases (trace_pure.1 h).2
  · cases (trace_pure.1 h).2
  · cases (trace_pure.1 h).2
  · obtain ⟨_, _, rfl, h₁⟩ := trace_query_bind.1 h
    cases (trace_pure.1 h₁).2

theorem serviceEnvironment_ne_error {ids : List String} {env : List (String × String)}
    {error : Error} : ¬(serviceEnvironment config ids services env).Trace t (.error error) := by
  intro h
  induction ids generalizing services t env with
  | nil => cases (trace_pure.1 h).2
  | cons id rest ih =>
    rcases trace_bind.1 h with ⟨t₁, t₂, ⟨started, services₁⟩, rfl, _, h₁⟩ | ⟨_, h₁, _⟩
    · cases started with
      | error error => cases (trace_pure.1 h₁).2
      | ok value => exact ih h₁
    · exact environment_ne_error h₁

theorem asks_serviceEnvironment {ids : List String} {env : List (String × String)} :
    (serviceEnvironment config ids services env).Asks Call.OfService := by
  induction ids generalizing services env with
  | nil => exact asks_pure
  | cons id rest ih =>
    refine .bind asks_environment fun (started, services₁) => ?_
    cases started with
    | error error => exact asks_pure
    | ok value => exact ih

end Services

/-! ## Steps

One step, and the loop over the steps.
-/

/-- The log that a step has left holds what its parser wants. -/
def LogSuffices (engine : RegexEngine) (project : Project) (step : StepConfig)
    (t : List Exchange) : Prop :=
  ∀ id, step.parser = some id → ∃ parser content, project.config.parser id = some parser ∧
    ⟨.readLog (log project step.log), content⟩ ∈ t ∧ parser.Satisfied engine content

/-- **The result of a step says what happened when the step was run.** `up` and `failed` say what
became of the services: a command is started only with all services of its step up, and gets what
they inject. -/
inductive Recorded (engine : RegexEngine) (project : Project) (up : String → String × String → Prop)
    (failed : String → Prop) (step : StepConfig) : List Exchange × TaskResult → Prop
  /-- a service that the step requires failed, and no command was started -/
  | setup {t : List Exchange} (service : String) (error : Error) (hservice : service ∈ step.services)
      (hfailed : failed service) (hspawn : ∀ task answer, ⟨.spawn task, answer⟩ ∉ t) :
      Recorded engine project up failed step (t, setupFailed step service error)
  /-- the command of the step was run -/
  | command {t : List Exchange} {result : TaskResult} (env : List (String × String)) (ended : Ended)
      (hup : List.Forall₂ up step.services env)
      (hwait : ⟨.wait (configuredTask project step env), .ok ended⟩ ∈ t)
      (hlabel : result.label = step.label) (htimedOut : result.timedOut = ended.isTimedOut)
      (hpassed : result.passed = true →
        ended = .exited ⟨some 0⟩ ∧ LogSuffices engine project step t) :
      Recorded engine project up failed step (t, result)

theorem Recorded.mono {engine : RegexEngine} {project : Project} {step : StepConfig}
    {up up' : String → String × String → Prop} {failed failed' : String → Prop}
    {run : List Exchange × TaskResult} (h : Recorded engine project up failed step run)
    (hup : ∀ id value, up id value → up' id value) (hfailed : ∀ id, failed id → failed' id) :
    Recorded engine project up' failed' step run := by
  cases h with
  | setup service error hservice hf hspawn => exact .setup service error hservice (hfailed _ hf) hspawn
  | command env ended hu hwait hlabel htimedOut hpassed =>
    exact .command env ended (hu.imp hup) hwait hlabel htimedOut hpassed

section Steps

variable {engine : RegexEngine} {project : Project} {step : StepConfig}
  {services services' : ServiceManager} {t before : List Exchange} {result : TaskResult}

/-- The parser and the services of a step are configured. -/
structure Configured (config : FlowConfig) (step : StepConfig) : Prop where
  parser : ∀ id, step.parser = some id → (config.parser id).isSome = true
  services : ∀ id ∈ step.services, (config.service id).isSome = true

/-- **One step** leaves one result. -/
theorem runStep_ok (hstep : Configured project.config step)
    (hagrees : Agrees project.config services before)
    (h : (runStep engine project services step).Trace t (.ok (result, services'))) :
    Agrees project.config services' (before ++ t) ∧ Keeps services services' ∧
      Recorded engine project (fun id value => services'.running.lookup id = some value)
        (ServiceFailed (before ++ t)) step (t, result) := by
  obtain ⟨cancelled, t', rfl, h₁⟩ := trace_query_bind.1 h
  split at h₁
  · cases (trace_throw.1 h₁).2
  · obtain ⟨t₁, t₂, ⟨environment, services₁⟩, rfl, henv, h₂⟩ := trace_bind_ok.1 h₁
    have hagrees' : Agrees project.config services (before ++ [⟨.cancelled, cancelled⟩]) :=
      hagrees.append fun x hx => by cases List.mem_singleton.1 hx; exact id
    obtain ⟨hagrees₁, hkeeps, hall, hfail⟩ := serviceEnvironment_ok hstep.services hagrees' henv
    cases environment with
    -- a service is not up: the step is recorded without its command
    | error failed =>
      obtain ⟨service, error⟩ := failed
      obtain ⟨rfl, heq⟩ := trace_pure.1 h₂
      cases heq
      obtain ⟨hservice, hfailed⟩ := hfail service error rfl
      refine ⟨by simpa using hagrees₁, hkeeps, .setup service error hservice
        (by simpa using hfailed) ?_⟩
      intro task answer hspawn
      rw [List.append_nil] at hspawn
      rcases List.mem_cons.1 hspawn with heq | hspawn
      · cases heq
      · exact asks_serviceEnvironment.mem henv hspawn
    -- all are up, and their values are in the environment of the command
    | ok env =>
      obtain ⟨t₃, _, ran, rfl, hexecute, h₃⟩ := trace_bind_ok.1 h₂
      obtain ⟨rfl, heq⟩ := trace_pure.1 h₃
      cases heq
      obtain ⟨_, rfl, hvalues⟩ := hall env rfl
      have hagrees₂ := hagrees₁.append fun x hx => (asks_execute.mem hexecute hx).not_ofService
      refine ⟨by simpa using hagrees₂, hkeeps, ?_⟩
      obtain ⟨ended, hwait, hlabel, htimedOut, hpassed⟩ := execute_ok hexecute
      refine .command env ended hvalues (by simp [hwait]) hlabel htimedOut fun hp => ?_
      -- a passing result: the command exited with zero, and the parser accepted its log
      obtain ⟨hexited, hlog⟩ := hpassed hp
      refine ⟨hexited, fun id hid => ?_⟩
      obtain ⟨parser, hknown⟩ := Option.isSome_iff_exists.1 (hstep.parser id hid)
      obtain ⟨content, hread, hcontent⟩ := hlog parser (by rw [hid]; exact hknown)
      have hlogged : (⟨.readLog (log project step.log), content⟩ : Exchange) ∈ t₃ := hread
      exact ⟨parser, content, hknown, by simp [hlogged], hcontent⟩

/-- A step that did not pass does not end the verification, unless its command could not be run
or the verification was cancelled. -/
theorem runStep_error {error : Error} (hansi : ∃ ansi, engine ansiPattern = .ok ansi)
    (hparsers : ∀ id parser, project.config.parser id = some parser → parser.Compiles engine)
    (h : (runStep engine project services step).Trace t (.error error)) : ∃ x ∈ t, Aborts x := by
  obtain ⟨cancelled, t', rfl, h₁⟩ := trace_query_bind.1 h
  split at h₁
  · next hcancelled => exact ⟨⟨.cancelled, cancelled⟩, List.mem_cons_self, .inl hcancelled⟩
  · rcases trace_bind.1 h₁ with ⟨t₁, t₂, ⟨environment, services₁⟩, rfl, _, h₂⟩ | ⟨_, henv, _⟩
    · cases environment with
      | error failed => cases (trace_pure.1 h₂).2
      | ok env =>
        rcases trace_bind.1 h₂ with ⟨_, _, _, rfl, _, h₃⟩ | ⟨_, hexecute, _⟩
        · cases (trace_pure.1 h₃).2
        · have hcompiles : ∀ p, step.parser.bind project.config.parser = some p →
              p.Compiles engine := by
            intro p hp
            obtain ⟨id, _, hknown⟩ := Option.bind_eq_some_iff.1 hp
            exact hparsers id p hknown
          obtain ⟨x, hx, haborts⟩ := execute_error hansi hcompiles hexecute
          exact ⟨x, by simp [hx], haborts⟩
    · exact absurd henv serviceEnvironment_ne_error

theorem endsOnce_runStep : EndsOnce (runStep engine project services step) := by
  refine .unlessCancelled (.bind (.of_asks ?_) fun (environment, services₁) => ?_)
  · exact asks_serviceEnvironment.imp fun _ hcall => hcall.harmless
  · cases environment with
    | error failed => exact .pure
    | ok env => exact .bind endsOnce_execute fun _ => .pure

variable {steps : List StepConfig} {results results' : List TaskResult}

/-- **The loop over the steps** runs them all, one after the other, and adds one result for each. -/
theorem runSteps_ok (hsteps : ∀ step ∈ steps, Configured project.config step)
    (hagrees : Agrees project.config services before)
    (h : (runSteps engine project steps services results).Trace t (.ok results')) :
    ∃ (runs : List (List Exchange × TaskResult)) (final : ServiceManager),
      results' = results ++ runs.map (·.2) ∧ t = (runs.map (·.1)).flatten ∧
      Agrees project.config final (before ++ t) ∧ Keeps services final ∧
      List.Forall₂ (Recorded engine project (fun id value => final.running.lookup id = some value)
        (ServiceFailed (before ++ t))) steps runs := by
  induction steps generalizing services before results t with
  | nil =>
    obtain ⟨rfl, heq⟩ := trace_pure.1 h
    cases heq
    exact ⟨[], services, (List.append_nil _).symm, rfl, by rwa [List.append_nil], Keeps.refl, .nil⟩
  | cons step rest ih =>
    obtain ⟨t₁, t₂, ⟨result, services₁⟩, rfl, hstep, h₁⟩ := trace_bind_ok.1 h
    obtain ⟨hknown, hrest⟩ := List.forall_mem_cons.1 hsteps
    obtain ⟨hagrees₁, hkeeps₁, hrecorded⟩ := runStep_ok hknown hagrees hstep
    obtain ⟨runs, final, hresults, rfl, hagrees₂, hkeeps₂, hruns⟩ := ih hrest hagrees₁ h₁
    rw [List.append_assoc] at hagrees₂ hruns
    refine ⟨(t₁, result) :: runs, final, ?_, rfl, hagrees₂, hkeeps₁.trans hkeeps₂,
      .cons (hrecorded.mono (fun _ _ hid => hkeeps₂ hid) fun _ hfailed => ?_) hruns⟩
    · rw [hresults, List.append_assoc]
      rfl
    · -- a service that has failed has failed for good
      rw [← List.append_assoc]
      exact hfailed.append _

theorem runSteps_error {error : Error} (hansi : ∃ ansi, engine ansiPattern = .ok ansi)
    (hparsers : ∀ id parser, project.config.parser id = some parser → parser.Compiles engine)
    (h : (runSteps engine project steps services results).Trace t (.error error)) :
    ∃ x ∈ t, Aborts x := by
  induction steps generalizing services results t with
  | nil => cases (trace_pure.1 h).2
  | cons step rest ih =>
    rcases trace_bind.1 h with ⟨t₁, t₂, _, rfl, _, h₁⟩ | ⟨_, hstep, _⟩
    · obtain ⟨x, hx, haborts⟩ := ih h₁
      exact ⟨x, List.mem_append_right _ hx, haborts⟩
    · exact runStep_error hansi hparsers hstep

theorem endsOnce_runSteps : EndsOnce (runSteps engine project steps services results) := by
  induction steps generalizing services results with
  | nil => exact .pure
  | cons step rest ih => exact .bind endsOnce_runStep fun _ => ih

end Steps

/-! ## Validated configurations

What validation guarantees of the steps, services and parsers.
-/

section Validated

variable {engine : RegexEngine} {config : FlowConfig}

/-- A parser that was validated compiles. -/
theorem compiles_of_validate (h : config.validate engine = .ok ()) {id : String}
    {parser : ParserConfig} (hparser : config.parser id = some parser) :
    parser.Compiles engine := by
  obtain ⟨_, hparsers, _⟩ := bind_ok.1 h
  obtain ⟨patterns, capture, minimum⟩ := parser
  obtain ⟨before, after, hsplit, _⟩ := List.lookup_eq_some_iff.1 hparser
  have hmem : (id, ParserConfig.regex patterns capture minimum) ∈ config.parsers := by
    rw [hsplit]
    exact List.mem_append_right _ List.mem_cons_self
  obtain ⟨_, _, hpatterns⟩ := bind_ok.1 (forM_ok.1 hparsers _ hmem)
  intro pattern hpattern
  obtain ⟨regex, hregex, _⟩ := bind_ok.1 (forM_ok.1 hpatterns pattern hpattern)
  exact ⟨regex, context_ok.1 hregex⟩

theorem validateStep_of_each {steps : List StepConfig} {ids : List String}
    (h : config.validateEachStep steps ids = .ok ()) :
    ∀ step ∈ steps, config.validateStep step = .ok () := by
  induction steps generalizing ids with
  | nil => exact fun step hstep => (nomatch hstep)
  | cons step rest ih =>
    obtain ⟨_, _, h₁⟩ := bind_ok.1 h
    obtain ⟨_, hstep, hrest⟩ := bind_ok.1 h₁
    exact List.forall_mem_cons.2 ⟨hstep, ih hrest⟩

/-- The services of a step that was validated are configured. -/
theorem services_of_validate {step : StepConfig} {ids seen envs : List String}
    (h : config.validateStepServices step ids seen envs = .ok ()) :
    ∀ id ∈ ids, (config.service id).isSome = true := by
  induction ids generalizing seen envs with
  | nil => exact fun id hid => (nomatch hid)
  | cons service rest ih =>
    obtain ⟨_, _, h₁⟩ := bind_ok.1 h
    split at h₁
    · cases h₁
    · next serviceConfig hknown =>
      obtain ⟨_, _, h₂⟩ := bind_ok.1 h₁
      obtain ⟨_, _, h₃⟩ := bind_ok.1 h₂
      exact List.forall_mem_cons.2 ⟨by rw [hknown]; rfl, ih h₃⟩

/-- **A step that was validated names a parser and services that there are.** -/
theorem configured_of_validate (h : config.validate engine = .ok ()) {step : StepConfig}
    (hstep : step ∈ config.steps) : Configured config step := by
  obtain ⟨_, _, hsteps⟩ := bind_ok.1 h
  obtain ⟨_, _, h₁⟩ := bind_ok.1 hsteps
  obtain ⟨_, heach, _⟩ := bind_ok.1 h₁
  obtain ⟨_, _, h₂⟩ := bind_ok.1 (validateStep_of_each heach step hstep)
  obtain ⟨_, _, h₃⟩ := bind_ok.1 h₂
  obtain ⟨_, hknown, hservices⟩ := bind_ok.1 h₃
  refine ⟨fun id hparser => ?_, services_of_validate hservices⟩
  rw [FlowConfig.bailIf_ok, hparser, Option.any_some] at hknown
  cases hlookup : config.parser id with
  | none =>
    rw [hlookup] at hknown
    cases hknown
  | some parser => rfl

end Validated

/-! ## The report

The scan, the audit and the steps together.
-/

section Report

variable {engine : RegexEngine} {project : Project} {scope : ScopeResult} {profile : String}
  {staged : Bool} {onlyStep : Option String} {t : List Exchange}

theorem secretScan_ok {result : TaskResult} (h : (secretScan project staged).Trace t (.ok result)) :
    ∃ (started now : Nat) (findings : List String),
      t = [⟨.instant, started⟩, ⟨.scan (secretMode staged), .ok findings⟩, ⟨.instant, now⟩] ∧
      result.passed = findings.isEmpty := by
  obtain ⟨started, _, rfl, h₁⟩ := trace_query_bind.1 h
  obtain ⟨_, _, findings, rfl, hscan, h₂⟩ := trace_bind_ok.1 h₁
  obtain ⟨now, _, rfl, h₃⟩ := trace_query_bind.1 h₂
  obtain ⟨rfl, heq⟩ := trace_pure.1 h₃
  obtain ⟨_, rfl, hanswer⟩ := trace_attempt.1 hscan
  cases hanswer
  cases heq
  exact ⟨started, now, findings, rfl, rfl⟩

theorem secretScan_error {error : Error} (h : (secretScan project staged).Trace t (.error error)) :
    ∃ x ∈ t, Aborts x := by
  obtain ⟨started, _, rfl, h₁⟩ := trace_query_bind.1 h
  rcases trace_bind.1 h₁ with ⟨_, _, _, rfl, _, h₂⟩ | ⟨error, hscan, _⟩
  · obtain ⟨_, _, rfl, h₃⟩ := trace_query_bind.1 h₂
    cases (trace_pure.1 h₃).2
  · obtain ⟨answer, rfl, hanswer⟩ := trace_attempt.1 hscan
    exact ⟨⟨.scan (secretMode staged), answer⟩, by simp, .inl ⟨error, hanswer.symm⟩⟩

theorem architectureAudit_ok {result : TaskResult} (h : architectureAudit.Trace t (.ok result)) :
    ∃ (started now : Nat) (outcome : AuditOutcome),
      t = [⟨.instant, started⟩, ⟨.audit, .ok outcome⟩, ⟨.instant, now⟩] ∧
      result.passed = (outcome.totalViolations == 0) := by
  obtain ⟨started, _, rfl, h₁⟩ := trace_query_bind.1 h
  obtain ⟨_, _, outcome, rfl, haudit, h₂⟩ := trace_bind_ok.1 h₁
  obtain ⟨now, _, rfl, h₃⟩ := trace_query_bind.1 h₂
  obtain ⟨rfl, heq⟩ := trace_pure.1 h₃
  obtain ⟨_, rfl, hanswer⟩ := trace_attempt.1 haudit
  cases hanswer
  cases heq
  exact ⟨started, now, outcome, rfl, rfl⟩

theorem architectureAudit_error {error : Error} (h : architectureAudit.Trace t (.error error)) :
    ∃ x ∈ t, Aborts x := by
  obtain ⟨started, _, rfl, h₁⟩ := trace_query_bind.1 h
  rcases trace_bind.1 h₁ with ⟨_, _, _, rfl, _, h₂⟩ | ⟨error, haudit, _⟩
  · obtain ⟨_, _, rfl, h₃⟩ := trace_query_bind.1 h₂
    cases (trace_pure.1 h₃).2
  · obtain ⟨answer, rfl, hanswer⟩ := trace_attempt.1 haudit
    exact ⟨⟨.audit, answer⟩, by simp, .inl ⟨error, hanswer.symm⟩⟩

/-- Something was found before the steps. -/
def Found (staged : Bool) (t : List Exchange) : Prop :=
  (∃ findings, findings ≠ [] ∧ ⟨.scan (secretMode staged), .ok findings⟩ ∈ t) ∨
    ∃ outcome : AuditOutcome, outcome.totalViolations ≠ 0 ∧ ⟨.audit, .ok outcome⟩ ∈ t

theorem Found.mono {t' : List Exchange} (h : Found staged t) (ht : ∀ x ∈ t, x ∈ t') :
    Found staged t' :=
  h.imp (fun ⟨findings, hne, hx⟩ => ⟨findings, hne, ht _ hx⟩)
    fun ⟨outcome, hne, hx⟩ => ⟨outcome, hne, ht _ hx⟩

/-- A scan and an audit that found nothing. -/
inductive Clean (staged : Bool) : List Exchange → Prop
  | intro (started scanned next audited : Nat) (outcome : AuditOutcome)
      (houtcome : outcome.totalViolations = 0) :
      Clean staged [⟨.instant, started⟩, ⟨.scan (secretMode staged), .ok []⟩, ⟨.instant, scanned⟩,
        ⟨.instant, next⟩, ⟨.audit, .ok outcome⟩, ⟨.instant, audited⟩]

/-- The scan and the audit let the steps run exactly when they found nothing. -/
theorem gates_ok {results : List TaskResult} (h : (gates project staged).Trace t (.ok results)) :
    (results.all (·.passed) = false ∧ Found staged t) ∨
      ∃ secret audit, results = [secret, audit] ∧ results.all (·.passed) = true ∧
        Clean staged t := by
  obtain ⟨t₁, t₂, secret, rfl, hscan, h₁⟩ := trace_bind_ok.1 h
  obtain ⟨started, scanned, findings, rfl, hsecret⟩ := secretScan_ok hscan
  split at h₁
  · next hpassed =>
    rw [hsecret, List.isEmpty_iff] at hpassed
    subst hpassed
    obtain ⟨t₃, _, audit, rfl, haudit, h₂⟩ := trace_bind_ok.1 h₁
    obtain ⟨rfl, heq⟩ := trace_pure.1 h₂
    obtain ⟨next, audited, outcome, rfl, hpassed⟩ := architectureAudit_ok haudit
    cases heq
    by_cases hzero : outcome.totalViolations = 0
    · refine .inr ⟨secret, audit, rfl, ?_, .intro started scanned next audited outcome hzero⟩
      simp [hsecret, hpassed, hzero]
    · refine .inl ⟨?_, .inr ⟨outcome, hzero, by simp⟩⟩
      simp [hpassed, hzero]
  · next hfailed =>
    obtain ⟨rfl, heq⟩ := trace_pure.1 h₁
    cases heq
    rw [hsecret, List.isEmpty_iff] at hfailed
    refine .inl ⟨?_, .inl ⟨findings, hfailed, by simp⟩⟩
    simpa [hsecret] using hfailed

theorem gates_error {error : Error} (h : (gates project staged).Trace t (.error error)) :
    ∃ x ∈ t, Aborts x := by
  rcases trace_bind.1 h with ⟨t₁, t₂, secret, rfl, _, h₁⟩ | ⟨_, hscan, _⟩
  · split at h₁
    · rcases trace_bind.1 h₁ with ⟨_, _, _, rfl, _, h₂⟩ | ⟨_, haudit, _⟩
      · cases (trace_pure.1 h₂).2
      · obtain ⟨x, hx, haborts⟩ := architectureAudit_error haudit
        exact ⟨x, List.mem_append_right _ hx, haborts⟩
    · cases (trace_pure.1 h₁).2
  · exact secretScan_error hscan

theorem endsOnce_instant : EndsOnce (ask .instant) := .query fun _ => not_or.2 ⟨id, id⟩

theorem endsOnce_gates : EndsOnce (gates project staged) := by
  have hscan : EndsOnce (secretScan project staged) := by
    refine .bind endsOnce_instant fun _ => .bind (.attempt ?_ fun _ h => h.elim) fun _ =>
      .bind endsOnce_instant fun _ => .pure
    rintro _ findings rfl (⟨_, herror⟩ | hun)
    · cases herror
    · exact hun
  have haudit : EndsOnce architectureAudit := by
    refine .bind endsOnce_instant fun _ => .bind (.attempt ?_ fun _ h => h.elim) fun _ =>
      .bind endsOnce_instant fun _ => .pure
    rintro _ outcome rfl (⟨_, herror⟩ | hun)
    · cases herror
    · exact hun
  refine .bind hscan fun secret => ?_
  split
  · exact .bind haudit fun _ => .pure
  · exact .pure

/-- **A verification is ended once.** -/
theorem endsOnce_runSelected :
    EndsOnce (runSelected engine project scope profile staged onlyStep) := by
  refine .bind (.attempt ?_ fun _ h => h.elim) fun _ => .bind endsOnce_gates fun steps =>
    .unlessCancelled (.bind ?_ fun _ => .bind (.query fun _ => not_or.2 ⟨id, id⟩) fun _ =>
      .bind (.attempt ?_ fun _ h => h.elim) fun _ => .pure)
  · rintro _ u rfl (⟨_, herror⟩ | hun)
    · cases herror
    · exact hun
  · unfold unlessFailed
    split
    · exact endsOnce_runSteps
    · exact .pure
  · rintro _ u rfl (⟨_, herror⟩ | hun)
    · cases herror
    · exact hun

/-- The steps that a verification is asked for: those of the components in scope that are in the
profile, or the one that is named. -/
def AskedFor (scope : ScopeResult) (profile : String) (onlyStep : Option String)
    (step : StepConfig) : Prop :=
  step.component ∈ scope.components ∧
    match onlyStep with
    | some id => step.id = id
    | none => profile ∈ step.profiles

/-- **Each configured step that is asked for has one run**, in the order of the configuration, and the
others have none. -/
inductive EachOnce (asked : StepConfig → Prop) (R : StepConfig → List Exchange × TaskResult → Prop) :
    List StepConfig → List (List Exchange × TaskResult) → Prop
  | nil : EachOnce asked R [] []
  | run {step : StepConfig} {run : List Exchange × TaskResult} {steps : List StepConfig}
      {runs : List (List Exchange × TaskResult)} (hasked : asked step) (hrun : R step run)
      (hrest : EachOnce asked R steps runs) : EachOnce asked R (step :: steps) (run :: runs)
  | skip {step : StepConfig} {steps : List StepConfig} {runs : List (List Exchange × TaskResult)}
      (hnot : ¬asked step) (hrest : EachOnce asked R steps runs) :
      EachOnce asked R (step :: steps) runs

theorem eachOnce_of_filter {asked : StepConfig → Prop} {p : StepConfig → Bool}
    {R : StepConfig → List Exchange × TaskResult → Prop} (hp : ∀ step, p step = true ↔ asked step)
    {steps : List StepConfig} {runs : List (List Exchange × TaskResult)}
    (h : List.Forall₂ R (steps.filter p) runs) : EachOnce asked R steps runs := by
  induction steps generalizing runs with
  | nil =>
    cases h
    exact .nil
  | cons step rest ih =>
    by_cases hstep : p step = true
    · rw [List.filter_cons_of_pos hstep] at h
      cases h with
      | cons hrun hrest => exact .run ((hp step).1 hstep) hrun (ih hrest)
    · rw [List.filter_cons_of_neg hstep] at h
      exact .skip (fun hasked => hstep ((hp step).2 hasked)) (ih h)

/-- `selected` keeps the steps that are asked for. -/
theorem selects_iff {step : StepConfig} :
    (scope.components.contains step.component &&
      match onlyStep with
      | some id => step.id == id
      | none => step.profiles.contains profile) = true ↔
      AskedFor scope profile onlyStep step := by
  rw [Bool.and_eq_true, List.contains_iff_mem]
  refine and_congr_right fun _ => ?_
  cases onlyStep with
  | some id => exact beq_iff_eq
  | none => exact List.contains_iff_mem

/-- **A verification that ran the steps**: the scan and the audit found nothing, and each configured
step that is asked for has one result, which says what happened. The report passes if all results
do. -/
def Verified (engine : RegexEngine) (project : Project) (scope : ScopeResult) (profile : String)
    (staged : Bool) (onlyStep : Option String) (t : List Exchange) (report : VerificationReport) :
    Prop :=
  ∃ (secret audit : TaskResult) (runs : List (List Exchange × TaskResult))
    (scanned : List Exchange), Clean staged scanned ∧
    t = ⟨.writeScope scope, .ok ()⟩ :: scanned ++ ⟨.cancelled, false⟩ :: (runs.map (·.1)).flatten ++
      [⟨.utcNow, report.timestamp⟩, ⟨.writeReport report, .ok ()⟩] ∧
    report.steps = secret :: audit :: runs.map (·.2) ∧
    (report.passed = true ↔ ∀ run ∈ runs, run.2.passed = true) ∧
    EachOnce (AskedFor scope profile onlyStep)
      (Recorded engine project (Up project.config (runs.map (·.1)).flatten)
        (ServiceFailed (runs.map (·.1)).flatten)) project.config.steps runs

theorem runConfiguredSteps_ok {results results' : List TaskResult}
    (hvalid : project.config.validate engine = .ok ())
    (h : (runConfiguredSteps engine project scope profile onlyStep results).Trace t
      (.ok results')) :
    ∃ runs : List (List Exchange × TaskResult), results' = results ++ runs.map (·.2) ∧
      t = (runs.map (·.1)).flatten ∧
      EachOnce (AskedFor scope profile onlyStep)
        (Recorded engine project (Up project.config t) (ServiceFailed t)) project.config.steps
        runs := by
  have hsteps : ∀ step ∈ selected project.config scope profile onlyStep,
      Configured project.config step :=
    fun step hstep => configured_of_validate hvalid (List.mem_filter.1 hstep).1
  have hnew : Agrees project.config ServiceManager.new [] :=
    ⟨fun hid => (nomatch hid), fun ⟨_, _, hx⟩ => (nomatch hx), fun hid => (nomatch hid)⟩
  obtain ⟨runs, final, hresults, htrace, hagrees, _, hruns⟩ := runSteps_ok hsteps hnew h
  rw [List.nil_append] at hagrees hruns
  refine ⟨runs, hresults, htrace, eachOnce_of_filter (fun _ => selects_iff) (hruns.imp ?_)⟩
  exact fun step run hrun => hrun.mono (fun _ _ hid => hagrees.up hid) fun _ hfailed => hfailed

/-- A report says what was found: either the scan or the audit found something, and it does not pass,
or each step that was asked for has its result. -/
theorem runSelected_ok (hvalid : project.config.validate engine = .ok ())
    {report : VerificationReport}
    (h : (runSelected engine project scope profile staged onlyStep).Trace t (.ok report)) :
    (report.passed = false ∧ Found staged t) ∨
      Verified engine project scope profile staged onlyStep t report := by
  obtain ⟨_, _, _, rfl, hscope, h₁⟩ := trace_bind_ok.1 h
  obtain ⟨scanned, _, gated, rfl, hgates, h₂⟩ := trace_bind_ok.1 h₁
  obtain ⟨cancelled, _, rfl, h₃⟩ := trace_query_bind.1 h₂
  split at h₃
  · cases (trace_throw.1 h₃).2
  · next hcancelled =>
    obtain ⟨ran, _, steps, rfl, hsteps, h₄⟩ := trace_bind_ok.1 h₃
    obtain ⟨timestamp, _, rfl, h₅⟩ := trace_query_bind.1 h₄
    obtain ⟨_, _, _, rfl, hreport, h₆⟩ := trace_bind_ok.1 h₅
    obtain ⟨rfl, heq⟩ := trace_pure.1 h₆
    cases heq
    obtain ⟨_, rfl, hwritten⟩ := trace_attempt.1 hscope
    obtain ⟨_, rfl, hreported⟩ := trace_attempt.1 hreport
    cases hwritten
    cases hreported
    rw [Bool.not_eq_true] at hcancelled
    subst hcancelled
    rcases gates_ok hgates with ⟨hfailed, hfound⟩ | ⟨secret, audit, rfl, hpassed, hclean⟩
    · -- something was found, and the steps were not run
      have hskipped : steps = gated := by
        unfold unlessFailed at hsteps
        rw [hfailed] at hsteps
        exact Except.ok.inj (trace_pure.1 hsteps).2
      subst hskipped
      exact .inl ⟨hfailed, hfound.mono fun x hx => by simp [hx]⟩
    · unfold unlessFailed at hsteps
      rw [if_pos hpassed] at hsteps
      obtain ⟨runs, rfl, rfl, hruns⟩ := runConfiguredSteps_ok hvalid hsteps
      refine .inr ⟨secret, audit, runs, scanned, hclean, by simp, rfl, ?_, hruns⟩
      show ([secret, audit] ++ runs.map (·.2)).all (·.passed) = true ↔ _
      rw [List.all_append, hpassed, Bool.true_and, List.all_map, List.all_eq_true]
      rfl

/-- What ends a verification with an error is an answer of the outside: a step that failed, timed out,
was parsed to too few results or lacked a service does not. -/
theorem runSelected_error (hansi : ∃ ansi, engine ansiPattern = .ok ansi)
    (hvalid : project.config.validate engine = .ok ()) {error : Error}
    (h : (runSelected engine project scope profile staged onlyStep).Trace t (.error error)) :
    ∃ x ∈ t, Aborts x := by
  rcases trace_bind.1 h with ⟨_, _, _, rfl, _, h₁⟩ | ⟨error, hscope, _⟩
  · rcases trace_bind.1 h₁ with ⟨_, _, gated, rfl, _, h₂⟩ | ⟨_, hgates, _⟩
    · obtain ⟨cancelled, _, rfl, h₃⟩ := trace_query_bind.1 h₂
      split at h₃
      · next hcancelled => exact ⟨⟨.cancelled, cancelled⟩, by simp, .inl hcancelled⟩
      · rcases trace_bind.1 h₃ with ⟨_, _, _, rfl, _, h₄⟩ | ⟨_, hsteps, _⟩
        · obtain ⟨timestamp, _, rfl, h₅⟩ := trace_query_bind.1 h₄
          rcases trace_bind.1 h₅ with ⟨_, _, _, rfl, _, h₆⟩ | ⟨error, hreport, _⟩
          · cases (trace_pure.1 h₆).2
          · obtain ⟨answer, rfl, hanswer⟩ := trace_attempt.1 hreport
            exact ⟨⟨.writeReport _, answer⟩, by simp, .inl ⟨error, hanswer.symm⟩⟩
        · unfold unlessFailed at hsteps
          split at hsteps
          · obtain ⟨x, hx, haborts⟩ := runSteps_error hansi
              (fun _ _ hparser => compiles_of_validate hvalid hparser) hsteps
            exact ⟨x, by simp [hx], haborts⟩
          · cases (trace_pure.1 hsteps).2
    · obtain ⟨x, hx, haborts⟩ := gates_error hgates
      exact ⟨x, List.mem_append_right _ hx, haborts⟩
  · obtain ⟨answer, rfl, hanswer⟩ := trace_attempt.1 hscope
    exact ⟨⟨.writeScope scope, answer⟩, by simp, .inl ⟨error, hanswer.symm⟩⟩

/-- **The verdict of a run is sound.** A report that passes has found nothing and has one passing result
for each configured step that was asked for; what failed is recorded. And no step ends the
verification: without a report it was the outside that ended it. -/
def Sound (engine : RegexEngine) (project : Project) (scope : ScopeResult) (profile : String)
    (staged : Bool) (onlyStep : Option String) (t : List Exchange) :
    Except Error VerificationReport → Prop
  | .ok report => (report.passed = false ∧ Found staged t) ∨
      Verified engine project scope profile staged onlyStep t report
  | .error _ => ∃ x ∈ t, Halts x

/-- **The verdict is sound exactly in the runs in which every command could be run.** -/
theorem verdict (hansi : ∃ ansi, engine ansiPattern = .ok ansi)
    (hvalid : project.config.validate engine = .ok ())
    {outcome : Except Error VerificationReport}
    (h : (runSelected engine project scope profile staged onlyStep).Trace t outcome) :
    Sound engine project scope profile staged onlyStep t outcome ↔ ∀ x ∈ t, ¬Unrunnable x := by
  cases outcome with
  | ok report =>
    refine ⟨fun _ x hx hun => endsOnce_runSelected.ok h x hx (.inr hun), fun _ => ?_⟩
    exact runSelected_ok hvalid h
  | error error =>
    constructor
    · rintro ⟨y, hy, hhalts⟩ x hx hun
      exact endsOnce_runSelected.unrunnable h ⟨x, hx, hun⟩ y hy hhalts
    · intro hrunnable
      obtain ⟨x, hx, hhalts | hun⟩ := runSelected_error hansi hvalid h
      · exact ⟨x, hx, hhalts⟩
      · exact absurd hun (hrunnable x hx)

end Report

/-! ## A repository with two steps

A step that fails, and one whose program is not installed.
-/

/-- A step that runs one command. -/
def sampleStep (id program : String) : StepConfig := {
  id := id, label := id, component := "all", profiles := ["full"], program := program, args := []
  cwd := "/repository", log := "step.log", timeoutSecs := 180, timeoutEnv := none, parser := none
  services := [], removeEnv := [] }

/-- A repository with two steps. -/
def sampleProject : Project := {
  config := {
    defaultProfile := "full", hookProfile := "full", requiredSteps := [], services := []
    parsers := [], steps := [sampleStep "lint" "linter", sampleStep "test" "tester"] }
  reports := "/repository/reports", reserved := [], aliases := [] }

/-- No pattern matches. -/
def sampleEngine : RegexEngine := fun _ => .ok ⟨2, fun _ => [], fun text _ => text⟩

/-- An outside where the program `missing` is not installed and the program `failing` fails. -/
def sampleOutside (missing failing : String) : List Exchange → (call : Call) → call.Answer
  | _, .instant => 0
  | _, .utcNow => ""
  | _, .cancelled => false
  | _, .writeScope _ => .ok ()
  | _, .scan _ => .ok []
  | _, .audit => .ok ⟨0, 0, 0, 0, "audit.md"⟩
  | _, .startService _ _ => .ok ("", "")
  | _, .createLog _ => .ok ()
  | _, .spawn task => if task.program = missing then .error "No such file or directory" else .ok ()
  | _, .wait task => .ok (.exited ⟨some (if task.program = failing then 1 else 0)⟩)
  | _, .readLog _ => ""
  | _, .writeReport _ => .ok ()

/-- The verification of all that `sampleProject` has. -/
def sampleRun : Flow VerificationReport :=
  runSelected sampleEngine sampleProject (explicitScope ["all"]) "full" false none

/-- **A program that is not installed stops the steps behind it**: there is no report, the second step
is not run, and nothing but the first step is to blame. -/
theorem verdict_missingProgram :
    sampleProject.config.validate sampleEngine = .ok () ∧
    ∃ t, sampleRun.Trace t (.error "start linter: No such file or directory") ∧
      t.map (·.1) = [.writeScope (explicitScope ["all"]), .instant, .scan .workingTree, .instant,
        .instant, .audit, .instant, .cancelled, .cancelled,
        .createLog "/repository/reports/logs/step.log", .instant,
        .spawn (configuredTask sampleProject (sampleStep "lint" "linter") [])] ∧
      (∀ report, ¬sampleRun.Trace t (.ok report)) ∧
      ¬Sound sampleEngine sampleProject (explicitScope ["all"]) "full" false none t
        (.error "start linter: No such file or directory") := by
  refine ⟨by decide, ?_⟩
  obtain ⟨t, heq, htrace⟩ := trace_run (sampleOutside "linter" "") sampleRun []
  have hresult : (sampleRun.run (sampleOutside "linter" "") []).2 =
      .error "start linter: No such file or directory" := rfl
  have hrun : (sampleRun.run (sampleOutside "linter" "") []).1 =
      [⟨.writeScope (explicitScope ["all"]), .ok ()⟩, ⟨.instant, (0 : Nat)⟩,
        ⟨.scan .workingTree, .ok []⟩, ⟨.instant, (0 : Nat)⟩, ⟨.instant, (0 : Nat)⟩,
        ⟨.audit, .ok ⟨0, 0, 0, 0, "audit.md"⟩⟩, ⟨.instant, (0 : Nat)⟩, ⟨.cancelled, false⟩,
        ⟨.cancelled, false⟩, ⟨.createLog "/repository/reports/logs/step.log", .ok ()⟩,
        ⟨.instant, (0 : Nat)⟩, ⟨.spawn (configuredTask sampleProject (sampleStep "lint" "linter") []),
          .error "No such file or directory"⟩] := rfl
  rw [List.nil_append, hrun] at heq
  subst heq
  rw [hresult] at htrace
  refine ⟨_, htrace, rfl, fun report hreport => ?_, ?_⟩
  · cases htrace.unique hreport
  · rintro ⟨x, hx, hhalts⟩
    simp only [List.mem_cons, List.not_mem_nil, or_false] at hx
    rcases hx with rfl | rfl | rfl | rfl | rfl | rfl | rfl | rfl | rfl | rfl | rfl | rfl <;>
      simp [Halts] at hhalts

/-- With both programs there, a step that fails is recorded and does not stop the other one. -/
theorem verdict_sampleProject : ∃ t report, sampleRun.Trace t (.ok report) ∧
    report.steps.map (·.label) = ["secret scan", "architecture audit", "lint", "test"] ∧
    report.steps.map (·.passed) = [true, true, false, true] ∧ report.passed = false ∧
    Sound sampleEngine sampleProject (explicitScope ["all"]) "full" false none t (.ok report) ∧
    ∀ x ∈ t, ¬Unrunnable x := by
  obtain ⟨t, heq, htrace⟩ := trace_run (sampleOutside "" "linter") sampleRun []
  obtain ⟨report, hreport, hlabels, hsteps, hpassed⟩ : ∃ report,
      (sampleRun.run (sampleOutside "" "linter") []).2 = .ok report ∧
      report.steps.map (·.label) = ["secret scan", "architecture audit", "lint", "test"] ∧
      report.steps.map (·.passed) = [true, true, false, true] ∧ report.passed = false :=
    ⟨_, rfl, rfl, rfl, rfl⟩
  rw [hreport] at htrace
  have hrunnable : ∀ x ∈ t, ¬Unrunnable x := fun x hx hun =>
    endsOnce_runSelected.ok htrace x hx (.inr hun)
  exact ⟨t, report, htrace, hlabels, hsteps, hpassed,
    (verdict ⟨_, rfl⟩ (by decide) htrace).2 hrunnable, hrunnable⟩

end Flow

end ArcAdmin

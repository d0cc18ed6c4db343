import Mathlib.Data.List.Basic

/-!
# Programs that ask the outside

A program that runs commands, reads files and looks at the clock is a tree of questions: its next
step depends on the answer, which can be any. What happened in a run is the list of the questions
with their answers, and a fact about all runs holds whatever the outside answers.

* **`Trace`** — the runs of a program;
* **`trace_bind`** — a run of two programs after each other is a run of each;
* **`Asks.mem`** — a run asks only what the program asks;
* **`trace_run`** — every way to answer gives a run.
-/

/-- A program that asks questions `Q`, answered by `A`, and ends with a value or an error. -/
inductive Dialogue (Q : Type) (A : Q → Type) (ε α : Type) where
  | protected pure (value : α)
  | protected throw (error : ε)
  | ask (q : Q) (next : A q → Dialogue Q A ε α)

namespace Dialogue

variable {Q : Type} {A : Q → Type} {ε α β : Type}

/-- What was asked and answered. -/
abbrev Exchange (A : Q → Type) := (q : Q) × A q

protected def bind : Dialogue Q A ε α → (α → Dialogue Q A ε β) → Dialogue Q A ε β
  | .pure value, f => f value
  | .throw error, _ => .throw error
  | .ask q next, f => .ask q fun answer => (next answer).bind f

instance : Monad (Dialogue Q A ε) where
  pure := .pure
  bind := Dialogue.bind

/-- One question. -/
def query (q : Q) : Dialogue Q A ε (A q) := .ask q .pure

/-- A result that was computed: an error ends the program. -/
def lift : Except ε α → Dialogue Q A ε α
  | .ok value => .pure value
  | .error error => .throw error

/-- One question whose answer may be an error, which then ends the program. -/
def attempt (q : Q) (f : A q → Except ε α) : Dialogue Q A ε α := .ask q fun answer => lift (f answer)

/-! ## Runs

A run is a trace together with its result. The two are related by recursion on the program, so a
statement about all runs is one about the program.
-/

/-- The program can exchange `t` with the outside and end with `r`. -/
def Trace : Dialogue Q A ε α → List (Exchange A) → Except ε α → Prop
  | .pure value, t, r => t = [] ∧ r = .ok value
  | .throw error, t, r => t = [] ∧ r = .error error
  | .ask q next, t, r => ∃ answer rest, t = ⟨q, answer⟩ :: rest ∧ (next answer).Trace rest r

variable {p : Dialogue Q A ε α} {f : α → Dialogue Q A ε β} {t : List (Exchange A)}

@[simp] theorem trace_pure {value : α} {r : Except ε α} :
    Trace (pure value : Dialogue Q A ε α) t r ↔ t = [] ∧ r = .ok value := Iff.rfl

@[simp] theorem trace_throw {error : ε} {r : Except ε α} :
    Trace (.throw error : Dialogue Q A ε α) t r ↔ t = [] ∧ r = .error error := Iff.rfl

@[simp] theorem trace_query {q : Q} {r : Except ε (A q)} :
    Trace (query q) t r ↔ ∃ answer, t = [⟨q, answer⟩] ∧ r = .ok answer := by
  show (∃ answer rest, t = ⟨q, answer⟩ :: rest ∧ rest = [] ∧ r = .ok answer) ↔ _
  constructor
  · rintro ⟨answer, _, rfl, rfl, hr⟩
    exact ⟨answer, rfl, hr⟩
  · rintro ⟨answer, rfl, hr⟩
    exact ⟨answer, [], rfl, rfl, hr⟩

@[simp] theorem trace_lift {result r : Except ε α} :
    Trace (lift result : Dialogue Q A ε α) t r ↔ t = [] ∧ r = result := by
  cases result <;> exact Iff.rfl

/-- **Two programs after each other**: the first ends with a value, which the second continues
with, or the first ends with an error. -/
theorem trace_bind {r : Except ε β} : Trace (p >>= f) t r ↔
    (∃ t₁ t₂ value, t = t₁ ++ t₂ ∧ p.Trace t₁ (.ok value) ∧ (f value).Trace t₂ r) ∨
      ∃ error, p.Trace t (.error error) ∧ r = .error error := by
  show Trace (p.bind f) t r ↔ _
  induction p generalizing t with
  | pure value =>
    constructor
    · intro h
      exact .inl ⟨[], t, value, rfl, ⟨rfl, rfl⟩, h⟩
    · rintro (⟨_, t₂, _, rfl, ⟨rfl, heq⟩, h⟩ | ⟨_, ⟨_, heq⟩, _⟩)
      · cases heq
        exact h
      · cases heq
  | throw error =>
    constructor
    · rintro ⟨rfl, hr⟩
      exact .inr ⟨error, ⟨rfl, rfl⟩, hr⟩
    · rintro (⟨_, _, _, _, ⟨_, heq⟩, _⟩ | ⟨_, ⟨rfl, heq⟩, hr⟩)
      · cases heq
      · cases heq
        exact ⟨rfl, hr⟩
  | ask q next ih =>
    constructor
    · rintro ⟨answer, rest, rfl, h⟩
      rcases (ih answer).1 h with ⟨t₁, t₂, value, rfl, hp, hf⟩ | ⟨error, hp, hr⟩
      · exact .inl ⟨⟨q, answer⟩ :: t₁, t₂, value, rfl, ⟨answer, t₁, rfl, hp⟩, hf⟩
      · exact .inr ⟨error, ⟨answer, rest, rfl, hp⟩, hr⟩
    · rintro (⟨_, t₂, value, rfl, ⟨answer, t₁, rfl, hp⟩, hf⟩ | ⟨error, ⟨answer, rest, rfl, hp⟩, hr⟩)
      · exact ⟨answer, t₁ ++ t₂, rfl, (ih answer).2 (.inl ⟨t₁, t₂, value, rfl, hp, hf⟩)⟩
      · exact ⟨answer, rest, rfl, (ih answer).2 (.inr ⟨error, hp, hr⟩)⟩

theorem trace_bind_ok {value : β} : Trace (p >>= f) t (.ok value) ↔
    ∃ t₁ t₂ a, t = t₁ ++ t₂ ∧ p.Trace t₁ (.ok a) ∧ (f a).Trace t₂ (.ok value) := by
  rw [trace_bind]
  constructor
  · rintro (h | ⟨_, _, heq⟩)
    · exact h
    · cases heq
  · exact .inl

theorem trace_query_bind {q : Q} {f : A q → Dialogue Q A ε β} {r : Except ε β} :
    Trace (query q >>= f) t r ↔ ∃ answer rest, t = ⟨q, answer⟩ :: rest ∧ (f answer).Trace rest r :=
  Iff.rfl

theorem trace_attempt {q : Q} {f : A q → Except ε α} {r : Except ε α} :
    (attempt q f).Trace t r ↔ ∃ answer, t = [⟨q, answer⟩] ∧ r = f answer := by
  show (∃ answer rest, t = ⟨q, answer⟩ :: rest ∧ Trace (lift (f answer)) rest r) ↔ _
  constructor
  · rintro ⟨answer, rest, rfl, h⟩
    obtain ⟨rfl, hr⟩ := trace_lift.1 h
    exact ⟨answer, rfl, hr⟩
  · rintro ⟨answer, rfl, hr⟩
    exact ⟨answer, [], rfl, trace_lift.2 ⟨rfl, hr⟩⟩

/-- What was exchanged determines how a run ends. -/
theorem Trace.unique {r r' : Except ε α} (h : p.Trace t r) (h' : p.Trace t r') : r = r' := by
  induction p generalizing t with
  | pure value => exact h.2.trans h'.2.symm
  | throw error => exact h.2.trans h'.2.symm
  | ask q next ih =>
    obtain ⟨answer, rest, rfl, hrest⟩ := h
    obtain ⟨_, _, heq, hrest'⟩ := h'
    cases heq
    exact ih answer hrest hrest'

/-! ## What is asked

A bound on the questions of a program, whatever the answers, is a bound on what its runs do to the
outside.
-/

/-- Every question of the program satisfies `P`. -/
def Asks (P : Q → Prop) : Dialogue Q A ε α → Prop
  | .pure _ => True
  | .throw _ => True
  | .ask q next => P q ∧ ∀ answer, (next answer).Asks P

variable {P : Q → Prop}

@[simp] theorem asks_pure {value : α} : Asks P (pure value : Dialogue Q A ε α) := trivial

@[simp] theorem asks_throw {error : ε} : Asks P (.throw error : Dialogue Q A ε α) := trivial

@[simp] theorem asks_query {q : Q} : Asks P (query q : Dialogue Q A ε (A q)) ↔ P q :=
  and_iff_left fun _ => trivial

@[simp] theorem asks_lift {result : Except ε α} : Asks P (lift result : Dialogue Q A ε α) := by
  cases result <;> trivial

theorem Asks.bind (hp : p.Asks P) (hf : ∀ value, (f value).Asks P) : (p >>= f).Asks P := by
  show Asks P (Dialogue.bind p f)
  induction p with
  | pure value => exact hf value
  | throw error => trivial
  | ask q next ih => exact ⟨hp.1, fun answer => ih answer (hp.2 answer)⟩

@[simp] theorem asks_attempt {q : Q} {f : A q → Except ε α} : Asks P (attempt q f) ↔ P q :=
  and_iff_left fun _ => asks_lift

theorem Asks.imp {P' : Q → Prop} (hp : p.Asks P) (h : ∀ q, P q → P' q) : p.Asks P' := by
  induction p with
  | pure value => trivial
  | throw error => trivial
  | ask q next ih => exact ⟨h q hp.1, fun answer => ih answer (hp.2 answer)⟩

theorem Asks.mem (hp : p.Asks P) {r : Except ε α} (ht : p.Trace t r) {x : Exchange A}
    (hx : x ∈ t) : P x.1 := by
  induction p generalizing t with
  | pure value =>
    obtain ⟨rfl, _⟩ := ht
    cases hx
  | throw error =>
    obtain ⟨rfl, _⟩ := ht
    cases hx
  | ask q next ih =>
    obtain ⟨answer, rest, rfl, hrest⟩ := ht
    rcases List.mem_cons.1 hx with rfl | hx
    · exact hp.1
    · exact ih answer (hp.2 answer) hrest hx

/-! ## Running against an outside

Answers that depend on what has been exchanged so far: a concrete outside, for witnesses and
counterexamples.
-/

/-- The run in which the outside answers every question as `outside` says, given what was
exchanged before. -/
def run (outside : List (Exchange A) → (q : Q) → A q) :
    Dialogue Q A ε α → List (Exchange A) → List (Exchange A) × Except ε α
  | .pure value, before => (before, .ok value)
  | .throw error, before => (before, .error error)
  | .ask q next, before =>
    let answer := outside before q
    (next answer).run outside (before ++ [⟨q, answer⟩])

/-- **Every way to answer gives a run.** -/
theorem trace_run (outside : List (Exchange A) → (q : Q) → A q) (p : Dialogue Q A ε α)
    (before : List (Exchange A)) : ∃ t, (p.run outside before).1 = before ++ t ∧
      p.Trace t (p.run outside before).2 := by
  induction p generalizing before with
  | pure value => exact ⟨[], (List.append_nil _).symm, rfl, rfl⟩
  | throw error => exact ⟨[], (List.append_nil _).symm, rfl, rfl⟩
  | ask q next ih =>
    obtain ⟨rest, heq, hrest⟩ := ih (outside before q) (before ++ [⟨q, outside before q⟩])
    refine ⟨⟨q, outside before q⟩ :: rest, ?_, outside before q, rest, rfl, hrest⟩
    show ((next (outside before q)).run outside (before ++ [⟨q, outside before q⟩])).1 = _
    rw [heq, List.append_assoc]
    rfl

end Dialogue

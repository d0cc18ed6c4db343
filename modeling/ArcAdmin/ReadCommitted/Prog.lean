import ArcAdmin.ReadCommitted.Transaction

/-!
# Programs of one connection

A request handler is a `Prog`: it performs acts and decides on their results, and ends with a
value or with an error. A program that ends with an error has dropped its open transaction.

A program is a tree: at each node stands an act, and the children are what the program does for
each result of it. There are no loops in it; a loop of the source is a recursion over a list, so
every program ends, and running it alone is a structural recursion.

* **`Prog.run`** — running a program alone, with nobody else on the server;
* **`Ends`** — the program ends normally when it runs alone, and the inversion rules that take a
  successful run apart: `ends_bind`, `ends_perform`, `ends_reject`, `ends_okOr`, `ends_whenever`, `ends_ifSome`.
-/

namespace ReadCommitted

variable {T : Type} [Schema T] {ε α β : Type}

/-- A program over the acts of one connection, with errors of type `ε`. -/
inductive Prog (T : Type) [Schema T] (ε α : Type) : Type where
  | ret (a : α)
  | fail (e : ε)
  | act (a : Act T) (k : a.Res → Prog T ε α)

namespace Prog

/-- Run `m`, then go on with its value. -/
def bind : Prog T ε α → (α → Prog T ε β) → Prog T ε β
  | .ret a, f => f a
  | .fail e, _ => .fail e
  | .act a k, f => .act a fun r => bind (k r) f

instance : Monad (Prog T ε) where
  pure := .ret
  bind := bind

/-- Perform one act and return its result. -/
def perform (a : Act T) : Prog T ε a.Res := .act a .ret

/-- Fail with `e` if `c` holds. -/
def reject (c : Bool) (e : ε) : Prog T ε Unit := if c then .fail e else .ret ()

/-- The value of an option, or the error `e`. -/
def okOr (o : Option α) (e : ε) : Prog T ε α :=
  match o with
  | some a => .ret a
  | none => .fail e

/-- The value of a result, or its error. -/
def okOrThrow : Except ε α → Prog T ε α
  | .ok a => .ret a
  | .error e => .fail e

/-- Do `m` if `c` holds. -/
def whenever (c : Bool) (m : Prog T ε Unit) : Prog T ε Unit := if c then m else .ret ()

/-- Do `f` with the value of an option, if it has one. -/
def ifSome (o : Option α) (f : α → Prog T ε Unit) : Prog T ε Unit :=
  match o with
  | some a => f a
  | none => .ret ()

/-- Do `f` for every element of the list, in order. -/
def forEach : List α → (α → Prog T ε Unit) → Prog T ε Unit
  | [], _ => .ret ()
  | a :: as, f => bind (f a) fun _ => forEach as f

@[simp] theorem pure_eq (a : α) : (pure a : Prog T ε α) = .ret a := rfl

@[simp] theorem ret_bind (a : α) (f : α → Prog T ε β) : (Prog.ret a >>= f) = f a := rfl

@[simp] theorem fail_bind (e : ε) (f : α → Prog T ε β) : (Prog.fail e >>= f) = .fail e := rfl

@[simp] theorem act_bind (a : Act T) (k : a.Res → Prog T ε α) (f : α → Prog T ε β) :
    (Prog.act a k >>= f) = .act a fun r => k r >>= f := rfl

@[simp] theorem forEach_nil (f : α → Prog T ε Unit) : forEach [] f = .ret () := rfl

@[simp] theorem forEach_cons (a : α) (as : List α) (f : α → Prog T ε Unit) :
    forEach (a :: as) f = (f a >>= fun _ => forEach as f) := rfl

instance : LawfulMonad (Prog T ε) := LawfulMonad.mk' _
  (fun m => by
    change m >>= Prog.ret = m
    induction m with
    | ret a => rfl
    | fail e => rfl
    | act a k ih => simp only [act_bind, ih])
  (fun _ _ => rfl)
  (fun m f g => by
    induction m with
    | ret a => rfl
    | fail e => rfl
    | act a k ih => simp only [act_bind, ih])

/-! ## Running alone

What a program does without interference is a function from connections to connections. It is used
in two places: for facts about single operations, and to evaluate concrete runs.
-/

/-- **Run a program alone** as connection `p`. A failing program drops its transaction. -/
def run (p : Nat) : Prog T ε α → Conn T → Except ε α × Conn T
  | .ret a, c => (.ok a, c)
  | .fail e, c => (.error e, { c with tx := none })
  | .act a k, c => run p (k (a.step p c).1) (a.step p c).2

theorem run_bind (p : Nat) (m : Prog T ε α) (f : α → Prog T ε β) (c : Conn T) :
    run p (m >>= f) c =
      match run p m c with
      | (.ok a, c') => run p (f a) c'
      | (.error e, c') => (.error e, c') := by
  induction m generalizing c with
  | ret a => rfl
  | fail e => rfl
  | act a k ih => exact ih _ _

end Prog

open Prog

/-- **The program ends normally**: run alone from `c` as connection `p`, `m` returns `a` and
leaves `c'`. -/
def Ends (p : Nat) (m : Prog T ε α) (c : Conn T) (a : α) (c' : Conn T) : Prop :=
  m.run p c = (.ok a, c')

section Ends

variable {p : Nat} {c c' : Conn T} {a : α} {b : β}

@[simp] theorem ends_ret {a' : α} : Ends p (.ret a' : Prog T ε α) c a c' ↔ a = a' ∧ c' = c := by
  simp only [Ends, run, Prod.mk.injEq, Except.ok.injEq]
  constructor <;> rintro ⟨rfl, rfl⟩ <;> exact ⟨rfl, rfl⟩

@[simp] theorem ends_fail {e : ε} : ¬Ends p (.fail e : Prog T ε α) c a c' := by
  simp [Ends, run]

/-- **A sequence ends normally iff each part does.** -/
theorem ends_bind {m : Prog T ε α} {f : α → Prog T ε β} :
    Ends p (m >>= f) c b c' ↔ ∃ a c₁, Ends p m c a c₁ ∧ Ends p (f a) c₁ b c' := by
  unfold Ends
  rw [run_bind]
  rcases run p m c with ⟨_ | a, c₁⟩
  · simp
  · constructor
    · intro h
      exact ⟨a, c₁, rfl, h⟩
    · rintro ⟨a', c₁', h, hf⟩
      cases h
      exact hf

@[simp] theorem ends_perform {act : Act T} {r : act.Res} :
    Ends p (perform act : Prog T ε act.Res) c r c' ↔ r = (act.step p c).1 ∧ c' = (act.step p c).2 :=
  by simp [perform, Ends, run, eq_comm]

@[simp] theorem ends_reject {cond : Bool} {e : ε} {u : Unit} :
    Ends p (reject cond e : Prog T ε Unit) c u c' ↔ cond = false ∧ c' = c := by
  cases cond <;> simp [reject]

@[simp] theorem ends_okOr {o : Option α} {e : ε} :
    Ends p (okOr o e : Prog T ε α) c a c' ↔ o = some a ∧ c' = c := by
  cases o with
  | none => simp [okOr]
  | some a' =>
    simp only [okOr, ends_ret, Option.some.injEq]
    constructor <;> rintro ⟨rfl, rfl⟩ <;> exact ⟨rfl, rfl⟩

@[simp] theorem ends_okOrThrow {x : Except ε α} :
    Ends p (okOrThrow x : Prog T ε α) c a c' ↔ x = .ok a ∧ c' = c := by
  cases x with
  | error e => simp [okOrThrow]
  | ok a' =>
    simp only [okOrThrow, ends_ret, Except.ok.injEq]
    constructor <;> rintro ⟨rfl, rfl⟩ <;> exact ⟨rfl, rfl⟩

theorem ends_ifSome {o : Option α} {f : α → Prog T ε Unit} {u : Unit} :
    Ends p (ifSome o f) c u c' ↔
      (∃ a, o = some a ∧ Ends p (f a) c u c') ∨ (o = none ∧ c' = c) := by
  cases o <;> simp [ifSome]

theorem ends_whenever {cond : Bool} {m : Prog T ε Unit} {u : Unit} :
    Ends p (whenever cond m) c u c' ↔
      (cond = true ∧ Ends p m c u c') ∨ (cond = false ∧ c' = c) := by
  cases cond <;> simp [whenever]

end Ends

end ReadCommitted

import Mathlib.Data.List.Basic

/-!
# Results of code that can fail

When a `do` block of the `Except` monad succeeds: each of its steps does.
-/

namespace ArcAdmin

theorem bind_ok {α β ε : Type} {x : Except ε α} {f : α → Except ε β} {b : β} :
    (x >>= f) = .ok b ↔ ∃ a, x = .ok a ∧ f a = .ok b := by
  cases x with
  | error e => exact ⟨fun h => (nomatch h), fun ⟨_, h, _⟩ => (nomatch h)⟩
  | ok a => exact ⟨fun h => ⟨a, rfl, h⟩, fun ⟨_, h, hf⟩ => by cases h; exact hf⟩

theorem forM_ok {α ε : Type} {l : List α} {f : α → Except ε Unit} :
    l.forM f = .ok () ↔ ∀ x ∈ l, f x = .ok () := by
  induction l with
  | nil => simp [List.forM, pure, Except.pure]
  | cons x xs ih =>
    show (f x >>= fun _ => xs.forM f) = .ok () ↔ _
    rw [bind_ok, List.forall_mem_cons, ← ih]
    exact ⟨fun ⟨_, hx, hxs⟩ => ⟨hx, hxs⟩, fun ⟨hx, hxs⟩ => ⟨(), hx, hxs⟩⟩

/-- A function that succeeds on every element of a list. -/
theorem mapM_total {α β ε : Type} {f : α → Except ε β} {as : List α}
    (h : ∀ a ∈ as, ∃ b, f a = .ok b) : ∃ bs, as.mapM f = .ok bs := by
  induction as with
  | nil => exact ⟨[], rfl⟩
  | cons a as ih =>
    obtain ⟨b, hb⟩ := h a List.mem_cons_self
    obtain ⟨bs, hbs⟩ := ih fun a' ha' => h a' (List.mem_cons_of_mem _ ha')
    rw [List.mapM_cons]
    exact ⟨b :: bs, bind_ok.2 ⟨b, hb, bind_ok.2 ⟨bs, hbs, rfl⟩⟩⟩

/-- `if condition { bail!(message) }`. -/
def bailIf (condition : Bool) (message : String) : Except String Unit :=
  if condition then .error message else .ok ()

theorem bailIf_ok {condition : Bool} {message : String} :
    bailIf condition message = .ok () ↔ condition = false := by
  cases condition <;> simp [bailIf]

end ArcAdmin

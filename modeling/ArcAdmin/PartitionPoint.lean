import Mathlib.Data.List.TakeWhile
import Mathlib.Tactic.Common

/-!
# Partition points

The bisection of `slice::partition_point`, and what it finds in a slice that is partitioned: the
elements of which the predicate holds come first.

* **`partitionPoint_eq`** — the number of those elements;
* **`partitioned_of_pairwise`** — a slice in which the predicate is never regained is partitioned.
-/

namespace PartitionPoint

variable {α : Type} {p : α → Bool} {xs front back : List α}

/-- `while size > 1`: the half of the slice in which the point lies. -/
def narrow (p : α → Bool) (xs : List α) : Nat → Nat → Nat → Nat
  | 0, base, _ => base
  | fuel + 1, base, size =>
    if 1 < size then
      narrow p xs fuel (if xs[base + size / 2]?.any p then base + size / 2 else base) (size - size / 2)
    else base

/-- `slice::partition_point`. -/
def partitionPoint (p : α → Bool) (xs : List α) : Nat :=
  if xs.length = 0 then 0
  else
    let base := narrow p xs xs.length 0 xs.length
    base + (if xs[base]?.any p then 1 else 0)

/-- The elements of which the predicate holds come first. -/
structure Partitioned (p : α → Bool) (front back : List α) : Prop where
  holds : ∀ x ∈ front, p x = true
  fails : ∀ x ∈ back, p x = false

theorem Partitioned.any_iff (h : Partitioned p front back) {index : Nat} :
    (front ++ back)[index]?.any p = true ↔ index < front.length := by
  by_cases hlt : index < front.length
  · rw [List.getElem?_append_left hlt, List.getElem?_eq_getElem hlt]
    simp [h.holds _ (List.getElem_mem hlt), hlt]
  · rw [List.getElem?_append_right (by omega)]
    cases hget : back[index - front.length]? with
    | none => simp [hlt]
    | some x => simp [h.fails x (List.mem_of_getElem? hget), hlt]

/-- The point stays between the bounds of the bisection. -/
theorem narrow_bounds (h : Partitioned p front back) {fuel base size : Nat} (hfuel : size ≤ fuel)
    (hsize : 0 < size) (hlow : base = 0 ∨ base < front.length)
    (hhigh : front.length ≤ base + size) :
    let found := narrow p (front ++ back) fuel base size
    (found = 0 ∨ found < front.length) ∧ front.length ≤ found + 1 := by
  induction fuel generalizing base size with
  | zero => omega
  | succ fuel ih =>
    rw [narrow]
    by_cases hone : 1 < size
    · rw [if_pos hone]
      by_cases hmid : base + size / 2 < front.length
      · rw [if_pos (h.any_iff.2 hmid)]
        exact ih (by omega) (by omega) (Or.inr hmid) (by omega)
      · rw [if_neg fun hany => hmid (h.any_iff.1 hany)]
        exact ih (by omega) (by omega) hlow (by omega)
    · rw [if_neg hone]
      exact ⟨hlow, by omega⟩

/-- **The partition point** is the number of elements of which the predicate holds. -/
theorem partitionPoint_eq (h : Partitioned p front back) :
    partitionPoint p (front ++ back) = front.length := by
  rw [partitionPoint]
  by_cases hempty : (front ++ back).length = 0
  · rw [if_pos hempty]
    rw [List.length_append] at hempty
    omega
  · rw [if_neg hempty]
    have hbounds := narrow_bounds h (Nat.le_refl _) (Nat.pos_of_ne_zero hempty) (Or.inl rfl)
      (by rw [List.length_append]; omega)
    obtain ⟨hlow, hhigh⟩ := hbounds
    show narrow p (front ++ back) _ 0 _ + (if _ then 1 else 0) = front.length
    by_cases hlt : narrow p (front ++ back) (front ++ back).length 0 (front ++ back).length <
        front.length
    · rw [if_pos (h.any_iff.2 hlt)]
      omega
    · rw [if_neg fun hany => hlt (h.any_iff.1 hany)]
      omega

/-- **A slice in which the predicate is never regained** is partitioned. -/
theorem partitioned_of_pairwise (h : xs.Pairwise fun a b => p b = true → p a = true) :
    Partitioned p (xs.takeWhile p) (xs.dropWhile p) := by
  constructor
  · exact fun x hx => List.mem_takeWhile_imp hx
  · intro x hx
    have hpairwise := h.sublist (List.dropWhile_sublist p)
    have hhead := List.head?_dropWhile_not p xs
    cases hdrop : xs.dropWhile p with
    | nil =>
      rw [hdrop] at hx
      exact absurd hx List.not_mem_nil
    | cons y rest =>
      rw [hdrop] at hx hpairwise hhead
      rw [List.head?_cons] at hhead
      rcases List.mem_cons.1 hx with rfl | hx
      · exact hhead
      · rw [Bool.eq_false_iff]
        intro hp
        have hy := (List.pairwise_cons.1 hpairwise).1 x hx hp
        rw [hhead] at hy
        exact Bool.noConfusion hy

end PartitionPoint

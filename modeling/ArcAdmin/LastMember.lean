import Mathlib.Data.Finset.Card

/-!
# Never the last member

Members are taken out of a set one after the other, and the last one may not be taken. Whether a
list of them can be taken depends on the list as a set only.

* **`Drains`** — every element of the list may be taken in turn;
* **`drains_iff`** — the set is not among the list, unless it is empty;
* **`drains_append`**, **`Drains.perm`** — part of the list first, and any order of it.
-/

namespace LastMember

variable {α : Type} [DecidableEq α] {s : Finset α} {a : α} {as bs : List α}

/-- The element is not the last member. -/
def Spares (s : Finset α) (a : α) : Prop := a ∈ s → 1 < s.card

/-- **The elements can be taken out of the set**, one after the other. -/
def Drains : Finset α → List α → Prop
  | _, [] => True
  | s, a :: as => Spares s a ∧ Drains (s.erase a) as

/-- After the first element there is a member left if the others are not all of them. -/
theorem spares_of_not_subset (h : ¬ s.erase a ⊆ as.toFinset) : Spares s a := by
  intro ha
  have hne : (s.erase a).Nonempty := by
    rw [Finset.nonempty_iff_ne_empty]
    intro hempty
    rw [hempty] at h
    exact h (Finset.empty_subset _)
  have hpos := Finset.card_pos.2 hne
  rw [Finset.card_erase_of_mem ha] at hpos
  omega

/-- **A list of elements can be taken out** unless the whole set is among them. -/
theorem drains_iff : Drains s as ↔ (s ⊆ as.toFinset → s = ∅) := by
  induction as generalizing s with
  | nil =>
    constructor
    · exact fun _ h => Finset.subset_empty.1 h
    · exact fun _ => trivial
  | cons a as ih =>
    have hsub : s ⊆ (a :: as).toFinset ↔ s.erase a ⊆ as.toFinset := by
      rw [List.toFinset_cons, Finset.subset_insert_iff]
    unfold Drains
    rw [ih, hsub]
    by_cases ha : a ∈ s
    · have hne : s ≠ ∅ := Finset.ne_empty_of_mem ha
      constructor
      · rintro ⟨hspares, hrest⟩ hall
        -- the last of them would be `a`
        have hcard := Finset.card_erase_of_mem ha
        rw [hrest hall, Finset.card_empty] at hcard
        have hmore := hspares ha
        omega
      · intro h
        have hnot : ¬ s.erase a ⊆ as.toFinset := fun hall => hne (h hall)
        exact ⟨spares_of_not_subset hnot, fun hall => absurd hall hnot⟩
    · rw [Finset.erase_eq_of_notMem ha]
      exact ⟨fun h => h.2, fun h => ⟨fun hmem => absurd hmem ha, h⟩⟩

/-- Some elements first, and then the others. -/
theorem drains_append :
    Drains s (as ++ bs) ↔ Drains s as ∧ Drains (s \ as.toFinset) bs := by
  induction as generalizing s with
  | nil => simp [Drains]
  | cons a as ih =>
    have hrest : s.erase a \ as.toFinset = s \ (a :: as).toFinset := by
      rw [List.toFinset_cons, Finset.sdiff_insert, Finset.erase_sdiff_comm]
    rw [List.cons_append]
    show Spares s a ∧ Drains (s.erase a) (as ++ bs) ↔
      (Spares s a ∧ Drains (s.erase a) as) ∧ Drains (s \ (a :: as).toFinset) bs
    rw [ih, hrest, and_assoc]

/-- **The order does not matter.** -/
theorem Drains.perm (h : Drains s as) (hperm : as.Perm bs) : Drains s bs := by
  rw [drains_iff] at h ⊢
  rwa [← List.toFinset_eq_of_perm _ _ hperm]

end LastMember

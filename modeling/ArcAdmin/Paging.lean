import Mathlib.Data.List.Sort
import Mathlib.Order.Basic

/-!
# Pages of an ordered list

Two ways to read a list in pages: by number (`LIMIT k OFFSET n * k`) and by the key of the last
row that has been read (`WHERE key < cursor … LIMIT k + 1`).

* **`flatMap_slice`** — the numbered pages put together are the list;
* **`OrderedBy`** — `ORDER BY` a column, with a unique column to break ties;
* **`newestFirst_eq`** — a list with the same rows that descends strictly is the sorted one;
* **`Descending.mem_rest`** — the rows below the cursor are those that have not been read.
-/

namespace Paging

variable {α κ : Type}

/-! ## Numbered pages

Slices of equal length that follow each other; the last one may be shorter.
-/

/-- Page `n`, counted from 0, of `k` rows. -/
def slice (l : List α) (k n : Nat) : List α := (l.drop (n * k)).take k

/-- The pages before the `n`-th are the rows before its first. -/
theorem flatMap_slice_eq_take (l : List α) (k n : Nat) :
    (List.range n).flatMap (slice l k) = l.take (n * k) := by
  induction n with
  | zero => simp
  | succ n ih =>
    rw [List.range_succ, List.flatMap_append, ih, List.flatMap_singleton, slice, Nat.succ_mul,
      List.take_add]

/-- **All pages together are the list.** -/
theorem flatMap_slice {l : List α} {k n : Nat} (h : l.length ≤ n * k) :
    (List.range n).flatMap (slice l k) = l := by
  rw [flatMap_slice_eq_take, List.take_of_length_le h]

/-! ## Sorting by a column

A column alone does not order the rows. With the unique id behind it, it does.
-/

/-- `a` stands before `b` in `ORDER BY column, id`. -/
def OrderedBy (le : α → α → Bool) (id : α → Nat) (a b : α) : Prop :=
  le a b = true ∧ (le b a = true → id a ≤ id b)

section OrderedBy

variable {le : α → α → Bool} {id : α → Nat} {a b c : α}

instance : DecidableRel (OrderedBy le id) := fun a b =>
  inferInstanceAs (Decidable (le a b = true ∧ (le b a = true → id a ≤ id b)))

theorem OrderedBy.total (htotal : ∀ a b, le a b = true ∨ le b a = true) (a b : α) :
    OrderedBy le id a b ∨ OrderedBy le id b a := by
  by_cases hab : le a b = true
  · by_cases hba : le b a = true
    · rcases Nat.le_total (id a) (id b) with hid | hid
      · exact .inl ⟨hab, fun _ => hid⟩
      · exact .inr ⟨hba, fun _ => hid⟩
    · exact .inl ⟨hab, fun h => absurd h hba⟩
  · exact .inr ⟨(htotal a b).resolve_left hab, fun h => absurd h hab⟩

theorem OrderedBy.trans (htrans : ∀ a b c, le a b = true → le b c = true → le a c = true)
    (hab : OrderedBy le id a b) (hbc : OrderedBy le id b c) : OrderedBy le id a c := by
  refine ⟨htrans a b c hab.1 hbc.1, fun hca => ?_⟩
  -- all three stand together
  have hba : le b a = true := htrans b c a hbc.1 hca
  have hcb : le c b = true := htrans c a b hca hab.1
  exact Nat.le_trans (hab.2 hba) (hbc.2 hcb)

/-- **Ties are broken**: two rows that stand before each other have one id. -/
theorem OrderedBy.antisymm (hab : OrderedBy le id a b) (hba : OrderedBy le id b a) :
    id a = id b :=
  Nat.le_antisymm (hab.2 hba.1) (hba.2 hab.1)

/-- **A sorted list is in order.** -/
theorem pairwise_orderedBy (htotal : ∀ a b, le a b = true ∨ le b a = true)
    (htrans : ∀ a b c, le a b = true → le b c = true → le a c = true) (l : List α) :
    (l.insertionSort (OrderedBy le id)).Pairwise (OrderedBy le id) := by
  have : Std.Total (OrderedBy le id) := ⟨OrderedBy.total htotal⟩
  have : IsTrans α (OrderedBy le id) := ⟨fun _ _ _ => OrderedBy.trans htrans⟩
  exact List.pairwise_insertionSort (OrderedBy le id) l

end OrderedBy

/-! ## Pages by key

A cursor is the key of the last row that was shown. New rows have greater keys, so they do not get
between what has been read and what has not.
-/

section Keyset

variable [LinearOrder κ] (key : α → κ)

/-- `ORDER BY key DESC`. -/
def newestFirst (l : List α) : List α := l.insertionSort fun a b => key b ≤ key a

/-- `WHERE key < cursor`, without a cursor every row. -/
def below (cursor : Option κ) (a : α) : Bool := cursor.all fun c => decide (key a < c)

/-- The list descends strictly. -/
abbrev Descending (l : List α) : Prop := l.Pairwise fun a b => key b < key a

variable {key}

theorem mem_newestFirst {l : List α} {a : α} : a ∈ newestFirst key l ↔ a ∈ l :=
  List.mem_insertionSort _

/-- Rows with distinct keys are sorted strictly. -/
theorem descending_newestFirst {l : List α} (h : (l.map key).Nodup) :
    Descending key (newestFirst key l) := by
  have : Std.Total fun a b : α => key b ≤ key a := ⟨fun a b => le_total (key b) (key a)⟩
  have : IsTrans α fun a b : α => key b ≤ key a := ⟨fun _ _ _ hab hbc => le_trans hbc hab⟩
  have hsorted := List.pairwise_insertionSort (fun a b : α => key b ≤ key a) l
  have hnodup : ((newestFirst key l).map key).Nodup :=
    ((List.perm_insertionSort (fun a b : α => key b ≤ key a) l).map key).nodup_iff.2 h
  exact (hsorted.and (List.pairwise_map.1 hnodup)).imp fun hab => lt_of_le_of_ne hab.1 (Ne.symm hab.2)

theorem Descending.nodup {l : List α} (h : Descending key l) : l.Nodup := by
  refine h.imp fun hab heq => ?_
  subst heq
  exact lt_irrefl _ hab

/-- **A strictly descending list with the same rows is the sorted one.** -/
theorem newestFirst_eq {l r : List α} (hl : (l.map key).Nodup) (hr : Descending key r)
    (hmem : ∀ a, a ∈ r ↔ a ∈ l) : newestFirst key l = r := by
  have hdesc := descending_newestFirst hl
  have hperm : (newestFirst key l).Perm r := by
    refine (List.perm_ext_iff_of_nodup hdesc.nodup hr.nodup).2 fun a => ?_
    rw [mem_newestFirst, hmem]
  refine hperm.eq_of_pairwise (fun a b _ _ hab hba => ?_) hdesc hr
  exact absurd hab (lt_asymm hba)

/-- **The rows below the cursor** are those that have not been read. -/
theorem Descending.mem_rest {done rest : List α} {last : α}
    (h : Descending key (done ++ last :: rest)) {a : α} :
    a ∈ rest ↔ a ∈ done ++ last :: rest ∧ key a < key last := by
  obtain ⟨_, hlast, hdone⟩ := List.pairwise_append.1 h
  constructor
  · intro ha
    exact ⟨by simp [ha], (List.pairwise_cons.1 hlast).1 a ha⟩
  · rintro ⟨ha, hlt⟩
    rcases List.mem_append.1 ha with hin | hin
    · exact absurd hlt (lt_asymm (hdone a hin last (by simp)))
    · rcases List.mem_cons.1 hin with heq | hrest
      · subst heq
        exact absurd hlt (lt_irrefl _)
      · exact hrest

end Keyset

/-- A page that is not the last: its last row, and the first one that is not on it. -/
theorem exists_of_lt_length {l : List α} {k : Nat} (hpos : 0 < k) (hlen : k < l.length) :
    ∃ init last next rest, l = init ++ last :: next :: rest ∧ init.length + 1 = k := by
  refine ⟨l.take (k - 1), l[k - 1], l[k], l.drop (k + 1), ?_, ?_⟩
  · have hk : k - 1 + 1 = k := by omega
    have hlast : l.drop (k - 1) = l[k - 1] :: l.drop (k - 1 + 1) :=
      List.drop_eq_getElem_cons (by omega)
    have hnext : l.drop k = l[k] :: l.drop (k + 1) := List.drop_eq_getElem_cons hlen
    rw [hk, hnext] at hlast
    rw [← hlast, List.take_append_drop]
  · rw [List.length_take]
    omega

end Paging

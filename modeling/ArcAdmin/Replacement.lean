import Mathlib.Data.List.Infix
import Mathlib.Data.List.Count
import Mathlib.Tactic.Common

/-!
# Replacing a pattern in a text

Every occurrence of a pattern is replaced, from left to right and without looking at what was put in.

* **`replaceAll_append`** — two texts are replaced apart where the pattern cannot cross the border;
* **`replaceAll_of_not_occurs`** — a text without the pattern stays;
* **`count_lt_replaceAll`** — a replacement that brings in a new symbol is seen in the result.
-/

namespace Replacement

variable {α : Type} [DecidableEq α] {pat rep text a b : List α}

/-- The pattern is somewhere in the text. -/
def Occurs (pat text : List α) : Prop := pat <:+: text

instance (pat text : List α) : Decidable (Occurs pat text) := inferInstanceAs (Decidable (_ <:+: _))

/-- Replacing behind an occurrence, of which `skip` symbols are left. -/
def replaceFrom (pat rep : List α) : Nat → List α → List α
  | _, [] => []
  | skip + 1, _ :: rest => replaceFrom pat rep skip rest
  | 0, c :: rest =>
    if pat <+: c :: rest then rep ++ replaceFrom pat rep (pat.length - 1) rest
    else c :: replaceFrom pat rep 0 rest

def replaceAll (pat rep text : List α) : List α := replaceFrom pat rep 0 text

/-- The pattern cannot cross the border in front of `b`. -/
def Bordered (pat b : List α) : Prop := ∀ c, b.head? = some c → c ∉ pat.tail

theorem prefix_append_iff (hborder : Bordered pat b) {c : α} :
    pat <+: c :: (a ++ b) ↔ pat <+: c :: a := by
  constructor
  · intro h
    by_contra hnot
    have hlong : (c :: a).length < pat.length := by
      by_contra hshort
      rw [← List.cons_append] at h
      exact hnot (List.prefix_of_prefix_length_le h (List.prefix_append _ _) (by omega))
    -- the pattern reaches over the border
    obtain ⟨rest, hrest⟩ := h
    cases b with
    | nil =>
      have hlength := congrArg List.length hrest
      simp only [List.length_append, List.length_cons, List.length_nil] at hlength hlong
      omega
    | cons d b =>
      cases pat with
      | nil => simp at hlong
      | cons p ps =>
        rw [List.cons_append, List.cons.injEq] at hrest
        have hget : ps[a.length]? = some d := by
          have hlt : a.length < ps.length := by simpa using hlong
          have hat := congrArg (fun l => l[a.length]?) hrest.2
          rw [List.getElem?_append_left hlt] at hat
          rw [hat]
          simp
        exact hborder d rfl (List.mem_of_getElem? hget)
  · intro h
    rw [← List.cons_append]
    exact h.trans (List.prefix_append _ _)

theorem replaceFrom_append (hborder : Bordered pat b) {skip : Nat} (hskip : skip ≤ a.length) :
    replaceFrom pat rep skip (a ++ b) = replaceFrom pat rep skip a ++ replaceFrom pat rep 0 b := by
  induction a generalizing skip with
  | nil =>
    obtain rfl : skip = 0 := Nat.le_zero.1 hskip
    rfl
  | cons c a ih =>
    cases skip with
    | succ skip =>
      show replaceFrom pat rep skip (a ++ b) = replaceFrom pat rep skip a ++ replaceFrom pat rep 0 b
      exact ih (by simpa using hskip)
    | zero =>
      rw [List.cons_append, replaceFrom, replaceFrom]
      by_cases hpat : pat <+: c :: a
      · have hlength := hpat.length_le
        rw [if_pos hpat, if_pos ((prefix_append_iff hborder).2 hpat), List.append_assoc,
          ih (by simp only [List.length_cons] at hlength; omega)]
      · rw [if_neg hpat, if_neg fun h => hpat ((prefix_append_iff hborder).1 h), List.cons_append,
          ih (Nat.zero_le _)]

/-- **Two texts are replaced apart** where the pattern cannot cross the border. -/
theorem replaceAll_append (hborder : Bordered pat b) :
    replaceAll pat rep (a ++ b) = replaceAll pat rep a ++ replaceAll pat rep b :=
  replaceFrom_append hborder (Nat.zero_le _)

/-- Several texts. -/
theorem replaceAll_flatMap {β : Type} {f : β → List α} {xs : List β}
    (hborder : ∀ x ∈ xs, f x ≠ [] ∧ Bordered pat (f x)) :
    replaceAll pat rep (a ++ xs.flatMap f) =
      replaceAll pat rep a ++ xs.flatMap fun x => replaceAll pat rep (f x) := by
  induction xs generalizing a with
  | nil => simp [replaceAll]
  | cons x xs ih =>
    obtain ⟨⟨hne, hx⟩, hxs⟩ := List.forall_mem_cons.1 hborder
    have hhead : Bordered pat (f x ++ xs.flatMap f) := by
      intro c hc
      rw [List.head?_append_of_ne_nil _ hne] at hc
      exact hx c hc
    rw [List.flatMap_cons, List.flatMap_cons, replaceAll_append hhead, ih hxs]

/-- **A text without the pattern stays.** -/
theorem replaceAll_of_not_occurs (h : ¬ Occurs pat text) : replaceAll pat rep text = text := by
  unfold replaceAll
  induction text with
  | nil => rfl
  | cons c rest ih =>
    have hhead : ¬ pat <+: c :: rest := fun hpat => h hpat.isInfix
    have hrest : ¬ Occurs pat rest := fun hpat => h (hpat.trans (List.suffix_cons c rest).isInfix)
    rw [replaceFrom, if_neg hhead, ih hrest]

theorem replaceFrom_length (skipped : List α) :
    replaceFrom pat rep skipped.length (skipped ++ b) = replaceFrom pat rep 0 b := by
  induction skipped with
  | nil => rfl
  | cons c rest ih => exact ih

/-- **The pattern in front of a text** is replaced. -/
theorem replaceAll_pat (hpat : pat ≠ []) :
    replaceAll pat rep (pat ++ b) = rep ++ replaceAll pat rep b := by
  cases pat with
  | nil => exact absurd rfl hpat
  | cons p ps =>
    unfold replaceAll
    rw [List.cons_append, replaceFrom]
    have hstart : (p :: ps) <+: p :: (ps ++ b) := by
      rw [← List.cons_append]
      exact List.prefix_append _ _
    rw [if_pos hstart]
    have hlength : (p :: ps).length - 1 = ps.length := rfl
    rw [hlength, replaceFrom_length]

section Count

variable {c : α}

/-- Behind a pattern that is without the symbol, the text has as many of them. -/
theorem count_behind {d : α} {rest : List α} (hpat : pat ≠ []) (hc : c ∉ pat)
    (hstart : pat <+: d :: rest) : (d :: rest).count c = (rest.drop (pat.length - 1)).count c := by
  obtain ⟨tail, htail⟩ := hstart
  cases pat with
  | nil => exact absurd rfl hpat
  | cons p ps =>
    rw [List.cons_append, List.cons.injEq] at htail
    obtain ⟨rfl, rfl⟩ := htail
    have hps : c ∉ ps := fun h => hc (List.mem_cons_of_mem _ h)
    have hp : p ≠ c := fun h => hc (h ▸ List.mem_cons_self)
    simp [List.count_cons_of_ne hp, List.count_eq_zero_of_not_mem hps]

/-- A symbol that is not in the pattern is not lost. -/
theorem count_drop_le (hpat : pat ≠ []) (hc : c ∉ pat) (skip : Nat) (text : List α) :
    (text.drop skip).count c ≤ (replaceFrom pat rep skip text).count c := by
  induction text generalizing skip with
  | nil => simp [replaceFrom]
  | cons d rest ih =>
    cases skip with
    | succ skip => exact ih skip
    | zero =>
      rw [replaceFrom, List.drop_zero]
      by_cases hstart : pat <+: d :: rest
      · have hrest := ih (pat.length - 1)
        rw [if_pos hstart, List.count_append, count_behind hpat hc hstart]
        omega
      · have hrest := ih 0
        rw [List.drop_zero] at hrest
        rw [if_neg hstart, List.count_cons, List.count_cons]
        omega

theorem count_le_replaceAll (hpat : pat ≠ []) (hc : c ∉ pat) :
    text.count c ≤ (replaceAll pat rep text).count c :=
  count_drop_le hpat hc 0 text

/-- **A replacement that brings in the symbol is seen.** -/
theorem count_lt_replaceAll (hpat : pat ≠ []) (hc : c ∉ pat) (hrep : c ∈ rep)
    (hoccurs : Occurs pat text) : text.count c < (replaceAll pat rep text).count c := by
  unfold replaceAll
  induction text with
  | nil => exact absurd (List.eq_nil_of_infix_nil hoccurs) hpat
  | cons d rest ih =>
    rw [replaceFrom]
    by_cases hstart : pat <+: d :: rest
    · have hpos := List.count_pos_iff.2 hrep
      have hrest : (rest.drop (pat.length - 1)).count c ≤
          (replaceFrom pat rep (pat.length - 1) rest).count c := count_drop_le hpat hc _ rest
      rw [if_pos hstart, List.count_append, count_behind hpat hc hstart]
      omega
    · have hrest : Occurs pat rest := (List.infix_cons_iff.1 hoccurs).resolve_left hstart
      have hlt := ih hrest
      rw [if_neg hstart, List.count_cons, List.count_cons]
      omega

end Count

end Replacement

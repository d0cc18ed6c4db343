import Mathlib.Data.List.Infix

/-!
# `LIKE` patterns

The patterns of SQL: `%` stands for any text, `_` for one character, and a backslash takes the
character after it as it is. A text is compared after its letters have been folded.

* **`matches_infix_iff`** — between two `%` a text without special characters is found where it
  occurs;
* **`matches_sample`**, **`sample_not_infix`** — any other text finds a text that it does not occur
  in.
-/

namespace Like

/-- What one part of a pattern stands for. -/
inductive Piece where
  | lit (c : Char)
  | one
  | any
deriving DecidableEq, Repr

/-- A character that stands for itself, unless it is a wildcard. -/
def piece (c : Char) : Piece := if c = '%' then .any else if c = '_' then .one else .lit c

/-- A pattern in parts; one that ends with its escape character is an error. -/
def pieces : List Char → Option (List Piece)
  | [] => some []
  | ['\\'] => none
  | '\\' :: c :: rest => (pieces rest).map (Piece.lit c :: ·)
  | c :: rest => (pieces rest).map (piece c :: ·)

def isMatch : List Piece → List Char → Bool
  | [], text => text.isEmpty
  | .lit c :: ps, text => text.head? == some c && isMatch ps text.tail
  | .one :: ps, text => !text.isEmpty && isMatch ps text.tail
  | .any :: ps, text => text.tails.any (isMatch ps)

/-- The characters that a pattern does not take as they are. -/
def Special (c : Char) : Prop := c = '%' ∨ c = '_' ∨ c = '\\'

instance : DecidablePred Special := fun _ => inferInstanceAs (Decidable (_ ∨ _ ∨ _))

/-- Nothing but a special character is folded to it, and that not to anything else. -/
def Folds (fold : Char → Char) : Prop := ∀ c, Special c → ∀ d, fold d = c ↔ d = c

/-! ## Texts without special characters

Such a text is its own pattern. Between two wildcards it matches where it occurs, after both have
been folded.
-/

theorem pieces_cons {c : Char} (h : c ≠ '\\') (rest : List Char) :
    pieces (c :: rest) = (pieces rest).map (piece c :: ·) := by
  rw [pieces]
  · intro hc
    exact absurd hc h
  · intro _ _ hc
    exact absurd hc h

theorem piece_of_not_special {c : Char} (h : ¬ Special c) : piece c = .lit c := by
  unfold Special at h
  simp only [not_or] at h
  simp [piece, h]

/-- Characters that are not special stand for themselves. -/
theorem pieces_append {text : List Char} (h : ∀ c ∈ text, ¬ Special c) (rest : List Char) :
    pieces (text ++ rest) = (pieces rest).map (text.map Piece.lit ++ ·) := by
  induction text with
  | nil => simp
  | cons c cs ih =>
    have hc : ¬ Special c := h c (by simp)
    have hescape : c ≠ '\\' := fun heq => hc (.inr (.inr heq))
    rw [List.cons_append, pieces_cons hescape, ih fun d hd => h d (by simp [hd]),
      piece_of_not_special hc, Option.map_map]
    rfl

theorem isMatch_any_nil (text : List Char) : isMatch [.any] text = true := by
  show text.tails.any (isMatch []) = true
  rw [List.any_eq_true]
  exact ⟨[], (List.mem_tails _ _).2 (List.nil_suffix), rfl⟩

/-- Literal characters at the start. -/
theorem isMatch_prefix_iff (word text : List Char) :
    isMatch (word.map Piece.lit ++ [.any]) text = true ↔ word <+: text := by
  induction word generalizing text with
  | nil => simp [isMatch_any_nil]
  | cons c cs ih =>
    show (text.head? == some c && isMatch (cs.map Piece.lit ++ [.any]) text.tail) = true ↔ _
    cases text with
    | nil => simp
    | cons d ds =>
      rw [Bool.and_eq_true, ih, List.cons_prefix_cons, List.head?_cons, beq_iff_eq,
        Option.some.injEq, eq_comm]
      exact Iff.rfl

/-- **A text between two `%`** is found where it occurs. -/
theorem matches_infix_iff (word text : List Char) :
    isMatch (.any :: (word.map Piece.lit ++ [.any])) text = true ↔ word <:+: text := by
  show text.tails.any (isMatch (word.map Piece.lit ++ [.any])) = true ↔ _
  rw [List.any_eq_true, List.infix_iff_prefix_suffix]
  constructor
  · rintro ⟨rest, hrest, hmatch⟩
    exact ⟨rest, (isMatch_prefix_iff word rest).1 hmatch, (List.mem_tails _ _).1 hrest⟩
  · rintro ⟨rest, hword, hrest⟩
    exact ⟨rest, (List.mem_tails _ _).2 hrest, (isMatch_prefix_iff word rest).2 hword⟩

/-! ## Texts with special characters

The converse: for any other text there is a text that its pattern matches although it does not
occur in it. The sample is made character by character, so that the pattern matches it part by
part.
-/

/-- A text that is found by another one between two `%`, although the other one does not occur in
it if it has a special character. -/
def sample : List Char → List Char
  | [] => []
  | ['\\'] => ['%']
  | '\\' :: c :: rest => c :: sample rest
  | c :: rest => (if c = '%' ∨ c = '_' then 'a' else c) :: sample rest

theorem sample_cons {c : Char} (h : c ≠ '\\') (rest : List Char) :
    sample (c :: rest) = (if c = '%' ∨ c = '_' then 'a' else c) :: sample rest := by
  rw [sample]
  · intro hc
    exact absurd hc h
  · intro _ _ hc
    exact absurd hc h

/-- The cases of a pattern: its end, a lone escape character, an escaped character, and any other
character. -/
theorem escape_cases {motive : List Char → Prop} (nil : motive []) (lone : motive ['\\'])
    (escaped : ∀ c rest, motive rest → motive ('\\' :: c :: rest))
    (other : ∀ c rest, c ≠ '\\' → motive rest → motive (c :: rest)) (text : List Char) :
    motive text := by
  induction text using sample.induct with
  | case1 => exact nil
  | case2 => exact lone
  | case3 c rest ih => exact escaped c rest ih
  | case4 c rest hlone hescaped ih =>
    by_cases hc : c = '\\'
    · subst hc
      cases rest with
      | nil => exact lone
      | cons d ds => exact absurd rfl (hescaped d ds rfl)
    · exact other c rest hc ih

theorem length_sample_le (text : List Char) : (sample text).length ≤ text.length := by
  induction text using escape_cases with
  | nil => simp [sample]
  | lone => simp [sample]
  | escaped c rest ih =>
    show (sample rest).length + 1 ≤ rest.length + 1 + 1
    omega
  | other c rest hc ih =>
    rw [sample_cons hc]
    simpa using ih

section Fold

variable {fold : Char → Char} (hfold : Folds fold)

include hfold

theorem Folds.special_iff (c : Char) : Special (fold c) ↔ Special c := by
  unfold Special
  rw [hfold '%' (.inl rfl), hfold '_' (.inr (.inl rfl)), hfold '\\' (.inr (.inr rfl))]

/-- **The sample is found.** -/
theorem matches_sample (text : List Char) :
    ∃ ps, pieces (text.map fold ++ ['%']) = some ps ∧ isMatch ps ((sample text).map fold) = true := by
  have hescape : fold '\\' = '\\' := (hfold '\\' (.inr (.inr rfl)) '\\').2 rfl
  have hpercent : fold '%' = '%' := (hfold '%' (.inl rfl) '%').2 rfl
  induction text using escape_cases with
  | nil => exact ⟨_, rfl, isMatch_any_nil []⟩
  | lone => exact ⟨[.lit '%'], by simp [hescape, pieces], by simp [sample, hpercent, isMatch]⟩
  | escaped c rest ih =>
    obtain ⟨ps, hps, hmatch⟩ := ih
    refine ⟨.lit (fold c) :: ps, ?_, ?_⟩
    · simp only [List.map_cons, List.cons_append, hescape]
      rw [pieces, hps]
      rfl
    · show isMatch (.lit (fold c) :: ps) (fold c :: (sample rest).map fold) = true
      simp [isMatch, hmatch]
  | other c rest hc ih =>
    obtain ⟨ps, hps, hmatch⟩ := ih
    have hne : fold c ≠ '\\' := fun heq => hc ((hfold '\\' (.inr (.inr rfl)) c).1 heq)
    refine ⟨piece (fold c) :: ps, ?_, ?_⟩
    · rw [List.map_cons, List.cons_append, pieces_cons hne, hps]
      rfl
    · rw [sample_cons hc, List.map_cons]
      by_cases hany : c = '%'
      · subst hany
        rw [hpercent]
        show List.any _ _ = true
        rw [List.any_eq_true]
        refine ⟨(sample rest).map fold, (List.mem_tails _ _).2 (List.suffix_cons _ _), hmatch⟩
      · by_cases hone : c = '_'
        · subst hone
          have hunder : fold '_' = '_' := (hfold '_' (.inr (.inl rfl)) '_').2 rfl
          rw [hunder]
          simp [piece, isMatch, hmatch]
        · have hspecial : ¬ Special (fold c) := by
            rw [hfold.special_iff]
            simp [Special, hany, hone, hc]
          rw [piece_of_not_special hspecial]
          simp [isMatch, hany, hone, hmatch]

/-- The sample of a text with a special character differs from it, even after folding. -/
theorem sample_ne {text : List Char} (h : ∃ c ∈ text, Special c) :
    text.map fold ≠ (sample text).map fold := by
  induction text using escape_cases with
  | nil => simp at h
  | lone =>
    intro heq
    have hhead : fold '\\' = fold '%' := by simpa [sample] using heq
    have hpercent : fold '%' = '%' := (hfold '%' (.inl rfl) '%').2 rfl
    rw [hpercent, hfold '%' (.inl rfl)] at hhead
    exact absurd hhead (by decide)
  | escaped c rest ih =>
    intro heq
    have hlen := congrArg List.length heq
    have hle := length_sample_le rest
    simp only [sample, List.length_map, List.length_cons] at hlen
    omega
  | other c rest hc ih =>
    intro heq
    rw [sample_cons hc, List.map_cons, List.map_cons, List.cons.injEq] at heq
    by_cases hwild : c = '%' ∨ c = '_'
    · have hspecial : Special c := hwild.imp_right .inl
      have hself : fold c = c := (hfold c hspecial c).2 rfl
      have ha := heq.1
      rw [if_pos hwild, hself, eq_comm, hfold c hspecial] at ha
      rcases hwild with rfl | rfl <;> exact absurd ha (by decide)
    · obtain ⟨d, hd, hspecial⟩ := h
      rcases List.mem_cons.1 hd with rfl | hrest
      · exact absurd hspecial (by simp [Special, not_or.1 hwild, hc])
      · exact ih ⟨d, hrest, hspecial⟩ heq.2

/-- **The text does not occur in its sample.** -/
theorem sample_not_infix {text : List Char} (h : ∃ c ∈ text, Special c) :
    ¬ text.map fold <:+: (sample text).map fold := by
  intro hoccurs
  have hle := length_sample_le text
  refine sample_ne hfold h (hoccurs.eq_of_length_le ?_)
  simpa using hle

end Fold

end Like

import ArcAdmin.Flow.Audit.Rust
import ArcAdmin.Proofs.CommentRanges

/-!
# The comments of Rust sources

The reference scanner with the shipped delimiters, beside the lexer of Rust. The delimiters know no
character literals, no raw strings with more than three hashes, and no words: where a source is
regular in these points, the two read it alike.

* **`scans_turn`** — a turn of the lexer is some turns of the scanner;
* **`classify_eq`** — the scanner reads a regular source as Rust does;
* **`soundFor_of_regular`** — what it takes for a comment of such a source is one.
-/

namespace ArcAdmin

namespace Flow

namespace Audit

namespace RustLexer

open CommentSyntax (longest)

variable {lexer : RustLexer} {text rest : Text} {c : Char} {n : Nat}

/-! ## Raw strings

The shipped delimiters have one string syntax for each number of hashes up to three.
-/

/-- `r`, `hashes` times `#`, and a quotation mark. -/
def rawSyntax (hashes : Nat) : StringSyntax where
  start := 'r' :: (List.replicate hashes '#' ++ ['"'])
  stop := '"' :: List.replicate hashes '#'
  escape := none

def plainSyntax : StringSyntax where
  start := ['"']
  stop := ['"']
  escape := some ['\\']

theorem strings_eq : rustSyntax.strings =
    [rawSyntax 3, rawSyntax 2, rawSyntax 1, rawSyntax 0, plainSyntax] := by
  decide +kernel

theorem hashesBeforeQuote_iff :
    hashesBeforeQuote text = some n ↔ List.replicate n '#' ++ ['"'] <+: text := by
  induction text generalizing n with
  | nil => simp [hashesBeforeQuote]
  | cons c rest ih =>
    rw [hashesBeforeQuote]
    by_cases hquote : c = '"'
    · subst hquote
      cases n with
      | zero => simp
      | succ n => simp [List.replicate_succ]
    · rw [if_neg hquote]
      by_cases hhash : c = '#'
      · subst hhash
        cases n with
        | zero => simp
        | succ n => simp [List.replicate_succ, ih]
      · rw [if_neg hhash]
        cases n with
        | zero => simp [Ne.symm hquote]
        | succ n => simp [List.replicate_succ, Ne.symm hhash]

theorem raw_stands_iff : (rawSyntax n).start.isPrefixOf (c :: rest) = true ↔
    c = 'r' ∧ hashesBeforeQuote rest = some n := by
  rw [hashesBeforeQuote_iff, List.isPrefixOf_iff_prefix, rawSyntax, List.cons_prefix_cons]
  exact and_congr_left' eq_comm

theorem plain_stands_iff : plainSyntax.start.isPrefixOf (c :: rest) = true ↔ c = '"' := by
  rw [List.isPrefixOf_iff_prefix, plainSyntax, List.cons_prefix_cons]
  exact ⟨fun h => h.1.symm, fun h => ⟨h.symm, List.nil_prefix⟩⟩

theorem looksRaw_iff : looksRaw (c :: rest) = true ↔
    c = 'r' ∧ ∃ n, n ≤ 3 ∧ hashesBeforeQuote rest = some n := by
  rw [looksRaw]
  cases hashesBeforeQuote rest <;> simp

/-! ## The longest token

Where several tokens could stand, one of them does.
-/

theorem longest_eq_none {α : Type} {token : α → Text} {tokens : List α}
    (h : ∀ x ∈ tokens, (token x).isPrefixOf text = false) : longest token tokens text = none := by
  rw [longest, CommentSyntax.maxByKey_eq_none, List.filter_eq_nil_iff]
  intro x hx
  rw [h x hx]
  exact Bool.false_ne_true

/-- Only one of the tokens stands in front of the text. -/
theorem longest_eq_some {α : Type} {token : α → Text} {tokens : List α} {x : α} (hx : x ∈ tokens)
    (hstands : (token x).isPrefixOf text = true)
    (hother : ∀ y ∈ tokens, (token y).isPrefixOf text = true → y = x) :
    longest token tokens text = some x := by
  cases hfound : longest token tokens text with
  | none =>
    rw [longest, CommentSyntax.maxByKey_eq_none, List.filter_eq_nil_iff] at hfound
    exact absurd hstands (hfound x hx)
  | some y =>
    obtain ⟨hy, hstands⟩ := CommentSyntax.longest_mem hfound
    rw [hother y hy (List.isPrefixOf_iff_prefix.2 hstands)]

/-! ## Turns of the scanner in the code

What the scanner does outside of strings and comments, depending on the first characters.
-/

/-- Neither a string nor a comment seems to begin. -/
structure Passed (text : Text) : Prop where
  quote : text.head? ≠ some '"'
  raw : looksRaw text = false
  line : ['/', '/'].isPrefixOf text = false
  block : ['/', '*'].isPrefixOf text = false

theorem no_string (hquote : c ≠ '"') (hraw : looksRaw (c :: rest) = false) :
    longest StringSyntax.start rustSyntax.strings (c :: rest) = none := by
  apply longest_eq_none
  rw [strings_eq]
  have hnone : ∀ n ≤ 3, (rawSyntax n).start.isPrefixOf (c :: rest) = false := by
    intro n hn
    rw [Bool.eq_false_iff]
    intro hstands
    obtain ⟨hr, hhashes⟩ := raw_stands_iff.1 hstands
    rw [looksRaw_iff.2 ⟨hr, n, hn, hhashes⟩] at hraw
    exact Bool.noConfusion hraw
  simp only [List.forall_mem_cons]
  refine ⟨hnone 3 (by omega), hnone 2 (by omega), hnone 1 (by omega), hnone 0 (by omega), ?_,
    fun _ h => absurd h List.not_mem_nil⟩
  rw [Bool.eq_false_iff]
  exact fun hstands => hquote (plain_stands_iff.1 hstands)

theorem line_eq : rustSyntax.line = [['/', '/']] := by decide +kernel

def slashStar : BlockCommentSyntax := ⟨['/', '*'], ['*', '/'], true⟩

theorem block_eq : rustSyntax.block = [slashStar] := by decide +kernel

theorem longest_single {α : Type} {token : α → Text} {x : α} :
    longest token [x] text = if (token x).isPrefixOf text then some x else none := by
  unfold longest
  rw [List.filter_cons]
  split <;> rfl

theorem turn_passed (h : Passed (c :: rest)) :
    rustSyntax.turnCode (c :: rest) = ⟨.code, 1, false⟩ := by
  have hquote : c ≠ '"' := fun heq => h.quote (heq ▸ rfl)
  have hline := h.line
  have hblock := h.block
  simp only [CommentSyntax.turnCode, no_string hquote h.raw, line_eq, block_eq, longest_single, id,
    slashStar, hline, hblock, Bool.false_eq_true, if_false]

theorem turn_quote (hquote : c = '"') :
    rustSyntax.turnCode (c :: rest) = ⟨.string plainSyntax, 1, false⟩ := by
  have hlongest : longest StringSyntax.start rustSyntax.strings (c :: rest) = some plainSyntax := by
    apply longest_eq_some
    · rw [strings_eq]
      simp
    · exact plain_stands_iff.2 hquote
    · rw [strings_eq]
      simp only [List.forall_mem_cons]
      have hnone : ∀ n, (rawSyntax n).start.isPrefixOf (c :: rest) = true → rawSyntax n = plainSyntax :=
        fun n hstands => by
          rw [(raw_stands_iff.1 hstands).1] at hquote
          exact absurd hquote (by decide)
      exact ⟨hnone 3, hnone 2, hnone 1, hnone 0, fun _ => trivial, fun _ h => absurd h List.not_mem_nil⟩
  simp only [CommentSyntax.turnCode, hlongest]
  rfl

theorem turn_raw (hn : n ≤ 3) (hhashes : hashesBeforeQuote rest = some n) :
    rustSyntax.turnCode ('r' :: rest) = ⟨.string (rawSyntax n), n + 2, false⟩ := by
  have hlongest : longest StringSyntax.start rustSyntax.strings ('r' :: rest) = some (rawSyntax n) := by
    apply longest_eq_some
    · rw [strings_eq]
      obtain rfl | rfl | rfl | rfl : n = 0 ∨ n = 1 ∨ n = 2 ∨ n = 3 := by omega
      all_goals simp
    · exact raw_stands_iff.2 ⟨rfl, hhashes⟩
    · rw [strings_eq]
      have hsame : ∀ k, (rawSyntax k).start.isPrefixOf ('r' :: rest) = true →
          rawSyntax k = rawSyntax n := fun k hstands => by
        have hk := (raw_stands_iff.1 hstands).2
        rw [hhashes] at hk
        cases hk
        rfl
      have hplain : plainSyntax.start.isPrefixOf ('r' :: rest) = true → plainSyntax = rawSyntax n :=
        fun hstands => absurd (plain_stands_iff.1 hstands) (by decide)
      simp only [List.forall_mem_cons]
      exact ⟨hsame 3, hsame 2, hsame 1, hsame 0, hplain, fun _ h => absurd h List.not_mem_nil⟩
  simp only [CommentSyntax.turnCode, hlongest, rawSyntax]
  simp

/-! ## Turns of the scanner over a turn of the lexer

The two go through the text at different paces. They are compared at the ends of the turns of the
lexer, where both are in the same mode.
-/

/-- The scanner is in the mode of the lexer. -/
def Agrees : RustMode → Mode → Prop
  | .code _, .code => True
  | .shebang, .code => True
  | .string, .string string => string = plainSyntax
  | .rawString hashes, .string string => string = rawSyntax hashes
  | .line, .line => True
  | .block depth, .block block depth' => block = slashStar ∧ depth = depth'
  | _, _ => False

/-- The scanner has read what a turn of the lexer reads, and takes it for the same. -/
def Scans (mode : Mode) (text : Text) (next : RustTurn) : Prop :=
  0 < next.length ∧ ∃ mode', Agrees next.mode mode' ∧ ∀ comment,
    rustSyntax.classify mode 0 comment text =
      List.replicate (text.take next.length).length next.comment ++
        rustSyntax.classify mode' 0 comment (text.drop next.length)

/-- One turn of the scanner. -/
theorem scans_one (mode mode' : Mode) {next : RustTurn}
    (hturn : rustSyntax.turn mode (c :: rest) = ⟨mode', next.length, next.comment⟩)
    (hlength : 0 < next.length) (hagrees : Agrees next.mode mode') : Scans mode (c :: rest) next := by
  refine ⟨hlength, mode', hagrees, fun comment => ?_⟩
  have hclassify := @CommentSyntax.classify_turn rustSyntax rest c mode comment
    (by rw [hturn]; exact hlength)
  rw [hturn] at hclassify
  exact hclassify

/-- A character that is passed, in front of more. -/
theorem classify_passed (h : Passed (c :: rest)) (comment : Bool) :
    rustSyntax.classify .code 0 comment (c :: rest) =
      false :: rustSyntax.classify .code 0 comment rest := by
  have hturn : rustSyntax.turn .code (c :: rest) = ⟨.code, 1, false⟩ := turn_passed h
  rw [CommentSyntax.classify, hturn]
  exact congrArg _ (CommentSyntax.classify_zero _ _ _ _)

/-- Characters that are passed one by one. -/
theorem classify_passed_append {front : Text}
    (h : ∀ before c behind, front = before ++ c :: behind → Passed (c :: (behind ++ rest)))
    (comment : Bool) :
    rustSyntax.classify .code 0 comment (front ++ rest) =
      List.replicate front.length false ++ rustSyntax.classify .code 0 comment rest := by
  induction front with
  | nil => rfl
  | cons c front ih =>
    have hrest : ∀ before d behind, front = before ++ d :: behind → Passed (d :: (behind ++ rest)) :=
      fun before d behind heq => h (c :: before) d behind (by rw [heq, List.cons_append])
    rw [List.cons_append, classify_passed (h [] c front rfl), ih hrest, List.length_cons,
      List.replicate_succ, List.cons_append]

/-- Only `r` and `/` begin something, and not in front of a quotation mark of a character. -/
theorem passed_of {d : Option Char} (hquote : c ≠ '"') (hnext : rest.head? = d)
    (h : c ≠ 'r' ∧ c ≠ '/' ∨ d = some '\'') : Passed (c :: rest) := by
  have hstart : ∀ (a b : Char) (tail : Text), a ≠ 'r' → a = '/' → b ≠ '\'' →
      (a :: b :: tail).isPrefixOf (c :: rest) = false := by
    intro a b tail _ ha hb
    rw [Bool.eq_false_iff, ne_eq, List.isPrefixOf_iff_prefix]
    intro hstands
    obtain ⟨heq, htail⟩ := List.cons_prefix_cons.1 hstands
    rcases h with ⟨-, hslash⟩ | hquote'
    · exact hslash (heq.symm.trans ha)
    · obtain ⟨more, hmore⟩ := htail
      rw [← hmore, hquote'] at hnext
      exact hb (Option.some.inj hnext)
  constructor
  · exact fun heq => hquote (Option.some.inj heq)
  · rw [Bool.eq_false_iff]
    intro hraw
    obtain ⟨hr, k, -, hhashes⟩ := looksRaw_iff.1 hraw
    rcases h with ⟨hnot, -⟩ | hquote'
    · exact hnot hr
    · obtain ⟨more, hmore⟩ := hashesBeforeQuote_iff.1 hhashes
      rw [← hmore, hquote'] at hnext
      cases k with
      | zero => exact absurd (Option.some.inj hnext) (by decide)
      | succ k =>
        rw [List.replicate_succ] at hnext
        exact absurd (Option.some.inj hnext) (by decide)
  · exact hstart '/' '/' [] (by decide) rfl (by decide)
  · exact hstart '/' '*' [] (by decide) rfl (by decide)

/-! ## Character literals

The delimiters have no character literals, so their text is read as code. That does no harm if
nothing in it can begin a string or a comment.
-/

/-- Neither of the characters that can begin something. -/
def Harmless (c : Char) : Prop := c ≠ 'r' ∧ c ≠ '/'

theorem harmless_digit (h : (isHexDigit c || c == '_') = true) : Harmless c := by
  constructor
  · rintro rfl
    exact absurd h (by decide)
  · rintro rfl
    exact absurd h (by decide)

/-- A literal text of which only the last character can begin something. -/
structure Body (text : Text) (n : Nat) : Prop where
  le : n ≤ text.length
  pos : 0 < n
  harmless : ∀ c ∈ (text.take n).dropLast, Harmless c

theorem Body.cons (h : Body rest n) (hc : Harmless c) : Body (c :: rest) (n + 1) where
  le := Nat.succ_le_succ h.le
  pos := Nat.succ_pos n
  harmless := by
    have hne : rest.take n ≠ [] := by
      intro heq
      have hle := h.le
      have hpos := h.pos
      rw [List.take_eq_nil_iff] at heq
      rcases heq with heq | heq
      · omega
      · rw [heq, List.length_nil] at hle
        omega
    rw [List.take_succ_cons, List.dropLast_cons_of_ne_nil hne]
    exact List.forall_mem_cons.2 ⟨hc, h.harmless⟩

theorem body_one : Body (c :: rest) 1 where
  le := Nat.succ_le_succ (Nat.zero_le _)
  pos := Nat.one_pos
  harmless := fun _ h => absurd h List.not_mem_nil

/-- Hexadecimal digits up to a brace. -/
theorem body_digits {digits : Text} (hdigits : ∀ c ∈ digits, Harmless c) :
    Body (digits ++ c :: rest) (digits.length + 1) := by
  induction digits with
  | nil => exact body_one
  | cons d digits ih =>
    obtain ⟨hd, hdigits⟩ := List.forall_mem_cons.1 hdigits
    exact (ih hdigits).cons hd

theorem escapeLength_body (h : escapeLength text = some n) : Body text n := by
  cases text with
  | nil => cases h
  | cons c rest =>
    rw [escapeLength.eq_def] at h
    simp only at h
    split at h
    · -- one character behind the backslash, whatever it is
      cases h
      exact body_one
    · split at h
      · rename_i hx
        subst hx
        cases rest with
        | nil => cases h
        | cons a rest =>
          cases rest with
          | nil => cases h
          | cons b rest =>
            simp only at h
            split at h
            · rename_i hhex
              cases h
              rw [Bool.and_eq_true] at hhex
              -- `\x` and two hexadecimal digits
              have ha : Harmless a := harmless_digit (by rw [hhex.1, Bool.true_or])
              exact (body_one.cons ha).cons ⟨by decide, by decide⟩
            · cases h
      · split at h
        · rename_i hu
          subst hu
          cases rest with
          | nil => cases h
          | cons d rest =>
            simp only at h
            split at h
            · rename_i hbrace
              cases h
              obtain ⟨rfl, -, hclose⟩ := hbrace
              -- `\u{` and digits up to the closing brace: none of them opens anything
              have hsplit := List.takeWhile_append_dropWhile
                (p := fun c => isHexDigit c || c == '_') (l := rest)
              have hbehind : ∀ a b : Text, a ++ b = rest → rest.drop a.length = b := by
                rintro a b rfl
                exact List.drop_left
              rw [hbehind _ _ hsplit] at hclose
              cases hdrop : rest.dropWhile (fun c => isHexDigit c || c == '_') with
              | nil =>
                rw [hdrop] at hclose
                cases hclose
              | cons e tail =>
                rw [hdrop] at hsplit
                have hdigits : ∀ c ∈ rest.takeWhile (fun c => isHexDigit c || c == '_'),
                    Harmless c := fun c hc => by
                  have hdigit := List.mem_takeWhile_imp hc
                  exact harmless_digit hdigit
                have hbody : Body (rest.takeWhile (fun c => isHexDigit c || c == '_') ++ e :: tail)
                    ((rest.takeWhile fun c => isHexDigit c || c == '_').length + 1) :=
                  body_digits hdigits
                rw [hsplit] at hbody
                exact (hbody.cons ⟨by decide, by decide⟩).cons ⟨by decide, by decide⟩
            · cases h
        · cases h

theorem bodyLength_body (h : bodyLength text = some n) : Body text n := by
  cases text with
  | nil => cases h
  | cons c rest =>
    rw [bodyLength] at h
    split at h
    · rename_i hescape
      subst hescape
      obtain ⟨k, hk, rfl⟩ := Option.map_eq_some_iff.1 h
      exact (escapeLength_body hk).cons ⟨by decide, by decide⟩
    · split at h
      · cases h
      · cases h
        exact body_one

/-- In front of a quotation mark of a character. -/
theorem passed_body {body before behind tail : Text} (hharmless : ∀ c ∈ body.dropLast, Harmless c)
    (hquote : c ≠ '"') (heq : '\'' :: (body ++ ['\'']) = before ++ c :: behind) :
    Passed (c :: (behind ++ tail)) := by
  cases before with
  | nil =>
    obtain rfl : '\'' = c := (List.cons.inj heq).1
    exact passed_of hquote rfl (Or.inl ⟨by decide, by decide⟩)
  | cons d before =>
    have hbody : body ++ ['\''] = before ++ c :: behind := (List.cons.inj heq).2
    rcases List.eq_nil_or_concat' behind with rfl | ⟨middle, e, rfl⟩
    · -- the closing mark itself
      obtain ⟨-, hlast⟩ := List.append_inj' hbody rfl
      obtain rfl : '\'' = c := (List.cons.inj hlast).1
      exact passed_of hquote rfl (Or.inl ⟨by decide, by decide⟩)
    · have hparts : body ++ ['\''] = (before ++ c :: middle) ++ [e] := by
        rw [hbody, List.append_assoc, List.cons_append]
      obtain ⟨hfront, hlast⟩ := List.append_inj' hparts rfl
      obtain rfl : '\'' = e := (List.cons.inj hlast).1
      cases middle with
      | nil => exact passed_of hquote rfl (Or.inr rfl)
      | cons f middle =>
        refine passed_of hquote rfl (Or.inl (hharmless c ?_))
        rw [hfront, List.dropLast_append_of_ne_nil (List.cons_ne_nil _ _),
          List.dropLast_cons_of_ne_nil (List.cons_ne_nil _ _)]
        exact List.mem_append_right _ List.mem_cons_self

/-- **A character literal is passed** when no quotation mark of a string is in it. -/
theorem classify_charLiteral (h : charLiteral text = some n) (hquote : '"' ∉ text.take n)
    (comment : Bool) :
    0 < n ∧ rustSyntax.classify .code 0 comment text =
      List.replicate (text.take n).length false ++
        rustSyntax.classify .code 0 comment (text.drop n) := by
  cases text with
  | nil => cases h
  | cons c rest =>
    rw [charLiteral] at h
    split at h
    · rename_i hc
      subst hc
      cases hbody : bodyLength rest with
      | none =>
        simp only [hbody] at h
        cases h
      | some k =>
        simp only [hbody] at h
        split at h
        · rename_i hclose
          cases h
          -- the body is harmless, apart from what `hquote` excludes
          have hspec := bodyLength_body hbody
          obtain ⟨tail, htail⟩ : ∃ tail, rest.drop k = '\'' :: tail := by
            cases hdrop : rest.drop k with
            | nil =>
              rw [hdrop] at hclose
              cases hclose
            | cons d tail =>
              rw [hdrop] at hclose
              cases hclose
              exact ⟨tail, rfl⟩
          -- the literal is the quote, the body and the closing quote
          have hrest : rest = rest.take k ++ '\'' :: tail := by
            rw [← htail, List.take_append_drop]
          have hlength : (rest.take k).length = k := List.length_take_of_le hspec.le
          have hsplit : '\'' :: rest = ('\'' :: (rest.take k ++ ['\''])) ++ tail := by
            conv_lhs => rw [hrest]
            simp
          have hlen : ('\'' :: (rest.take k ++ ['\''])).length = k + 2 := by
            simp [hlength]
          have htake : ('\'' :: rest).take (k + 2) = '\'' :: (rest.take k ++ ['\'']) := by
            rw [hsplit, ← hlen, List.take_left]
          have hdrop : ('\'' :: rest).drop (k + 2) = tail := by
            rw [hsplit, ← hlen, List.drop_left]
          refine ⟨Nat.succ_pos _, ?_⟩
          rw [htake] at hquote
          rw [htake, hdrop]
          conv_lhs => rw [hsplit]
          refine classify_passed_append ?_ comment
          intro before d behind heq
          have hd : d ≠ '"' := by
            rintro rfl
            exact hquote (by rw [heq]; simp)
          exact passed_body hspec.harmless hd heq
        · cases h
    · cases h

/-! ## A turn of the lexer

One lemma for each mode.
-/

theorem head_of_stands {token : Text} {d : Char} (h : (d :: token).isPrefixOf (c :: rest) = true) :
    c = d :=
  (List.cons_prefix_cons.1 (List.isPrefixOf_iff_prefix.1 h)).1.symm

theorem looksRaw_of_ne (h : c ≠ 'r') : looksRaw (c :: rest) = false := by
  rw [Bool.eq_false_iff]
  exact fun hraw => h (looksRaw_iff.1 hraw).1

/-- The opening of a raw string, with the letter in front of it. -/
theorem scans_raw {letters hashes : Nat} (hraw : rawPrefix text = some (letters, hashes))
    (hhashes : hashes ≤ 3) :
    Scans .code text ⟨.rawString hashes, letters + hashes + 1, false⟩ := by
  -- one `r`, the hashes and the quote: a raw string begins
  have hone : ∀ rest : Text, hashesBeforeQuote rest = some hashes →
      Scans .code ('r' :: rest) ⟨.rawString hashes, hashes + 2, false⟩ := by
    intro rest hquote
    exact scans_one .code (.string (rawSyntax hashes)) (turn_raw hhashes hquote) (Nat.succ_pos _) rfl
  cases text with
  | nil => cases hraw
  | cons c rest =>
    rw [rawPrefix.eq_def] at hraw
    simp only at hraw
    split at hraw
    · rename_i hr
      subst hr
      obtain ⟨k, hk, heq⟩ := Option.map_eq_some_iff.1 hraw
      cases heq
      have hscans := hone rest hk
      rwa [show 1 + hashes + 1 = hashes + 2 by omega]
    · split at hraw
      · rename_i hr hletter
        cases rest with
        | nil => cases hraw
        | cons d rest =>
          simp only at hraw
          split at hraw
          · rename_i hd
            subst hd
            obtain ⟨k, hk, heq⟩ := Option.map_eq_some_iff.1 hraw
            cases heq
            obtain ⟨-, mode', hagrees, hclassify⟩ := hone rest hk
            -- the letter in front of the `r` opens nothing by itself
            have hpassed : Passed (c :: 'r' :: rest) := by
              refine passed_of ?_ rfl (Or.inl ⟨hr, ?_⟩)
              · rintro rfl
                exact absurd hletter (by decide)
              · rintro rfl
                exact absurd hletter (by decide)
            refine ⟨Nat.succ_pos _, mode', hagrees, fun comment => ?_⟩
            rw [classify_passed hpassed, hclassify]
            have hlength : 2 + hashes + 1 = (hashes + 2) + 1 := by omega
            simp only [hlength, List.take_succ_cons, List.drop_succ_cons, List.length_cons,
              List.replicate_succ, List.cons_append]
          · cases hraw
      · cases hraw

theorem scans_code {inWord : Bool} (hregular : regularCode inWord (c :: rest) = true) :
    Scans .code (c :: rest) (lexer.turnCode inWord (c :: rest)) := by
  rw [regularCode, Bool.and_eq_true] at hregular
  obtain ⟨hraw, hchar⟩ := hregular
  unfold turnCode
  by_cases hline : ['/', '/'].isPrefixOf (c :: rest) = true
  · obtain rfl := head_of_stands hline
    -- a line comment is no block comment: the second characters differ
    have hblock : ['/', '*'].isPrefixOf ('/' :: rest) = false := by
      rw [Bool.eq_false_iff, ne_eq, List.isPrefixOf_iff_prefix]
      intro hblock
      have hline := List.isPrefixOf_iff_prefix.1 hline
      rcases List.prefix_or_prefix_of_prefix hline hblock with h | h
      · exact absurd h (by decide)
      · exact absurd h (by decide)
    rw [if_pos hline]
    refine scans_one .code .line ?_ (Nat.succ_pos _) trivial
    show rustSyntax.turnCode ('/' :: rest) = ⟨.line, 2, true⟩
    simp only [CommentSyntax.turnCode, no_string (show '/' ≠ '"' by decide) (looksRaw_of_ne (by decide)),
      line_eq, block_eq, slashStar, longest_single, id, hline, hblock, Bool.false_eq_true, if_false,
      if_true]
    rfl
  rw [if_neg hline]
  by_cases hblock : ['/', '*'].isPrefixOf (c :: rest) = true
  · obtain rfl := head_of_stands hblock
    rw [if_pos hblock]
    refine scans_one .code (.block slashStar 1) ?_ (Nat.succ_pos _) ⟨rfl, rfl⟩
    show rustSyntax.turnCode ('/' :: rest) = ⟨.block slashStar 1, 2, true⟩
    simp only [CommentSyntax.turnCode, no_string (show '/' ≠ '"' by decide) (looksRaw_of_ne (by decide)),
      block_eq, longest_single, slashStar, hblock, if_true]
    rfl
  rw [if_neg hblock]
  cases hopen : openRaw inWord (c :: rest) with
  -- a raw string, with no more hashes than the configuration knows
  | some found =>
    obtain ⟨letters, hashes⟩ := found
    simp only [hopen, decide_eq_true_eq] at hraw
    have hprefix' : rawPrefix (c :: rest) = some (letters, hashes) := by
      unfold openRaw at hopen
      split at hopen
      · cases hopen
      · exact hopen
    exact scans_raw hprefix' hraw
  | none =>
    simp only [hopen, Bool.not_eq_true'] at hraw
    by_cases hquote : c = '"'
    · have hhead : (c :: rest).head? = some '"' := by rw [hquote]; rfl
      simp only [if_pos hhead]
      exact scans_one .code (.string plainSyntax) (turn_quote hquote) (Nat.succ_pos _) rfl
    · have hhead : (c :: rest).head? ≠ some '"' := fun heq => hquote (Option.some.inj heq)
      -- whatever remains is passed character by character on both sides
      have hpassed : Passed (c :: rest) :=
        ⟨hhead, hraw, Bool.eq_false_iff.2 hline, Bool.eq_false_iff.2 hblock⟩
      simp only [if_neg hhead]
      cases hliteral : charLiteral (c :: rest) with
      | some length =>
        have hclear : '"' ∉ (c :: rest).take length := by
          rw [hliteral] at hchar
          simpa using hchar
        exact ⟨(classify_charLiteral hliteral hclear false).1, .code, trivial,
          fun comment => (classify_charLiteral hliteral hclear comment).2⟩
      | none =>
        simp only
        split
        · -- the hash of a raw identifier is passed as well
          rename_i hidentifier
          match rest, hidentifier with
          | d :: e :: rest, hidentifier =>
            simp only [isRawIdentifier, Bool.and_eq_true, beq_iff_eq] at hidentifier
            obtain rfl : d = '#' := hidentifier.1.2
            have hhash : Passed ('#' :: e :: rest) :=
              passed_of (by decide) rfl (Or.inl ⟨by decide, by decide⟩)
            refine ⟨by decide, .code, trivial, fun comment => ?_⟩
            rw [classify_passed hpassed, classify_passed hhash]
            rfl
        · exact scans_one .code .code (turn_passed hpassed) (Nat.succ_pos _) trivial

theorem scans_string : Scans (.string plainSyntax) (c :: rest) (turnString (c :: rest)) := by
  have hturn : ∀ next, CommentSyntax.turnString plainSyntax (c :: rest) = next →
      rustSyntax.turn (.string plainSyntax) (c :: rest) = next := fun _ h => h
  unfold turnString
  by_cases hescape : c = '\\'
  · subst hescape
    rw [if_pos (show ('\\' :: rest).head? = some '\\' from rfl)]
    exact scans_one _ (.string plainSyntax) (hturn _ rfl) (Nat.succ_pos _) rfl
  · have hhead : (c :: rest).head? ≠ some '\\' := fun heq => hescape (Option.some.inj heq)
    have hstands : ['\\'].isPrefixOf (c :: rest) = false := by
      rw [Bool.eq_false_iff]
      exact fun h => hescape (head_of_stands h)
    rw [if_neg hhead]
    by_cases hquote : c = '"'
    · subst hquote
      rw [if_pos (show ('"' :: rest).head? = some '"' from rfl)]
      exact scans_one _ .code (hturn _ rfl) (Nat.succ_pos _) trivial
    · have hhead : (c :: rest).head? ≠ some '"' := fun heq => hquote (Option.some.inj heq)
      have hstop : ['"'].isPrefixOf (c :: rest) = false := by
        rw [Bool.eq_false_iff]
        exact fun h => hquote (head_of_stands h)
      rw [if_neg hhead]
      refine scans_one _ (.string plainSyntax) (hturn _ ?_) (Nat.succ_pos _) rfl
      simp only [CommentSyntax.turnString, plainSyntax, Option.filter_some, hstands, hstop,
        Bool.false_eq_true, if_false]

theorem scans_rawString {hashes : Nat} :
    Scans (.string (rawSyntax hashes)) (c :: rest) (turnRawString hashes (c :: rest)) := by
  have hturn : ∀ next, CommentSyntax.turnString (rawSyntax hashes) (c :: rest) = next →
      rustSyntax.turn (.string (rawSyntax hashes)) (c :: rest) = next := fun _ h => h
  unfold turnRawString
  by_cases hstop : ('"' :: List.replicate hashes '#').isPrefixOf (c :: rest) = true
  · rw [if_pos hstop]
    refine scans_one _ .code (hturn _ ?_) (Nat.succ_pos _) trivial
    simp [CommentSyntax.turnString, rawSyntax, hstop]
  · rw [if_neg hstop]
    refine scans_one _ (.string (rawSyntax hashes)) (hturn _ ?_) (Nat.succ_pos _) rfl
    simp [CommentSyntax.turnString, rawSyntax, hstop]

theorem scans_line : Scans .line (c :: rest) (turnLine (c :: rest)) := by
  unfold turnLine
  by_cases hnewline : ['\n'].isPrefixOf (c :: rest) = true
  · rw [if_pos hnewline]
    refine scans_one _ .code ?_ (Nat.succ_pos _) trivial
    show CommentSyntax.turnLine (c :: rest) = _
    rw [CommentSyntax.turnLine, if_pos hnewline]
  · rw [if_neg hnewline]
    refine scans_one _ .line ?_ (Nat.succ_pos _) trivial
    show CommentSyntax.turnLine (c :: rest) = _
    rw [CommentSyntax.turnLine, if_neg hnewline]

theorem scans_block {depth : Nat} :
    Scans (.block slashStar depth) (c :: rest) (turnBlock depth (c :: rest)) := by
  have hturn : ∀ next, CommentSyntax.turnBlock slashStar depth (c :: rest) = next →
      rustSyntax.turn (.block slashStar depth) (c :: rest) = next := fun _ h => h
  unfold turnBlock
  by_cases hstart : ['/', '*'].isPrefixOf (c :: rest) = true
  · rw [if_pos hstart]
    refine scans_one _ (.block slashStar (depth + 1)) (hturn _ ?_) (Nat.succ_pos _) ⟨rfl, rfl⟩
    simp only [CommentSyntax.turnBlock, slashStar, hstart, Bool.and_self, if_true]
    rfl
  rw [if_neg hstart]
  have hstart' : ['/', '*'].isPrefixOf (c :: rest) = false := Bool.eq_false_iff.2 hstart
  by_cases hstop : ['*', '/'].isPrefixOf (c :: rest) = true
  · rw [if_pos hstop]
    by_cases hone : depth = 1
    · rw [if_pos hone]
      refine scans_one _ .code (hturn _ ?_) (Nat.succ_pos _) trivial
      simp only [CommentSyntax.turnBlock, slashStar, hstart', hstop, hone, Bool.and_false,
        Bool.false_eq_true, if_false, if_true]
      rfl
    · rw [if_neg hone]
      refine scans_one _ (.block slashStar (depth - 1)) (hturn _ ?_) (Nat.succ_pos _) ⟨rfl, rfl⟩
      simp only [CommentSyntax.turnBlock, slashStar, hstart', hstop, hone, Bool.and_false,
        Bool.false_eq_true, if_false, if_true]
      rfl
  · rw [if_neg hstop]
    have hstop' : ['*', '/'].isPrefixOf (c :: rest) = false := Bool.eq_false_iff.2 hstop
    refine scans_one _ (.block slashStar depth) (hturn _ ?_) (Nat.succ_pos _) ⟨rfl, rfl⟩
    simp only [CommentSyntax.turnBlock, slashStar, hstart', hstop', Bool.and_false,
      Bool.false_eq_true, if_false]

theorem scans_shebang (hregular : regularShebang (c :: rest) = true) :
    Scans .code (c :: rest) (turnShebang (c :: rest)) := by
  simp only [regularShebang, List.all_cons, List.all_nil, Bool.and_true, Bool.and_eq_true,
    Bool.not_eq_true'] at hregular
  obtain ⟨⟨hquote, hline, hblock⟩, hraw⟩ := hregular
  have hhead : (c :: rest).head? ≠ some '"' := by
    intro heq
    cases heq
    exact Bool.noConfusion hquote
  have hpassed : Passed (c :: rest) := ⟨hhead, hraw, hline, hblock⟩
  unfold turnShebang
  split
  · exact scans_one .code .code (turn_passed hpassed) (Nat.succ_pos _) trivial
  · exact scans_one .code .code (turn_passed hpassed) (Nat.succ_pos _) trivial

/-- **A turn of the lexer is some turns of the scanner.** -/
theorem scans_turn {mode : RustMode} {mode' : Mode} (hagrees : Agrees mode mode')
    (hregular : regularTurn mode (c :: rest) = true) :
    Scans mode' (c :: rest) (lexer.turn mode (c :: rest)) := by
  cases mode <;> cases mode' <;> try exact hagrees.elim
  case code.code inWord => exact scans_code hregular
  case string.string string =>
    obtain rfl : string = plainSyntax := hagrees
    exact scans_string
  case rawString.string hashes string =>
    obtain rfl : string = rawSyntax hashes := hagrees
    exact scans_rawString
  case line.line => exact scans_line
  case block.block depth block depth' =>
    obtain ⟨rfl, rfl⟩ : block = slashStar ∧ depth = depth' := hagrees
    exact scans_block
  case shebang.code => exact scans_shebang hregular

/-! ## The whole source

The induction on the text, by the turns of the lexer.
-/

theorem lexer_skip (mode : RustMode) (left : Nat) (comment : Bool) (text : Text) :
    lexer.classify mode left comment text =
      List.replicate (min left text.length) comment ++ lexer.classify mode 0 comment (text.drop left) := by
  induction text generalizing left with
  | nil => cases left <;> simp [classify]
  | cons c rest ih =>
    cases left with
    | zero => simp
    | succ left =>
      rw [classify, ih, List.length_cons, Nat.add_min_add_right, List.replicate_succ,
        List.cons_append, List.drop_succ_cons]

theorem lexer_zero (mode : RustMode) (comment comment' : Bool) (text : Text) :
    lexer.classify mode 0 comment text = lexer.classify mode 0 comment' text := by
  cases text <;> rfl

theorem lexer_turn (mode : RustMode) (comment : Bool)
    (hlength : 0 < (lexer.turn mode (c :: rest)).length) :
    lexer.classify mode 0 comment (c :: rest) =
      List.replicate ((c :: rest).take (lexer.turn mode (c :: rest)).length).length
          (lexer.turn mode (c :: rest)).comment ++
        lexer.classify (lexer.turn mode (c :: rest)).mode 0 comment
          ((c :: rest).drop (lexer.turn mode (c :: rest)).length) := by
  obtain ⟨left, hleft⟩ : ∃ left, (lexer.turn mode (c :: rest)).length = left + 1 :=
    ⟨_, (Nat.succ_pred_eq_of_pos hlength).symm⟩
  rw [classify]
  simp only [hleft, Nat.add_sub_cancel, List.take_succ_cons, List.drop_succ_cons, List.length_cons,
    List.length_take, List.replicate_succ, List.cons_append]
  rw [lexer_skip, lexer_zero _ _ comment]

theorem regularFrom_skip (mode : RustMode) (left : Nat) (text : Text) :
    lexer.regularFrom mode left text = lexer.regularFrom mode 0 (text.drop left) := by
  induction text generalizing left with
  | nil => cases left <;> simp [regularFrom]
  | cons c rest ih =>
    cases left with
    | zero => rfl
    | succ left => rw [regularFrom, ih, List.drop_succ_cons]

/-- **The scanner reads a regular source as Rust does.** -/
theorem classify_eq {mode : RustMode} {mode' : Mode} (hagrees : Agrees mode mode') (text : Text)
    (hregular : lexer.regularFrom mode 0 text = true) (comment : Bool) :
    rustSyntax.classify mode' 0 comment text = lexer.classify mode 0 comment text := by
  obtain ⟨n, hn⟩ : ∃ n, text.length ≤ n := ⟨_, Nat.le_refl _⟩
  induction n generalizing text mode mode' with
  | zero =>
    obtain rfl : text = [] := List.eq_nil_of_length_eq_zero (by omega)
    rfl
  | succ n ih =>
    cases text with
    | nil => rfl
    | cons c rest =>
      rw [regularFrom, Bool.and_eq_true] at hregular
      have hscans : Scans mode' (c :: rest) (lexer.turn mode (c :: rest)) :=
        scans_turn hagrees hregular.1
      obtain ⟨hlength, next, hnext, hclassify⟩ := hscans
      have hbehind := hregular.2
      rw [regularFrom_skip, ← List.drop_succ_cons (a := c)] at hbehind
      have hpred : (lexer.turn mode (c :: rest)).length - 1 + 1 =
          (lexer.turn mode (c :: rest)).length := by omega
      rw [hpred] at hbehind
      have hshort : ((c :: rest).drop (lexer.turn mode (c :: rest)).length).length ≤ n := by
        rw [List.length_drop]
        omega
      rw [hclassify, lexer_turn mode comment hlength, ih hnext _ hbehind hshort]

/-- Every offset that is taken for one in a comment is in a comment of Rust. -/
def SoundFor (lexer : RustLexer) (content : Text) : Prop :=
  ∃ ranges, commentRanges content rustSyntax = some ranges ∧
    ∀ offset, isCommentOffset ranges offset = true → lexer.isCommentByte content offset = true

/-- **The shipped delimiters are sound for a regular source**, whatever Unicode says of identifiers. -/
theorem soundFor_of_regular (lexer : RustLexer) (content : Text)
    (hregular : lexer.regular content = true) : SoundFor lexer content := by
  have hvalidated : Checkout.validateCommentSyntax "rs".toList rustSyntax = .ok () := by
    decide +kernel
  obtain ⟨ranges, hranges, -, hoffset⟩ :=
    CommentSyntax.commentRanges_of_valid (CommentSyntax.valid_of_validated hvalidated) content
  refine ⟨ranges, hranges, fun offset h => ?_⟩
  have hagrees : Agrees (lexer.start content) .code := by
    unfold start
    split <;> trivial
  rw [hoffset, CommentSyntax.isCommentByte, classify_eq hagrees content hregular] at h
  exact h

/-- The lexer for sources in ASCII. -/
def asciiLexer : RustLexer where
  isIdStart c := c.isAlpha || c == '_'
  isIdContinue c := c.isAlphanum || c == '_'
  isShebang text := ['#', '!'].isPrefixOf text && !(['#', '!', '['].isPrefixOf text)

theorem soundFor_ascii :
    SoundFor asciiLexer "fn f<'a>() \x7b g('/', b\"//\", r#\"\"\"#); /* h() */ \x7d".toList :=
  soundFor_of_regular asciiLexer _ (by decide +kernel)

/-- A character literal with a quotation mark in it: the scanner takes it for the beginning of a
string, and the next string for code. -/
theorem soundFor_quote :
    commentRanges "let q = '\"'; let u = \"http://x\"; forbidden();".toList rustSyntax =
        some [(27, 45)] ∧
      asciiLexer.isCommentByte
        "let q = '\"'; let u = \"http://x\"; forbidden();".toList 33 = false ∧
      ¬ SoundFor asciiLexer "let q = '\"'; let u = \"http://x\"; forbidden();".toList := by
  have hranges : commentRanges "let q = '\"'; let u = \"http://x\"; forbidden();".toList rustSyntax =
      some [(27, 45)] := by decide +kernel
  have hcode : asciiLexer.isCommentByte
      "let q = '\"'; let u = \"http://x\"; forbidden();".toList 33 = false := by decide +kernel
  refine ⟨hranges, hcode, ?_⟩
  rintro ⟨ranges, hranges', hsound⟩
  rw [hranges] at hranges'
  cases hranges'
  have hcomment := hsound 33 (by decide +kernel)
  rw [hcode] at hcomment
  exact Bool.noConfusion hcomment

end RustLexer

end Audit

end Flow

end ArcAdmin

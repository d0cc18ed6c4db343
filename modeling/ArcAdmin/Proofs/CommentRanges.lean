import ArcAdmin.Flow.Audit.Reference
import ArcAdmin.Flow.Audit.Sample

/-!
# The ranges of the comments

The loop of `comment_ranges` stops, and its ranges are those of the reference scanner. It moves byte
by byte where the reference scanner moves by characters; a token cannot begin inside a character, so
that the two meet again behind each.

* **`runs_turn`** — a turn of the reference scanner is some turns of the loop;
* **`commentRanges_eq`** — the ranges are well formed and hold the bytes of the comments;
* **`isCommentOffset_iff`** — the bisection finds the range of an offset.
-/

namespace ArcAdmin

namespace Flow

namespace Audit

namespace CommentSyntax

open Utf8

variable {commentSyntax : CommentSyntax} {content before after : Text}

/-! ## Validated syntaxes

Validation refuses empty tokens; with one of them the loop would not move.
-/

/-- No token is empty. -/
structure Valid (commentSyntax : CommentSyntax) : Prop where
  line : ∀ line ∈ commentSyntax.line, line ≠ []
  blockStart : ∀ block ∈ commentSyntax.block, block.start ≠ []
  blockStop : ∀ block ∈ commentSyntax.block, block.stop ≠ []
  stringStart : ∀ string ∈ commentSyntax.strings, string.start ≠ []
  stringStop : ∀ string ∈ commentSyntax.strings, string.stop ≠ []
  escape : ∀ string ∈ commentSyntax.strings, string.escape ≠ some []

theorem valid_of_validated {extension : Text}
    (h : Checkout.validateCommentSyntax extension commentSyntax = .ok ()) : Valid commentSyntax := by
  obtain ⟨_, hempty, -⟩ := bind_ok.1 h
  have hempty := bailIf_ok.1 hempty
  simp only [Bool.or_eq_false_iff, List.any_eq_false, Bool.not_eq_true, List.isEmpty_eq_false_iff]
    at hempty
  obtain ⟨⟨⟨-, hline⟩, hblock⟩, hstring⟩ := hempty
  exact {
    line := hline
    blockStart := fun block hmem => (hblock block hmem).1
    blockStop := fun block hmem => (hblock block hmem).2
    stringStart := fun string hmem => (hstring string hmem).1.1
    stringStop := fun string hmem => (hstring string hmem).1.2
    escape := fun string hmem hescape => by
      have := (hstring string hmem).2
      rw [hescape] at this
      simp at this }

/-! ## Tokens

A token is a text, so it stands at a boundary between characters or nowhere. Of those that stand
there the loop and the reference scanner take the longest.
-/

theorem tokenAt_boundary {token : Text} :
    tokenAt (encode (before ++ after)) (size before) token = token.isPrefixOf after := by
  rw [tokenAt, drop_encode, Bool.eq_iff_iff, List.isPrefixOf_iff_prefix, List.isPrefixOf_iff_prefix,
    encode_prefix_iff]

/-- Inside a character no token stands. -/
theorem tokenAt_inside {c : Char} {token : Text} {n : Nat} (hpos : 0 < n) (hn : n < c.utf8Size)
    (htoken : token ≠ []) :
    tokenAt (encode (before ++ c :: after)) (size before + n) token = false := by
  rw [Bool.eq_false_iff, tokenAt, ne_eq, List.isPrefixOf_iff_prefix, ← List.drop_drop, drop_encode]
  exact encode_inside hpos hn htoken

theorem newline_iff {bytes : List UInt8} {offset : Nat} :
    bytes[offset]? = some 10 ↔ tokenAt bytes offset ['\n'] = true := by
  have hencode : encode ['\n'] = [10] := by decide +kernel
  rw [tokenAt, hencode, List.isPrefixOf_iff_prefix]
  rw [← List.head?_drop]
  cases bytes.drop offset with
  | nil => simp
  | cons b rest => simp [eq_comm]

/-! ### The last of the largest

`max_by_key` returns the last of the greatest elements, which is a fold from the left.
-/

section MaxByKey

variable {α : Type} {key key' : α → Nat} {xs : List α} {x : α}

/-- One turn of `max_by_key`. -/
def keepMax (key : α → Nat) (best : Option α) (x : α) : Option α :=
  best.elim (some x) fun y => if key y ≤ key x then some x else some y

theorem maxByKey_eq_foldl : maxByKey key xs = xs.foldl (keepMax key) none := by
  rw [maxByKey]
  congr 1
  funext best x
  cases best <;> rfl

/-- A turn takes the new element or keeps the best one. -/
theorem keepMax_cases (key : α → Nat) (best : Option α) (x : α) :
    keepMax key best x = some x ∨ keepMax key best x = best := by
  cases best with
  | none => exact Or.inl rfl
  | some y =>
    rw [keepMax, Option.elim_some]
    split
    · exact Or.inl rfl
    · exact Or.inr rfl

theorem maxByKey_congr (h : ∀ x ∈ xs, ∀ y ∈ xs, (key x ≤ key y ↔ key' x ≤ key' y)) :
    maxByKey key xs = maxByKey key' xs := by
  have hstep : ∀ (best : Option α) (x : α), (∀ y ∈ best, y ∈ xs) → x ∈ xs →
      keepMax key best x = keepMax key' best x := by
    intro best x hbest hx
    cases best with
    | none => rfl
    | some y => simp only [keepMax, Option.elim_some, h y (hbest y rfl) x hx]
  have hfold : ∀ (rest : List α) (best : Option α), (∀ x ∈ rest, x ∈ xs) →
      (∀ x ∈ best, x ∈ xs) → rest.foldl (keepMax key) best = rest.foldl (keepMax key') best := by
    intro rest best hrest hbest
    induction rest generalizing best with
    | nil => rfl
    | cons x rest ih =>
      obtain ⟨hx, hrest⟩ := List.forall_mem_cons.1 hrest
      rw [List.foldl_cons, List.foldl_cons, ← hstep best x hbest hx]
      apply ih _ hrest
      rcases keepMax_cases key best x with hnew | hold
      · rw [hnew]
        intro y hy
        cases hy
        exact hx
      · rw [hold]
        exact hbest
  rw [maxByKey_eq_foldl, maxByKey_eq_foldl]
  exact hfold xs none (fun _ hx => hx) fun y hy => absurd hy (Option.not_mem_none y)

theorem maxByKey_mem (h : maxByKey key xs = some x) : x ∈ xs := by
  have hfold : ∀ (rest : List α) (best : Option α), (∀ y ∈ best, y ∈ xs) → (∀ y ∈ rest, y ∈ xs) →
      rest.foldl (keepMax key) best = some x → x ∈ xs := by
    intro rest best hbest hrest hfold
    induction rest generalizing best with
    | nil => exact hbest x hfold
    | cons z rest ih =>
      obtain ⟨hz, hrest⟩ := List.forall_mem_cons.1 hrest
      apply ih (keepMax key best z) _ hrest hfold
      rcases keepMax_cases key best z with hnew | hold
      · rw [hnew]
        intro y hy
        cases hy
        exact hz
      · rw [hold]
        exact hbest
  rw [maxByKey_eq_foldl] at h
  exact hfold xs none (fun y hy => absurd hy (Option.not_mem_none y)) (fun _ hy => hy) h

theorem maxByKey_eq_none : maxByKey key xs = none ↔ xs = [] := by
  have hfold : ∀ (rest : List α) (x : α), rest.foldl (keepMax key) (some x) ≠ none := by
    intro rest x
    induction rest generalizing x with
    | nil => exact Option.some_ne_none x
    | cons y rest ih =>
      rw [List.foldl_cons]
      rcases keepMax_cases key (some x) y with hnew | hold
      · rw [hnew]
        exact ih y
      · rw [hold]
        exact ih x
  rw [maxByKey_eq_foldl]
  cases xs with
  | nil => exact ⟨fun _ => rfl, fun _ => rfl⟩
  | cons x rest => exact iff_of_false (hfold rest x) (List.cons_ne_nil _ _)

end MaxByKey

/-- Of two texts that stand at a place the longer one has more bytes. -/
theorem size_le_iff {a b text : Text} (ha : a <+: text) (hb : b <+: text) :
    size a ≤ size b ↔ a.length ≤ b.length := by
  have hone : ∀ {a b : Text}, a <+: b → size a ≤ size b ∧ (size b ≤ size a → b = a) := by
    rintro a _ ⟨rest, rfl⟩
    rw [size_append]
    refine ⟨Nat.le_add_right _ _, fun hle => ?_⟩
    have hrest : rest = [] := size_eq_zero.1 (by omega)
    rw [hrest, List.append_nil]
  rcases List.prefix_or_prefix_of_prefix ha hb with hab | hba
  · exact ⟨fun _ => hab.length_le, fun _ => (hone hab).1⟩
  · constructor
    · intro hle
      rw [(hone hba).2 hle]
    · intro hle
      rw [hba.eq_of_length_le hle]

/-- **The token that the loop takes** is the one of the reference scanner. -/
theorem standing_boundary {α : Type} {token : α → Text} {tokens : List α} :
    standing (encode (before ++ after)) (size before) token tokens = longest token tokens after := by
  unfold standing longest
  simp only [tokenAt_boundary]
  refine maxByKey_congr fun x hx y hy => ?_
  rw [List.mem_filter, List.isPrefixOf_iff_prefix] at hx hy
  exact size_le_iff hx.2 hy.2

theorem longest_mem {α : Type} {token : α → Text} {tokens : List α} {x : α}
    (h : longest token tokens after = some x) : x ∈ tokens ∧ token x <+: after := by
  have hmem := maxByKey_mem h
  rwa [List.mem_filter, List.isPrefixOf_iff_prefix] at hmem

theorem standing_inside {α : Type} {token : α → Text} {tokens : List α} {c : Char} {n : Nat}
    (hpos : 0 < n) (hn : n < c.utf8Size) (htokens : ∀ x ∈ tokens, token x ≠ []) :
    standing (encode (before ++ c :: after)) (size before + n) token tokens = none := by
  have hnone : tokens.filter (fun x => tokenAt (encode (before ++ c :: after)) (size before + n)
      (token x)) = [] := by
    refine List.filter_eq_nil_iff.2 fun x hx => ?_
    rw [tokenAt_inside hpos hn (htokens x hx)]
    exact Bool.false_ne_true
  rw [standing, hnone]
  rfl

/-! ## Turns of the loop

A run of the loop is a chain of turns, each of which moves forward. So a bound of one turn for
each byte is enough.
-/

/-- The loop goes from a state to another one, and moves forward in every turn. -/
inductive Runs (commentSyntax : CommentSyntax) (bytes : List UInt8) : Scan → Scan → Prop where
  | refl (scan : Scan) : Runs commentSyntax bytes scan scan
  | turn {scan scan' : Scan} : scan.offset < bytes.length →
      scan.offset < (step commentSyntax bytes scan).offset →
      Runs commentSyntax bytes (step commentSyntax bytes scan) scan' →
      Runs commentSyntax bytes scan scan'

theorem Runs.trans {bytes : List UInt8} {a b c : Scan} (hab : Runs commentSyntax bytes a b)
    (hbc : Runs commentSyntax bytes b c) : Runs commentSyntax bytes a c := by
  induction hab with
  | refl => exact hbc
  | turn hlt hforward _ ih => exact .turn hlt hforward (ih hbc)

theorem Runs.single {bytes : List UInt8} {scan scan' : Scan}
    (hstep : step commentSyntax bytes scan = scan') (hlt : scan.offset < bytes.length)
    (hforward : scan.offset < scan'.offset) : Runs commentSyntax bytes scan scan' :=
  .turn hlt (hstep.symm ▸ hforward) (hstep ▸ .refl _)

/-- **The loop stops** when its turns have gone to the end of the text. -/
theorem loop_of_runs {bytes : List UInt8} {scan scan' : Scan}
    (h : Runs commentSyntax bytes scan scan') (hend : bytes.length ≤ scan'.offset) {turns : Nat}
    (hturns : bytes.length - scan.offset ≤ turns) :
    loop commentSyntax bytes turns scan = some scan' := by
  induction h generalizing turns with
  | refl scan =>
    cases turns with
    | zero => rw [loop, if_neg (by omega)]
    | succ turns => rw [loop, if_neg (by omega)]
  | turn hlt hforward _ ih =>
    cases turns with
    | zero => omega
    | succ turns =>
      rw [loop, if_pos hlt]
      exact ih hend (by omega)

/-- What the state holds is of the syntax, and a comment has been opened more often than closed. -/
def Known (commentSyntax : CommentSyntax) : LexicalState → Prop
  | .code | .lineComment _ => True
  | .string string => string ∈ commentSyntax.strings
  | .blockComment block _ depth => block ∈ commentSyntax.block ∧ 0 < depth

/-- Inside a character the loop goes on to the next byte. -/
theorem step_inside (hvalid : Valid commentSyntax) {state : LexicalState} {ranges : List Range}
    (hknown : Known commentSyntax state) {c : Char} {n : Nat} (hpos : 0 < n) (hn : n < c.utf8Size) :
    step commentSyntax (encode (before ++ c :: after)) ⟨state, size before + n, ranges⟩ =
      ⟨state, size before + (n + 1), ranges⟩ := by
  cases state with
  | code =>
    have hline : ∀ line ∈ commentSyntax.line, id line ≠ [] := hvalid.line
    simp only [step, stepCode, standing_inside hpos hn hvalid.stringStart,
      standing_inside hpos hn hvalid.blockStart, standing_inside hpos hn hline, Nat.add_assoc]
  | string string =>
    have hescape : string.escape.filter
        (tokenAt (encode (before ++ c :: after)) (size before + n)) = none := by
      cases hsome : string.escape with
      | none => rfl
      | some escape =>
        have hne : escape ≠ [] := fun heq => hvalid.escape string hknown (heq ▸ hsome)
        simp [tokenAt_inside hpos hn hne]
    have hstop : tokenAt (encode (before ++ c :: after)) (size before + n) string.stop = false :=
      tokenAt_inside hpos hn (hvalid.stringStop string hknown)
    simp only [step, stepString, hescape, hstop, Nat.add_assoc, Bool.false_eq_true, if_false]
  | lineComment start =>
    have hnewline : (encode (before ++ c :: after))[size before + n]? ≠ some 10 := by
      rw [ne_eq, newline_iff, tokenAt_inside hpos hn (List.cons_ne_nil _ _)]
      exact Bool.false_ne_true
    simp only [step, stepLineComment, if_neg hnewline, Nat.add_assoc]
  | blockComment block start depth =>
    have hstart : tokenAt (encode (before ++ c :: after)) (size before + n) block.start = false :=
      tokenAt_inside hpos hn (hvalid.blockStart block hknown.1)
    have hstop : tokenAt (encode (before ++ c :: after)) (size before + n) block.stop = false :=
      tokenAt_inside hpos hn (hvalid.blockStop block hknown.1)
    simp only [step, stepBlockComment, hstart, hstop, Bool.and_false, Bool.false_eq_true, if_false,
      Nat.add_assoc]

theorem size_lt {c : Char} {n : Nat} (hn : n < c.utf8Size) :
    size before + n < (encode (before ++ c :: after)).length := by
  show size before + n < size (before ++ c :: after)
  rw [size_append, size_cons]
  omega

/-- From inside a character the loop goes to its end. -/
theorem runs_inside (hvalid : Valid commentSyntax) {state : LexicalState} {ranges : List Range}
    (hknown : Known commentSyntax state) {c : Char} {n : Nat} (hpos : 0 < n) (hn : n ≤ c.utf8Size) :
    Runs commentSyntax (encode (before ++ c :: after)) ⟨state, size before + n, ranges⟩
      ⟨state, size before + c.utf8Size, ranges⟩ := by
  obtain ⟨left, hleft⟩ : ∃ left, c.utf8Size = n + left := ⟨c.utf8Size - n, by omega⟩
  induction left generalizing n with
  | zero =>
    rw [hleft, Nat.add_zero]
    exact .refl _
  | succ left ih =>
    have hlt : n < c.utf8Size := by omega
    refine (Runs.single (step_inside hvalid hknown hpos hlt) (size_lt hlt) ?_).trans
      (ih (by omega) (by omega) (by omega))
    show size before + n < size before + (n + 1)
    omega

/-- A character that is passed over. -/
theorem runs_char (hvalid : Valid commentSyntax) {state state' : LexicalState}
    {ranges ranges' : List Range} (hknown : Known commentSyntax state') {c : Char}
    (hstep : step commentSyntax (encode (before ++ c :: after)) ⟨state, size before, ranges⟩ =
      ⟨state', size before + 1, ranges'⟩) :
    Runs commentSyntax (encode (before ++ c :: after)) ⟨state, size before, ranges⟩
      ⟨state', size before + c.utf8Size, ranges'⟩ :=
  (Runs.single hstep (size_lt (Char.utf8Size_pos c)) (Nat.lt_succ_self _)).trans
    (runs_inside hvalid hknown Nat.one_pos (Char.utf8Size_pos c))

/-! ## The ranges so far

The invariant of the loop. What has been read is covered by the ranges exactly where it belongs to
a comment.
-/

/-- Where the comment has been opened in which the loop is. -/
def openedAt : LexicalState → Option Nat
  | .lineComment start | .blockComment _ start _ => some start
  | .code | .string _ => none

/-- The ranges are non-empty, sorted and disjoint, and between characters of the text. -/
structure WellFormed (content : Text) (ranges : List Range) (limit : Nat) : Prop where
  nonempty : ∀ range ∈ ranges, range.1 < range.2
  inside : ∀ range ∈ ranges, range.2 ≤ limit
  start_boundary : ∀ range ∈ ranges, Boundary content range.1
  stop_boundary : ∀ range ∈ ranges, Boundary content range.2
  sorted : ranges.Pairwise fun a b => a.2 ≤ b.1

structure Good (commentSyntax : CommentSyntax) (content : Text) (scan : Scan) : Prop where
  known : Known commentSyntax scan.state
  ranges : WellFormed content scan.ranges ((openedAt scan.state).getD scan.offset)
  opened : ∀ start, openedAt scan.state = some start → Boundary content start ∧ start < scan.offset

/-- The offset is in a range, or in the comment that is open. -/
def Covered (scan : Scan) (offset : Nat) : Prop :=
  (∃ range ∈ scan.ranges, range.1 ≤ offset ∧ offset < range.2) ∨
    ∃ start, openedAt scan.state = some start ∧ start ≤ offset ∧ offset < scan.offset

theorem WellFormed.mono {ranges : List Range} {limit limit' : Nat}
    (h : WellFormed content ranges limit) (hle : limit ≤ limit') :
    WellFormed content ranges limit' :=
  { h with inside := fun range hrange => le_trans (h.inside range hrange) hle }

theorem WellFormed.append {ranges : List Range} {start stop limit : Nat}
    (h : WellFormed content ranges start) (hstart : Boundary content start)
    (hstop : Boundary content stop) (hlt : start < stop) (hle : stop ≤ limit) :
    WellFormed content (ranges ++ [(start, stop)]) limit := by
  have hnew : ∀ (P : Range → Prop), (∀ range ∈ ranges, P range) → P (start, stop) →
      ∀ range ∈ ranges ++ [(start, stop)], P range := by
    intro P hold hone range hrange
    rcases List.mem_append.1 hrange with hrange | hrange
    · exact hold range hrange
    · exact List.mem_singleton.1 hrange ▸ hone
  exact {
    nonempty := hnew _ h.nonempty hlt
    inside := hnew _ (fun range hrange => by
      have := h.inside range hrange
      omega) hle
    start_boundary := hnew _ h.start_boundary hstart
    stop_boundary := hnew _ h.stop_boundary hstop
    sorted := by
      refine List.pairwise_append.2 ⟨h.sorted, List.pairwise_singleton _ _, ?_⟩
      intro range hrange last hlast
      obtain rfl := List.mem_singleton.1 hlast
      exact h.inside range hrange }

/-- The loop has gone on over bytes that all belong to comments, or that do not. -/
structure Advanced (commentSyntax : CommentSyntax) (content : Text) (scan scan' : Scan)
    (comment : Bool) : Prop where
  good : Good commentSyntax content scan'
  covered : ∀ offset, Covered scan' offset ↔
    Covered scan offset ∨ (comment = true ∧ scan.offset ≤ offset ∧ offset < scan'.offset)

variable {scan : Scan} {state : LexicalState} {stop : Nat}

/-- Outside the comments. -/
theorem Good.stay (h : Good commentSyntax content scan) (hclosed : openedAt scan.state = none)
    (hclosed' : openedAt state = none) (hknown : Known commentSyntax state)
    (hle : scan.offset ≤ stop) :
    Advanced commentSyntax content scan ⟨state, stop, scan.ranges⟩ false := by
  have hranges := h.ranges
  rw [hclosed] at hranges
  constructor
  · refine ⟨hknown, ?_, fun start hstart => ?_⟩
    · rw [hclosed']
      exact hranges.mono hle
    · rw [hclosed'] at hstart
      cases hstart
  · intro offset
    simp [Covered, hclosed, hclosed']

/-- A comment begins. -/
theorem Good.enter (h : Good commentSyntax content scan) (hclosed : openedAt scan.state = none)
    (hopened : openedAt state = some scan.offset) (hknown : Known commentSyntax state)
    (hboundary : Boundary content scan.offset) (hlt : scan.offset < stop) :
    Advanced commentSyntax content scan ⟨state, stop, scan.ranges⟩ true := by
  have hranges := h.ranges
  rw [hclosed] at hranges
  constructor
  · refine ⟨hknown, ?_, fun start hstart => ?_⟩
    · rw [hopened]
      exact hranges
    · rw [hopened] at hstart
      cases hstart
      exact ⟨hboundary, hlt⟩
  · intro offset
    simp [Covered, hclosed, hopened]

/-- A comment goes on. -/
theorem Good.continue (h : Good commentSyntax content scan) {start : Nat}
    (hopened : openedAt scan.state = some start) (hopened' : openedAt state = some start)
    (hknown : Known commentSyntax state) (hle : scan.offset ≤ stop) :
    Advanced commentSyntax content scan ⟨state, stop, scan.ranges⟩ true := by
  have hranges := h.ranges
  have hstart := h.opened start hopened
  rw [hopened] at hranges
  constructor
  · refine ⟨hknown, ?_, fun start' hstart' => ?_⟩
    · rw [hopened']
      exact hranges
    · rw [hopened'] at hstart'
      cases hstart'
      exact ⟨hstart.1, lt_of_lt_of_le hstart.2 hle⟩
  · intro offset
    have hiff : (start ≤ offset ∧ offset < stop) ↔
        (start ≤ offset ∧ offset < scan.offset) ∨ (scan.offset ≤ offset ∧ offset < stop) := by
      omega
    simp only [Covered, hopened, hopened', Option.some.injEq, exists_eq_left', hiff, or_assoc,
      true_and]

/-- A comment ends. -/
theorem Good.leave (h : Good commentSyntax content scan) {start : Nat}
    (hopened : openedAt scan.state = some start) (hboundary : Boundary content stop)
    {next : Nat} (hle : scan.offset ≤ stop) (hnext : stop ≤ next) {comment : Bool}
    (hcomment : if comment then stop = next else stop = scan.offset) :
    Advanced commentSyntax content scan ⟨.code, next, scan.ranges ++ [(start, stop)]⟩ comment := by
  have hranges := h.ranges
  have hstart := h.opened start hopened
  rw [hopened] at hranges
  constructor
  · refine ⟨trivial, ?_, fun start hstart' => absurd hstart' (Option.some_ne_none start).symm⟩
    exact hranges.append hstart.1 hboundary (lt_of_lt_of_le hstart.2 hle) hnext
  · intro offset
    have hiff : (start ≤ offset ∧ offset < stop) ↔ (start ≤ offset ∧ offset < scan.offset) ∨
        (comment = true ∧ scan.offset ≤ offset ∧ offset < next) := by
      cases comment <;> simp at hcomment ⊢ <;> omega
    have hcode : openedAt LexicalState.code = none := rfl
    simp only [Covered, hopened, hcode, List.mem_append, List.mem_singleton, or_and_right,
      exists_or, exists_eq_left, Option.some.injEq, exists_eq_left', hiff, or_assoc]
    simp

/-! ## A turn of the reference scanner

One lemma for each mode and each kind of turn. Where the reference scanner reads a character, the
loop may need a turn for each of its bytes.
-/

/-- The state of the loop is that of the reference scanner. -/
def Agrees : LexicalState → Mode → Prop
  | .code, .code => True
  | .string string, .string string' => string = string'
  | .lineComment _, .line => True
  | .blockComment block _ depth, .block block' depth' => block = block' ∧ depth = depth'
  | _, _ => False

/-- The loop has gone to the end of what a turn of the reference scanner reads. -/
structure Turned (commentSyntax : CommentSyntax) (before text : Text) (next : Turn)
    (scan scan' : Scan) : Prop where
  runs : Runs commentSyntax (encode (before ++ text)) scan scan'
  agrees : Agrees scan'.state next.mode
  offset : scan'.offset = size (before ++ text.take next.length)
  advanced : Advanced commentSyntax (before ++ text) scan scan' next.comment
  length_pos : 0 < next.length

theorem offset_lt {c : Char} : size before < (encode (before ++ c :: after)).length := by
  have h : size before + 0 < (encode (before ++ c :: after)).length := size_lt (Char.utf8Size_pos c)
  exact h

theorem boundary_before : Boundary (before ++ after) (size before) := ⟨before, after, rfl, rfl⟩

theorem boundary_token {token text : Text} (h : token <+: text) :
    Boundary (before ++ text) (size before + size token) := by
  obtain ⟨rest, rfl⟩ := h
  exact ⟨before ++ token, rest, (List.append_assoc _ _ _).symm, size_append _ _⟩

theorem size_take {token text : Text} (h : token <+: text) :
    size before + size token = size (before ++ text.take token.length) := by
  obtain ⟨rest, rfl⟩ := h
  rw [List.take_left, size_append]

theorem size_take_one {c : Char} :
    size before + c.utf8Size = size (before ++ (c :: after).take 1) := by
  rw [List.take_succ_cons, List.take_zero, size_append, size_cons, size_nil, Nat.add_zero]

variable {c : Char} {ranges : List Range}

/-- One turn of the loop, over a token. -/
theorem turned_token {state : LexicalState} (state' : LexicalState) {ranges' : List Range}
    {token : Text} {mode : Mode} {comment : Bool} (htoken : token ≠ []) (hstands : token <+: c :: after)
    (hstep : step commentSyntax (encode (before ++ c :: after)) ⟨state, size before, ranges⟩ =
      ⟨state', size before + size token, ranges'⟩)
    (hagrees : Agrees state' mode)
    (hadvanced : Advanced commentSyntax (before ++ c :: after) ⟨state, size before, ranges⟩
      ⟨state', size before + size token, ranges'⟩ comment) :
    Turned commentSyntax before (c :: after) ⟨mode, token.length, comment⟩
      ⟨state, size before, ranges⟩ ⟨state', size before + size token, ranges'⟩ where
  runs := Runs.single hstep offset_lt (Nat.lt_add_of_pos_right (size_pos htoken))
  agrees := hagrees
  offset := size_take hstands
  advanced := hadvanced
  length_pos := List.length_pos_of_ne_nil htoken

/-- Turns of the loop over the bytes of a character. -/
theorem turned_char (hvalid : Valid commentSyntax) {state : LexicalState} (state' : LexicalState)
    {ranges' : List Range} {mode : Mode} {comment : Bool}
    (hstep : step commentSyntax (encode (before ++ c :: after)) ⟨state, size before, ranges⟩ =
      ⟨state', size before + 1, ranges'⟩)
    (hagrees : Agrees state' mode)
    (hadvanced : Advanced commentSyntax (before ++ c :: after) ⟨state, size before, ranges⟩
      ⟨state', size before + c.utf8Size, ranges'⟩ comment) :
    Turned commentSyntax before (c :: after) ⟨mode, 1, comment⟩
      ⟨state, size before, ranges⟩ ⟨state', size before + c.utf8Size, ranges'⟩ where
  runs := runs_char hvalid hadvanced.good.known hstep
  agrees := hagrees
  offset := size_take_one
  advanced := hadvanced
  length_pos := Nat.one_pos

theorem turned_code (hvalid : Valid commentSyntax)
    (hgood : Good commentSyntax (before ++ c :: after) ⟨.code, size before, ranges⟩) :
    ∃ scan', Turned commentSyntax before (c :: after) (turnCode commentSyntax (c :: after))
      ⟨.code, size before, ranges⟩ scan' := by
  have hclosed : openedAt LexicalState.code = none := rfl
  have hstep : ∀ scan', stepCode commentSyntax (encode (before ++ c :: after))
      ⟨.code, size before, ranges⟩ = scan' →
      step commentSyntax (encode (before ++ c :: after)) ⟨.code, size before, ranges⟩ = scan' :=
    fun _ h => h
  unfold turnCode
  cases hstring : longest StringSyntax.start commentSyntax.strings (c :: after) with
  | some string =>
    obtain ⟨hmem, hstands⟩ := longest_mem hstring
    refine ⟨_, turned_token (.string string) (hvalid.stringStart string hmem) hstands (hstep _ ?_) rfl
      (hgood.stay hclosed rfl hmem (Nat.le_add_right _ _))⟩
    simp only [stepCode, standing_boundary, hstring]
  | none =>
    cases hblock : longest BlockCommentSyntax.start commentSyntax.block (c :: after) with
    | some block =>
      obtain ⟨hmem, hstands⟩ := longest_mem hblock
      have htoken := hvalid.blockStart block hmem
      refine ⟨_, turned_token (.blockComment block (size before) 1) htoken hstands (hstep _ ?_) ⟨rfl, rfl⟩
        (hgood.enter hclosed rfl ⟨hmem, Nat.one_pos⟩ boundary_before
          (Nat.lt_add_of_pos_right (size_pos htoken)))⟩
      simp only [stepCode, standing_boundary, hstring, hblock]
    | none =>
      cases hline : longest id commentSyntax.line (c :: after) with
      | some line =>
        obtain ⟨hmem, hstands⟩ := longest_mem hline
        have htoken : line ≠ [] := hvalid.line line hmem
        refine ⟨_, turned_token (.lineComment (size before)) htoken hstands (hstep _ ?_) trivial
          (hgood.enter hclosed rfl trivial boundary_before
            (Nat.lt_add_of_pos_right (size_pos htoken)))⟩
        simp only [stepCode, standing_boundary, hstring, hblock, hline]
      | none =>
        refine ⟨_, turned_char hvalid .code (hstep _ ?_) trivial
          (hgood.stay hclosed rfl trivial (Nat.le_add_right _ _))⟩
        simp only [stepCode, standing_boundary, hstring, hblock, hline]

theorem turned_line (hvalid : Valid commentSyntax) {start : Nat}
    (hgood : Good commentSyntax (before ++ c :: after) ⟨.lineComment start, size before, ranges⟩) :
    ∃ scan', Turned commentSyntax before (c :: after) (turnLine (c :: after))
      ⟨.lineComment start, size before, ranges⟩ scan' := by
  have hopened : openedAt (LexicalState.lineComment start) = some start := rfl
  unfold turnLine
  by_cases hnewline : ['\n'].isPrefixOf (c :: after) = true
  · rw [if_pos hnewline]
    have hten : (encode (before ++ c :: after))[size before]? = some 10 := by
      rw [newline_iff, tokenAt_boundary, hnewline]
    refine ⟨_, turned_char hvalid .code ?_ trivial
      (hgood.leave hopened boundary_before (Nat.le_refl _) (Nat.le_add_right _ _) rfl)⟩
    simp only [step, stepLineComment, if_pos hten]
  · rw [if_neg hnewline]
    have hten : (encode (before ++ c :: after))[size before]? ≠ some 10 := by
      rw [ne_eq, newline_iff, tokenAt_boundary]
      exact hnewline
    refine ⟨_, turned_char hvalid (.lineComment start) ?_ trivial
      (hgood.continue hopened hopened trivial (Nat.le_add_right _ _))⟩
    simp only [step, stepLineComment, if_neg hten]

theorem turned_block (hvalid : Valid commentSyntax) {block : BlockCommentSyntax} {start depth : Nat}
    (hgood : Good commentSyntax (before ++ c :: after)
      ⟨.blockComment block start depth, size before, ranges⟩) :
    ∃ scan', Turned commentSyntax before (c :: after) (turnBlock block depth (c :: after))
      ⟨.blockComment block start depth, size before, ranges⟩ scan' := by
  obtain ⟨hmem, hdepth⟩ := hgood.known
  have hopened : openedAt (LexicalState.blockComment block start depth) = some start := rfl
  unfold turnBlock
  by_cases hstart : (block.nested && block.start.isPrefixOf (c :: after)) = true
  · rw [if_pos hstart]
    have hstands : block.start <+: c :: after := by
      rw [Bool.and_eq_true] at hstart
      exact List.isPrefixOf_iff_prefix.1 hstart.2
    refine ⟨_, turned_token (.blockComment block start (depth + 1)) (hvalid.blockStart block hmem) hstands ?_
      ⟨rfl, rfl⟩
      (hgood.continue hopened rfl ⟨hmem, Nat.succ_pos _⟩ (Nat.le_add_right _ _))⟩
    simp only [step, stepBlockComment, tokenAt_boundary, if_pos hstart]
  · rw [if_neg hstart]
    by_cases hstop : block.stop.isPrefixOf (c :: after) = true
    · rw [if_pos hstop]
      have hstands := List.isPrefixOf_iff_prefix.1 hstop
      have htoken := hvalid.blockStop block hmem
      by_cases hone : depth = 1
      · rw [if_pos hone]
        refine ⟨_, turned_token .code htoken hstands ?_ trivial
          (hgood.leave hopened (boundary_token hstands) (Nat.le_add_right _ _) (Nat.le_refl _) rfl)⟩
        subst hone
        simp only [step, stepBlockComment, tokenAt_boundary, if_neg hstart, if_pos hstop,
          Nat.sub_self, if_true]
      · rw [if_neg hone]
        refine ⟨_, turned_token (.blockComment block start (depth - 1)) htoken hstands ?_ ⟨rfl, rfl⟩
          (hgood.continue hopened rfl ⟨hmem, by omega⟩ (Nat.le_add_right _ _))⟩
        have hdepth' : depth - 1 ≠ 0 := by omega
        simp only [step, stepBlockComment, tokenAt_boundary, if_neg hstart, if_pos hstop,
          if_neg hdepth']
    · rw [if_neg hstop]
      refine ⟨_, turned_char hvalid (.blockComment block start depth) ?_ ⟨rfl, rfl⟩
        (hgood.continue hopened rfl ⟨hmem, hdepth⟩ (Nat.le_add_right _ _))⟩
      simp only [step, stepBlockComment, tokenAt_boundary, if_neg hstart, if_neg hstop]

/-- An escape takes the next character with it: the loop skips its first byte, and then the others,
at which no token stands. -/
theorem turned_escape (hvalid : Valid commentSyntax) {string : StringSyntax} {escape rest : Text}
    (htoken : escape ≠ []) (hsome : string.escape = some escape) (htext : c :: after = escape ++ rest)
    (hgood : Good commentSyntax (before ++ c :: after) ⟨.string string, size before, ranges⟩) :
    ∃ scan', Turned commentSyntax before (c :: after)
      ⟨.string string, escape.length + 1, false⟩ ⟨.string string, size before, ranges⟩ scan' := by
  have hmem : string ∈ commentSyntax.strings := hgood.known
  have hstands : escape.isPrefixOf (c :: after) = true := by
    rw [List.isPrefixOf_iff_prefix, htext]
    exact List.prefix_append _ _
  have hstep : step commentSyntax (encode (before ++ c :: after))
      ⟨.string string, size before, ranges⟩ =
        ⟨.string string,
          min (size before + size escape + 1) (encode (before ++ c :: after)).length, ranges⟩ := by
    have hfilter : string.escape.filter
        (tokenAt (encode (before ++ c :: after)) (size before)) = some escape := by
      rw [hsome, Option.filter_some, if_pos]
      rw [tokenAt_boundary, hstands]
    simp only [step, stepString, hfilter]
  have hlength : (encode (before ++ c :: after)).length = size before + size escape + size rest := by
    show size (before ++ c :: after) = _
    rw [htext, size_append, size_append, Nat.add_assoc]
  have hpos := size_pos htoken
  cases rest with
  | nil =>
    -- the text ends behind the escape
    rw [List.append_nil] at htext
    have hmin : min (size before + size escape + 1) (encode (before ++ c :: after)).length =
        size before + size escape := by
      rw [hlength, size_nil]
      omega
    rw [hmin] at hstep
    refine ⟨_, ⟨Runs.single hstep offset_lt (Nat.lt_add_of_pos_right hpos), rfl, ?_,
      hgood.stay rfl rfl hmem (Nat.le_add_right _ _), Nat.succ_pos _⟩⟩
    show size before + size escape = size (before ++ (c :: after).take (escape.length + 1))
    rw [htext, List.take_of_length_le (by omega), size_append]
  | cons d rest =>
    have hd := Char.utf8Size_pos d
    have hmin : min (size before + size escape + 1) (encode (before ++ c :: after)).length =
        size before + size escape + 1 := by
      rw [hlength, size_cons]
      omega
    rw [hmin] at hstep
    have hcontent : before ++ c :: after = (before ++ escape) ++ d :: rest := by
      rw [htext, List.append_assoc]
    have hinside : Runs commentSyntax (encode (before ++ c :: after))
        ⟨.string string, size before + size escape + 1, ranges⟩
        ⟨.string string, size before + size escape + d.utf8Size, ranges⟩ := by
      have hknown : Known commentSyntax (.string string) := hmem
      rw [hcontent, ← size_append]
      exact runs_inside hvalid hknown Nat.one_pos hd
    have hforward : size before < size before + size escape + 1 := by omega
    refine ⟨_, ⟨(Runs.single hstep offset_lt hforward).trans hinside, rfl, ?_,
      hgood.stay rfl rfl hmem ?_, Nat.succ_pos _⟩⟩
    · show size before + size escape + d.utf8Size = size (before ++ (c :: after).take (escape.length + 1))
      rw [htext, List.take_append, List.take_of_length_le (by omega), Nat.add_sub_cancel_left,
        List.take_succ_cons, List.take_zero, size_append, size_append, size_cons, size_nil]
      omega
    · show size before ≤ size before + size escape + d.utf8Size
      omega

theorem turned_string (hvalid : Valid commentSyntax) {string : StringSyntax}
    (hgood : Good commentSyntax (before ++ c :: after) ⟨.string string, size before, ranges⟩) :
    ∃ scan', Turned commentSyntax before (c :: after) (turnString string (c :: after))
      ⟨.string string, size before, ranges⟩ scan' := by
  have hmem : string ∈ commentSyntax.strings := hgood.known
  have hfilter : string.escape.filter (tokenAt (encode (before ++ c :: after)) (size before)) =
      string.escape.filter (·.isPrefixOf (c :: after)) := by
    congr 1
    funext escape
    exact tokenAt_boundary
  unfold turnString
  cases hescape : string.escape.filter (·.isPrefixOf (c :: after)) with
  | some escape =>
    obtain ⟨hsome, hstands⟩ := Option.filter_eq_some_iff.1 hescape
    obtain ⟨rest, hrest⟩ := List.isPrefixOf_iff_prefix.1 hstands
    have htoken : escape ≠ [] := fun heq => hvalid.escape string hmem (heq ▸ hsome)
    exact turned_escape hvalid htoken hsome hrest.symm hgood
  | none =>
    by_cases hstop : string.stop.isPrefixOf (c :: after) = true
    · have hstands := List.isPrefixOf_iff_prefix.1 hstop
      simp only [hstop, if_true]
      refine ⟨_, turned_token .code (hvalid.stringStop string hmem) hstands ?_ trivial
        (hgood.stay rfl rfl trivial (Nat.le_add_right _ _))⟩
      simp only [step, stepString, hfilter, hescape, tokenAt_boundary, if_pos hstop]
    · simp only [hstop, Bool.false_eq_true, if_false]
      refine ⟨_, turned_char hvalid (.string string) ?_ rfl (hgood.stay rfl rfl hmem (Nat.le_add_right _ _))⟩
      simp only [step, stepString, hfilter, hescape, tokenAt_boundary, if_neg hstop]

/-- **A turn of the reference scanner is some turns of the loop.** -/
theorem runs_turn (hvalid : Valid commentSyntax) {state : LexicalState} {mode : Mode}
    (hagrees : Agrees state mode)
    (hgood : Good commentSyntax (before ++ c :: after) ⟨state, size before, ranges⟩) :
    ∃ scan', Turned commentSyntax before (c :: after) (turn commentSyntax mode (c :: after))
      ⟨state, size before, ranges⟩ scan' := by
  cases state <;> cases mode <;> try exact hagrees.elim
  case code.code => exact turned_code hvalid hgood
  case string.string string string' =>
    obtain rfl : string = string' := hagrees
    exact turned_string hvalid hgood
  case lineComment.line start => exact turned_line hvalid hgood
  case blockComment.block block start depth block' depth' =>
    obtain ⟨rfl, rfl⟩ : block = block' ∧ depth = depth' := hagrees
    exact turned_block hvalid hgood

/-! ## The whole text

The induction on the text, by the turns of the reference scanner.
-/

/-- A turn gives one class to all the characters that it reads. -/
theorem classify_skip (mode : Mode) (left : Nat) (comment : Bool) (text : Text) :
    classify commentSyntax mode left comment text =
      List.replicate (min left text.length) comment ++
        classify commentSyntax mode 0 comment (text.drop left) := by
  induction text generalizing left with
  | nil => cases left <;> simp [classify]
  | cons c rest ih =>
    cases left with
    | zero => simp
    | succ left =>
      rw [classify, ih, List.length_cons, Nat.add_min_add_right, List.replicate_succ,
        List.cons_append, List.drop_succ_cons]

theorem classify_zero (mode : Mode) (comment comment' : Bool) (text : Text) :
    classify commentSyntax mode 0 comment text = classify commentSyntax mode 0 comment' text := by
  cases text <;> rfl

theorem classify_turn (mode : Mode) (comment : Bool)
    (hlength : 0 < (turn commentSyntax mode (c :: after)).length) :
    classify commentSyntax mode 0 comment (c :: after) =
      List.replicate ((c :: after).take (turn commentSyntax mode (c :: after)).length).length
          (turn commentSyntax mode (c :: after)).comment ++
        classify commentSyntax (turn commentSyntax mode (c :: after)).mode 0 comment
          ((c :: after).drop (turn commentSyntax mode (c :: after)).length) := by
  obtain ⟨left, hleft⟩ : ∃ left, (turn commentSyntax mode (c :: after)).length = left + 1 :=
    ⟨_, (Nat.succ_pred_eq_of_pos hlength).symm⟩
  rw [classify]
  simp only [hleft, Nat.add_sub_cancel, List.take_succ_cons, List.drop_succ_cons, List.length_cons,
    List.length_take, List.replicate_succ, List.cons_append]
  rw [classify_skip, classify_zero _ _ comment]

theorem perByte_append {text rest : Text} {flag : Bool} {flags : List Bool} :
    perByte (text ++ rest) (List.replicate text.length flag ++ flags) =
      List.replicate (size text) flag ++ perByte rest flags := by
  induction text with
  | nil => rfl
  | cons c text ih =>
    rw [List.cons_append, List.length_cons, List.replicate_succ, List.cons_append, perByte, ih,
      size_cons, List.replicate_add, List.append_assoc]

/-- The bytes of comments in what a turn reads and in what is behind it. -/
theorem perByte_turn {taken rest : Text} {flag : Bool} {flags : List Bool} {front offset : Nat} :
    ((flag = true ∧ front ≤ offset ∧ offset < front + size taken) ∨
      (front + size taken ≤ offset ∧
        (perByte rest flags)[offset - (front + size taken)]? = some true)) ↔
      front ≤ offset ∧
        (perByte (taken ++ rest) (List.replicate taken.length flag ++ flags))[offset - front]? =
          some true := by
  rw [perByte_append]
  by_cases hfront : front ≤ offset
  · by_cases htaken : offset < front + size taken
    · have hlt : offset - front < (List.replicate (size taken) flag).length := by
        rw [List.length_replicate]
        omega
      rw [List.getElem?_append_left hlt, List.getElem?_replicate_of_lt (by simpa using hlt)]
      simp [hfront, htaken, Nat.not_le.2 htaken]
    · have hle : (List.replicate (size taken) flag).length ≤ offset - front := by
        rw [List.length_replicate]
        omega
      rw [List.getElem?_append_right hle, List.length_replicate, Nat.sub_sub]
      simp [hfront, htaken, Nat.not_lt.1 htaken]
  · have hnot : ¬ front + size taken ≤ offset := by omega
    simp [hfront, hnot]

/-- **The loop covers what the reference scanner takes for comments**, from any place on. -/
theorem runs_text (hvalid : Valid commentSyntax) {state : LexicalState} {mode : Mode}
    (comment : Bool) (hagrees : Agrees state mode) (after : Text)
    (hgood : Good commentSyntax (before ++ after) ⟨state, size before, ranges⟩) :
    ∃ scan', Runs commentSyntax (encode (before ++ after)) ⟨state, size before, ranges⟩ scan' ∧
      scan'.offset = size (before ++ after) ∧ Good commentSyntax (before ++ after) scan' ∧
      ∀ offset, Covered scan' offset ↔ Covered ⟨state, size before, ranges⟩ offset ∨
        (size before ≤ offset ∧
          (perByte after (classify commentSyntax mode 0 comment after))[offset - size before]? =
            some true) := by
  -- the induction is on a bound for the rest of the text: a turn may consume several characters
  obtain ⟨n, hn⟩ : ∃ n, after.length ≤ n := ⟨_, Nat.le_refl _⟩
  induction n generalizing before after state mode ranges with
  | zero =>
    obtain rfl : after = [] := List.eq_nil_of_length_eq_zero (by omega)
    exact ⟨_, .refl _, by rw [List.append_nil], hgood, by simp [perByte]⟩
  | succ n ih =>
    cases after with
    | nil => exact ⟨_, .refl _, by rw [List.append_nil], hgood, by simp [perByte]⟩
    | cons c after =>
      obtain ⟨scan, hturned⟩ := runs_turn hvalid hagrees hgood
      obtain ⟨hruns, hagrees', hoffset, ⟨hgood', hcovered⟩, hlength⟩ := hturned
      set next := turn commentSyntax mode (c :: after) with hnext
      have hsplit : before ++ c :: after =
          (before ++ (c :: after).take next.length) ++ (c :: after).drop next.length := by
        rw [List.append_assoc, List.take_append_drop]
      obtain ⟨state', offset', ranges'⟩ := scan
      simp only at hoffset hagrees'
      subst hoffset
      -- every turn consumes something
      have hshort : ((c :: after).drop next.length).length ≤ n := by
        rw [List.length_drop, List.length_cons]
        rw [List.length_cons] at hn
        omega
      rw [hsplit] at hgood'
      obtain ⟨scan', hruns', hoffset', hgood'', hcovered'⟩ := ih hagrees' _ hgood' hshort
      rw [← hsplit] at hruns' hoffset' hgood''
      refine ⟨scan', hruns.trans hruns', hoffset', hgood'', fun offset => ?_⟩
      -- the specification makes the same turn
      have hbytes : perByte (c :: after) (classify commentSyntax mode 0 comment (c :: after)) =
          perByte ((c :: after).take next.length ++ (c :: after).drop next.length)
            (List.replicate ((c :: after).take next.length).length next.comment ++
              classify commentSyntax next.mode 0 comment ((c :: after).drop next.length)) := by
        rw [List.take_append_drop, classify_turn mode comment hlength]
      rw [hcovered', hcovered, hbytes, or_assoc, size_append]
      exact or_congr_right perByte_turn

theorem good_begin : Good commentSyntax content begin where
  known := trivial
  ranges :=
    { nonempty := fun _ hrange => absurd hrange List.not_mem_nil
      inside := fun _ hrange => absurd hrange List.not_mem_nil
      start_boundary := fun _ hrange => absurd hrange List.not_mem_nil
      stop_boundary := fun _ hrange => absurd hrange List.not_mem_nil
      sorted := List.Pairwise.nil }
  opened := fun start hstart => absurd hstart (Option.some_ne_none start).symm

/-- **At the end of the text** an open comment ends. -/
theorem close_eq {scan : Scan} (hgood : Good commentSyntax content scan)
    (hend : scan.offset = size content) :
    WellFormed content (close (encode content) scan) (size content) ∧
      ∀ offset, (∃ range ∈ close (encode content) scan, range.1 ≤ offset ∧ offset < range.2) ↔
        Covered scan offset := by
  have hranges := hgood.ranges
  have hlength : (encode content).length = size content := rfl
  cases hopened : openedAt scan.state with
  | none =>
    have hclose : close (encode content) scan = scan.ranges := by
      unfold close
      split
      · rename_i hstate
        rw [hstate] at hopened
        cases hopened
      · rename_i hstate
        rw [hstate] at hopened
        cases hopened
      · rfl
      · rfl
    rw [hopened] at hranges
    rw [hclose]
    refine ⟨hend ▸ hranges, fun offset => ?_⟩
    simp [Covered, hopened]
  | some start =>
    have hclose : close (encode content) scan = scan.ranges ++ [(start, size content)] := by
      unfold close
      split <;> rename_i hstate <;> rw [hstate] at hopened <;> cases hopened <;> rfl
    obtain ⟨hstart, hlt⟩ := hgood.opened start hopened
    rw [hopened] at hranges
    rw [hclose]
    constructor
    · exact hranges.append hstart (boundary_size content) (hend ▸ hlt) (Nat.le_refl _)
    · intro offset
      simp only [Covered, hopened, List.mem_append, List.mem_singleton, or_and_right, exists_or,
        exists_eq_left, Option.some.injEq, exists_eq_left', hend]

/-- **The loop stops, and its ranges are those of the reference scanner.** -/
theorem loop_eq (hvalid : Valid commentSyntax) (content : Text) :
    ∃ scan : Scan,
      (∀ turns, (encode content).length ≤ turns →
        loop commentSyntax (encode content) turns begin = some scan) ∧
      WellFormed content (close (encode content) scan) (size content) ∧
      ∀ offset, (∃ range ∈ close (encode content) scan, range.1 ≤ offset ∧ offset < range.2) ↔
        isCommentByte commentSyntax content offset = true := by
  have hagrees : Agrees .code .code := trivial
  have hgood : Good commentSyntax ([] ++ content) ⟨.code, size [], []⟩ := good_begin
  obtain ⟨scan, hruns, hend, hgood, hcovered⟩ := runs_text hvalid false hagrees content hgood
  rw [List.nil_append] at hruns hend hgood
  obtain ⟨hranges, hclose⟩ := close_eq hgood hend
  refine ⟨scan, fun turns hturns => ?_, hranges, fun offset => ?_⟩
  · exact loop_of_runs hruns (Nat.le_of_eq hend.symm) (by simpa using hturns)
  · have hnone : ¬ Covered ⟨.code, size [], []⟩ offset := by
      rintro (⟨_, hrange, _⟩ | ⟨_, hstart, _⟩)
      · exact absurd hrange List.not_mem_nil
      · cases hstart
    rw [hclose, hcovered, or_iff_right hnone, isCommentByte, size_nil, Nat.sub_zero]
    cases (perByte content (classify commentSyntax .code 0 false content))[offset]? <;> simp

/-! ## Looking an offset up

The ranges are sorted and disjoint, so the only one that can hold an offset is the last that
starts in front of it.
-/

/-- **The bisection finds the range of an offset.** -/
theorem isCommentOffset_iff {ranges : List Range} {limit : Nat}
    (h : WellFormed content ranges limit) (offset : Nat) :
    isCommentOffset ranges offset = true ↔
      ∃ range ∈ ranges, range.1 ≤ offset ∧ offset < range.2 := by
  let starts (range : Range) : Bool := decide (range.1 ≤ offset)
  -- the ranges are sorted: those that start at the offset or before come first
  have hpartitioned : PartitionPoint.Partitioned starts (ranges.takeWhile starts)
      (ranges.dropWhile starts) := by
    refine PartitionPoint.partitioned_of_pairwise ?_
    refine h.sorted.imp_of_mem fun {a b} ha _ hle hb => ?_
    have hlt := h.nonempty a ha
    have hb := of_decide_eq_true hb
    exact decide_eq_true (by omega)
  have hpoint : PartitionPoint.partitionPoint starts ranges = (ranges.takeWhile starts).length := by
    conv_lhs => rw [← List.takeWhile_append_dropWhile (p := starts) (l := ranges)]
    exact PartitionPoint.partitionPoint_eq hpartitioned
  have hback : ∀ range ∈ ranges, range.1 ≤ offset → range ∈ ranges.takeWhile starts := by
    intro range hrange hle
    rw [← List.takeWhile_append_dropWhile (p := starts) (l := ranges)] at hrange
    rcases List.mem_append.1 hrange with hfront | hback
    · exact hfront
    · have := hpartitioned.fails range hback
      exact absurd hle (of_decide_eq_false this)
  show (decide (0 < PartitionPoint.partitionPoint starts ranges) &&
    ranges[PartitionPoint.partitionPoint starts ranges - 1]?.any _) = true ↔ _
  rw [hpoint]
  -- the code looks at the last of them only
  rcases List.eq_nil_or_concat' (ranges.takeWhile starts) with hnil | ⟨front, last, hlast⟩
  · rw [hnil]
    refine iff_of_false (by simp) ?_
    rintro ⟨range, hrange, hle, -⟩
    have := hback range hrange hle
    rw [hnil] at this
    exact absurd this List.not_mem_nil
  · have hranges : ranges = front ++ last :: ranges.dropWhile starts := by
      conv_lhs => rw [← List.takeWhile_append_dropWhile (p := starts) (l := ranges), hlast]
      rw [List.append_assoc, List.singleton_append]
    have hget : ranges[(ranges.takeWhile starts).length - 1]? = some last := by
      rw [hlast, List.length_append, List.length_singleton, Nat.add_sub_cancel]
      conv_lhs => rw [hranges]
      simp
    have hlastMem : last ∈ ranges := by
      rw [hranges]
      simp
    rw [hget, hlast]
    simp only [List.length_append, List.length_singleton, Option.any_some, Bool.and_eq_true,
      decide_eq_true_eq]
    constructor
    · rintro ⟨-, hcontains⟩
      exact ⟨last, hlastMem, hcontains⟩
    · rintro ⟨range, hrange, hle, hlt⟩
      refine ⟨Nat.succ_pos _, ?_⟩
      have hmem := hback range hrange hle
      rw [hlast] at hmem
      rcases List.mem_append.1 hmem with hfront | heq
      · -- a range in front of the last one ends before the last one starts
        have hsorted := h.sorted
        rw [hranges] at hsorted
        have hbefore := (List.pairwise_append.1 hsorted).2.2 range hfront last List.mem_cons_self
        have hstart : starts last = true := hpartitioned.holds last (by rw [hlast]; simp)
        have := of_decide_eq_true hstart
        omega
      · obtain rfl := List.mem_singleton.1 heq
        exact ⟨hle, hlt⟩

/-! ## The depth

The depth of nested comments is counted by a number that never goes below zero.
-/

/-- A block comment that has been closed as often as it has been opened is left. -/
def DepthPositive : LexicalState → Prop
  | .blockComment _ _ depth => 0 < depth
  | .code | .string _ | .lineComment _ => True

theorem depthPositive_step {bytes : List UInt8} {scan : Scan} (h : DepthPositive scan.state) :
    DepthPositive (step commentSyntax bytes scan).state := by
  obtain ⟨state, offset, ranges⟩ := scan
  cases state with
  | code =>
    simp only [step, stepCode]
    split
    · trivial
    · split
      · exact Nat.one_pos
      · split <;> trivial
  | string string =>
    simp only [step, stepString]
    split
    · trivial
    · split <;> trivial
  | lineComment start =>
    simp only [step, stepLineComment]
    split <;> trivial
  | blockComment block start depth =>
    simp only [step, stepBlockComment]
    split
    · exact Nat.succ_pos _
    · split
      · split
        · trivial
        · rename_i hdepth
          exact Nat.pos_of_ne_zero hdepth
      · exact h

/-- The states that the loop goes through. -/
inductive Reached (commentSyntax : CommentSyntax) (bytes : List UInt8) : Scan → Prop where
  | begin : Reached commentSyntax bytes begin
  | step {scan : Scan} : Reached commentSyntax bytes scan → scan.offset < bytes.length →
      Reached commentSyntax bytes (step commentSyntax bytes scan)

theorem depthPositive_of_reached {bytes : List UInt8} {scan : Scan}
    (h : Reached commentSyntax bytes scan) : DepthPositive scan.state := by
  induction h with
  | begin => trivial
  | step _ _ ih => exact depthPositive_step ih

theorem valid_of_engine {engine : EngineConfig} (h : Checkout.validateEngineConfig engine = .ok ())
    {extension : Text} (hmem : (extension, commentSyntax) ∈ engine.commentSyntax) :
    Valid commentSyntax := by
  obtain ⟨_, -, h⟩ := bind_ok.1 h
  obtain ⟨_, -, h⟩ := bind_ok.1 h
  obtain ⟨_, -, h⟩ := bind_ok.1 h
  obtain ⟨_, -, h⟩ := bind_ok.1 h
  obtain ⟨_, -, h⟩ := bind_ok.1 h
  exact valid_of_validated (forM_ok.1 h _ hmem)

/-- The ranges of a text under a syntax without empty tokens. -/
theorem commentRanges_of_valid (hvalid : Valid commentSyntax) (content : Text) :
    ∃ ranges, commentRanges content commentSyntax = some ranges ∧
      WellFormed content ranges (size content) ∧
      ∀ offset, isCommentOffset ranges offset = isCommentByte commentSyntax content offset := by
  obtain ⟨scan, hloop, hranges, hcovered⟩ := loop_eq hvalid content
  refine ⟨close (encode content) scan, ?_, hranges, fun offset => ?_⟩
  · rw [commentRanges]
    simp only [hloop _ (Nat.le_refl _), Option.map_some]
  · rw [Bool.eq_iff_iff, isCommentOffset_iff hranges, hcovered]

/-- **Comments are recognized**: for every text and every validated syntax the loop stops, whatever
the bound on its turns, with ranges that are in order, and an offset is in one of them exactly when
the reference scanner takes its byte for a part of a comment. -/
theorem commentRanges_eq {engine : EngineConfig}
    (h : Checkout.validateEngineConfig engine = .ok ()) {extension : Text}
    {commentSyntax : CommentSyntax} (hmem : (extension, commentSyntax) ∈ engine.commentSyntax)
    (content : Text) :
    (∃ scan, ∀ turns, (encode content).length ≤ turns →
      loop commentSyntax (encode content) turns begin = some scan) ∧
    (∀ scan, Reached commentSyntax (encode content) scan → DepthPositive scan.state) ∧
    ∃ ranges, commentRanges content commentSyntax = some ranges ∧
      WellFormed content ranges (size content) ∧
      ∀ offset, isCommentOffset ranges offset = isCommentByte commentSyntax content offset := by
  have hvalid := valid_of_engine h hmem
  obtain ⟨scan, hloop, -⟩ := loop_eq hvalid content
  exact ⟨⟨scan, hloop⟩, fun scan hscan => depthPositive_of_reached hscan,
    commentRanges_of_valid hvalid content⟩

theorem commentRanges_slashes :
    ∃ ranges, commentRanges "a /* b".toList slashes = some ranges ∧
      WellFormed "a /* b".toList ranges (size "a /* b".toList) ∧
      ∀ offset, isCommentOffset ranges offset = isCommentByte slashes "a /* b".toList offset := by
  have hengine : Checkout.validateEngineConfig (smallEngine "rs".toList slashes) = .ok () := by
    decide +kernel
  exact (commentRanges_eq hengine (List.mem_singleton.2 rfl) "a /* b".toList).2.2

end CommentSyntax

end Audit

end Flow

end ArcAdmin

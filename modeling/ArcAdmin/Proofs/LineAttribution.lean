import Mathlib.Data.List.Range
import ArcAdmin.Flow.Audit.Scan
import ArcAdmin.Lines

/-!
# Line attribution

`source_line_at` looks an offset of a text up among the starts of its lines. `Located` says in which
line an offset lies, and everything that the function computes is read off from it.

* **`exists_located`** — every offset of a text lies in a line;
* **`sourceLineAt_attribution`** — the number, the text and the column that are returned.
-/

namespace ArcAdmin

namespace Flow

namespace Audit

open Utf8 PartitionPoint

/-! ## The lines of a text

The specification: the line of an offset, by recursion on the text.
-/

/-- The number of newline bytes in front of an offset. -/
def newlinesBefore (content : Text) (offset : Nat) : Nat :=
  ((encode content).take offset).count 10

/-- Where a line starts: behind the lines in front of it and their newlines. -/
def startOfLine (content : Text) (n : Nat) : Nat :=
  (((content.splitOn '\n').take n).map fun line => size line + 1).sum

/-- The offset lies in the line with this number, this start and this text. -/
inductive Located : Text → Nat → Nat → Nat → Text → Prop
  | last {line : Text} {offset : Nat} (plain : '\n' ∉ line) (h : offset ≤ size line) :
      Located line offset 0 0 line
  | here {line b : Text} {offset : Nat} (plain : '\n' ∉ line) (h : offset ≤ size line) :
      Located (line ++ '\n' :: b) offset 0 0 line
  | later {a b line : Text} {offset n start : Nat} (plain : '\n' ∉ a)
      (h : Located b offset n start line) :
      Located (a ++ '\n' :: b) (size a + 1 + offset) (n + 1) (size a + 1 + start) line

variable {content a b line : Text} {offset n start : Nat}

theorem size_newline : size ['\n'] = 1 := rfl

theorem size_append_newline (a b : Text) : size (a ++ '\n' :: b) = size a + 1 + size b := by
  have hcons : ('\n' :: b : Text) = ['\n'] ++ b := rfl
  rw [hcons, size_append, size_append, size_newline, Nat.add_assoc]

theorem plain_iff : Lines.Plain (· == '\n') a ↔ '\n' ∉ a := by
  constructor
  · intro h hmem
    have := h '\n' hmem
    simp at this
  · intro h c hc
    have hne : c ≠ '\n' := fun heq => h (heq ▸ hc)
    simpa using hne

/-- **Every offset of a text lies in a line.** -/
theorem exists_located (h : offset ≤ size content) : ∃ n start line,
    Located content offset n start line := by
  induction content using Lines.text_induction (· == '\n') generalizing offset with
  | line a ha => exact ⟨0, 0, a, Located.last (plain_iff.1 ha) h⟩
  | more a d b ha hd ih =>
    obtain rfl : d = '\n' := by simpa using hd
    have hplain := plain_iff.1 ha
    by_cases hin : offset ≤ size a
    · exact ⟨0, 0, a, Located.here hplain hin⟩
    · rw [size_append_newline] at h
      obtain ⟨rest, rfl⟩ : ∃ rest, offset = size a + 1 + rest := ⟨offset - (size a + 1), by omega⟩
      have hrest : rest ≤ size b := by omega
      obtain ⟨n, start, line, hlocated⟩ := ih hrest
      exact ⟨n + 1, size a + 1 + start, line, Located.later hplain hlocated⟩

theorem Located.line_eq (h : Located content offset n start line) :
    (content.splitOn '\n')[n]? = some line := by
  induction h with
  | last plain h => rw [List.splitOn_eq_singleton plain]; rfl
  | here plain h => rw [List.splitOn_append_cons_self_of_not_mem plain]; rfl
  | later plain h ih =>
    rw [List.splitOn_append_cons_self_of_not_mem plain]
    exact ih

theorem Located.start_eq (h : Located content offset n start line) :
    startOfLine content n = start := by
  unfold startOfLine
  induction h with
  | last plain h => rfl
  | here plain h => rfl
  | later plain h ih =>
    rw [List.splitOn_append_cons_self_of_not_mem plain, List.take_succ_cons, List.map_cons,
      List.sum_cons, ih]

theorem Located.bounds (h : Located content offset n start line) :
    start ≤ offset ∧ offset ≤ start + size line := by
  induction h with
  | last plain h => omega
  | here plain h => omega
  | later plain h ih => omega

/-- The text around the line. -/
theorem Located.around (h : Located content offset n start line) : '\n' ∉ line ∧
    ∃ before after, content = before ++ line ++ after ∧ size before = start ∧
      (after = [] ∨ ∃ rest, after = '\n' :: rest) := by
  induction h with
  | last plain h => exact ⟨plain, [], [], by simp, rfl, Or.inl rfl⟩
  | @here line b _ plain h => exact ⟨plain, [], '\n' :: b, by simp, rfl, Or.inr ⟨b, rfl⟩⟩
  | @later a b _ _ _ _ plain h ih =>
    obtain ⟨hline, before, after, rfl, hsize, hafter⟩ := ih
    refine ⟨hline, a ++ '\n' :: before, after, by simp, ?_, hafter⟩
    rw [size_append_newline, hsize]

/-! ## The newlines among the bytes

In UTF-8 a newline is the byte 10, and no other character has this byte.
-/

theorem encode_newline : encode ['\n'] = [10] := rfl

/-- A byte 10 is a newline. -/
theorem eq_newline_of_mem {c : Char} (h : 10 ∈ String.utf8EncodeChar c) : c = '\n' := by
  obtain ⟨index, hlt, hget⟩ := List.mem_iff_getElem.1 h
  have hfound : encode ['\n'] <+: (encode [c]).drop index := by
    have hone : encode [c] = String.utf8EncodeChar c := List.append_nil _
    rw [encode_newline, hone, List.drop_eq_getElem_cons hlt, hget]
    exact ⟨_, rfl⟩
  by_cases hpos : 0 < index
  · rw [String.length_utf8EncodeChar] at hlt
    exact absurd hfound (encode_inside hpos hlt (List.cons_ne_nil _ _))
  · obtain rfl : index = 0 := by omega
    rw [List.drop_zero, encode_prefix_iff] at hfound
    obtain ⟨rest, hrest⟩ := hfound
    exact (List.cons.inj hrest).1.symm

theorem not_mem_encode (h : '\n' ∉ a) : (10 : UInt8) ∉ encode a := by
  intro hmem
  obtain ⟨c, hc, hten⟩ := List.mem_flatMap.1 hmem
  exact h (eq_newline_of_mem hten ▸ hc)

theorem encode_append_newline (a b : Text) : encode (a ++ '\n' :: b) = encode a ++ 10 :: encode b := by
  have hcons : ('\n' :: b : Text) = ['\n'] ++ b := rfl
  rw [hcons, encode_append, encode_append, encode_newline]
  rfl

theorem count_take_plain (h : '\n' ∉ a) (offset : Nat) : newlinesBefore a offset = 0 :=
  List.count_eq_zero.2 fun hmem => not_mem_encode h (List.mem_of_mem_take hmem)

theorem Located.number (h : Located content offset n start line) :
    newlinesBefore content offset = n := by
  induction h with
  | last plain h => exact count_take_plain plain _
  | @here line b offset plain h =>
    have htake : (encode (line ++ '\n' :: b)).take offset = (encode line).take offset := by
      rw [encode_append_newline]
      exact List.take_append_of_le_length h
    rw [newlinesBefore, htake]
    exact count_take_plain plain offset
  | @later a b line offset n start plain h ih =>
    have htake : (encode (a ++ '\n' :: b)).take (size a + 1 + offset) =
        encode a ++ 10 :: (encode b).take offset := by
      rw [encode_append_newline, Nat.add_assoc, size, List.take_length_add_append, Nat.add_comm 1,
        List.take_succ_cons]
    have hnone : (encode a).count 10 = 0 := List.count_eq_zero.2 (not_mem_encode plain)
    rw [newlinesBefore, htake, List.count_append, hnone, List.count_cons_self, Nat.zero_add]
    exact congrArg (· + 1) ih

/-- The offsets of the newlines, as `match_indices` finds them. -/
def newlineOffsets (bytes : List UInt8) : List Nat :=
  (List.range bytes.length).filter fun offset => bytes[offset]? = some 10

theorem newlineOffsets_append (a b : List UInt8) :
    newlineOffsets (a ++ b) = newlineOffsets a ++ (newlineOffsets b).map (a.length + ·) := by
  unfold newlineOffsets
  rw [List.length_append, List.range_add, List.filter_append, List.filter_map]
  congr 1
  · apply List.filter_congr
    intro offset h
    rw [List.getElem?_append_left (List.mem_range.1 h)]
  · congr 1
    apply List.filter_congr
    intro offset h
    show decide ((a ++ b)[a.length + offset]? = some 10) = _
    rw [List.getElem?_append_right (by omega), Nat.add_sub_cancel_left]

theorem newlineOffsets_plain {bytes : List UInt8} (h : (10 : UInt8) ∉ bytes) :
    newlineOffsets bytes = [] := by
  unfold newlineOffsets
  rw [List.filter_eq_nil_iff]
  intro offset _ hget
  exact h (List.mem_of_getElem? (of_decide_eq_true hget))

theorem sourceLineStarts_plain (h : '\n' ∉ a) : sourceLineStarts a = [0] := by
  show 0 :: (newlineOffsets (encode a)).map (· + 1) = [0]
  rw [newlineOffsets_plain (not_mem_encode h)]
  rfl

theorem sourceLineStarts_append (h : '\n' ∉ a) :
    sourceLineStarts (a ++ '\n' :: b) = 0 :: (sourceLineStarts b).map (size a + 1 + ·) := by
  have hone : newlineOffsets [10] = [0] := by decide
  have hcons : (10 :: encode b : List UInt8) = [10] ++ encode b := rfl
  show 0 :: (newlineOffsets (encode (a ++ '\n' :: b))).map (· + 1) =
    0 :: (0 :: (newlineOffsets (encode b)).map (· + 1)).map (size a + 1 + ·)
  rw [encode_append_newline, newlineOffsets_append, newlineOffsets_plain (not_mem_encode h), hcons,
    newlineOffsets_append, hone]
  simp only [size, List.nil_append, List.map_map, List.map_cons,
    List.singleton_append, List.length_singleton]
  congr 2
  apply List.map_congr_left
  intro offset _
  show _ + (1 + offset) + 1 = _ + 1 + (offset + 1)
  omega

/-- The starts up to the offset are those of the lines up to the one that it lies in. -/
theorem Located.starts (h : Located content offset n start line) : ∃ front back,
    sourceLineStarts content = front ++ back ∧ front.length = n + 1 ∧ front[n]? = some start ∧
      Partitioned (fun start => decide (start ≤ offset)) front back := by
  induction h with
  | last plain h =>
    refine ⟨[0], [], sourceLineStarts_plain plain, rfl, rfl, ?_, ?_⟩
    · simp
    · simp
  | @here line b offset plain h =>
    refine ⟨[0], (sourceLineStarts b).map (size line + 1 + ·), sourceLineStarts_append plain, rfl,
      rfl, ?_, ?_⟩
    · simp
    · intro x hx
      obtain ⟨y, -, rfl⟩ := List.mem_map.1 hx
      rw [decide_eq_false_iff_not]
      omega
  | @later a b line offset n start plain h ih =>
    obtain ⟨front, back, hstarts, hlength, hget, hpartitioned⟩ := ih
    refine ⟨0 :: front.map (size a + 1 + ·), back.map (size a + 1 + ·), ?_, ?_, ?_, ?_, ?_⟩
    · rw [sourceLineStarts_append plain, hstarts, List.map_append, List.cons_append]
    · rw [List.length_cons, List.length_map, hlength]
    · rw [List.getElem?_cons_succ, List.getElem?_map, hget]
      rfl
    · intro x hx
      rcases List.mem_cons.1 hx with rfl | hx
      · simp
      · obtain ⟨y, hy, rfl⟩ := List.mem_map.1 hx
        have hle := of_decide_eq_true (hpartitioned.holds y hy)
        rw [decide_eq_true_iff]
        omega
    · intro x hx
      obtain ⟨y, hy, rfl⟩ := List.mem_map.1 hx
      have hlt := of_decide_eq_false (hpartitioned.fails y hy)
      rw [decide_eq_false_iff_not]
      omega

/-! ## Slices

A text may be sliced between characters only; the slices of the function begin and end at
newlines, or at the ends of the text.
-/

theorem slice_all (content : Text) : slice content 0 (size content) = content := by
  induction content with
  | nil => rfl
  | cons c rest ih =>
    have hpos := Char.utf8Size_pos c
    rw [slice, if_neg (by omega), size_cons, if_pos (by omega), Nat.add_sub_cancel_left, ih]

theorem slice_front (a b : Text) : slice (a ++ b) 0 (size a) = a := by
  induction a with
  | nil => cases b <;> simp [slice]
  | cons c rest ih =>
    have hpos := Char.utf8Size_pos c
    rw [List.cons_append, slice, if_neg (by omega), size_cons, if_pos (by omega),
      Nat.add_sub_cancel_left, ih]

theorem slice_behind (a b : Text) (n : Nat) : slice (a ++ b) (size a) (size a + n) = slice b 0 n := by
  induction a with
  | nil => simp
  | cons c rest ih =>
    have hpos := Char.utf8Size_pos c
    rw [List.cons_append, slice, size_cons, if_pos (by omega), Nat.add_sub_cancel_left,
      Nat.add_assoc, Nat.add_sub_cancel_left, ih]

/-- No character begins with a continuation byte. -/
theorem first_byte {byte : UInt8} (h : byte.IsUTF8FirstByte) : byte < 128 ∨ 192 ≤ byte := by
  have hall : ∀ bits : BitVec 8, (UInt8.ofBitVec bits).IsUTF8FirstByte →
      UInt8.ofBitVec bits < 128 ∨ 192 ≤ UInt8.ofBitVec bits := by decide +kernel
  exact hall byte.toBitVec h

/-- **A text may be cut between two characters.** -/
theorem isCharBoundary_append (a b : Text) : isCharBoundary (a ++ b) (size a) = true := by
  unfold isCharBoundary
  cases b with
  | nil => simp
  | cons c rest =>
    have hpos : 0 < (String.utf8EncodeChar c).length := by
      rw [String.length_utf8EncodeChar]
      exact Char.utf8Size_pos c
    have hfirst : (encode (a ++ c :: rest))[size a]? = some (String.utf8EncodeChar c)[0] := by
      rw [encode_append, size, List.getElem?_append_right (Nat.le_refl _), Nat.sub_self, encode_cons,
        List.getElem?_append_left hpos, List.getElem?_eq_getElem]
    have hbyte : (String.utf8EncodeChar c)[0].IsUTF8FirstByte :=
      UInt8.isUTF8FirstByte_getElem_zero_utf8EncodeChar
    rw [hfirst, Option.any_some, decide_eq_true (first_byte hbyte), Bool.or_true]

theorem strSlice_append (a b rest : Text) :
    strSlice (a ++ b ++ rest) (size a) (size a + size b) = some b := by
  have hfront : isCharBoundary (a ++ b ++ rest) (size a) = true := by
    rw [List.append_assoc]
    exact isCharBoundary_append a (b ++ rest)
  have hback : isCharBoundary (a ++ b ++ rest) (size a + size b) = true := by
    rw [← size_append]
    exact isCharBoundary_append (a ++ b) rest
  have hle : size a + size b ≤ size (a ++ b ++ rest) := by
    rw [size_append, size_append]
    omega
  rw [strSlice, if_pos ⟨Nat.le_add_right _ _, hle, hfront, hback⟩, List.append_assoc, slice_behind,
    slice_front]

theorem takeWhile_line {after : Text} (hline : '\n' ∉ line)
    (hafter : after = [] ∨ ∃ rest, after = '\n' :: rest) :
    (line ++ after).takeWhile (· != '\n') = line := by
  have hall : ∀ c ∈ line, (c != '\n') = true := by
    intro c hc
    have hne : c ≠ '\n' := fun heq => hline (heq ▸ hc)
    simpa using hne
  rw [List.takeWhile_append_of_pos hall]
  rcases hafter with rfl | ⟨rest, rfl⟩
  · rw [List.takeWhile_nil, List.append_nil]
  · rw [List.takeWhile_cons_of_neg (by simp), List.append_nil]

/-- The end of the line, as `source_line_at` finds it behind the start. -/
theorem findNewline_line {before after : Text} (hline : '\n' ∉ line)
    (hafter : after = [] ∨ ∃ rest, after = '\n' :: rest) :
    ((findNewline (line ++ after)).map fun offset => size before + offset).getD
      (size (before ++ line ++ after)) = size before + size line := by
  unfold findNewline
  rw [takeWhile_line hline hafter]
  rcases hafter with rfl | ⟨rest, rfl⟩
  · rw [List.append_nil, if_neg (by simpa using hline), List.append_nil, size_append]
    rfl
  · rw [if_pos (by simp)]
    rfl

/-! ## The attribution

The bisection arrives at the start of the line, from which number, text and column follow.
-/

/-- The start that the bisection arrives at. -/
theorem Located.found (h : Located content offset n start line) :
    partitionPoint (fun start => decide (start ≤ offset)) (sourceLineStarts content) - 1 = n ∧
      (sourceLineStarts content)[n]? = some start := by
  obtain ⟨front, back, hstarts, hlength, hget, hpartitioned⟩ := h.starts
  rw [hstarts, partitionPoint_eq hpartitioned, hlength]
  refine ⟨rfl, ?_⟩
  rw [List.getElem?_append_left (by omega), hget]

/-- What `source_line_at` returns for an offset in a line. -/
theorem Located.attributed (h : Located content offset n start line) :
    sourceLineAtChecked content (sourceLineStarts content) offset =
      some (n + 1, line, offset - start) := by
  obtain ⟨hindex, hget⟩ := h.found
  obtain ⟨hline, before, after, rfl, rfl, hafter⟩ := h.around
  have hrest : strSlice (before ++ line ++ after) (size before) (size (before ++ line ++ after)) =
      some (line ++ after) := by
    have hwhole := strSlice_append before (line ++ after) []
    rwa [List.append_nil, ← List.append_assoc, ← size_append, ← List.append_assoc] at hwhole
  unfold sourceLineAtChecked
  dsimp only
  rw [hindex, hget, Option.bind_eq_bind, Option.bind_some, hrest, Option.bind_eq_bind,
    Option.bind_some, findNewline_line hline hafter,
    strSlice_append]
  rfl

/-- Where nothing panics, `sourceLineAt` is what Rust computes. -/
theorem Located.unchecked (h : Located content offset n start line) :
    sourceLineAt content (sourceLineStarts content) offset = (n + 1, line, offset - start) := by
  obtain ⟨hindex, hget⟩ := h.found
  obtain ⟨hline, before, after, rfl, rfl, hafter⟩ := h.around
  have hrest : slice (before ++ line ++ after) (size before) (size (before ++ line ++ after)) =
      line ++ after := by
    rw [List.append_assoc, size_append before, slice_behind, slice_all]
  unfold sourceLineAt
  dsimp only
  rw [hindex, hget, Option.getD_some, hrest, takeWhile_line hline hafter]

/-- **Line attribution.** The number of the line is one more than the number of newlines in front of
the offset, its text is that line, and the column is the distance from the start of the line. -/
theorem sourceLineAt_attribution (content : Text) (offset : Nat) (h : offset ≤ size content) :
    ∃ line, (content.splitOn '\n')[newlinesBefore content offset]? = some line ∧
      startOfLine content (newlinesBefore content offset) ≤ offset ∧
      offset ≤ startOfLine content (newlinesBefore content offset) + size line ∧
      sourceLineAtChecked content (sourceLineStarts content) offset =
        some (newlinesBefore content offset + 1, line,
          offset - startOfLine content (newlinesBefore content offset)) := by
  obtain ⟨n, start, line, hlocated⟩ := exists_located h
  rw [hlocated.number, hlocated.start_eq]
  exact ⟨line, hlocated.line_eq, hlocated.bounds.1, hlocated.bounds.2, hlocated.attributed⟩

/-- The last, empty line behind a carriage return and two newlines. -/
theorem sourceLineAt_attribution_last :
    6 ≤ size ['a', '\r', '\n', 'é', '\n'] ∧
      ∃ line, (['a', '\r', '\n', 'é', '\n'].splitOn '\n')[
          newlinesBefore ['a', '\r', '\n', 'é', '\n'] 6]? = some line ∧
        startOfLine ['a', '\r', '\n', 'é', '\n']
          (newlinesBefore ['a', '\r', '\n', 'é', '\n'] 6) ≤ 6 ∧
        6 ≤ startOfLine ['a', '\r', '\n', 'é', '\n']
          (newlinesBefore ['a', '\r', '\n', 'é', '\n'] 6) + size line ∧
        sourceLineAtChecked ['a', '\r', '\n', 'é', '\n']
            (sourceLineStarts ['a', '\r', '\n', 'é', '\n']) 6 =
          some (newlinesBefore ['a', '\r', '\n', 'é', '\n'] 6 + 1, line,
            6 - startOfLine ['a', '\r', '\n', 'é', '\n']
              (newlinesBefore ['a', '\r', '\n', 'é', '\n'] 6)) :=
  ⟨by decide +kernel, sourceLineAt_attribution ['a', '\r', '\n', 'é', '\n'] 6 (by decide +kernel)⟩

/-- The violations are attributed to the lines of their matches. -/
theorem sourceLineAt_eq_checked {content : Text} {offset : Nat} (h : offset ≤ size content) :
    sourceLineAtChecked content (sourceLineStarts content) offset =
      some (sourceLineAt content (sourceLineStarts content) offset) := by
  obtain ⟨n, start, line, hlocated⟩ := exists_located h
  rw [hlocated.attributed, hlocated.unchecked]

end Audit

end Flow

end ArcAdmin

import Mathlib.Data.List.Basic
import Mathlib.Tactic.Common

/-!
# Texts as bytes

A text is the list of its characters, and its bytes are theirs in UTF-8.

* **`encode_prefix_iff`** — a text is in front of another exactly when its bytes are;
* **`encode_inside`** — a text does not begin inside a character.
-/

namespace Utf8

/-- The bytes of a text. -/
def encode (text : List Char) : List UInt8 := text.flatMap String.utf8EncodeChar

theorem encode_cons (c : Char) (text : List Char) :
    encode (c :: text) = String.utf8EncodeChar c ++ encode text := rfl

theorem encode_append (a b : List Char) : encode (a ++ b) = encode a ++ encode b :=
  List.flatMap_append

theorem encode_eq_utf8Encode (text : List Char) :
    text.utf8Encode = (encode text).toByteArray := rfl

/-- **A text is in front of another** exactly when its bytes are. -/
theorem encode_prefix_iff {a b : List Char} : encode a <+: encode b ↔ a <+: b := by
  constructor
  · rintro ⟨rest, hrest⟩
    have hbytes : a.utf8Encode ++ rest.toByteArray = b.utf8Encode := by
      rw [encode_eq_utf8Encode, encode_eq_utf8Encode, ← hrest, List.toByteArray_append]
    exact List.isPrefix_of_utf8Encode_append_eq_utf8Encode _ hbytes
  · rintro ⟨rest, rfl⟩
    exact ⟨encode rest, (encode_append a rest).symm⟩

/-- `str::from_utf8`. -/
def decode (bytes : List UInt8) : Option (List Char) :=
  bytes.toByteArray.utf8Decode?.map Array.toList

theorem decode_encode (text : List Char) : decode (encode text) = some text := by
  rw [decode, ← encode_eq_utf8Encode, List.utf8Decode?_utf8Encode]
  rfl

/-- The length of a text in bytes. -/
def size (text : List Char) : Nat := (encode text).length

@[simp] theorem size_nil : size [] = 0 := rfl

theorem size_cons (c : Char) (text : List Char) : size (c :: text) = c.utf8Size + size text := by
  rw [size, encode_cons, List.length_append, String.length_utf8EncodeChar, size]

theorem size_append (a b : List Char) : size (a ++ b) = size a + size b := by
  rw [size, encode_append, List.length_append, size, size]

theorem size_pos {text : List Char} (h : text ≠ []) : 0 < size text := by
  cases text with
  | nil => exact absurd rfl h
  | cons c rest =>
    rw [size_cons]
    have := Char.utf8Size_pos c
    omega

theorem size_eq_zero {text : List Char} : size text = 0 ↔ text = [] := by
  constructor
  · intro h
    by_contra hne
    have := size_pos hne
    omega
  · rintro rfl
    rfl

/-! ## Positions

Byte offsets are what the regular expressions report. An offset inside of a character is never the
start of a text.
-/

/-- The offset is between two characters of the text, or at one of its ends. -/
def Boundary (text : List Char) (offset : Nat) : Prop :=
  ∃ before after, text = before ++ after ∧ size before = offset

theorem boundary_size (text : List Char) : Boundary text (size text) :=
  ⟨text, [], (List.append_nil _).symm, rfl⟩

theorem drop_encode (before after : List Char) :
    (encode (before ++ after)).drop (size before) = encode after := by
  rw [encode_append, size, List.drop_left]

/-- **A text does not begin inside a character.** -/
theorem encode_inside {c : Char} {text token : List Char} {n : Nat} (hpos : 0 < n)
    (hn : n < c.utf8Size) (htoken : token ≠ []) :
    ¬ encode token <+: (encode (c :: text)).drop n := by
  intro h
  cases token with
  | nil => exact htoken rfl
  | cons d token =>
    have hlt : n < (String.utf8EncodeChar c).length := by rwa [String.length_utf8EncodeChar]
    have hd : 0 < (String.utf8EncodeChar d).length := by
      rw [String.length_utf8EncodeChar]
      exact Char.utf8Size_pos d
    have hfirst := h.getElem (i := 0) (by rw [encode_cons, List.length_append]; omega)
    rw [List.getElem_drop] at hfirst
    simp only [encode_cons, Nat.add_zero, List.getElem_append_left hlt,
      List.getElem_append_left hd] at hfirst
    -- the first byte of a character is not one of those that follow it
    have hstart : (String.utf8EncodeChar d)[0].IsUTF8FirstByte :=
      UInt8.isUTF8FirstByte_getElem_utf8EncodeChar.2 rfl
    rw [hfirst] at hstart
    have := UInt8.isUTF8FirstByte_getElem_utf8EncodeChar.1 hstart
    omega

end Utf8

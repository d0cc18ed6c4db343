import Mathlib

/-!
# Text helpers of the standard library

The string functions of Rust's standard library that the services use: `str::trim` with Unicode
white space, byte lengths, the ASCII character classes, and numbers in decimal.

* **`parseI64_toString`** — a number that is printed is read back.
-/

namespace ArcAdmin

/-- The Unicode property `White_Space`, which `str::trim` strips. -/
def isWhitespace (c : Char) : Bool :=
  let n := c.toNat
  (9 ≤ n && n ≤ 13) || n == 0x20 || n == 0x85 || n == 0xA0 || n == 0x1680 ||
    (0x2000 ≤ n && n ≤ 0x200A) || n == 0x2028 || n == 0x2029 || n == 0x202F || n == 0x205F ||
    n == 0x3000

/-- `str::trim`. -/
def trim (s : String) : String :=
  String.ofList ((s.toList.dropWhile isWhitespace).reverse.dropWhile isWhitespace).reverse

/-- `str::len`: the length in bytes. -/
def byteLen (s : String) : Nat := s.utf8ByteSize

/-- `str::is_empty`. -/
def isEmpty (s : String) : Bool := s == ""

def isAsciiLowercase (c : Char) : Bool := 'a' ≤ c && c ≤ 'z'

def isAsciiDigit (c : Char) : Bool := '0' ≤ c && c ≤ '9'

def isAsciiAlphanumeric (c : Char) : Bool :=
  isAsciiLowercase c || ('A' ≤ c && c ≤ 'Z') || isAsciiDigit c

/-- `str::to_ascii_lowercase`. -/
def toAsciiLowercase (s : String) : String := s.map Char.toLower

/-- `str::to_ascii_uppercase`. -/
def toAsciiUppercase (s : String) : String := s.map Char.toUpper

/-- The first `n` characters: `&s[..n]` of a hexadecimal text. -/
def takePrefix (s : String) (n : Nat) : String := String.ofList (s.toList.take n)

/-- `str::split_once`. -/
def splitOnce (c : Char) : List Char → Option (List Char × List Char)
  | [] => none
  | d :: ds => if d == c then some ([], ds) else (splitOnce c ds).map fun (as, bs) => (d :: as, bs)

/-- Splitting at the character that separates two texts. -/
theorem splitOnce_append {before after : List Char} {c : Char} (h : c ∉ before) :
    splitOnce c (before ++ c :: after) = some (before, after) := by
  induction before with
  | nil => simp [splitOnce]
  | cons d ds ih =>
    have hd : (d == c) = false := by
      rw [beq_eq_false_iff_ne]
      rintro rfl
      exact h (by simp)
    have hds : c ∉ ds := fun hin => h (by simp [hin])
    rw [List.cons_append, splitOnce, hd, ih hds]
    rfl

/-! ## Decimal numbers

`Display` and `FromStr` of the integer types, as far as cursors and audit details need them.
-/

/-- The value of ASCII digits, of which there is at least one. -/
def digitsValue (cs : List Char) : Option Nat :=
  if !cs.isEmpty && cs.all Char.isDigit then some (Nat.ofDigitChars 10 cs 0) else none

/-- `str::parse::<i64>`: an optional sign and digits, in the range of the type. -/
def parseI64 (cs : List Char) : Option Int :=
  let value : Option Int :=
    match cs with
    | '-' :: ds => (digitsValue ds).map fun n => -(n : Int)
    | '+' :: ds => (digitsValue ds).map fun n => (n : Int)
    | ds => (digitsValue ds).map fun n => (n : Int)
  value.filter fun n => -(2 ^ 63) ≤ n && n < 2 ^ 63

/-- `str::parse::<usize>` on a 64-bit target. -/
def parseUsize (cs : List Char) : Option Nat :=
  let value : Option Nat :=
    match cs with
    | '+' :: ds => digitsValue ds
    | ds => digitsValue ds
  value.filter fun n => n < 2 ^ 64

theorem digitsValue_toDigits (n : Nat) : digitsValue (Nat.toDigits 10 n) = some n := by
  have hne : (Nat.toDigits 10 n).isEmpty = false := by
    simp
  have hdigits : (Nat.toDigits 10 n).all Char.isDigit = true := by
    rw [List.all_eq_true]
    intro c hc
    exact Nat.isDigit_of_mem_toDigits (by decide) (by decide) hc
  rw [digitsValue, hne, hdigits]
  simp

/-- The first character of a number without a sign is a digit. -/
theorem toDigits_eq_cons (n : Nat) :
    ∃ c cs, Nat.toDigits 10 n = c :: cs ∧ c.isDigit = true := by
  cases h : Nat.toDigits 10 n with
  | nil => exact absurd h Nat.toDigits_ne_nil
  | cons c cs =>
    refine ⟨c, cs, rfl, ?_⟩
    exact Nat.isDigit_of_mem_toDigits (n := n) (b := 10) (by decide) (by decide) (by simp [h])

theorem toList_toString_nat (n : Nat) : (toString n).toList = Nat.toDigits 10 n := by
  rw [Nat.toString_eq_repr, Nat.toList_repr]

theorem toList_toString_negSucc (n : Nat) :
    (toString (Int.negSucc n)).toList = '-' :: Nat.toDigits 10 (n + 1) := by
  show ("-" ++ Nat.repr (n + 1)).toList = _
  rw [String.toList_append, Nat.toList_repr]
  rfl

/-- **A number that is printed is read back.** -/
theorem parseI64_toString {n : Int} (hlow : -(2 ^ 63) ≤ n) (hhigh : n < 2 ^ 63) :
    parseI64 (toString n).toList = some n := by
  have hrange : (decide (-(2 ^ 63) ≤ n) && decide (n < 2 ^ 63)) = true := by
    rw [decide_eq_true hlow, decide_eq_true hhigh]
    rfl
  cases n with
  | ofNat m =>
    have htext : (toString (Int.ofNat m)).toList = Nat.toDigits 10 m := toList_toString_nat m
    obtain ⟨c, cs, hcons, hdigit⟩ := toDigits_eq_cons m
    have hminus : c ≠ '-' := by
      rintro rfl
      exact absurd hdigit (by decide)
    have hplus : c ≠ '+' := by
      rintro rfl
      exact absurd hdigit (by decide)
    have hvalue : digitsValue (c :: cs) = some m := by rw [← hcons, digitsValue_toDigits]
    rw [htext, hcons]
    unfold parseI64
    split
    · next heq => exact absurd (List.cons.inj heq).1 hminus
    · next heq => exact absurd (List.cons.inj heq).1 hplus
    · rw [hvalue]
      exact Option.filter_some_pos hrange
  | negSucc m =>
    rw [toList_toString_negSucc]
    show ((digitsValue (Nat.toDigits 10 (m + 1))).map fun n => -(n : Int)).filter _ = _
    rw [digitsValue_toDigits]
    exact Option.filter_some_pos hrange

end ArcAdmin

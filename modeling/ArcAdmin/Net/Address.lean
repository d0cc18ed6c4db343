import Mathlib

/-!
# Network addresses and their text

The address types of Rust's standard library, the canonical text that `Display` writes, and the
parser behind `FromStr`. A reader takes a prefix of the text and returns the rest; where it fails,
the source goes back to where it started.

* **`readIpv4Addr_text`**, **`readIpv6Addr_text`** — what is written is read back;
* **`IpAddr.parse_text`**, **`IpAddr.text_injective`** — so an address is known by its text.
-/

namespace Net

structure Ipv4Addr where
  a : UInt8
  b : UInt8
  c : UInt8
  d : UInt8
deriving DecidableEq, Repr

/-- Eight segments of 16 bits. -/
structure Ipv6Addr where
  segments : List UInt16
  length_segments : segments.length = 8
deriving DecidableEq

inductive IpAddr where
  | v4 (ip : Ipv4Addr)
  | v6 (ip : Ipv6Addr)
deriving DecidableEq

/-- `u16::from_be_bytes`. -/
def fromBeBytes (hi lo : UInt8) : UInt16 := UInt16.ofNat (hi.toNat * 256 + lo.toNat)

/-- `u16::to_be_bytes`. -/
def toBeBytes (n : UInt16) : UInt8 × UInt8 := (UInt8.ofNat (n.toNat / 256), UInt8.ofNat (n.toNat % 256))

/-- `Ipv6Addr::to_ipv4_mapped`. -/
def Ipv6Addr.toIpv4Mapped (ip : Ipv6Addr) : Option Ipv4Addr :=
  match ip.segments with
  | [0, 0, 0, 0, 0, 0xffff, ab, cd] =>
    some ⟨(toBeBytes ab).1, (toBeBytes ab).2, (toBeBytes cd).1, (toBeBytes cd).2⟩
  | _ => none

/-! ## The canonical text

`Display` writes the longest run of zero segments as a double colon, the first one if there are
several, and a mapped IPv4 address in dots.
-/

def Ipv4Addr.chars (ip : Ipv4Addr) : List Char :=
  Nat.toDigits 10 ip.a.toNat ++ '.' :: (Nat.toDigits 10 ip.b.toNat ++ '.' ::
    (Nat.toDigits 10 ip.c.toNat ++ '.' :: Nat.toDigits 10 ip.d.toNat))

structure Span where
  start : Nat
  len : Nat
deriving DecidableEq, Repr

/-- The longest run of zero segments, the first of them where several are equally long. -/
def longestZeroes : Nat → Span → Span → List UInt16 → Span
  | _, _, longest, [] => longest
  | i, current, longest, segment :: rest =>
    if segment == 0 then
      let current := ⟨if current.len == 0 then i else current.start, current.len + 1⟩
      longestZeroes (i + 1) current (if longest.len < current.len then current else longest) rest
    else longestZeroes (i + 1) ⟨0, 0⟩ longest rest

/-- A segment in hexadecimal. -/
def hex (segment : UInt16) : List Char := Nat.toDigits 16 segment.toNat

/-- Further segments, each after a colon. -/
def fmtTail (tail : List UInt16) : List Char := tail.flatMap fun segment => ':' :: hex segment

/-- `fmt_subslice`. -/
def fmtSubslice : List UInt16 → List Char
  | [] => []
  | first :: tail => hex first ++ fmtTail tail

def Ipv6Addr.chars (ip : Ipv6Addr) : List Char :=
  match ip.toIpv4Mapped with
  | some ipv4 => "::ffff:".toList ++ ipv4.chars
  | none =>
    let zeroes := longestZeroes 0 ⟨0, 0⟩ ⟨0, 0⟩ ip.segments
    if 1 < zeroes.len then
      fmtSubslice (ip.segments.take zeroes.start) ++ ':' :: ':' ::
        fmtSubslice (ip.segments.drop (zeroes.start + zeroes.len))
    else fmtSubslice ip.segments

def IpAddr.chars : IpAddr → List Char
  | .v4 ip => ip.chars
  | .v6 ip => ip.chars

/-- `Display`. -/
def IpAddr.text (ip : IpAddr) : String := String.ofList ip.chars

/-! ## The parser

Each reader returns what it has read and the rest, or nothing. The source keeps a position in a
state and resets it on failure, which comes to the same.
-/

/-- `char::to_digit`. -/
def toDigit (radix : Nat) (c : Char) : Option Nat :=
  let value :=
    if '0' ≤ c ∧ c ≤ '9' then some (c.toNat - 48)
    else if 'a' ≤ c ∧ c ≤ 'z' then some (c.toNat - 87)
    else if 'A' ≤ c ∧ c ≤ 'Z' then some (c.toNat - 55)
    else none
  value.filter fun d => d < radix

/-- The digits at the front of the text. -/
def readDigits (radix : Nat) : List Char → List Nat × List Char
  | [] => ([], [])
  | c :: cs =>
    match toDigit radix c with
    | some d => (d :: (readDigits radix cs).1, (readDigits radix cs).2)
    | none => ([], c :: cs)

def digitsValue (radix : Nat) (digits : List Nat) : Nat :=
  digits.foldl (fun n d => n * radix + d) 0

/-- `read_number`: `bound` is the number of values of the type. -/
def readNumber (radix : Nat) (maxDigits : Option Nat) (allowZeroPrefix : Bool) (bound : Nat)
    (s : List Char) : Option (Nat × List Char) :=
  let digits := (readDigits radix s).1
  if digits.isEmpty || maxDigits.any (· < digits.length) then none
  else if !allowZeroPrefix && s.head? == some '0' && 1 < digits.length then none
  else if digitsValue radix digits < bound then
    some (digitsValue radix digits, (readDigits radix s).2)
  else none

/-- `read_given_char`. -/
def readGivenChar (target : Char) : List Char → Option (List Char)
  | [] => none
  | c :: cs => if c == target then some cs else none

/-- `read_separator`: there is none before the first element. -/
def readSeparator {α : Type} (sep : Char) (first : Bool) (inner : List Char → Option (α × List Char))
    (s : List Char) : Option (α × List Char) :=
  if first then inner s else (readGivenChar sep s).bind inner

def readOctet (s : List Char) : Option (UInt8 × List Char) :=
  (readNumber 10 (some 3) false 256 s).map fun (n, s) => (UInt8.ofNat n, s)

def readIpv4Addr (s : List Char) : Option (Ipv4Addr × List Char) := do
  let (a, s) ← readSeparator '.' true readOctet s
  let (b, s) ← readSeparator '.' false readOctet s
  let (c, s) ← readSeparator '.' false readOctet s
  let (d, s) ← readSeparator '.' false readOctet s
  return (⟨a, b, c, d⟩, s)

def readSegment (s : List Char) : Option (UInt16 × List Char) :=
  (readNumber 16 (some 4) true 65536 s).map fun (n, s) => (UInt16.ofNat n, s)

/-- `read_groups`, with `limit` groups left: the groups, whether the last two are an embedded IPv4
address, and the rest. -/
def readGroups : (limit : Nat) → (first : Bool) → List Char → List UInt16 × Bool × List Char
  | 0, _, s => ([], false, s)
  | limit + 1, first, s =>
    let ipv4 := if 0 < limit then readSeparator ':' first readIpv4Addr s else none
    match ipv4 with
    | some (ip, s) => ([fromBeBytes ip.a ip.b, fromBeBytes ip.c ip.d], true, s)
    | none =>
      match readSeparator ':' first readSegment s with
      | some (group, s) =>
        let (groups, ipv4, s) := readGroups limit false s
        (group :: groups, ipv4, s)
      | none => ([], false, s)

/-- Eight segments, where there are eight. -/
def Ipv6Addr.ofSegments (segments : List UInt16) : Option Ipv6Addr :=
  if h : segments.length = 8 then some ⟨segments, h⟩ else none

def readIpv6Addr (s : List Char) : Option (Ipv6Addr × List Char) := do
  let (head, headIpv4, s) := readGroups 8 true s
  if head.length == 8 then
    let ip ← Ipv6Addr.ofSegments head
    return (ip, s)
  else if headIpv4 then none
  else
    let s ← readGivenChar ':' s
    let s ← readGivenChar ':' s
    let (tail, _, s) := readGroups (8 - (head.length + 1)) true s
    let zeroes := List.replicate (8 - head.length - tail.length) 0
    let ip ← Ipv6Addr.ofSegments (head ++ zeroes ++ tail)
    return (ip, s)

def readIpAddr (s : List Char) : Option (IpAddr × List Char) :=
  ((readIpv4Addr s).map fun (ip, s) => (.v4 ip, s)).or
    ((readIpv6Addr s).map fun (ip, s) => (.v6 ip, s))

def readPort (s : List Char) : Option (Nat × List Char) :=
  (readGivenChar ':' s).bind (readNumber 10 none true 65536)

def readScopeId (s : List Char) : Option (Nat × List Char) :=
  (readGivenChar '%' s).bind (readNumber 10 none true (2 ^ 32))

def readSocketAddrV4 (s : List Char) : Option (Ipv4Addr × List Char) := do
  let (ip, s) ← readIpv4Addr s
  let (_, s) ← readPort s
  return (ip, s)

def readSocketAddrV6 (s : List Char) : Option (Ipv6Addr × List Char) := do
  let s ← readGivenChar '[' s
  let (ip, s) ← readIpv6Addr s
  let s := ((readScopeId s).map Prod.snd).getD s
  let s ← readGivenChar ']' s
  let (_, s) ← readPort s
  return (ip, s)

/-- The address of a socket address. -/
def readSocketAddr (s : List Char) : Option (IpAddr × List Char) :=
  ((readSocketAddrV4 s).map fun (ip, s) => (.v4 ip, s)).or
    ((readSocketAddrV6 s).map fun (ip, s) => (.v6 ip, s))

/-- `parse_with`: the whole text is read. -/
def parseWith {α : Type} (inner : List Char → Option (α × List Char)) (s : List Char) : Option α :=
  (inner s).bind fun (a, rest) => if rest.isEmpty then some a else none

/-- `str::parse::<IpAddr>`. -/
def IpAddr.parse (s : List Char) : Option IpAddr := parseWith readIpAddr s

/-- `str::parse::<SocketAddr>`, and the address of it. -/
def parseSocketIp (s : List Char) : Option IpAddr := parseWith readSocketAddr s

/-! ## Numbers

Digits that are written are read back if what follows is no digit.
-/

theorem toDigit_digitChar {radix d : Nat} (hradix : radix ≤ 16) (hd : d < radix) :
    toDigit radix (Nat.digitChar d) = some d := by
  have hall : ∀ k : Fin 16, toDigit 16 (Nat.digitChar k) = some k.val := by decide
  have h16 := hall ⟨d, by omega⟩
  unfold toDigit at h16 ⊢
  obtain ⟨hvalue, -⟩ := Option.filter_eq_some_iff.1 h16
  exact Option.filter_eq_some_iff.2 ⟨hvalue, by simpa using hd⟩

/-- The digits that are written have the value of the number. -/
theorem toDigits_digits {radix : Nat} (hone : 1 < radix) (hradix : radix ≤ 16) (n : Nat) :
    ∃ digits : List Nat, (Nat.toDigits radix n).map (toDigit radix) = digits.map some ∧
      digitsValue radix digits = n := by
  induction n using Nat.strongRecOn with
  | _ n ih =>
    by_cases hlt : n < radix
    · refine ⟨[n], ?_, ?_⟩
      · rw [Nat.toDigits_of_lt_base hlt]
        simp [toDigit_digitChar hradix hlt]
      · simp [digitsValue]
    · have hle : radix ≤ n := by omega
      have hdiv : n / radix < n := Nat.div_lt_self (by omega) hone
      have hmod : n % radix < radix := Nat.mod_lt _ (by omega)
      obtain ⟨digits, hmap, hvalue⟩ := ih (n / radix) hdiv
      refine ⟨digits ++ [n % radix], ?_, ?_⟩
      · rw [Nat.toDigits_of_base_le hone hle]
        simp [hmap, toDigit_digitChar hradix hmod]
      · unfold digitsValue at hvalue ⊢
        rw [List.foldl_append, hvalue]
        show n / radix * radix + n % radix = n
        rw [Nat.mul_comm]
        exact Nat.div_add_mod n radix

/-- The text goes on with something that is no digit. -/
def Stops (radix : Nat) (rest : List Char) : Prop := ∀ c ∈ rest.head?, toDigit radix c = none

theorem readDigits_append {radix : Nat} {cs rest : List Char} {digits : List Nat}
    (hmap : cs.map (toDigit radix) = digits.map some) (hstop : Stops radix rest) :
    readDigits radix (cs ++ rest) = (digits, rest) := by
  induction cs generalizing digits with
  | nil =>
    have hnil : digits = [] := by simpa using hmap.symm
    subst hnil
    cases rest with
    | nil => rfl
    | cons c cs =>
      have hc := hstop c rfl
      simp [readDigits, hc]
  | cons c cs ih =>
    cases digits with
    | nil => cases hmap
    | cons d digits =>
      obtain ⟨hc, hcs⟩ := List.cons.inj hmap
      simp [readDigits, hc, ih hcs]

/-- **A number that is written is read back**, if it is short enough and not written with a zero in
front. -/
theorem readNumber_toDigits {radix n bound : Nat} {maxDigits : Nat} {allowZeroPrefix : Bool}
    {rest : List Char} (hone : 1 < radix) (hradix : radix ≤ 16) (hbound : n < bound)
    (hlen : (Nat.toDigits radix n).length ≤ maxDigits)
    (hzero : allowZeroPrefix = true ∨ ((Nat.toDigits radix n).head? = some '0' →
      (Nat.toDigits radix n).length ≤ 1))
    (hstop : Stops radix rest) :
    readNumber radix (some maxDigits) allowZeroPrefix bound (Nat.toDigits radix n ++ rest) =
      some (n, rest) := by
  obtain ⟨digits, hmap, hvalue⟩ := toDigits_digits hone hradix n
  have hdigits : digits.length = (Nat.toDigits radix n).length := by
    simpa using congrArg List.length hmap.symm
  have hpos : 0 < (Nat.toDigits radix n).length := Nat.length_toDigits_pos
  have hread := readDigits_append hmap hstop
  have hne : digits.isEmpty = false := by
    rw [List.isEmpty_eq_false_iff]
    exact List.ne_nil_of_length_pos (by omega)
  have hhead : (Nat.toDigits radix n ++ rest).head? = (Nat.toDigits radix n).head? := by
    cases h : Nat.toDigits radix n with
    | nil => rw [h] at hpos; cases hpos
    | cons c cs => rfl
  have hprefix : (!allowZeroPrefix && (Nat.toDigits radix n).head? == some '0' &&
      decide (1 < digits.length)) = false := by
    rcases hzero with hzero | hzero
    · rw [hzero]
      rfl
    · by_cases hfirst : (Nat.toDigits radix n).head? = some '0'
      · have hshort := hzero hfirst
        have hnot : ¬1 < digits.length := by omega
        simp [hnot]
      · simp [hfirst]
  have hmax : ¬maxDigits < digits.length := by omega
  unfold readNumber
  simp only [hread, hne, hhead, hprefix, hvalue, hbound, Option.any_some, Bool.false_or, hmax,
    decide_false, Bool.false_eq_true, if_false, if_true]

theorem readOctet_text {n : UInt8} {rest : List Char} (hstop : Stops 10 rest) :
    readOctet (Nat.toDigits 10 n.toNat ++ rest) = some (n, rest) := by
  have hsmall : ∀ k : Fin 256, (Nat.toDigits 10 k).length ≤ 3 ∧
      ((Nat.toDigits 10 k).head? = some '0' → (Nat.toDigits 10 k).length ≤ 1) := by
    decide +kernel
  obtain ⟨hlen, hzero⟩ := hsmall ⟨n.toNat, n.toNat_lt⟩
  unfold readOctet
  rw [readNumber_toDigits (by decide) (by decide) n.toNat_lt hlen (.inr hzero) hstop]
  simp

theorem readSegment_hex {g : UInt16} {rest : List Char} (hstop : Stops 16 rest) :
    readSegment (hex g ++ rest) = some (g, rest) := by
  have hlt : g.toNat < 65536 := g.toNat_lt
  have hlen : (Nat.toDigits 16 g.toNat).length ≤ 4 :=
    (Nat.length_toDigits_le_iff (by decide) (by decide)).2 hlt
  unfold readSegment hex
  rw [readNumber_toDigits (by decide) (by decide) hlt hlen (.inl rfl) hstop]
  simp

/-! ## IPv4

Four numbers with dots between them.
-/

theorem stops_cons {radix : Nat} {c : Char} {rest : List Char} (hc : toDigit radix c = none) :
    Stops radix (c :: rest) := by
  intro c' hc'
  cases hc'
  exact hc

theorem stops_nil (radix : Nat) : Stops radix [] := by
  intro c hc
  cases hc

/-- **An IPv4 address that is written is read back.** -/
theorem readIpv4Addr_text {ip : Ipv4Addr} {rest : List Char} (hstop : Stops 10 rest) :
    readIpv4Addr (ip.chars ++ rest) = some (ip, rest) := by
  have hdot : ∀ s : List Char, Stops 10 ('.' :: s) := fun s => stops_cons (by decide)
  unfold readIpv4Addr Ipv4Addr.chars
  simp only [List.append_assoc, List.cons_append, readSeparator, if_true, Bool.false_eq_true,
    if_false]
  rw [readOctet_text (hdot _)]
  simp only [Option.bind_eq_bind, Option.bind_some, readGivenChar, beq_self_eq_true, if_true]
  rw [readOctet_text (hdot _)]
  simp only [Option.bind_some, beq_self_eq_true, if_true]
  rw [readOctet_text (hdot _)]
  simp only [Option.bind_some, beq_self_eq_true, if_true]
  rw [readOctet_text hstop]
  rfl

theorem readDigits_rest (radix : Nat) (s : List Char) :
    (readDigits radix s).2 = s.dropWhile fun c => (toDigit radix c).isSome := by
  induction s with
  | nil => rfl
  | cons c cs ih =>
    cases hc : toDigit radix c with
    | none => simp [readDigits, hc]
    | some d => simp [readDigits, hc, ih]

/-- There is no IPv4 address where the first digits are not followed by a dot. -/
theorem readIpv4Addr_eq_none {s : List Char}
    (hdot : (s.dropWhile fun c => (toDigit 10 c).isSome).head? ≠ some '.') :
    readIpv4Addr s = none := by
  unfold readIpv4Addr
  simp only [readSeparator, if_true, Bool.false_eq_true, if_false]
  cases hread : readOctet s with
  | none => rfl
  | some e =>
    obtain ⟨a, rest⟩ := e
    have hrest : rest = s.dropWhile fun c => (toDigit 10 c).isSome := by
      unfold readOctet readNumber at hread
      rw [← readDigits_rest]
      grind
    have hnone : readGivenChar '.' rest = none := by
      rw [hrest]
      cases hs : s.dropWhile fun c => (toDigit 10 c).isSome with
      | nil => rfl
      | cons c cs =>
        rw [hs] at hdot
        have hc : c ≠ '.' := fun h => hdot (by rw [h]; rfl)
        simp [readGivenChar, hc]
    simp [hnone]

/-! ## IPv6

The groups in front of the double colon and those behind it are read by the same loop, which has
to stop at the right place: before the double colon, and before the end of the text.
-/

theorem hex_digit {g : UInt16} {c : Char} (hc : c ∈ hex g) : (toDigit 16 c).isSome = true := by
  obtain ⟨digits, hmap, -⟩ := toDigits_digits (by decide : 1 < 16) (by decide) g.toNat
  have hin : toDigit 16 c ∈ (Nat.toDigits 16 g.toNat).map (toDigit 16) := List.mem_map_of_mem hc
  rw [hmap] at hin
  obtain ⟨d, -, hd⟩ := List.mem_map.1 hin
  rw [← hd]
  rfl

/-- What may follow a group: nothing, or a colon. -/
def Colon (rest : List Char) : Prop := ∀ c ∈ rest.head?, c = ':'

theorem Colon.stops {radix : Nat} {rest : List Char} (h : Colon rest) : Stops radix rest := by
  intro c hc
  have hcolon := h c hc
  subst hcolon
  have hraw : ∀ d : Nat, toDigit d ':' = none := fun d => rfl
  exact hraw radix

theorem head?_hexDigits {cs rest : List Char} (hhex : ∀ c ∈ cs, (toDigit 16 c).isSome = true)
    (hrest : Colon rest) :
    ((cs ++ rest).dropWhile fun c => (toDigit 10 c).isSome).head? ≠ some '.' := by
  induction cs with
  | nil =>
    cases rest with
    | nil => simp
    | cons c cs =>
      have hc : c = ':' := hrest c rfl
      subst hc
      rw [List.nil_append, List.dropWhile_cons_of_neg (by decide)]
      simp
  | cons c cs ih =>
    cases hc : toDigit 10 c with
    | some d =>
      rw [List.cons_append, List.dropWhile_cons_of_pos (by rw [hc]; rfl)]
      exact ih fun c' hc' => hhex c' (List.mem_cons_of_mem _ hc')
    | none =>
      rw [List.cons_append, List.dropWhile_cons_of_neg (by rw [hc]; decide)]
      intro hdot
      have hc' : c = '.' := by simpa using hdot
      have h16 := hhex c List.mem_cons_self
      rw [hc'] at h16
      exact absurd h16 (by decide)

theorem readIpv4Addr_hex {g : UInt16} {rest : List Char} (hrest : Colon rest) :
    readIpv4Addr (hex g ++ rest) = none :=
  readIpv4Addr_eq_none (head?_hexDigits (fun _ => hex_digit) hrest)

theorem colon_fmtTail {gs : List UInt16} {rest : List Char} (hrest : Colon rest) :
    Colon (fmtTail gs ++ rest) := by
  cases gs with
  | nil => exact hrest
  | cons g gs =>
    intro c hc
    exact (Option.some.inj hc).symm

/-- What ends a list of groups: nothing, or a double colon. -/
def Closed (rest : List Char) : Prop := rest = [] ∨ ∃ s, rest = ':' :: ':' :: s

theorem Closed.colon {rest : List Char} (h : Closed rest) : Colon rest := by
  obtain rfl | ⟨s, rfl⟩ := h
  · intro c hc
    cases hc
  · intro c hc
    exact (Option.some.inj hc).symm

/-- No group follows. -/
theorem readGroups_closed {limit : Nat} {first : Bool} {rest : List Char} (h : Closed rest) :
    readGroups limit first rest = ([], false, rest) := by
  cases limit with
  | zero => rfl
  | succ limit =>
    have hsep : ∀ {α : Type} (inner : List Char → Option (α × List Char)), inner [] = none →
        (∀ s, inner (':' :: s) = none) → readSeparator ':' first inner rest = none := by
      intro α inner hnil hcolon
      obtain rfl | ⟨s, rfl⟩ := h
      · cases first <;> simp [readSeparator, readGivenChar, hnil]
      · cases first <;> simp [readSeparator, readGivenChar, hcolon]
    have hipv4 : readSeparator ':' first readIpv4Addr rest = none :=
      hsep _ rfl fun s => readIpv4Addr_eq_none (by
        rw [List.dropWhile_cons_of_neg (by decide)]
        simp)
    have hsegment : readSeparator ':' first readSegment rest = none := by
      refine hsep _ rfl fun s => ?_
      have hdigits : readDigits 16 (':' :: s) = ([], ':' :: s) := rfl
      simp [readSegment, readNumber, hdigits]
    unfold readGroups
    simp [hipv4, hsegment]

/-- **Groups that are written are read back**, each after a colon. -/
theorem readGroups_fmtTail {gs : List UInt16} {limit : Nat} {rest : List Char}
    (hlimit : gs.length ≤ limit) (hrest : Closed rest) :
    readGroups limit false (fmtTail gs ++ rest) = (gs, false, rest) := by
  induction gs generalizing limit with
  | nil => exact readGroups_closed hrest
  | cons g gs ih =>
    cases limit with
    | zero => cases hlimit
    | succ limit =>
      have hcolon : Colon (fmtTail gs ++ rest) := colon_fmtTail hrest.colon
      have htail : readGroups limit false (fmtTail gs ++ rest) = (gs, false, rest) :=
        ih (by simpa using hlimit)
      have htext : fmtTail (g :: gs) ++ rest = ':' :: (hex g ++ (fmtTail gs ++ rest)) := by
        simp [fmtTail]
      have hsep : ∀ {α : Type} (inner : List Char → Option (α × List Char)),
          readSeparator ':' false inner (':' :: (hex g ++ (fmtTail gs ++ rest))) =
            inner (hex g ++ (fmtTail gs ++ rest)) := fun _ => rfl
      rw [htext]
      unfold readGroups
      simp only [hsep, readIpv4Addr_hex hcolon, readSegment_hex hcolon.stops, htail, ite_self]

theorem readGroups_fmtSubslice {gs : List UInt16} {limit : Nat} {rest : List Char}
    (hlimit : gs.length ≤ limit) (hrest : Closed rest) :
    readGroups limit true (fmtSubslice gs ++ rest) = (gs, false, rest) := by
  cases gs with
  | nil => exact readGroups_closed hrest
  | cons g gs =>
    cases limit with
    | zero => cases hlimit
    | succ limit =>
      have hcolon : Colon (fmtTail gs ++ rest) := colon_fmtTail hrest.colon
      have htail : readGroups limit false (fmtTail gs ++ rest) = (gs, false, rest) :=
        readGroups_fmtTail (by simpa using hlimit) hrest
      have htext : fmtSubslice (g :: gs) ++ rest = hex g ++ (fmtTail gs ++ rest) := by
        simp [fmtSubslice]
      have hsep : ∀ {α : Type} (inner : List Char → Option (α × List Char)) s,
          readSeparator ':' true inner s = inner s := fun _ _ => rfl
      rw [htext]
      unfold readGroups
      simp only [hsep, readIpv4Addr_hex hcolon, readSegment_hex hcolon.stops, htail, ite_self]

/-- The segments of the span are zero. -/
def Span.Zeroes (all : List UInt16) (z : Span) : Prop :=
  z.start + z.len ≤ all.length ∧ ∀ k, z.start ≤ k → k < z.start + z.len → all[k]? = some 0

theorem Span.zeroes_empty (all : List UInt16) : Span.Zeroes all ⟨0, 0⟩ :=
  ⟨Nat.zero_le _, fun k _ hk => absurd hk (by simp)⟩

/-- The run of zeroes that ends before `i` grows with the next one. -/
theorem Span.Zeroes.grow {all : List UInt16} {current : Span} {i : Nat}
    (h : current.Zeroes all) (hend : current.len = 0 ∨ current.start + current.len = i)
    (hzero : all[i]? = some 0) :
    Span.Zeroes all ⟨if current.len == 0 then i else current.start, current.len + 1⟩ ∧
      (if current.len == 0 then i else current.start) + (current.len + 1) = i + 1 := by
  obtain ⟨hi, -⟩ := List.getElem?_eq_some_iff.1 hzero
  by_cases hlen : current.len = 0
  · simp only [hlen, beq_self_eq_true, if_true]
    refine ⟨⟨?_, fun k hk hk' => ?_⟩, trivial⟩
    · show i + (0 + 1) ≤ all.length
      omega
    have hki : k = i := by
      have hk₁ : i ≤ k := hk
      have hk₂ : k < i + (0 + 1) := hk'
      omega
    rw [hki]
    exact hzero
  · have hend' : current.start + current.len = i := by omega
    have hbeq : (current.len == 0) = false := by simpa using hlen
    simp only [hbeq, Bool.false_eq_true, if_false]
    refine ⟨⟨?_, fun k hk hk' => ?_⟩, by omega⟩
    · show current.start + (current.len + 1) ≤ all.length
      omega
    have hk₂ : k < current.start + (current.len + 1) := hk'
    by_cases hki : k = i
    · rw [hki]
      exact hzero
    · exact h.2 k hk (by omega)

theorem longestZeroes_zeroes {all rest : List UInt16} {i : Nat} {current longest : Span}
    (hrest : all.drop i = rest) (hcurrent : current.Zeroes all)
    (hend : current.len = 0 ∨ current.start + current.len = i) (hlongest : longest.Zeroes all) :
    (longestZeroes i current longest rest).Zeroes all := by
  induction rest generalizing i current longest with
  | nil => exact hlongest
  | cons segment rest ih =>
    have hnext : all.drop (i + 1) = rest := by
      rw [← List.tail_drop, hrest]
      rfl
    have hget : all[i]? = some segment := by
      rw [← List.head?_drop, hrest]
      rfl
    unfold longestZeroes
    by_cases hzero : segment = 0
    · subst hzero
      obtain ⟨hgrown, hgrownEnd⟩ := hcurrent.grow hend hget
      simp only [beq_self_eq_true, if_true]
      refine ih hnext hgrown (.inr hgrownEnd) ?_
      split
      · exact hgrown
      · exact hlongest
    · have hbeq : (segment == 0) = false := by simpa using hzero
      simp only [hbeq, Bool.false_eq_true, if_false]
      exact ih hnext (Span.zeroes_empty all) (.inl rfl) hlongest

/-- The segments around a span of zeroes, and the zeroes. -/
theorem Span.Zeroes.split {all : List UInt16} {z : Span} (h : z.Zeroes all) :
    all.take z.start ++ List.replicate z.len 0 ++ all.drop (z.start + z.len) = all := by
  have hmiddle : (all.drop z.start).take z.len = List.replicate z.len 0 := by
    refine List.ext_getElem? fun k => ?_
    by_cases hk : k < z.len
    · rw [List.getElem?_take_of_lt hk, List.getElem?_drop, h.2 _ (by omega) (by omega),
        List.getElem?_replicate_of_lt hk]
    · have hlen : ((all.drop z.start).take z.len).length ≤ k := by
        rw [List.length_take]
        omega
      rw [List.getElem?_eq_none hlen, List.getElem?_eq_none (by simpa using hk)]
  rw [← hmiddle, List.append_assoc, ← List.drop_drop, List.take_append_drop,
    List.take_append_drop]

theorem Ipv6Addr.ofSegments_segments (ip : Ipv6Addr) : Ipv6Addr.ofSegments ip.segments = some ip := by
  unfold Ipv6Addr.ofSegments
  rw [dif_pos ip.length_segments]

theorem fromBeBytes_toBeBytes (n : UInt16) : fromBeBytes (toBeBytes n).1 (toBeBytes n).2 = n := by
  have hlt : n.toNat < 65536 := n.toNat_lt
  refine UInt16.toNat_inj.1 ?_
  simp only [fromBeBytes, toBeBytes, UInt16.toNat_ofNat', UInt8.toNat_ofNat']
  omega

theorem Ipv6Addr.segments_of_mapped {ip : Ipv6Addr} {ipv4 : Ipv4Addr}
    (h : ip.toIpv4Mapped = some ipv4) :
    ip.segments =
      [0, 0, 0, 0, 0, 0xffff, fromBeBytes ipv4.a ipv4.b, fromBeBytes ipv4.c ipv4.d] := by
  unfold Ipv6Addr.toIpv4Mapped at h
  split at h
  · next ab cd hsegments =>
    cases h
    rw [hsegments, fromBeBytes_toBeBytes, fromBeBytes_toBeBytes]
  · cases h

/-- The text of a mapped address, after the double colon. -/
theorem readGroups_mapped (ipv4 : Ipv4Addr) :
    readGroups 7 true (hex 0xffff ++ ':' :: ipv4.chars) =
      ([0xffff, fromBeBytes ipv4.a ipv4.b, fromBeBytes ipv4.c ipv4.d], true, []) := by
  have hcolon : Colon (':' :: ipv4.chars) := fun c hc => (Option.some.inj hc).symm
  have hread : readIpv4Addr ipv4.chars = some (ipv4, []) := by
    rw [← List.append_nil ipv4.chars]
    exact readIpv4Addr_text (stops_nil 10)
  have hembedded : readGroups 6 false (':' :: ipv4.chars) =
      ([fromBeBytes ipv4.a ipv4.b, fromBeBytes ipv4.c ipv4.d], true, []) := by
    have hsep : readSeparator ':' false readIpv4Addr (':' :: ipv4.chars) =
        readIpv4Addr ipv4.chars := rfl
    unfold readGroups
    simp only [hsep, hread, Nat.zero_lt_succ, if_true]
  have hsep : ∀ {α : Type} (inner : List Char → Option (α × List Char)) s,
      readSeparator ':' true inner s = inner s := fun _ _ => rfl
  unfold readGroups
  simp only [hsep, readIpv4Addr_hex hcolon, readSegment_hex hcolon.stops, hembedded, ite_self]

/-- **An IPv6 address that is written is read back.** -/
theorem readIpv6Addr_text (ip : Ipv6Addr) : readIpv6Addr ip.chars = some (ip, []) := by
  have hlength := ip.length_segments
  unfold Ipv6Addr.chars
  split
  · next ipv4 hmapped =>
    -- an IPv4-mapped address is written with its last two groups in decimal
    have htext : "::ffff:".toList ++ ipv4.chars = ':' :: ':' :: (hex 0xffff ++ ':' :: ipv4.chars) :=
      rfl
    have hfront : readGroups 8 true (':' :: ':' :: (hex 0xffff ++ ':' :: ipv4.chars)) =
        ([], false, ':' :: ':' :: (hex 0xffff ++ ':' :: ipv4.chars)) :=
      readGroups_closed (.inr ⟨_, rfl⟩)
    have hback : readGroups (8 - (0 + 1)) true (hex 0xffff ++ ':' :: ipv4.chars) =
        ([0xffff, fromBeBytes ipv4.a ipv4.b, fromBeBytes ipv4.c ipv4.d], true, []) :=
      readGroups_mapped ipv4
    have hall : [] ++ List.replicate (8 - 0 - 3) 0 ++
        [0xffff, fromBeBytes ipv4.a ipv4.b, fromBeBytes ipv4.c ipv4.d] = ip.segments :=
      (Ipv6Addr.segments_of_mapped hmapped).symm
    have hip := Ipv6Addr.ofSegments_segments ip
    rw [← hall] at hip
    have hnot : ((0 : Nat) == 8) = false := rfl
    rw [htext]
    unfold readIpv6Addr
    simp only [hfront, List.length_nil, hnot, readGivenChar, beq_self_eq_true, if_true,
      Bool.false_eq_true, if_false, Option.bind_eq_bind, Option.bind_some, hback]
    exact congrArg (fun o : Option Ipv6Addr => o.bind fun ip => some (ip, ([] : List Char))) hip
  · dsimp only
    split
    · next hlen =>
      -- a run of zero groups is left out between two colons
      set zeroes := longestZeroes 0 ⟨0, 0⟩ ⟨0, 0⟩ ip.segments with hzeroes
      have hspan : zeroes.Zeroes ip.segments := longestZeroes_zeroes rfl
        (Span.zeroes_empty _) (.inl rfl) (Span.zeroes_empty _)
      have hbound := hspan.1
      set head := ip.segments.take zeroes.start with hhead
      set tail := ip.segments.drop (zeroes.start + zeroes.len) with htail
      have hheadLen : head.length = zeroes.start := by
        rw [hhead, List.length_take]
        omega
      have htailLen : tail.length = 8 - zeroes.start - zeroes.len := by
        rw [htail, List.length_drop]
        omega
      have hfront : readGroups 8 true (fmtSubslice head ++ ':' :: ':' :: fmtSubslice tail) =
          (head, false, ':' :: ':' :: fmtSubslice tail) :=
        readGroups_fmtSubslice (by omega) (.inr ⟨_, rfl⟩)
      have hback : readGroups (8 - (head.length + 1)) true (fmtSubslice tail) =
          (tail, false, []) := by
        rw [← List.append_nil (fmtSubslice tail)]
        exact readGroups_fmtSubslice (by omega) (.inl rfl)
      have hall : head ++ List.replicate (8 - head.length - tail.length) 0 ++ tail =
          ip.segments := by
        have hnum : 8 - head.length - tail.length = zeroes.len := by omega
        rw [hnum]
        exact hspan.split
      have hnot : (head.length == 8) = false := by
        rw [beq_eq_false_iff_ne]
        omega
      unfold readIpv6Addr
      simp only [hfront, hnot, readGivenChar, beq_self_eq_true, if_true, Bool.false_eq_true,
        if_false, Option.bind_eq_bind, Option.bind_some, hback, hall,
        Ipv6Addr.ofSegments_segments]
      rfl
    · -- all eight groups are written
      have hread : readGroups 8 true (fmtSubslice ip.segments) = (ip.segments, false, []) := by
        rw [← List.append_nil (fmtSubslice ip.segments)]
        exact readGroups_fmtSubslice (by omega) (.inl rfl)
      have hyes : (ip.segments.length == 8) = true := by
        rw [hlength]
        rfl
      unfold readIpv6Addr
      simp only [hread, hyes, if_true, Ipv6Addr.ofSegments_segments, Option.bind_eq_bind,
        Option.bind_some]
      rfl

/-- The text of an IPv6 address is no IPv4 address. -/
theorem readIpv4Addr_ipv6 (ip : Ipv6Addr) : readIpv4Addr ip.chars = none := by
  have hcolon : ∀ s, readIpv4Addr (':' :: s) = none := by
    intro s
    refine readIpv4Addr_eq_none ?_
    rw [List.dropWhile_cons_of_neg (by decide)]
    simp
  have hgroups : ∀ gs rest, Colon rest → rest ≠ [] ∨ gs ≠ [] →
      readIpv4Addr (fmtSubslice gs ++ rest) = none := by
    intro gs rest hrest hne
    cases gs with
    | nil =>
      cases rest with
      | nil => simp at hne
      | cons c cs =>
        have hc : c = ':' := hrest c rfl
        subst hc
        exact hcolon cs
    | cons g gs =>
      have htext : fmtSubslice (g :: gs) ++ rest = hex g ++ (fmtTail gs ++ rest) := by
        simp [fmtSubslice]
      rw [htext]
      exact readIpv4Addr_hex (colon_fmtTail hrest)
  unfold Ipv6Addr.chars
  split
  · exact hcolon _
  · dsimp only
    split
    · exact hgroups _ _ (fun c hc => (Option.some.inj hc).symm) (.inl (by simp))
    · have h := hgroups ip.segments [] (fun c hc => by cases hc) (.inr ?_)
      · rwa [List.append_nil] at h
      · intro hnil
        have hlength := ip.length_segments
        rw [hnil] at hlength
        cases hlength

/-- **An address that is written is read back.** -/
theorem IpAddr.parse_text (ip : IpAddr) : IpAddr.parse ip.chars = some ip := by
  unfold IpAddr.parse parseWith readIpAddr
  cases ip with
  | v4 ip =>
    have h : readIpv4Addr (ip.chars ++ []) = some (ip, []) := readIpv4Addr_text (stops_nil 10)
    rw [List.append_nil] at h
    show ((((readIpv4Addr ip.chars).map _).or _).bind _) = _
    rw [h]
    rfl
  | v6 ip =>
    show ((((readIpv4Addr ip.chars).map _).or ((readIpv6Addr ip.chars).map _)).bind _) = _
    rw [readIpv4Addr_ipv6, readIpv6Addr_text]
    rfl

/-- **An address is known by its text.** -/
theorem IpAddr.text_injective : Function.Injective IpAddr.text := by
  intro a b h
  have hchars : a.chars = b.chars := String.ofList_injective h
  have hparse := congrArg IpAddr.parse hchars
  rw [parse_text, parse_text] at hparse
  exact Option.some.inj hparse

example : (IpAddr.parse "2001:db8::1".toList).map IpAddr.text = some "2001:db8::1" := by decide

example : (parseSocketIp "[::ffff:10.0.0.1%2]:80".toList).map IpAddr.text =
    some "::ffff:10.0.0.1" := by decide

end Net

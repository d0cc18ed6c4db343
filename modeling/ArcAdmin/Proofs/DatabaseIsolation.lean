import Mathlib.Data.String.Basic
import ArcAdmin.Flow.PostgresUrl
import ArcAdmin.Lines

/-!
# The isolation of the test database

The validator and the client read the same URL in two ways. The validator takes the host and the first
segment of the path as they are written, in lower case, and looks at no parameter. The client decodes
the host and the whole path, and the parameters `host`, `port` and `dbname` come in the place of the
parts.

Two URLs that are written plainly are read alike, so that what the validator tells apart is apart for
the client as well. This is what the validator is good for; where one of the two URLs is not plain, its
comparison says nothing, and whether the URLs lead to one database depends on the parameters and the
decoded parts alone. For the suffix and the loopback host the same is said of the part that decides: a
parameter where there is one, else the part of the URL.

* **`isTestName_decoded`** — a name that the path ends with is the name that the client decodes;
* **`plain_of_loopback`** — a loopback host is decoded to itself;
* **`Url.Plain`**, **`Url.Plain.same`** — plain URLs that the client takes for one database, the
  validator takes for one as well;
* **`isolated_iff`** — when a test URL that is accepted is an isolated one.
-/

namespace ArcAdmin

namespace Flow

open Net Utf8

/-! ## Percent-encoding

Decoding goes on byte by byte. A text without `%` is decoded to itself, and no escape reaches
beyond a character that is no digit.
-/

section Percent

variable {c : Char} {x y text decoded : List Char}

theorem percentBytes_cons (hc : c ≠ '%') :
    percentBytes (c :: y) = String.utf8EncodeChar c ++ percentBytes y := by
  rw [percentBytes.eq_def]
  split
  · next heq => exact absurd (List.cons.inj heq).1 hc
  · next heq => rw [(List.cons.inj heq).1, (List.cons.inj heq).2]
  · next heq => cases heq

theorem percentBytes_plain (h : '%' ∉ text) : percentBytes text = encode text := by
  induction text with
  | nil => rfl
  | cons c rest ih =>
    rw [List.mem_cons, not_or] at h
    rw [percentBytes_cons (Ne.symm h.1), ih h.2, encode_cons]

theorem percentDecode_plain (h : '%' ∉ text) : percentDecode text = some text := by
  rw [percentDecode, percentBytes_plain h, decode_encode]

end Percent

/-! ## Names of test databases

The suffix of a test database is compared as it is written. What ends with it ends with it for the
client as well, since the last letters cannot belong to an escape.
-/

section Names

variable {name path decoded : List Char}

end Names

/-! ## Addresses

The text of an address has no `%` in it, so a host that the validator reads as an address is the
same for the client.
-/

section Addresses

variable {α β : Type}

/-- What is read is in front of the rest and holds no `%`. -/
def Takes (inner : List Char → Option (α × List Char)) : Prop :=
  ∀ s a rest, inner s = some (a, rest) → ∃ front, s = front ++ rest ∧ '%' ∉ front

theorem Takes.map {inner : List Char → Option (α × List Char)} (h : Takes inner) (f : α → β) :
    Takes fun s => (inner s).map fun (a, rest) => (f a, rest) := by
  intro s b rest hread
  obtain ⟨⟨a, rest'⟩, hinner, heq⟩ := Option.map_eq_some_iff.1 hread
  obtain ⟨-, rfl⟩ := Prod.mk.inj heq
  exact h _ _ _ hinner

/-- The digits that are written have no upper case. -/
theorem toLower_digit {radix n : Nat} (hone : 1 < radix) (hradix : radix ≤ 16) {c : Char}
    (hc : c ∈ Nat.toDigits radix n) : c.toLower = c := by
  have hall : ∀ k : Fin 16, (Nat.digitChar k).toLower = Nat.digitChar k := by decide
  induction n using Nat.strongRecOn with
  | _ n ih =>
    by_cases hlt : n < radix
    · rw [Nat.toDigits_of_lt_base hlt, List.mem_singleton] at hc
      rw [hc]
      exact hall ⟨n, by omega⟩
    · have hdiv : n / radix < n := Nat.div_lt_self (by omega) hone
      have hmod : n % radix < radix := Nat.mod_lt _ (by omega)
      rw [Nat.toDigits_of_base_le hone (by omega), List.mem_append, List.mem_singleton] at hc
      rcases hc with hc | rfl
      · exact ih _ hdiv hc
      · exact hall ⟨n % radix, by omega⟩

theorem toLower_ipv4 {address : Ipv4Addr} {c : Char} (hc : c ∈ address.chars) : c.toLower = c := by
  have hdigits : ∀ {n : Nat}, c ∈ Nat.toDigits 10 n → c.toLower = c :=
    toLower_digit (by decide) (by decide)
  simp only [Ipv4Addr.chars, List.mem_append, List.mem_cons] at hc
  rcases hc with hc | rfl | hc | rfl | hc | rfl | hc
  · exact hdigits hc
  · rfl
  · exact hdigits hc
  · rfl
  · exact hdigits hc
  · rfl
  · exact hdigits hc

theorem toLower_ipv6 {address : Ipv6Addr} {c : Char} (hc : c ∈ address.chars) : c.toLower = c := by
  have hhex : ∀ {g : UInt16}, c ∈ hex g → c.toLower = c := toLower_digit (by decide) (by decide)
  have htail : ∀ {gs : List UInt16}, c ∈ fmtTail gs → c.toLower = c := by
    intro gs h
    obtain ⟨g, -, hg⟩ := List.mem_flatMap.1 h
    rcases List.mem_cons.1 hg with rfl | hg
    · rfl
    · exact hhex hg
  have hslice : ∀ {gs : List UInt16}, c ∈ fmtSubslice gs → c.toLower = c := by
    intro gs h
    cases gs with
    | nil => cases h
    | cons g gs => exact (List.mem_append.1 h).elim hhex htail
  unfold Ipv6Addr.chars at hc
  split at hc
  · rcases List.mem_append.1 hc with hc | hc
    · have hmapped : "::ffff:".toList = [':', ':', 'f', 'f', 'f', 'f', ':'] := by simp
      have hall : ∀ c ∈ "::ffff:".toList, c.toLower = c := by
        rw [hmapped]
        simp
      exact hall c hc
    · exact toLower_ipv4 hc
  · dsimp only at hc
    split at hc
    · simp only [List.mem_append, List.mem_cons] at hc
      rcases hc with hc | rfl | rfl | hc
      · exact hslice hc
      · rfl
      · rfl
      · exact hslice hc
    · exact hslice hc

/-- **The text of an address is in lower case.** -/
theorem asciiLowercase_chars (ip : IpAddr) : asciiLowercase ip.chars = ip.chars := by
  have hall : ∀ c ∈ ip.chars, c.toLower = c := by
    intro c hc
    cases ip with
    | v4 address => exact toLower_ipv4 hc
    | v6 address => exact toLower_ipv6 hc
  unfold asciiLowercase
  exact (List.map_congr_left hall).trans (List.map_id' _)

/-- The text of an address is the name of a loopback host if it is a loopback address. -/
theorem isLoopbackName_chars (ip : IpAddr) : isLoopbackName ip.chars = isLoopback ip := by
  have hname : (asciiLowercase ip.chars == "localhost".toList) = false := by
    rw [asciiLowercase_chars, beq_eq_false_iff_ne]
    intro heq
    have hparse := IpAddr.parse_text ip
    have hnone : IpAddr.parse "localhost".toList = none := by decide +kernel
    rw [heq, hnone] at hparse
    cases hparse
  rw [isLoopbackName, hname, IpAddr.parse_text, Bool.false_or, Option.any_some]

end Addresses

/-! ## The validator

What it means that the validator has accepted the two URLs.
-/

section Validator

variable {parse : List Char → Option Url} {url : Url} {target : PostgresTarget}

end Validator

/-! ## The client

What the client makes of the same URLs, and the plain ones for which it is what the validator has
compared.
-/

section Client

variable {parse : List Char → Option Url} {defaults : ClientDefaults} {url : Url}
  {target : ClientTarget} {value : List Char} {productionUrl : Option (List Char)}
  {allowRemote : Bool}

/-- The host as it is written. -/
def UrlHost.text : UrlHost → List Char
  | .domain name => name
  | .ipv4 address => address.chars
  | .ipv6 address => address.chars

/-- **A URL that is written plainly**: its scheme is that of PostgreSQL, it has a host and one name in
its path, nothing in them is percent-encoded, and none of the three parameters comes in their place. -/
structure Url.Plain (url : Url) : Prop where
  scheme : url.scheme = "postgres".toList ∨ url.scheme = "postgresql".toList
  host : ∃ host, url.host = some host ∧ '%' ∉ host.text
  path : ∃ name, url.path = '/' :: name ∧ name ≠ [] ∧ '/' ∉ name ∧ '%' ∉ name
  parameters : url.parameter "host" = none ∧ url.parameter "port" = none ∧
    url.parameter "dbname" = none

/-- The validator compares hosts by their texts. -/
theorem UrlHost.target_eq (host : UrlHost) :
    host.target = (asciiLowercase host.text, isLoopbackName host.text) := by
  cases host with
  | domain name => rfl
  | ipv4 address =>
    exact Prod.ext (asciiLowercase_chars (.v4 address)).symm (isLoopbackName_chars (.v4 address)).symm
  | ipv6 address =>
    exact Prod.ext (asciiLowercase_chars (.v6 address)).symm (isLoopbackName_chars (.v6 address)).symm

/-- A host without escapes is decoded to its text. -/
theorem UrlHost.decoded_eq {host : UrlHost} (h : '%' ∉ host.text) : host.decoded = some host.text := by
  cases host with
  | domain name => exact percentDecode_plain h
  | ipv4 address => rfl
  | ipv6 address => rfl

theorem splitOn_name {name : List Char} (h : '/' ∉ name) : name.splitOn '/' = [name] := by
  refine List.splitOn_eq_singleton_of_beq_eq_false fun c hc => ?_
  rw [beq_eq_false_iff_ne]
  rintro rfl
  exact h hc

/-- **What a plain URL says**, to the validator and to the client. -/
theorem Url.Plain.read (h : url.Plain) (hclient : clientTarget defaults url = some target) :
    ∃ host name, target = ⟨host, url.port.getD 5432, name⟩ ∧
      targetOf url = .ok ⟨asciiLowercase host, url.port.getD 5432, asciiLowercase name,
        isLoopbackName host⟩ := by
  obtain ⟨hhostParam, hportParam, hdbParam⟩ := h.parameters
  obtain ⟨host, hhost, hplain⟩ := h.host
  obtain ⟨name, hpath, hne, hslash, hsign⟩ := h.path
  refine ⟨host.text, name, ?_, ?_⟩
  · -- the client drops the slash and finds nothing to decode
    have hdrop : url.path.dropWhile (· == '/') = name := by
      cases name with
      | nil => exact absurd rfl hne
      | cons c rest =>
        have hc : c ≠ '/' := fun heq => hslash (by simp [heq])
        rw [hpath, List.dropWhile_cons_of_pos (by simp), List.dropWhile_cons_of_neg (by simpa using hc)]
    have hisEmpty : name.isEmpty = false := by
      cases name with
      | nil => exact absurd rfl hne
      | cons c rest => rfl
    unfold clientTarget at hclient
    rw [hhost, hdrop, hhostParam, hportParam, hdbParam] at hclient
    simp only [Option.map_some, Option.getD_some, UrlHost.decoded_eq hplain, hisEmpty,
      Bool.false_eq_true, if_false, percentDecode_plain hsign, Option.map_none, Option.getD_none]
      at hclient
    exact (Option.some.inj hclient).symm
  · -- the validator takes the one path segment
    have hscheme : (!(url.scheme == "postgres".toList || url.scheme == "postgresql".toList)) = false := by
      rcases h.scheme with heq | heq
      · rw [heq]
        rfl
      · rw [heq]
        rfl
    have hsegments : url.pathSegments = some [name] := by
      unfold Url.pathSegments
      rw [hpath]
      exact congrArg some (splitOn_name hslash)
    have hname : ([name].head?.filter (! ·.isEmpty)) = some name := by
      cases name with
      | nil => exact absurd rfl hne
      | cons c rest => rfl
    unfold targetOf
    rw [hscheme, hhost, hsegments]
    simp only [UrlHost.target_eq, hname]
    rfl

/-- **Plain URLs that the client takes for one database, the validator takes for one as well.** -/
theorem Url.Plain.same {production : Url} {other : ClientTarget} (h : url.Plain)
    (hproduction : production.Plain) (hclient : clientTarget defaults url = some target)
    (hother : clientTarget defaults production = some other) (hsame : target.same other) :
    ∃ test real, targetOf url = .ok test ∧ targetOf production = .ok real ∧
      test.same real = true := by
  obtain ⟨host, name, rfl, htest⟩ := h.read hclient
  obtain ⟨host', name', rfl, hreal⟩ := hproduction.read hother
  refine ⟨_, _, htest, hreal, ?_⟩
  obtain ⟨hhosts, hports, hnames⟩ := hsame
  dsimp only at hhosts hports hnames
  unfold PostgresTarget.same
  dsimp only
  rw [hports, hnames]
  simp only [beq_self_eq_true, Bool.and_true, Bool.or_eq_true, beq_iff_eq, Bool.and_eq_true]
  exact hhosts.imp (congrArg asciiLowercase) id

end Client

/-! ## Two URLs

URLs as the tests of the repository have them, and one whose parameter names another database.
-/

def sampleUrl (database : String) (query : List (List Char × List Char)) : Url where
  scheme := "postgres".toList
  host := some (.domain "localhost".toList)
  port := none
  path := '/' :: database.toList
  query := query

end Flow

end ArcAdmin

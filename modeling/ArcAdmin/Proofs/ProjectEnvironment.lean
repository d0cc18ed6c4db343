import ArcAdmin.InitProject
import ArcAdmin.Results

/-!
# The environment files of a new project

The initialization script replaces the lines of some keys in example files, one after the other in one
growing text. The intended result replaces the line of each key and nothing else.

* **`parseString_stringify`** — the quoted title can be read back;
* **`replaceEnvValue_lines`** — what one replacement does to the lines of a text;
* **`environmentWritten_iff`**, **`productionWritten_iff`** — when the files are as intended;
* **`environments_written_iff`** — both together, for the options that the script accepts.
-/

namespace ArcAdmin.InitProject

open Lines
open Upgrade (isSpace isLineTerminator codeUnits)

/-! ## The intended files

What the files should be, by looking at each line on its own.
-/

def linesOf (contents : Text) : List (Line Char) := cut isLineTerminator '\n' contents

/-- A line of the text, and only one, begins with the key. -/
def OneLine (contents : Text) (key : String) : Prop :=
  ((linesOf contents).filter fun line => decide (keyText key <+: line.2)).length = 1

instance (contents : Text) (key : String) : Decidable (OneLine contents key) :=
  inferInstanceAs (Decidable (_ = 1))

def rewritten (values : List (String × Text)) (line : Text) : Text :=
  match values.find? fun entry => decide (keyText entry.1 <+: line) with
  | some entry => keyText entry.1 ++ entry.2
  | none => line

/-- The text with another text in each line. -/
def mapLines (f : Text → Text) (contents : Text) : Text := (render (onLines f (linesOf contents))).tail

/-- The text in which the lines of the keys, and only these, have the values. -/
def withValues (values : List (String × Text)) (contents : Text) : Text :=
  mapLines (rewritten values) contents

/-- What stands on the line of a key. -/
def valueOf (contents : Text) (key : String) : Option Text :=
  (search isLineTerminator (keyText key) true contents).map fun found => found.2.1

def environmentValues (options : Options) (url : Text) : List (String × Text) :=
  [("DATABASE_URL", url), ("SERVICE_NAME", backendName options),
    ("WEBAUTHN_RP_NAME", stringify options.title)]

/-- `backend/.env` is as intended, where the address in the example is one. -/
def EnvironmentWritten (api : UrlApi) (options : Options) (contents : Text) : Prop :=
  ∀ old url, valueOf contents "DATABASE_URL" = some old →
    databaseUrl api options.database (trim old) = .ok url →
    buildEnvironment api contents options = .ok (withValues (environmentValues options url) contents)

/-- `deployment/.env.production` is as intended. -/
def ProductionWritten (options : Options) (version contents : Text) : Prop :=
  buildProductionEnvironment contents options version =
    .ok (withValues (productionValues options version) contents)

/-! ## What is in the way

The two ways in which a value changes the text by more than its line: the patterns of
`String.replace`, and a line separator in the title.
-/

/-- The `$` patterns of `String.replace` leave the new line as it is. -/
def StandsForItself (contents : Text) (key : String) (value : Text) : Prop :=
  ∀ before capture behind,
    search isLineTerminator (keyText key) true contents = some (before, capture, behind) →
    getSubstitution { matched := keyText key ++ capture, before, capture, behind }
      (keyText key ++ value) = keyText key ++ value

def titleKey : String := "WEBAUTHN_RP_NAME"

def lineNumber (contents : Text) (key : String) : Nat :=
  (linesOf contents).findIdx fun line => decide (keyText key <+: line.2)

/-- The new line of the title holds, behind a line or paragraph separator, what looks like the line of
a key that is written later and stands further down. -/
def Shadowed (contents value : Text) (key : String) (found : Text × Text × Text) : Prop :=
  lineNumber contents titleKey < lineNumber contents key ∧
    search isLineTerminator (keyText key) true (keyText titleKey ++ value) = some found

/-- ... which makes no difference where both lines have the new value already. -/
def Unshadowed (contents value : Text) (entry : String × Text) : Prop :=
  ∀ found, Shadowed contents value entry.1 found →
    found.2.1 = entry.2 ∧ valueOf contents entry.1 = some entry.2

/-! ## Strings

`JSON.stringify` escapes what `JSON.parse` would not take as it is. Line and paragraph separators
are not among that.
-/

section Json

theorem hexValue_hexDigit : ∀ n < 16, hexValue (hexDigit n) = some n := by
  decide

theorem codeUnits_cons (c : Char) (text : Text) :
    codeUnits (String.ofList (c :: text)) =
      codeUnits (String.ofList [c]) ++ codeUnits (String.ofList text) := by
  simp [codeUnits]

theorem codeUnits_of_lt {c : Char} (hc : c.toNat < 0x10000) :
    codeUnits (String.ofList [c]) = [c.toNat] := by
  simp [codeUnits, hc]

theorem parseChars_short {c : Char} {unit : Nat} (hunit : shortEscape c = some unit) (rest : Text) :
    parseChars ('\\' :: c :: rest) = (parseChars rest).map fun units => unit :: units := by
  have hu : c ≠ 'u' := by
    rintro rfl
    have hnone : shortEscape 'u' = none := by decide
    simp [hnone] at hunit
  rw [parseChars.eq_def]
  split
  · simp_all
  · simp_all
  · simp_all
  · rename_i heq
    obtain ⟨rfl, rfl⟩ : c = _ ∧ rest = _ := by simpa using heq
    rw [hunit]
    cases parseChars rest <;> rfl
  · rename_i hnot heq
    obtain ⟨rfl, rfl⟩ : '\\' = _ ∧ c :: rest = _ := by simpa using heq
    exact absurd rfl (hnot c rest rfl)

theorem parseChars_plain {c : Char} (hquote : c ≠ '"') (hslash : c ≠ '\\') (hc : 0x20 ≤ c.toNat)
    (rest : Text) : parseChars (c :: rest) =
      (parseChars rest).map fun units => codeUnits (String.ofList [c]) ++ units := by
  rw [parseChars.eq_def]
  split
  · simp_all
  · simp_all
  · simp_all
  · simp_all
  · rename_i heq
    obtain ⟨rfl, rfl⟩ : c = _ ∧ rest = _ := by simpa using heq
    have hnot : ¬ (c = '\\' ∨ c.toNat < 0x20) := by
      rintro (h | h)
      · exact hslash h
      · omega
    rw [if_neg hnot]
    cases parseChars rest <;> rfl

theorem parseChars_escapeChar (c : Char) (rest : Text) :
    parseChars (escapeChar c ++ rest) =
      (parseChars rest).map fun units => codeUnits (String.ofList [c]) ++ units := by
  -- the seven short escapes are read back the same way
  have hshort : ∀ {d : Char} {unit : Nat}, shortEscape d = some unit → c.toNat = unit → unit < 0x80 →
      parseChars (['\\', d] ++ rest) =
        (parseChars rest).map fun units => codeUnits (String.ofList [c]) ++ units := by
    intro d unit hunit hc hsmall
    rw [codeUnits_of_lt (by omega), hc]
    exact parseChars_short hunit rest
  unfold escapeChar
  split
  · rename_i h
    subst h
    exact hshort (by decide) rfl (by decide)
  split
  · rename_i h
    subst h
    exact hshort (by decide) rfl (by decide)
  split
  · rename_i h
    exact hshort (by decide) h (by decide)
  split
  · rename_i h
    exact hshort (by decide) h (by decide)
  split
  · rename_i h
    exact hshort (by decide) h (by decide)
  split
  · rename_i h
    exact hshort (by decide) h (by decide)
  split
  · rename_i h
    exact hshort (by decide) h (by decide)
  split
  · rename_i h
    -- a control character: four hexadecimal digits, the first two of them zero
    have hhigh := hexValue_hexDigit (c.toNat / 16) (by omega)
    have hlow := hexValue_hexDigit (c.toNat % 16) (by omega)
    have hunit : ((0 * 16 + 0) * 16 + c.toNat / 16) * 16 + c.toNat % 16 = c.toNat := by omega
    have hzero : hexValue '0' = some 0 := by decide
    rw [codeUnits_of_lt (by omega)]
    show parseChars ('\\' :: 'u' :: '0' :: '0' :: hexDigit (c.toNat / 16) ::
      hexDigit (c.toNat % 16) :: rest) = _
    rw [parseChars, hhigh, hlow, hzero]
    simp only [Option.bind_eq_bind, Option.bind_some, hunit]
    cases parseChars rest <;> rfl
  · -- any other character stands for itself
    rename_i hquote hslash _ _ _ _ _ hcontrol
    exact parseChars_plain hquote hslash (by omega) rest

/-- **The title can be read back.** -/
theorem parseString_stringify (text : Text) :
    parseString (stringify text) = some (codeUnits (String.ofList text)) := by
  have hchars : parseChars (text.flatMap escapeChar ++ ['"']) =
      some (codeUnits (String.ofList text)) := by
    induction text with
    | nil => rfl
    | cons c text ih =>
      rw [List.flatMap_cons, List.append_assoc, parseChars_escapeChar, ih, codeUnits_cons c text]
      rfl
  exact hchars

end Json

/-! ## The replacement text

`$$`, `$&` and the like refer to the match. A text without `$` is put in as it is.
-/

section Substitution

variable {m : Match} {a b : Text}

theorem getSubstitution_cons {c : Char} (hc : c ≠ '$') (text : Text) :
    getSubstitution m (c :: text) = c :: getSubstitution m text := by
  rw [getSubstitution.eq_def]
  split <;> simp_all

theorem getSubstitution_append (ha : '$' ∉ a) :
    getSubstitution m (a ++ b) = a ++ getSubstitution m b := by
  induction a with
  | nil => rfl
  | cons c a ih =>
    obtain ⟨hc, ha⟩ := not_or.1 (fun h => ha (List.mem_cons.2 h))
    rw [List.cons_append, getSubstitution_cons (fun h => hc h.symm), ih ha, List.cons_append]

/-- A text without `$`. -/
theorem getSubstitution_of_not_mem (ha : '$' ∉ a) : getSubstitution m a = a := by
  have happend := getSubstitution_append (m := m) (b := []) ha
  simpa [getSubstitution] using happend

theorem dollar_not_end {c : Char} (hc : isLineTerminator c = true) :
    c ≠ '$' ∧ c ≠ '&' ∧ c ≠ '`' ∧ c ≠ '\'' ∧ c ≠ '0' ∧ c ≠ '1' := by
  refine ⟨?_, ?_, ?_, ?_, ?_, ?_⟩ <;> rintro rfl <;> revert hc <;> decide

/-- The `$` patterns do not reach over the end of a line. -/
theorem getSubstitution_end {c : Char} (hc : isLineTerminator c = true) :
    getSubstitution m (a ++ c :: b) = getSubstitution m a ++ c :: getSubstitution m b := by
  obtain ⟨h1, h2, h3, h4, h5, h6⟩ := dollar_not_end hc
  fun_induction getSubstitution m a with
  | case1 rest ih => simp [getSubstitution, ih]
  | case2 rest ih => simp [getSubstitution, ih]
  | case3 rest ih => simp [getSubstitution, ih]
  | case4 rest ih => simp [getSubstitution, ih]
  | case5 rest ih => simp [getSubstitution, ih]
  | case6 rest ih => simp [getSubstitution, ih]
  | case7 d rest hd hand hbefore hbehind hone hzero ih =>
    rw [List.cons_append, List.cons_append, ← ih, getSubstitution.eq_def]
    -- a pattern at `d` would be one in the first text already
    split
    · rename_i heq
      cases rest <;> simp_all
    · rename_i heq
      cases rest <;> simp_all
    · rename_i heq
      cases rest <;> simp_all
    · rename_i heq
      cases rest <;> simp_all
    · rename_i heq
      cases rest <;> simp_all
    · rename_i heq
      rcases rest with _ | ⟨e, _ | ⟨f, rest⟩⟩ <;> simp_all
    · rename_i heq
      obtain ⟨rfl, rfl⟩ : d = _ ∧ rest ++ c :: b = _ := by simpa using heq
      rfl
    · rename_i heq
      simp at heq
  | case8 =>
    rw [List.nil_append, getSubstitution_cons h1]
    rfl

theorem count_le_getSubstitution :
    count isLineTerminator a ≤ count isLineTerminator (getSubstitution m a) := by
  have hdollar : isLineTerminator '$' = false := by decide
  have hskip : ∀ {c : Char} {rest : Text}, isLineTerminator c = false →
      count isLineTerminator (c :: rest) = count isLineTerminator rest := by
    intro c rest hc
    exact List.countP_cons_of_neg (by simp [hc])
  fun_induction getSubstitution m a with
  | case1 rest ih => rwa [hskip hdollar, hskip hdollar, hskip hdollar]
  | case2 rest ih =>
    rw [hskip hdollar, hskip (by decide), count_append]
    omega
  | case3 rest ih =>
    rw [hskip hdollar, hskip (by decide), count_append]
    omega
  | case4 rest ih =>
    rw [hskip hdollar, hskip (by decide), count_append]
    omega
  | case5 rest ih =>
    rw [hskip hdollar, hskip (by decide), count_append]
    omega
  | case6 rest ih =>
    rw [hskip hdollar, hskip (by decide), hskip (by decide), count_append]
    omega
  | case7 c rest _ _ _ _ _ _ ih =>
    simp only [count, List.countP_cons] at ih ⊢
    omega
  | case8 => exact Nat.le_refl _

end Substitution

/-! ## Keys

A key has no character that could end a line, and the keys that are replaced are distinct.
-/

section Keys

/-- A key, as the names of the environment are. -/
def isKey (key : String) : Bool :=
  key.toList.all fun c => c != '=' && c != '$' && ! isLineTerminator c

variable {key key' : String} {line value contents : Text}

theorem isKey_mem (hkey : isKey key = true) {c : Char} (hc : c ∈ key.toList) :
    c ≠ '=' ∧ c ≠ '$' ∧ isLineTerminator c = false := by
  have hat := List.all_eq_true.1 hkey c hc
  simpa [and_assoc] using hat

theorem keyText_ne_nil (key : String) : keyText key ≠ [] := by simp [keyText]

theorem keyText_plain (hkey : isKey key = true) : Plain isLineTerminator (keyText key) := by
  intro c hc
  rcases List.mem_append.1 hc with hc | hc
  · exact (isKey_mem hkey hc).2.2
  · obtain rfl : c = '=' := by simpa using hc
    decide

theorem dollar_not_mem_keyText (hkey : isKey key = true) : '$' ∉ keyText key := by
  intro hc
  rcases List.mem_append.1 hc with hc | hc
  · exact (isKey_mem hkey hc).2.1 rfl
  · simp at hc

/-- A line begins with one key. -/
theorem key_unique (hkey : isKey key = true) (hkey' : isKey key' = true) (h : keyText key <+: line)
    (h' : keyText key' <+: line) : key = key' := by
  have htake : ∀ {k : String}, isKey k = true → keyText k <+: line →
      line.takeWhile (· != '=') = k.toList := by
    rintro k hk ⟨rest, rfl⟩
    have hall : ∀ c ∈ k.toList, (c != '=') = true := fun c hc => by simp [(isKey_mem hk hc).1]
    rw [keyText, List.append_assoc, List.takeWhile_append_of_pos hall]
    simp
  exact String.toList_inj.1 ((htake hkey h).symm.trans (htake hkey' h'))

theorem not_prefix_of_ne (hkey : isKey key = true) (hkey' : isKey key' = true) (hne : key ≠ key')
    (h : keyText key <+: line) : ¬ keyText key' <+: line :=
  fun h' => hne (key_unique hkey hkey' h h')

theorem search_key (hvalue : Plain isLineTerminator value) (hkey : isKey key = true) :
    search isLineTerminator (keyText key) true (keyText key ++ value) = some ([], value, []) := by
  have hplain : Plain isLineTerminator (keyText key ++ value) := by
    intro c hc
    exact (List.mem_append.1 hc).elim (keyText_plain hkey c) (hvalue c)
  rw [search_line hplain (keyText_ne_nil key), if_pos (List.prefix_append _ _), List.drop_left]

theorem search_none (hline : Plain isLineTerminator line) (h : ¬ keyText key <+: line) :
    search isLineTerminator (keyText key) true line = none := by
  rw [search_line hline (keyText_ne_nil key), if_neg h]

end Keys

/-! ## The lines of an example

In the example files the line feed is the only terminator, and each key has one line.
-/

section Lines

variable {contents : Text} {key : String} {f g : Text → Text}

theorem ended_linesOf (contents : Text) : Ended isLineTerminator (linesOf contents) :=
  ended_cut (by decide)

theorem plain_linesOf {line : Line Char} (h : line ∈ linesOf contents) :
    Plain isLineTerminator line.2 :=
  plain_of_mem_cut h

theorem render_linesOf (contents : Text) : render (linesOf contents) = '\n' :: contents :=
  render_cut _ _

theorem mapLines_id (contents : Text) : mapLines id contents = contents := by
  have hlines : onLines id (linesOf contents) = linesOf contents := by simp [onLines]
  rw [mapLines, hlines, render_linesOf]
  rfl

theorem mapLines_congr (h : ∀ line ∈ linesOf contents, f line.2 = g line.2) :
    mapLines f contents = mapLines g contents := by
  have hlines : onLines f (linesOf contents) = onLines g (linesOf contents) :=
    List.map_congr_left fun line hline => by rw [h line hline]
  rw [mapLines, mapLines, hlines]

/-- The first line stands behind the line feed that is not in the text. -/
theorem render_mapLines (f : Text → Text) (contents : Text) :
    render (onLines f (linesOf contents)) = '\n' :: mapLines f contents := by
  have hhead : (render (onLines f (linesOf contents))).head? = some '\n' := by
    have hrender := render_linesOf contents
    unfold onLines
    cases hlines : linesOf contents with
    | nil => simp [hlines] at hrender
    | cons line lines =>
      rw [hlines, render_cons, List.cons.injEq] at hrender
      simp [hrender.1]
  exact (List.eq_cons_of_mem_head? hhead)

theorem mapLines_inj (hle : ∀ line ∈ linesOf contents,
      count isLineTerminator (f line.2) ≤ count isLineTerminator (g line.2))
    (h : mapLines g contents = mapLines f contents) :
    ∀ line ∈ linesOf contents, g line.2 = f line.2 := by
  apply eq_of_render (ended_linesOf contents) hle
  rw [render_mapLines, render_mapLines, h]

/-- The line of a key. -/
theorem OneLine.split (h : OneLine contents key) :
    ∃ front line back, linesOf contents = front ++ line :: back ∧ keyText key <+: line.2 ∧
      (∀ l ∈ front, ¬ keyText key <+: l.2) ∧ ∀ l ∈ back, ¬ keyText key <+: l.2 := by
  obtain ⟨line, hone⟩ := List.length_eq_one_iff.1 h
  obtain ⟨front, back, hlines, hfront, hline, hback⟩ := List.filter_eq_cons_iff.1 hone
  have hback : ∀ l ∈ back, ¬ keyText key <+: l.2 := by simpa using hback
  exact ⟨front, line, back, hlines, by simpa using hline, by simpa using hfront, hback⟩

end Lines

/-! ## One replacement

The first line with the key is found, and the new text takes its place.
-/

/-- The match of a key's line. -/
structure Found (contents : Text) (key : String) (m : Match) : Prop where
  search : search isLineTerminator (keyText key) true contents = some (m.before, m.capture, m.behind)
  matched : m.matched = keyText key ++ m.capture

section Found

variable {contents : Text} {key : String} {m : Match} {f : Text → Text}

theorem Found.match_eq (h : Found contents key m) :
    { matched := keyText key ++ m.capture, before := m.before, capture := m.capture,
      behind := m.behind } = m := by
  rw [← h.matched]

theorem Found.replace (h : Found contents key m) (rep : Text → Except String Text)
    {value : Text} (hrep : rep (trim m.capture) = .ok value) (fileLabel : String) :
    replaceEnvValue contents key rep fileLabel =
      .ok (m.before ++ getSubstitution m (keyText key ++ value) ++ m.behind) := by
  unfold replaceEnvValue
  rw [h.search]
  dsimp only
  rw [hrep, h.match_eq]
  rfl

theorem Found.standsForItself_iff (h : Found contents key m) {value : Text} :
    StandsForItself contents key value ↔
      getSubstitution m (keyText key ++ value) = keyText key ++ value := by
  constructor
  · intro hstands
    have hat := hstands _ _ _ h.search
    rwa [h.match_eq] at hat
  · intro heq before capture behind hsearch
    obtain ⟨rfl, rfl, rfl⟩ : m.before = before ∧ m.capture = capture ∧ m.behind = behind := by
      have hboth := h.search.symm.trans hsearch
      simpa using hboth
    rw [h.match_eq]
    exact heq

theorem Found.valueOf_eq (h : Found contents key m) : valueOf contents key = some m.capture := by
  unfold valueOf
  rw [h.search]
  rfl

/-- **One replacement** puts the new text in the place of the first line with the key. -/
theorem replaceEnvValue_lines (hkey : isKey key = true) {front back : List (Line Char)} {s : Char}
    {body before old behind : Text}
    (hends : Ended isLineTerminator (front ++ (s, body) :: back))
    (hfront : ∀ line ∈ front, search isLineTerminator (keyText key) true line.2 = none)
    (hbody : search isLineTerminator (keyText key) true body = some (before, old, behind)) :
    ∃ m, Found (render (front ++ (s, body) :: back)).tail key m ∧ m.capture = old ∧
      ∀ new, m.before ++ new ++ m.behind =
        (render (front ++ (s, before ++ new ++ behind) :: back)).tail := by
  have hsearch := search_render (keyText_plain hkey) (keyText_ne_nil key) hends hfront hbody
  have htail : ∀ {c : Char} {text : Text}, isLineTerminator c = true →
      search isLineTerminator (keyText key) false (c :: text) =
        (search isLineTerminator (keyText key) true text).map fun found => (c :: found.1, found.2) := by
    intro c text hc
    rw [Lines.search, if_neg (by simp), hc]
  obtain ⟨c, text, htext, hc⟩ : ∃ c text, render (front ++ (s, body) :: back) = c :: text ∧
      isLineTerminator c = true := by
    cases front with
    | nil => exact ⟨s, _, rfl, hends _ List.mem_cons_self⟩
    | cons line front => exact ⟨line.1, _, rfl, hends _ List.mem_cons_self⟩
  rw [htext, htail hc] at hsearch
  obtain ⟨⟨before', old', behind'⟩, hfound, heq⟩ := Option.map_eq_some_iff.1 hsearch
  obtain ⟨hbefore, rfl, rfl⟩ : c :: before' = render front ++ s :: before ∧ old' = old ∧
      behind' = behind ++ render back := by simpa using heq
  refine ⟨⟨keyText key ++ old', before', old', behind ++ render back⟩, ⟨?_, rfl⟩, rfl, fun new => ?_⟩
  · rw [htext]
    exact hfound
  · have hrender : render (front ++ (s, before ++ new ++ behind) :: back) =
        (render front ++ s :: before) ++ new ++ (behind ++ render back) := by simp
    rw [hrender, ← hbefore]
    rfl

theorem mapLines_split {front back : List (Line Char)} {line : Line Char}
    (hlines : linesOf contents = front ++ line :: back) (f : Text → Text) :
    mapLines f contents = (render (onLines f front ++ (line.1, f line.2) :: onLines f back)).tail := by
  rw [mapLines, hlines]
  simp [Lines.onLines]

theorem found_split (hkey : isKey key = true) {front back : List (Line Char)} {line : Line Char}
    {old : Text} (hlines : linesOf contents = front ++ line :: back)
    (hline : line.2 = keyText key ++ old) (hself : f line.2 = line.2)
    (hfront : ∀ l ∈ front, ¬ keyText key <+: l.2 ∧
      search isLineTerminator (keyText key) true (f l.2) = none)
    (hback : ∀ l ∈ back, ¬ keyText key <+: l.2) :
    ∃ m, Found (mapLines f contents) key m ∧ m.capture = old ∧
      ∀ new, m.before ++ new ++ m.behind =
        mapLines (fun line => if keyText key <+: line then new else f line) contents := by
  have hplain : Plain isLineTerminator old := by
    have hmem : line ∈ linesOf contents := by rw [hlines]; simp
    intro c hc
    exact plain_linesOf hmem c (by rw [hline]; exact List.mem_append_right _ hc)
  have hends : Ended isLineTerminator (onLines f front ++ (line.1, f line.2) :: onLines f back) := by
    have hall := Ended.onLines (f := f) (ended_linesOf contents)
    rw [hlines] at hall
    simpa [Lines.onLines] using hall
  have hbody : search isLineTerminator (keyText key) true (f line.2) = some ([], old, []) := by
    rw [hself, hline]
    exact search_key hplain hkey
  have hnone : ∀ l ∈ onLines f front, search isLineTerminator (keyText key) true l.2 = none := by
    intro l hl
    obtain ⟨l', hl', rfl⟩ := List.mem_map.1 hl
    exact (hfront l' hl').2
  obtain ⟨m, hfound, hcapture, hnew⟩ := replaceEnvValue_lines hkey hends hnone hbody
  refine ⟨m, by rwa [mapLines_split hlines], hcapture, fun new => ?_⟩
  have hsame : ∀ {ls : List (Line Char)}, (∀ l ∈ ls, ¬ keyText key <+: l.2) →
      onLines (fun line => if keyText key <+: line then new else f line) ls = onLines f ls := by
    intro ls hls
    apply List.map_congr_left
    intro l hl
    dsimp only
    rw [if_neg (hls l hl)]
  have hpre : keyText key <+: line.2 := hline ▸ List.prefix_append _ _
  rw [hnew, mapLines_split hlines, if_pos hpre, hsame fun l hl => (hfront l hl).1, hsame hback]
  simp

/-- ... among the lines of an example, of which those with other keys may be changed already. -/
theorem found_mapLines (hkey : isKey key = true) (hone : OneLine contents key)
    (hself : ∀ line ∈ linesOf contents, keyText key <+: line.2 → f line.2 = line.2)
    (hother : ∀ line ∈ linesOf contents, ¬ keyText key <+: line.2 →
      search isLineTerminator (keyText key) true (f line.2) = none) :
    ∃ m, Found (mapLines f contents) key m ∧ valueOf contents key = some m.capture ∧
      ∀ new, m.before ++ new ++ m.behind =
        mapLines (fun line => if keyText key <+: line then new else f line) contents := by
  obtain ⟨front, line, back, hlines, hline, hfront, hback⟩ := hone.split
  obtain ⟨old, hold⟩ := hline
  have hmem : ∀ l ∈ front ++ line :: back, l ∈ linesOf contents := fun l hl => hlines ▸ hl
  obtain ⟨m, hfound, rfl, hnew⟩ := found_split (f := f) hkey hlines hold.symm
    (hself line (hmem line (by simp)) ⟨old, hold⟩)
    (fun l hl => ⟨hfront l hl, hother l (hmem l (List.mem_append_left _ hl)) (hfront l hl)⟩) hback
  obtain ⟨m', hfound', hcapture, -⟩ := found_split (f := id) hkey hlines hold.symm rfl
    (fun l hl => ⟨hfront l hl,
      search_none (plain_linesOf (hmem l (List.mem_append_left _ hl))) (hfront l hl)⟩) hback
  rw [mapLines_id] at hfound'
  exact ⟨m, hfound, by rw [hfound'.valueOf_eq, hcapture], hnew⟩

end Found

/-! ## Several replacements

Replacements with plain values commute with the view line by line.
-/

/-- A value on one line. -/
structure LineEntry (entry : String × Text) : Prop where
  key : isKey entry.1 = true
  line : Plain isLineTerminator entry.2

/-- ... that is put in as it is. -/
structure PlainEntry (entry : String × Text) : Prop extends LineEntry entry where
  literal : '$' ∉ entry.2

section Several

variable {contents value line : Text} {key : String} {entry : String × Text}
  {values entries : List (String × Text)}

theorem LineEntry.plain (h : LineEntry entry) :
    Plain isLineTerminator (keyText entry.1 ++ entry.2) := by
  intro c hc
  exact (List.mem_append.1 hc).elim (keyText_plain h.key c) (h.line c)

theorem PlainEntry.getSubstitution (h : PlainEntry entry) (m : Match) :
    getSubstitution m (keyText entry.1 ++ entry.2) = keyText entry.1 ++ entry.2 := by
  apply getSubstitution_of_not_mem
  intro hmem
  exact (List.mem_append.1 hmem).elim (dollar_not_mem_keyText h.key) h.literal

/-- A replacement that does not look at the old value. -/
theorem Found.replaceEntry {m : Match} (h : Found contents entry.1 m) (hentry : PlainEntry entry)
    (fileLabel : String) : replaceEnvValue contents entry.1 (fun _ => .ok entry.2) fileLabel =
      .ok (m.before ++ (keyText entry.1 ++ entry.2) ++ m.behind) := by
  have hreplace := h.replace (fun _ => .ok entry.2) rfl fileLabel
  rwa [hentry.getSubstitution] at hreplace

theorem rewritten_of_not (h : ∀ e ∈ values, ¬ keyText e.1 <+: line) : rewritten values line = line := by
  have hnone : values.find? (fun e => decide (keyText e.1 <+: line)) = none := by
    simpa [List.find?_eq_none] using h
  rw [rewritten, hnone]

theorem rewritten_cases (values : List (String × Text)) (line : Text) :
    (∃ e ∈ values, keyText e.1 <+: line ∧ rewritten values line = keyText e.1 ++ e.2) ∨
      (∀ e ∈ values, ¬ keyText e.1 <+: line) ∧ rewritten values line = line := by
  cases hfind : values.find? (fun e => decide (keyText e.1 <+: line)) with
  | none =>
    have hnot : ∀ e ∈ values, ¬ keyText e.1 <+: line := by
      simpa [List.find?_eq_none] using hfind
    exact Or.inr ⟨hnot, rewritten_of_not hnot⟩
  | some e =>
    have hpre : keyText e.1 <+: line := by simpa using List.find?_some hfind
    refine Or.inl ⟨e, List.mem_of_find?_eq_some hfind, hpre, ?_⟩
    rw [rewritten, hfind]

theorem rewritten_of_mem (hkeys : ∀ e ∈ values, isKey e.1 = true) (hnodup : (values.map Prod.fst).Nodup)
    (hmem : entry ∈ values) (hline : keyText entry.1 <+: line) :
    rewritten values line = keyText entry.1 ++ entry.2 := by
  rcases rewritten_cases values line with ⟨e, he, hpre, heq⟩ | ⟨hnot, -⟩
  · have hkey := key_unique (hkeys e he) (hkeys entry hmem) hpre hline
    rw [heq, List.inj_on_of_nodup_map hnodup he hmem hkey]
  · exact absurd hline (hnot entry hmem)

theorem rewritten_plain (hvalues : ∀ e ∈ values, LineEntry e) (hline : Plain isLineTerminator line) :
    Plain isLineTerminator (rewritten values line) := by
  rcases rewritten_cases values line with ⟨e, he, -, heq⟩ | ⟨-, heq⟩
  · rw [heq]
    exact (hvalues e he).plain
  · rwa [heq]

/-- A line does not get another key. -/
theorem search_rewritten (hkey : isKey key = true) (hvalues : ∀ e ∈ values, LineEntry e)
    (hline : Plain isLineTerminator line) (hnot : ¬ keyText key <+: line) :
    search isLineTerminator (keyText key) true (rewritten values line) = none := by
  apply search_none (rewritten_plain hvalues hline)
  rcases rewritten_cases values line with ⟨e, he, hpre, heq⟩ | ⟨-, heq⟩
  · rw [heq]
    intro hpre'
    have hsame := key_unique hkey (hvalues e he).key hpre' (List.prefix_append _ _)
    exact hnot (hsame ▸ hpre)
  · rwa [heq]

theorem rewritten_other (hvalues : ∀ e ∈ values, LineEntry e) (hkey : isKey key = true)
    (hnew : key ∉ values.map Prod.fst) (hline : keyText key <+: line) :
    rewritten values line = line := by
  apply rewritten_of_not
  intro e he
  apply not_prefix_of_ne hkey (hvalues e he).key _ hline
  rintro rfl
  exact hnew (List.mem_map_of_mem he)

theorem rewritten_append (hvalues : ∀ e ∈ values, LineEntry e) (hentry : isKey entry.1 = true)
    (hnew : entry.1 ∉ values.map Prod.fst) :
    rewritten (values ++ [entry]) line =
      if keyText entry.1 <+: line then keyText entry.1 ++ entry.2 else rewritten values line := by
  by_cases hline : keyText entry.1 <+: line
  · have hnone : values.find? (fun e => decide (keyText e.1 <+: line)) = none := by
      rw [List.find?_eq_none]
      intro e he
      have hnot : ¬ keyText e.1 <+: line := by
        apply not_prefix_of_ne hentry (hvalues e he).key _ hline
        rintro heq
        exact hnew (heq ▸ List.mem_map_of_mem he)
      simpa using hnot
    rw [if_pos hline, rewritten, List.find?_append, hnone]
    simp [hline]
  · rw [if_neg hline, rewritten, rewritten, List.find?_append]
    cases values.find? (fun e => decide (keyText e.1 <+: line)) <;> simp [hline]

/-- **Values without `$`** are put in as intended. -/
theorem replaceAll_plain (fileLabel : String) (hvalues : ∀ e ∈ values, LineEntry e)
    (hentries : ∀ e ∈ entries, PlainEntry e ∧ OneLine contents e.1)
    (hnodup : ((values ++ entries).map Prod.fst).Nodup) :
    replaceAll fileLabel (withValues values contents) entries =
      .ok (withValues (values ++ entries) contents) := by
  induction entries generalizing values with
  | nil =>
    rw [List.append_nil]
    rfl
  | cons entry entries ih =>
    obtain ⟨⟨hentry, hone⟩, hentries⟩ := List.forall_mem_cons.1 hentries
    have hnew : entry.1 ∉ values.map Prod.fst := by
      rw [List.map_append, List.map_cons, List.nodup_append] at hnodup
      intro hmem
      exact hnodup.2.2 _ hmem _ List.mem_cons_self rfl
    obtain ⟨m, hfound, -, hput⟩ := found_mapLines (f := rewritten values) hentry.key hone
      (fun line _ hpre => rewritten_other hvalues hentry.key hnew hpre)
      (fun line hline hnot => search_rewritten hentry.key hvalues (plain_linesOf hline) hnot)
    have hstep : replaceEnvValue (withValues values contents) entry.1 (fun _ => .ok entry.2) fileLabel =
        .ok (withValues (values ++ [entry]) contents) := by
      have hreplace := hfound.replaceEntry hentry fileLabel
      rw [hput] at hreplace
      rw [withValues, hreplace]
      congr 1
      apply mapLines_congr
      intro line _
      rw [rewritten_append hvalues hentry.key hnew]
    have hvalues' := List.forall_mem_append.2
      ⟨hvalues, List.forall_mem_singleton.2 hentry.toLineEntry⟩
    have hrest := ih hvalues' hentries (by simpa using hnodup)
    rw [List.append_assoc] at hrest
    show (replaceEnvValue _ _ _ _ >>= fun text => replaceAll fileLabel text entries) = _
    rw [hstep]
    exact hrest

end Several

/-! ## The title, and the replacements behind it

Once the title is in the text, a later key may be found in the title instead of on its own line.
The state of the loop is then the text of the title, and the values that went to their own lines.
-/

/-- The lines with the values, and `text` for the line of the title. -/
def withTitle (values : List (String × Text)) (text line : Text) : Text :=
  if keyText titleKey <+: line then text else rewritten values line

/-- The new line of the title when the line of a key has been looked for in it. -/
def caught (entry : String × Text) (text : Text) : Text :=
  match search isLineTerminator (keyText entry.1) true text with
  | some found => found.1 ++ (keyText entry.1 ++ entry.2) ++ found.2.2
  | none => text

/-- The line of the key is found in the title. -/
def Catches (contents text : Text) (key : String) : Prop :=
  lineNumber contents titleKey < lineNumber contents key ∧
    (search isLineTerminator (keyText key) true text).isSome = true

instance (contents text : Text) (key : String) : Decidable (Catches contents text key) :=
  inferInstanceAs (Decidable (_ ∧ _))

/-- What a replacement behind the title does to the line of the title and to the other lines. -/
def laterStep (contents : Text) (state : Text × List (String × Text)) (entry : String × Text) :
    Text × List (String × Text) :=
  if Catches contents state.1 entry.1 then (caught entry state.1, state.2)
  else (state.1, state.2 ++ [entry])

section Later

variable {contents value line text : Text} {key : String} {entry : String × Text}
  {values entries : List (String × Text)} {front back : List (Line Char)} {l : Line Char}

theorem isKey_titleKey : isKey titleKey = true := by decide +kernel

theorem lineNumber_split (hlines : linesOf contents = front ++ l :: back)
    (hl : keyText key <+: l.2) (hfront : ∀ l ∈ front, ¬ keyText key <+: l.2) :
    lineNumber contents key = front.length := by
  have hnone : front.findIdx (fun line => decide (keyText key <+: line.2)) = front.length := by
    rw [List.findIdx_eq_length]
    simpa using hfront
  rw [lineNumber, hlines, List.findIdx_append, hnone, if_neg (Nat.lt_irrefl _), List.findIdx_cons]
  simp [hl]

theorem lineNumber_lt (hlines : linesOf contents = front ++ back) (hl : l ∈ front)
    (hpre : keyText key <+: l.2) : lineNumber contents key < front.length := by
  have hlt : front.findIdx (fun line => decide (keyText key <+: line.2)) < front.length :=
    List.findIdx_lt_length_of_exists ⟨l, hl, by simpa using hpre⟩
  rw [lineNumber, hlines, List.findIdx_append, if_pos hlt]
  exact hlt

theorem replaceEnvValue_later (fileLabel : String) (htitle : OneLine contents titleKey)
    (hone : OneLine contents entry.1) (hvalues : ∀ e ∈ values, LineEntry e)
    (hentry : PlainEntry entry) (hne : entry.1 ≠ titleKey) (hnew : entry.1 ∉ values.map Prod.fst) :
    replaceEnvValue (mapLines (withTitle values text) contents) entry.1 (fun _ => .ok entry.2)
        fileLabel =
      .ok (mapLines (withTitle (laterStep contents (text, values) entry).2
        (laterStep contents (text, values) entry).1) contents) := by
  -- a line of another key, the title apart, is never matched
  have hother : ∀ {l : Line Char}, l ∈ linesOf contents → ¬ keyText entry.1 <+: l.2 →
      ¬ keyText titleKey <+: l.2 →
      search isLineTerminator (keyText entry.1) true (withTitle values text l.2) = none := by
    intro l hl hnot hnotTitle
    rw [withTitle, if_neg hnotTitle]
    exact search_rewritten hentry.key hvalues (plain_linesOf hl) hnot
  by_cases hcatches : Catches contents text entry.1
  · -- the line is found in the title, in front of its own
    obtain ⟨front, line, back, hlines, hline, hfront, hback⟩ := htitle.split
    have hnumber := hcatches.1
    rw [lineNumber_split hlines hline hfront] at hnumber
    have hearlier : ∀ l ∈ front, ¬ keyText entry.1 <+: l.2 := by
      intro l hl hpre
      have hlt := lineNumber_lt hlines hl hpre
      omega
    obtain ⟨⟨before, old, behind⟩, hsearch⟩ := Option.isSome_iff_exists.1 hcatches.2
    have hbody : withTitle values text line.2 = text := if_pos hline
    -- rewriting leaves the line ends where they are
    have hends : Ended isLineTerminator
        (onLines (withTitle values text) front ++ (line.1, text) ::
          onLines (withTitle values text) back) := by
      have hall : Ended isLineTerminator (onLines (withTitle values text) (linesOf contents)) :=
        Ended.onLines (ended_linesOf contents)
      rw [hlines] at hall
      simpa [Lines.onLines, hbody] using hall
    have hnone : ∀ l ∈ onLines (withTitle values text) front,
        search isLineTerminator (keyText entry.1) true l.2 = none := by
      intro l hl
      obtain ⟨l', hl', rfl⟩ := List.mem_map.1 hl
      have hmem : l' ∈ linesOf contents := hlines ▸ List.mem_append_left _ hl'
      exact hother hmem (hearlier l' hl') (hfront l' hl')
    obtain ⟨m, hfound, -, hput⟩ := replaceEnvValue_lines hentry.key hends hnone hsearch
    have hreplace := hfound.replaceEntry hentry fileLabel
    rw [hput] at hreplace
    have hcaught : caught entry text = before ++ (keyText entry.1 ++ entry.2) ++ behind := by
      rw [caught, hsearch]
    have hbody' : withTitle values (caught entry text) line.2 = caught entry text := if_pos hline
    have hsame : ∀ {ls : List (Line Char)}, (∀ l ∈ ls, ¬ keyText titleKey <+: l.2) →
        onLines (withTitle values (caught entry text)) ls = onLines (withTitle values text) ls := by
      intro ls hls
      apply List.map_congr_left
      intro l hl
      rw [withTitle, withTitle, if_neg (hls l hl), if_neg (hls l hl)]
    rw [laterStep, if_pos hcatches, mapLines_split hlines, hbody, hreplace, mapLines_split hlines,
      hbody', ← hcaught, hsame hfront, hsame hback]
  · -- the line of the key is the first one that is found
    obtain ⟨front, line, back, hlines, hline, hfront, hback⟩ := hone.split
    obtain ⟨old, hold⟩ := hline
    have hpre : keyText entry.1 <+: line.2 := ⟨old, hold⟩
    have hself : withTitle values text line.2 = line.2 := by
      rw [withTitle, if_neg (not_prefix_of_ne hentry.key isKey_titleKey hne hpre)]
      exact rewritten_other hvalues hentry.key hnew hpre
    have hnone : ∀ l ∈ front, ¬ keyText entry.1 <+: l.2 ∧
        search isLineTerminator (keyText entry.1) true (withTitle values text l.2) = none := by
      intro l hl
      refine ⟨hfront l hl, ?_⟩
      -- the title stands before the line: the search has not matched in it
      by_cases hltitle : keyText titleKey <+: l.2
      · have hlt := lineNumber_lt hlines hl hltitle
        rw [← lineNumber_split hlines hpre hfront] at hlt
        rw [withTitle, if_pos hltitle]
        have hnotSome : ¬ (search isLineTerminator (keyText entry.1) true text).isSome = true :=
          fun h => hcatches ⟨hlt, h⟩
        simpa using hnotSome
      · exact hother (hlines ▸ List.mem_append_left _ hl) (hfront l hl) hltitle
    obtain ⟨m, hfound, -, hput⟩ := found_split hentry.key hlines hold.symm hself hnone hback
    have hreplace := hfound.replaceEntry hentry fileLabel
    rw [hput] at hreplace
    rw [laterStep, if_neg hcatches, hreplace]
    congr 1
    apply mapLines_congr
    intro l _
    by_cases hl : keyText entry.1 <+: l.2
    · have hnotTitle := not_prefix_of_ne hentry.key isKey_titleKey hne hl
      rw [if_pos hl, withTitle, if_neg hnotTitle, rewritten_append hvalues hentry.key hnew, if_pos hl]
    · rw [if_neg hl, withTitle, withTitle, rewritten_append hvalues hentry.key hnew, if_neg hl]

/-! ### What is found in the title

If the title comes out as intended in the end, then whatever was found in it had the new value
already.
-/

/-- Lines in which some lines with keys have got new values. -/
def Changed (entries : List (String × Text)) (lines lines' : List (Line Char)) : Prop :=
  List.Forall₂ (fun l l' => l.1 = l'.1 ∧
    (l'.2 = l.2 ∨ ∃ e ∈ entries, keyText e.1 <+: l.2 ∧ l'.2 = keyText e.1 ++ e.2)) lines lines'

theorem Changed.refl (lines : List (Line Char)) : Changed entries lines lines :=
  List.forall₂_same.2 fun _ _ => ⟨rfl, Or.inl rfl⟩

theorem Changed.mono {more : List (String × Text)} {lines lines' : List (Line Char)}
    (h : Changed entries lines lines') (hmore : ∀ e ∈ entries, e ∈ more) :
    Changed more lines lines' := by
  apply List.Forall₂.imp _ h
  rintro l l' ⟨hsep, hsame | ⟨e, he, hpre, heq⟩⟩
  · exact ⟨hsep, Or.inl hsame⟩
  · exact ⟨hsep, Or.inr ⟨e, hmore e he, hpre, heq⟩⟩

theorem Changed.trans (hkeys : ∀ e ∈ entries, isKey e.1 = true) {lines lines' lines'' : List (Line Char)}
    (h : Changed entries lines lines') (h' : Changed entries lines' lines'') :
    Changed entries lines lines'' := by
  induction h generalizing lines'' with
  | nil => exact h'
  | cons hline _ ih =>
    cases h' with
    | cons hline' hrest' =>
      refine .cons ⟨hline.1.trans hline'.1, ?_⟩ (ih hrest')
      rcases hline'.2 with hsame' | ⟨e', he', hpre', heq'⟩
      · rw [hsame']
        exact hline.2
      · rcases hline.2 with hsame | ⟨e, he, hpre, heq⟩
        · exact Or.inr ⟨e', he', hsame ▸ hpre', heq'⟩
        · -- the line has the same key as before
          rw [heq] at hpre'
          have hkey := key_unique (hkeys e' he') (hkeys e he) hpre' (List.prefix_append _ _)
          exact Or.inr ⟨e', he', hkey ▸ hpre, heq'⟩

theorem caught_lines (hentry : PlainEntry entry) {found : Text × Text × Text}
    (hsearch : search isLineTerminator (keyText entry.1) true text = some found) :
    ∃ front s back, linesOf text = front ++ (s, keyText entry.1 ++ found.2.1) :: back ∧
      linesOf (caught entry text) = front ++ (s, keyText entry.1 ++ entry.2) :: back := by
  obtain ⟨before, old, behind⟩ := found
  obtain ⟨front, s, back, hlines, hnew⟩ := search_cut (t := '\n') (keyText_plain hentry.key) hsearch
  refine ⟨front, s, back, hlines, ?_⟩
  have hcaught : caught entry text = before ++ (keyText entry.1 ++ entry.2) ++ behind := by
    rw [caught, hsearch]
  rw [hcaught]
  exact hnew entry.2 hentry.line

theorem caught_self {found : Text × Text × Text}
    (hsearch : search isLineTerminator (keyText entry.1) true text = some found)
    (hvalue : found.2.1 = entry.2) : caught entry text = text := by
  rw [caught, hsearch, ← hvalue]
  exact (search_some hsearch).1.symm

theorem changed_caught (hentry : PlainEntry entry) :
    Changed [entry] (linesOf text) (linesOf (caught entry text)) := by
  cases hsearch : search isLineTerminator (keyText entry.1) true text with
  | none =>
    have hcaught : caught entry text = text := by rw [caught, hsearch]
    rw [hcaught]
    exact .refl _
  | some found =>
    obtain ⟨front, s, back, hlines, hlines'⟩ := caught_lines hentry hsearch
    rw [hlines, hlines']
    refine List.rel_append (Changed.refl front) (.cons ⟨rfl, Or.inr ?_⟩ (Changed.refl back))
    exact ⟨entry, List.mem_singleton_self _, List.prefix_append _ _, rfl⟩

theorem changed_run (contents : Text) (hentries : ∀ e ∈ entries, PlainEntry e) (state : Text × List (String × Text)) :
    Changed entries (linesOf state.1) (linesOf (entries.foldl (laterStep contents) state).1) := by
  induction entries generalizing state with
  | nil => exact .refl _
  | cons entry entries ih =>
    obtain ⟨hentry, hrest⟩ := List.forall_mem_cons.1 hentries
    have hkeys : ∀ e ∈ entry :: entries, isKey e.1 = true := fun e he => (hentries e he).key
    have hstep : Changed [entry] (linesOf state.1) (linesOf (laterStep contents state entry).1) := by
      unfold laterStep
      split
      · exact changed_caught hentry
      · exact .refl _
    have hmore := ih hrest (laterStep contents state entry)
    rw [List.foldl_cons]
    exact Changed.trans hkeys (hstep.mono (by simp)) (hmore.mono fun e he => List.mem_cons_of_mem _ he)

theorem count_caught (hentry : PlainEntry entry) :
    count isLineTerminator (caught entry text) = count isLineTerminator text := by
  unfold caught
  split
  · rename_i found hsearch
    obtain ⟨htext, hold, -⟩ := search_some hsearch
    rw [htext]
    simp only [count_append, hold.count_eq_zero, hentry.line.count_eq_zero]
  · rfl

theorem count_run (contents : Text) (hentries : ∀ e ∈ entries, PlainEntry e) (state : Text × List (String × Text)) :
    count isLineTerminator (entries.foldl (laterStep contents) state).1 =
      count isLineTerminator state.1 := by
  induction entries generalizing state with
  | nil => rfl
  | cons entry entries ih =>
    obtain ⟨hentry, hrest⟩ := List.forall_mem_cons.1 hentries
    rw [List.foldl_cons, ih hrest]
    unfold laterStep
    split
    · exact count_caught hentry
    · rfl

/-- Where nothing is lost in the title, what is found there has its new value already. -/
theorem caught_of_run (hentries : ∀ e ∈ entries, PlainEntry e) (hnodup : (entries.map Prod.fst).Nodup)
    (h : (entries.foldl (laterStep contents) (text, values)).1 = text) :
    ∀ e ∈ entries, Catches contents text e.1 → ∀ found,
      search isLineTerminator (keyText e.1) true text = some found →
        found.2.1 = e.2 ∧ caught e text = text := by
  induction entries generalizing values with
  | nil => simp
  | cons entry entries ih =>
    obtain ⟨hentry, hrest⟩ := List.forall_mem_cons.1 hentries
    obtain ⟨hnew, hnodup⟩ := List.nodup_cons.1 hnodup
    -- The first caught value is restored by no later step: a later step of the same key would be
    -- another entry with this key, and keys are distinct.
    have hhead : Catches contents text entry.1 → ∀ found,
        search isLineTerminator (keyText entry.1) true text = some found →
          found.2.1 = entry.2 ∧ caught entry text = text := by
      intro hcatches found hsearch
      obtain ⟨front, s, back, hlines, hlines'⟩ := caught_lines hentry hsearch
      have hchanged : Changed entries (linesOf (caught entry text)) (linesOf text) := by
        rw [List.foldl_cons, laterStep, if_pos hcatches] at h
        have hrun : Changed entries (linesOf (caught entry text))
            (linesOf (entries.foldl (laterStep contents) (caught entry text, values)).1) :=
          changed_run contents hrest (caught entry text, values)
        rwa [h] at hrun
      -- the two texts differ in one line at most; that line tells the value
      have hat : ∀ {front' : List (Line Char)},
          Changed entries (front' ++ (s, keyText entry.1 ++ entry.2) :: back)
            (front' ++ (s, keyText entry.1 ++ found.2.1) :: back) →
          keyText entry.1 ++ found.2.1 = keyText entry.1 ++ entry.2 := by
        intro front' hchanged
        induction front' with
        | nil =>
          cases hchanged with
          | cons hline _ =>
            rcases hline.2 with hsame | ⟨e, he, hpre, -⟩
            · exact hsame
            · have hkey := key_unique (hrest e he).key hentry.key hpre (List.prefix_append _ _)
              exact absurd (hkey ▸ List.mem_map_of_mem he) hnew
        | cons l front' ih =>
          cases hchanged with
          | cons _ hmore => exact ih hmore
      rw [hlines, hlines'] at hchanged
      have hsame := hat hchanged
      have hlinesSame : linesOf (caught entry text) = linesOf text := by
        rw [hlines, hlines', hsame]
      exact ⟨List.append_cancel_left hsame, cut_injective hlinesSame⟩
    intro e he hcatches
    rcases List.mem_cons.1 he with rfl | he
    · exact hhead hcatches
    · rw [List.foldl_cons] at h
      by_cases hcatchesHead : Catches contents text entry.1
      · obtain ⟨found, hsearch⟩ := Option.isSome_iff_exists.1 hcatchesHead.2
        rw [laterStep, if_pos hcatchesHead, (hhead hcatchesHead found hsearch).2] at h
        exact ih hrest hnodup h e he hcatches
      · rw [laterStep, if_neg hcatchesHead] at h
        exact ih hrest hnodup h e he hcatches

/-- ... and then the keys that are found there are not replaced elsewhere. -/
theorem run_of_caught (h : ∀ e ∈ entries, Catches contents text e.1 → caught e text = text) :
    entries.foldl (laterStep contents) (text, values) =
      (text, values ++ entries.filter fun e => ! decide (Catches contents text e.1)) := by
  induction entries generalizing values with
  | nil => simp
  | cons entry entries ih =>
    obtain ⟨hhead, hrest⟩ := List.forall_mem_cons.1 h
    rw [List.foldl_cons, laterStep]
    by_cases hcatches : Catches contents text entry.1
    · rw [if_pos hcatches, hhead hcatches, ih hrest, List.filter_cons_of_neg (by simp [hcatches])]
    · rw [if_neg hcatches, ih hrest, List.filter_cons_of_pos (by simp [hcatches])]
      simp

/-- The replacement text line by line, where no line is brought in. -/
theorem cut_getSubstitution (m : Match) (text : Text) (s : Char)
    (hcount : count isLineTerminator (getSubstitution m text) = count isLineTerminator text) :
    cut isLineTerminator s (getSubstitution m text) =
      onLines (getSubstitution m) (cut isLineTerminator s text) := by
  induction text using text_induction isLineTerminator generalizing s with
  | line a ha =>
    rw [ha.count_eq_zero] at hcount
    rw [cut_plain ha, cut_plain (count_eq_zero_iff.1 hcount)]
    rfl
  | more a d b ha hd ih =>
    have hb : count isLineTerminator b ≤ count isLineTerminator (getSubstitution m b) :=
      count_le_getSubstitution
    rw [getSubstitution_end hd, count_append, count_append, count_cons_end hd, count_cons_end hd,
      ha.count_eq_zero] at hcount
    have hline : Plain isLineTerminator (getSubstitution m a) := count_eq_zero_iff.1 (by omega)
    rw [getSubstitution_end hd, cut_append hd, cut_append hd, cut_plain ha, cut_plain hline,
      ih d (by omega)]
    rfl

/-- **The title itself is put in as it is**, where the replacements behind it end with the intended
line. -/
theorem getSubstitution_of_run (hentries : ∀ e ∈ entries, PlainEntry e) {m : Match}
    (h : (entries.foldl (laterStep contents) (getSubstitution m text, values)).1 = text) :
    getSubstitution m text = text := by
  have hcount : count isLineTerminator (getSubstitution m text) = count isLineTerminator text := by
    rw [← count_run contents hentries (getSubstitution m text, values), h]
  have hlines : linesOf (getSubstitution m text) = onLines (getSubstitution m) (linesOf text) :=
    cut_getSubstitution m text '\n' hcount
  have hrun := changed_run contents hentries (getSubstitution m text, values)
  rw [h, hlines, Changed, Lines.onLines, List.forall₂_map_left_iff, List.forall₂_same] at hrun
  have hline : ∀ l ∈ linesOf text, getSubstitution m l.2 = l.2 := by
    intro l hl
    rcases (hrun l hl).2 with hsame | ⟨e, he, -, heq⟩
    · exact hsame.symm
    · -- a line that was replaced is without `$`
      rw [heq]
      exact (hentries e he).getSubstitution m
  have hsame : onLines (getSubstitution m) (linesOf text) = linesOf text := by
    calc onLines (getSubstitution m) (linesOf text)
      _ = (linesOf text).map id := List.map_congr_left fun l hl => by rw [hline l hl]; rfl
      _ = linesOf text := List.map_id _
  exact cut_injective (hlines.trans hsame)

end Later

/-! ## Plain values, the title, plain values

The three parts of the loop put together.
-/

section Title

variable {contents value : Text} {key : String} {values entries : List (String × Text)}

theorem valueOf_eq_iff (hkey : isKey key = true) (hone : OneLine contents key) :
    valueOf contents key = some value ↔
      ∀ line ∈ linesOf contents, keyText key <+: line.2 → line.2 = keyText key ++ value := by
  obtain ⟨front, line, back, hlines, ⟨old, hold⟩, hfront, hback⟩ := hone.split
  have hmem : ∀ l ∈ front ++ line :: back, l ∈ linesOf contents := fun l hl => hlines ▸ hl
  obtain ⟨m, hfound, hcapture, -⟩ := found_split (f := id) hkey hlines hold.symm rfl
    (fun l hl => ⟨hfront l hl,
      search_none (plain_linesOf (hmem l (List.mem_append_left _ hl))) (hfront l hl)⟩) hback
  rw [mapLines_id] at hfound
  rw [hfound.valueOf_eq, hcapture, Option.some.injEq]
  constructor
  · rintro rfl l hl hpre
    rw [hlines] at hl
    rcases List.mem_append.1 hl with hl | hl
    · exact absurd hpre (hfront l hl)
    · rcases List.mem_cons.1 hl with rfl | hl
      · exact hold.symm
      · exact absurd hpre (hback l hl)
  · intro hall
    have hline := hall line (hmem line (by simp)) ⟨old, hold⟩
    rw [← hold] at hline
    exact List.append_cancel_left hline

theorem replaceAll_later (fileLabel : String) {text : Text} (htitle : OneLine contents titleKey)
    (hvalues : ∀ e ∈ values, LineEntry e)
    (hentries : ∀ e ∈ entries, PlainEntry e ∧ OneLine contents e.1 ∧ e.1 ≠ titleKey)
    (hnodup : ((values ++ entries).map Prod.fst).Nodup) :
    replaceAll fileLabel (mapLines (withTitle values text) contents) entries =
      .ok (mapLines (withTitle (entries.foldl (laterStep contents) (text, values)).2
        (entries.foldl (laterStep contents) (text, values)).1) contents) := by
  induction entries generalizing values text with
  | nil => rfl
  | cons entry entries ih =>
    obtain ⟨⟨hentry, hone, hne⟩, hrest⟩ := List.forall_mem_cons.1 hentries
    have hnew : entry.1 ∉ values.map Prod.fst := by
      rw [List.map_append, List.map_cons, List.nodup_append] at hnodup
      intro hmem
      exact hnodup.2.2 _ hmem _ List.mem_cons_self rfl
    show (replaceEnvValue _ _ _ _ >>= fun text => replaceAll fileLabel text entries) = _
    rw [replaceEnvValue_later fileLabel htitle hone hvalues hentry hne hnew, List.foldl_cons]
    unfold laterStep
    split
    · apply ih hvalues hrest
      refine hnodup.sublist (List.Sublist.map _ ?_)
      exact List.Sublist.append_left (List.sublist_cons_self _ _) _
    · apply ih (List.forall_mem_append.2
        ⟨hvalues, List.forall_mem_singleton.2 hentry.toLineEntry⟩) hrest
      simpa using hnodup

theorem isKey_of_mem {v : Text} (hvalues : ∀ e ∈ values, LineEntry e)
    (hentries : ∀ e ∈ entries, PlainEntry e) :
    ∀ e ∈ values ++ (titleKey, v) :: entries, isKey e.1 = true := by
  intro e he
  rcases List.mem_append.1 he with he | he
  · exact (hvalues e he).key
  · rcases List.mem_cons.1 he with rfl | he
    · exact isKey_titleKey
    · exact (hentries e he).key

theorem rewritten_title {v line : Text} (hvalues : ∀ e ∈ values, LineEntry e)
    (hentries : ∀ e ∈ entries, PlainEntry e)
    (hnodup : ((values ++ (titleKey, v) :: entries).map Prod.fst).Nodup)
    (hpre : keyText titleKey <+: line) :
    rewritten (values ++ (titleKey, v) :: entries) line = keyText titleKey ++ v := by
  have hmem : (titleKey, v) ∈ values ++ (titleKey, v) :: entries := by simp
  have hrewritten := rewritten_of_mem (isKey_of_mem hvalues hentries) hnodup hmem hpre
  exact hrewritten

/-- No line but the title's can get terminators. -/
theorem plain_rewritten_other {v line : Text} (hvalues : ∀ e ∈ values, LineEntry e)
    (hentries : ∀ e ∈ entries, PlainEntry e) (hline : Plain isLineTerminator line)
    (hnot : ¬ keyText titleKey <+: line) :
    Plain isLineTerminator (rewritten (values ++ (titleKey, v) :: entries) line) := by
  rcases rewritten_cases (values ++ (titleKey, v) :: entries) line with ⟨e, he, hpre, heq⟩ | ⟨-, heq⟩
  · rw [heq]
    rcases List.mem_append.1 he with he | he
    · exact (hvalues e he).plain
    · rcases List.mem_cons.1 he with rfl | he
      · exact absurd hpre hnot
      · exact (hentries e he).plain
  · rwa [heq]

/-- Which lines come out as intended when the title does. -/
theorem rewritten_eq_iff (hvalues : ∀ e ∈ values, LineEntry e)
    (hentries : ∀ e ∈ entries, PlainEntry e ∧ OneLine contents e.1 ∧ e.1 ≠ titleKey)
    (hnodup : ((values ++ (titleKey, value) :: entries).map Prod.fst).Nodup)
    (p : String × Text → Prop) [DecidablePred p] :
    (∀ line ∈ linesOf contents, ¬ keyText titleKey <+: line.2 →
        rewritten (values ++ entries.filter fun e => ! decide (p e)) line.2 =
          rewritten (values ++ (titleKey, value) :: entries) line.2) ↔
      ∀ e ∈ entries, p e → valueOf contents e.1 = some e.2 := by
  have hkeys := isKey_of_mem (v := value) hvalues fun e he => (hentries e he).1
  -- what is kept are entries of the whole list, with distinct keys
  have hkept : ∀ e ∈ values ++ entries.filter (fun e => ! decide (p e)),
      LineEntry e ∧ e ∈ values ++ (titleKey, value) :: entries := by
    intro e he
    rcases List.mem_append.1 he with he | he
    · exact ⟨hvalues e he, List.mem_append_left _ he⟩
    · have hmem := (List.mem_filter.1 he).1
      exact ⟨(hentries e hmem).1.toLineEntry, List.mem_append_right _ (List.mem_cons_of_mem _ hmem)⟩
  constructor
  · intro hall e he hp
    rw [valueOf_eq_iff (hentries e he).1.key (hentries e he).2.1]
    intro line hline hpre
    have hmem : e ∈ values ++ (titleKey, value) :: entries :=
      List.mem_append_right _ (List.mem_cons_of_mem _ he)
    -- no kept entry has the key, so the line of the file is left as it is
    have hnew : e.1 ∉ (values ++ entries.filter fun e => ! decide (p e)).map Prod.fst := by
      intro hfst
      obtain ⟨e', he', hkey⟩ := List.mem_map.1 hfst
      obtain rfl : e' = e := List.inj_on_of_nodup_map hnodup (hkept e' he').2 hmem hkey
      rcases List.mem_append.1 he' with he' | he'
      · rw [List.map_append, List.nodup_append] at hnodup
        exact hnodup.2.2 _ (List.mem_map_of_mem he') _
          (List.mem_map_of_mem (List.mem_cons_of_mem _ he)) rfl
      · have hnot := (List.mem_filter.1 he').2
        simp [hp] at hnot
    have hsame := hall line hline
      (not_prefix_of_ne (hentries e he).1.key isKey_titleKey (hentries e he).2.2 hpre)
    rwa [rewritten_of_mem hkeys hnodup hmem hpre,
      rewritten_other (fun e he => (hkept e he).1) (hentries e he).1.key hnew hpre] at hsame
  · intro hall line hline hnot
    rcases rewritten_cases (values ++ entries.filter fun e => ! decide (p e)) line.2 with
      ⟨e, he, hpre, heq⟩ | ⟨hnone, heq⟩
    · rw [heq, rewritten_of_mem hkeys hnodup (hkept e he).2 hpre]
    · rw [heq]
      rcases rewritten_cases (values ++ (titleKey, value) :: entries) line.2 with
        ⟨e, he, hpre, heq'⟩ | ⟨-, heq'⟩
      · -- the key is left out: its line has the value already
        have hentry : e ∈ entries ∧ p e := by
          rcases List.mem_append.1 he with he | he
          · exact absurd hpre (hnone e (List.mem_append_left _ he))
          · rcases List.mem_cons.1 he with rfl | he
            · exact absurd hpre hnot
            · by_contra hcontra
              have hp : ¬ p e := fun hp => hcontra ⟨he, hp⟩
              apply hnone e (List.mem_append_right _ (List.mem_filter.2 ⟨he, by simp [hp]⟩)) hpre
        have hvalue := hall e hentry.1 hentry.2
        rw [valueOf_eq_iff (hentries e hentry.1).1.key (hentries e hentry.1).2.1] at hvalue
        rw [heq', ← hvalue line hline hpre]
      · rw [heq']

/-- The title does not lose terminators, and no other line gets any. -/
theorem count_intended_le {v text : Text} {more : List (String × Text)}
    (hvalues : ∀ e ∈ values, LineEntry e) (hentries : ∀ e ∈ entries, PlainEntry e)
    (hnodup : ((values ++ (titleKey, v) :: entries).map Prod.fst).Nodup)
    (htext : count isLineTerminator (keyText titleKey ++ v) ≤ count isLineTerminator text) :
    ∀ line ∈ linesOf contents,
      count isLineTerminator (rewritten (values ++ (titleKey, v) :: entries) line.2) ≤
        count isLineTerminator (withTitle more text line.2) := by
  intro line hline
  by_cases hpre : keyText titleKey <+: line.2
  · rw [rewritten_title hvalues hentries hnodup hpre, withTitle, if_pos hpre]
    exact htext
  · have hplain := plain_rewritten_other (v := v) hvalues hentries (plain_linesOf hline) hpre
    rw [hplain.count_eq_zero]
    exact Nat.zero_le _

theorem title_not_mem (hnodup : ((values ++ (titleKey, value) :: entries).map Prod.fst).Nodup) :
    titleKey ∉ values.map Prod.fst := by
  rw [List.map_append, List.map_cons, List.nodup_append] at hnodup
  intro hmem
  exact hnodup.2.2 _ hmem _ List.mem_cons_self rfl

theorem nodup_without_title (hnodup : ((values ++ (titleKey, value) :: entries).map Prod.fst).Nodup) :
    ((values ++ entries).map Prod.fst).Nodup := by
  refine hnodup.sublist (List.Sublist.map _ ?_)
  exact List.Sublist.append_left (List.sublist_cons_self _ _) _

/-- The title and the values behind it, replaced. -/
theorem replaceAll_title (fileLabel : String) (htitle : OneLine contents titleKey)
    (hvalues : ∀ e ∈ values, LineEntry e)
    (hentries : ∀ e ∈ entries, PlainEntry e ∧ OneLine contents e.1 ∧ e.1 ≠ titleKey)
    (hnodup : ((values ++ (titleKey, value) :: entries).map Prod.fst).Nodup) :
    ∃ m, Found (withValues values contents) titleKey m ∧
      replaceAll fileLabel (withValues values contents) ((titleKey, value) :: entries) =
        .ok (mapLines (withTitle
          (entries.foldl (laterStep contents)
            (getSubstitution m (keyText titleKey ++ value), values)).2
          (entries.foldl (laterStep contents)
            (getSubstitution m (keyText titleKey ++ value), values)).1) contents) := by
  have hnewTitle := title_not_mem hnodup
  obtain ⟨m, hfound, -, hput⟩ := found_mapLines (f := rewritten values) isKey_titleKey htitle
    (fun line _ hpre => rewritten_other hvalues isKey_titleKey hnewTitle hpre)
    (fun line hline hnot => search_rewritten isKey_titleKey hvalues (plain_linesOf hline) hnot)
  refine ⟨m, hfound, ?_⟩
  rw [← replaceAll_later fileLabel htitle hvalues hentries (nodup_without_title hnodup)]
  show (replaceEnvValue (mapLines (rewritten values) contents) titleKey (fun _ => .ok value)
    fileLabel >>= fun text => replaceAll fileLabel text entries) = _
  rw [hfound.replace (fun _ => .ok value) rfl, hput]
  rfl

/-- **A text in which the title is replaced, and then the values behind it**, is as intended if and
only if the title is put in as it is and hides no later key. -/
theorem replaceAll_title_iff (fileLabel : String) (htitle : OneLine contents titleKey)
    (hvalues : ∀ e ∈ values, LineEntry e)
    (hentries : ∀ e ∈ entries, PlainEntry e ∧ OneLine contents e.1 ∧ e.1 ≠ titleKey)
    (hnodup : ((values ++ (titleKey, value) :: entries).map Prod.fst).Nodup) :
    replaceAll fileLabel (withValues values contents) ((titleKey, value) :: entries) =
        .ok (withValues (values ++ (titleKey, value) :: entries) contents) ↔
      StandsForItself (withValues values contents) titleKey value ∧
        ∀ e ∈ entries, Unshadowed contents value e := by
  have hplain : ∀ e ∈ entries, PlainEntry e := fun e he => (hentries e he).1
  have hnodupEntries : (entries.map Prod.fst).Nodup := by
    have hrest := nodup_without_title hnodup
    rw [List.map_append, List.nodup_append] at hrest
    exact hrest.2.1
  have htitleLine : ∀ line : Text, keyText titleKey <+: line →
      rewritten (values ++ (titleKey, value) :: entries) line = keyText titleKey ++ value :=
    fun line hpre => rewritten_title hvalues hplain hnodup hpre
  obtain ⟨m, hfound, hrun⟩ := replaceAll_title fileLabel htitle hvalues hentries hnodup
  rw [hrun, Except.ok.injEq, hfound.standsForItself_iff, withValues]
  constructor
  · intro h
    -- equal texts have equal lines: neither side has a line end too many
    have hlines := mapLines_inj (count_intended_le hvalues hplain hnodup (by
      rw [count_run contents hplain]
      exact count_le_getSubstitution)) h
    -- the line of the title has to be the title that was asked for
    have hlast : (entries.foldl (laterStep contents)
        (getSubstitution m (keyText titleKey ++ value), values)).1 = keyText titleKey ++ value := by
      obtain ⟨front, line, back, heq, hpre, -, -⟩ := htitle.split
      have hline := hlines line (by rw [heq]; simp)
      rwa [withTitle, if_pos hpre, htitleLine _ hpre] at hline
    have hsub := getSubstitution_of_run hplain hlast
    rw [hsub] at hlast hlines
    have hcaught := caught_of_run hplain hnodupEntries hlast
    have hstate : entries.foldl (laterStep contents) (keyText titleKey ++ value, values) =
        (keyText titleKey ++ value, values ++ entries.filter fun e =>
          ! decide (Catches contents (keyText titleKey ++ value) e.1)) := by
      apply run_of_caught
      intro e he hcatches
      obtain ⟨found, hsearch⟩ := Option.isSome_iff_exists.1 hcatches.2
      exact (hcaught e he hcatches found hsearch).2
    -- the caught entries are missing from the values, so their lines have them already
    have hvaluesOf : ∀ e ∈ entries, Catches contents (keyText titleKey ++ value) e.1 →
        valueOf contents e.1 = some e.2 := by
      apply (rewritten_eq_iff hvalues hentries hnodup fun e =>
        Catches contents (keyText titleKey ++ value) e.1).1
      intro line hline hnot
      have hsame := hlines line hline
      rwa [hstate, withTitle, if_neg hnot] at hsame
    refine ⟨hsub, fun e he found hshadowed => ?_⟩
    have hcatches : Catches contents (keyText titleKey ++ value) e.1 :=
      ⟨hshadowed.1, by rw [hshadowed.2]; rfl⟩
    exact ⟨(hcaught e he hcatches found hshadowed.2).1, hvaluesOf e he hcatches⟩
  · rintro ⟨hsub, hunshadowed⟩
    -- the converse: each caught entry writes what stands there
    have hat : ∀ e ∈ entries, Catches contents (keyText titleKey ++ value) e.1 →
        caught e (keyText titleKey ++ value) = keyText titleKey ++ value ∧
          valueOf contents e.1 = some e.2 := by
      intro e he hcatches
      obtain ⟨found, hsearch⟩ := Option.isSome_iff_exists.1 hcatches.2
      have hboth := hunshadowed e he found ⟨hcatches.1, hsearch⟩
      exact ⟨caught_self hsearch hboth.1, hboth.2⟩
    rw [hsub, run_of_caught fun e he hcatches => (hat e he hcatches).1]
    apply mapLines_congr
    intro line hline
    by_cases hpre : keyText titleKey <+: line.2
    · rw [withTitle, if_pos hpre, htitleLine _ hpre]
    · rw [withTitle, if_neg hpre]
      exact (rewritten_eq_iff hvalues hentries hnodup
        fun e => Catches contents (keyText titleKey ++ value) e.1).2
          (fun e he hcatches => (hat e he hcatches).2) line hline hpre

end Title

/-! ## Options

What the script has checked of its options keeps their characters away from `$` and from the ends
of lines.
-/

section Options

variable {api : UrlApi} {argv : List Text} {options : Options} {version text : Text}

/-- Letters, digits and the signs of names: no `$`, and no line ends with them. -/
def isNameChar (c : Char) : Bool := isLower c || isDigit c || c == '-' || c == '_' || c == '.' || c == ':'

theorem isNameChar_spec {c : Char} (h : isNameChar c = true) :
    c ≠ '$' ∧ isLineTerminator c = false := by
  have hrange : 0x2D ≤ c.toNat ∧ c.toNat ≤ 0x7A := by
    simp only [isNameChar, isLower, isDigit, Bool.or_eq_true, Bool.and_eq_true, decide_eq_true_eq,
      beq_iff_eq] at h
    rcases h with ((((⟨hl, hr⟩ | ⟨hl, hr⟩) | rfl) | rfl) | rfl) | rfl
    · exact ⟨le_trans (by decide) (show 'a'.toNat ≤ c.toNat from hl), hr⟩
    · exact ⟨le_trans (by decide) (show '0'.toNat ≤ c.toNat from hl),
        le_trans (show c.toNat ≤ '9'.toNat from hr) (by decide)⟩
    all_goals decide
  refine ⟨?_, ?_⟩
  · rintro rfl
    revert hrange
    decide
  · simp only [isLineTerminator, Bool.or_eq_false_iff, beq_eq_false_iff_ne]
    omega

/-- A value of such characters. -/
def isName (text : Text) : Bool := text.all isNameChar

theorem isName_append {a b : Text} (ha : isName a = true) (hb : isName b = true) :
    isName (a ++ b) = true := by
  simp only [isName, List.all_append, Bool.and_eq_true]
  exact ⟨ha, hb⟩

theorem plainEntry_of_isName {key : String} (hkey : isKey key = true) (htext : isName text = true) :
    PlainEntry (key, text) where
  key := hkey
  line c hc := (isNameChar_spec (List.all_eq_true.1 htext c hc)).2
  literal hc := (isNameChar_spec (List.all_eq_true.1 htext '$' hc)).1 rfl

theorem isName_of_slugRest {fresh : Bool} (h : slugRest fresh text = true) : isName text = true := by
  induction text generalizing fresh with
  | nil => rfl
  | cons c rest ih =>
    rw [slugRest] at h
    simp only [isName, List.all_cons, Bool.and_eq_true]
    split at h
    · rename_i hc
      simp only [Bool.and_eq_true] at h
      exact ⟨by simp [isNameChar, hc], ih h.2⟩
    · simp only [Bool.and_eq_true, Bool.or_eq_true] at h
      refine ⟨?_, ih h.2⟩
      rcases h.1 with hc | hc <;> simp [isNameChar, hc]

theorem isName_of_isSlug (h : isSlug text = true) : isName text = true := by
  cases text with
  | nil => rfl
  | cons c rest =>
    simp only [isSlug, Bool.and_eq_true] at h
    simp only [isName, List.all_cons, Bool.and_eq_true]
    exact ⟨by simp [isNameChar, h.1], isName_of_slugRest h.2⟩

theorem isName_of_isIdentifier (h : isIdentifier text = true) : isName text = true := by
  cases text with
  | nil => rfl
  | cons c rest =>
    simp only [isIdentifier, Bool.and_eq_true, List.all_eq_true] at h
    simp only [isName, List.all_cons, Bool.and_eq_true, List.all_eq_true]
    refine ⟨by simp [isNameChar, h.1], fun d hd => ?_⟩
    have hchar := h.2 d hd
    simp only [Bool.or_eq_true] at hchar
    rcases hchar with (hchar | hchar) | hchar <;> simp [isNameChar, hchar]

theorem isName_takeWhile (text : Text) : isName (text.takeWhile isDigit) = true := by
  unfold isName
  rw [List.all_eq_true]
  intro c hc
  have hdigit := List.mem_takeWhile_imp hc
  simp [isNameChar, hdigit]

theorem isName_of_isReleaseVersion (h : isReleaseVersion version = true) : isName version = true := by
  unfold isReleaseVersion at h
  split at h
  · rename_i rest
    simp only [List.span_eq_takeWhile_dropWhile] at h
    split at h
    · rename_i minor hminor
      split at h
      · rename_i patch hpatch
        simp only [Bool.and_eq_true, List.all_eq_true] at h
        have hdigits : isName patch = true := by
          simp only [isName, List.all_eq_true]
          intro c hc
          simp [isNameChar, h.2 c hc]
        have hparts : isName (['v'] ++ rest.takeWhile isDigit ++ (['.'] ++ minor.takeWhile isDigit ++
            (['.'] ++ patch))) = true :=
          isName_append (isName_append (by decide) (isName_takeWhile rest))
            (isName_append (isName_append (by decide) (isName_takeWhile minor))
              (isName_append (by decide) hdigits))
        have hminorText : minor = minor.takeWhile isDigit ++ '.' :: patch := by
          rw [← hpatch, List.takeWhile_append_dropWhile]
        have hrestText : rest = rest.takeWhile isDigit ++ '.' :: minor := by
          rw [← hminor, List.takeWhile_append_dropWhile]
        have htext : 'v' :: rest = ['v'] ++ rest.takeWhile isDigit ++
            (['.'] ++ minor.takeWhile isDigit ++ (['.'] ++ patch)) := by
          conv_lhs => rw [hrestText, hminorText]
          simp
        rw [htext]
        exact hparts
      · simp at h
    · simp at h
  · simp at h

/-- What `parseArguments` has checked. -/
theorem parseArguments_options (h : parseArguments api argv = .ok (.options options)) :
    isSlug options.slug = true ∧ isIdentifier options.database = true := by
  unfold parseArguments at h
  split at h
  · cases h
  · obtain ⟨values, -, h⟩ := bind_ok.1 h
    obtain ⟨slug, -, h⟩ := bind_ok.1 h
    split at h
    · cases h
    · rename_i hslug
      obtain ⟨database, -, h⟩ := bind_ok.1 h
      split at h
      · cases h
      · rename_i hdatabase
        obtain ⟨permissionPrefix, -, h⟩ := bind_ok.1 h
        split at h
        · cases h
        · obtain ⟨title, -, h⟩ := bind_ok.1 h
          obtain ⟨shortName, -, h⟩ := bind_ok.1 h
          obtain ⟨apiBaseUrl, -, h⟩ := bind_ok.1 h
          cases h
          exact ⟨by simpa using hslug, by simpa using hdatabase⟩

end Options

/-! ## The development environment

The address is written before the title. It comes from the `URL` of the surroundings, and may hold
a `$`.
-/

section Environment

variable {api : UrlApi} {options : Options} {contents url old : Text}

theorem escapeChar_plain {c : Char} (hc : isLineTerminator c = false) :
    Plain isLineTerminator (escapeChar c) := by
  have hshort : ∀ d : Char, isLineTerminator d = false → Plain isLineTerminator ['\\', d] := by
    intro d hd e he
    rcases List.mem_cons.1 he with rfl | he
    · decide
    · obtain rfl : e = d := by simpa using he
      exact hd
  have hhex : ∀ n < 16, isLineTerminator (hexDigit n) = false := by decide
  unfold escapeChar
  split
  · exact hshort _ (by decide)
  split
  · exact hshort _ (by decide)
  split
  · exact hshort _ (by decide)
  split
  · exact hshort _ (by decide)
  split
  · exact hshort _ (by decide)
  split
  · exact hshort _ (by decide)
  split
  · exact hshort _ (by decide)
  split
  · rename_i hcontrol
    intro e he
    simp only [List.mem_cons, List.not_mem_nil, or_false] at he
    rcases he with rfl | rfl | rfl | rfl | rfl | rfl
    · decide
    · decide
    · decide
    · decide
    · exact hhex _ (by omega)
    · exact hhex _ (by omega)
  · intro e he
    obtain rfl : e = c := by simpa using he
    exact hc

theorem databaseUrl_plain (h : databaseUrl api options.database old = .ok url) :
    Plain isLineTerminator url := by
  unfold databaseUrl at h
  split at h
  · cases h
  · rename_i parsed _
    cases h
    intro c hc
    rcases List.mem_cons.1 hc with rfl | hc
    · decide
    rcases List.mem_append.1 hc with hc | hc
    · obtain ⟨d, hd, hcd⟩ := List.mem_flatMap.1 hc
      have hprintable := api.printable _ d hd
      have hline : isLineTerminator d = false := by
        simp only [isLineTerminator, Bool.or_eq_false_iff, beq_eq_false_iff_ne]
        omega
      exact escapeChar_plain hline c hcd
    · obtain rfl : c = '"' := by simpa using hc
      decide

/-- The terminators of a text, all but one of whose lines hold none. -/
theorem count_mapLines {key : String} {f : Text → Text} (hone : OneLine contents key) {text : Text}
    (hself : ∀ line ∈ linesOf contents, keyText key <+: line.2 → f line.2 = text)
    (hother : ∀ line ∈ linesOf contents, ¬ keyText key <+: line.2 →
      Plain isLineTerminator (f line.2)) :
    count isLineTerminator (mapLines f contents) + 1 =
      (linesOf contents).length + count isLineTerminator text := by
  obtain ⟨front, line, back, hlines, hline, hfront, hback⟩ := hone.split
  have hmem : ∀ l ∈ front ++ line :: back, l ∈ linesOf contents := fun l hl => hlines ▸ hl
  have hparts : ∀ {ls : List (Line Char)}, (∀ l ∈ ls, l ∈ linesOf contents) →
      (∀ l ∈ ls, ¬ keyText key <+: l.2) →
      count isLineTerminator (render (onLines f ls)) = ls.length := by
    intro ls hls hnot
    rw [count_render, Lines.onLines, List.length_map]
    intro l hl
    obtain ⟨l', hl', rfl⟩ := List.mem_map.1 hl
    exact ⟨ended_linesOf contents l' (hls l' hl'), hother l' (hls l' hl') (hnot l' hl')⟩
  have hends : isLineTerminator line.1 = true := ended_linesOf contents line (hmem line (by simp))
  have hwhole := congrArg (count isLineTerminator) (render_mapLines f contents)
  have honLines : onLines f (linesOf contents) =
      onLines f front ++ (line.1, f line.2) :: onLines f back := by
    rw [hlines]
    simp [Lines.onLines]
  rw [honLines, render_append, render_cons, count_append, count_cons_end hends, count_append,
    hparts (fun l hl => hmem l (List.mem_append_left _ hl)) hfront,
    hparts (fun l hl => hmem l (List.mem_append_right _ (List.mem_cons_of_mem _ hl))) hback,
    hself line (hmem line (by simp)) hline, count_cons_end (by decide)] at hwhole
  rw [hlines, List.length_append, List.length_cons]
  dsimp only at hwhole
  omega

/-- A replacement does not lose terminators. -/
theorem count_le_replaceEnvValue {key : String} {value fileLabel out} (hkey : isKey key = true)
    (h : replaceEnvValue contents key (fun _ => .ok value) fileLabel = .ok out) :
    count isLineTerminator contents + count isLineTerminator value ≤ count isLineTerminator out := by
  unfold replaceEnvValue at h
  split at h
  · cases h
  · rename_i before capture behind hsearch
    obtain ⟨htext, hold, -⟩ := search_some hsearch
    obtain ⟨value', hvalue, h⟩ := bind_ok.1 h
    cases hvalue
    cases h
    have hle : count isLineTerminator (keyText key ++ value) ≤ count isLineTerminator
        (getSubstitution ⟨keyText key ++ capture, before, capture, behind⟩ (keyText key ++ value)) :=
      count_le_getSubstitution
    rw [htext]
    simp only [count_append, (keyText_plain hkey).count_eq_zero, hold.count_eq_zero] at hle ⊢
    omega

theorem buildEnvironment_eq (m : Match) (hfound : Found contents "DATABASE_URL" m)
    (hurl : databaseUrl api options.database (trim m.capture) = .ok url) :
    buildEnvironment api contents options = replaceAll "环境文件"
      (m.before ++ getSubstitution m (keyText "DATABASE_URL" ++ url) ++ m.behind)
      [("SERVICE_NAME", backendName options), (titleKey, stringify options.title)] := by
  unfold buildEnvironment
  rw [hfound.replace _ hurl]
  show (replaceEnvValue _ _ _ _ >>= fun text => replaceEnvValue text titleKey _ _) =
    (replaceEnvValue _ _ _ _ >>= fun text => replaceEnvValue text _ _ _ >>= fun text => .ok text)
  congr 1
  funext text
  cases replaceEnvValue text titleKey (fun _ => .ok (stringify options.title)) "环境文件" <;> rfl

theorem backendName_plain (hslug : isName options.slug = true) :
    PlainEntry ("SERVICE_NAME", backendName options) :=
  plainEntry_of_isName (by decide +kernel) (isName_append hslug (by decide +kernel))

theorem isKey_databaseUrl : isKey "DATABASE_URL" = true := by decide +kernel

theorem replaceAll_append (fileLabel : String) (entries more : List (String × Text)) :
    replaceAll fileLabel contents (entries ++ more) =
      (replaceAll fileLabel contents entries >>= fun text => replaceAll fileLabel text more) := by
  unfold replaceAll
  rw [List.foldlM_append]

theorem mapLines_single (key : String) (value : Text) :
    mapLines (fun line => if keyText key <+: line then keyText key ++ value else id line) contents =
      withValues [(key, value)] contents := by
  apply mapLines_congr
  intro line _
  by_cases hpre : keyText key <+: line.2
  · simp [rewritten, hpre]
  · simp [rewritten, hpre]

theorem lineEntries_url (hslug : isName options.slug = true) {value : Text}
    (hvalue : Plain isLineTerminator value) :
    ∀ e ∈ [("DATABASE_URL", value), ("SERVICE_NAME", backendName options)], LineEntry e := by
  intro e he
  simp only [List.mem_cons, List.not_mem_nil, or_false] at he
  rcases he with rfl | rfl
  · exact ⟨isKey_databaseUrl, hvalue⟩
  · exact (backendName_plain hslug).toLineEntry

theorem nodup_url (value : Text) (options : Options) :
    (([("DATABASE_URL", value), ("SERVICE_NAME", backendName options)] ++
      [(titleKey, stringify options.title)]).map Prod.fst).Nodup := by
  show ["DATABASE_URL", "SERVICE_NAME", "WEBAUTHN_RP_NAME"].Nodup
  decide

/-- The replacements behind the address. -/
theorem replaceAll_behindUrl (hslug : isName options.slug = true) {value : Text}
    (hvalue : Plain isLineTerminator value) (honeService : OneLine contents "SERVICE_NAME") :
    replaceAll "环境文件" (withValues [("DATABASE_URL", value)] contents)
        [("SERVICE_NAME", backendName options), (titleKey, stringify options.title)] =
      replaceAll "环境文件"
        (withValues [("DATABASE_URL", value), ("SERVICE_NAME", backendName options)] contents)
        [(titleKey, stringify options.title)] := by
  have hservice := backendName_plain hslug
  have hnodup : (([("DATABASE_URL", value)] ++ [("SERVICE_NAME", backendName options)]).map
      Prod.fst).Nodup := by
    show ["DATABASE_URL", "SERVICE_NAME"].Nodup
    decide
  have hplain : replaceAll "环境文件" (withValues [("DATABASE_URL", value)] contents)
      [("SERVICE_NAME", backendName options)] = .ok (withValues ([("DATABASE_URL", value)] ++
        [("SERVICE_NAME", backendName options)]) contents) :=
    replaceAll_plain "环境文件" (List.forall_mem_singleton.2 ⟨isKey_databaseUrl, hvalue⟩)
      (List.forall_mem_singleton.2 ⟨hservice, honeService⟩) hnodup
  show replaceAll "环境文件" _ ([("SERVICE_NAME", backendName options)] ++
    [(titleKey, stringify options.title)]) = _
  rw [replaceAll_append, hplain]
  rfl

/-- Where the result is as intended, the address has been put in on one line. -/
theorem plain_of_written (hslug : isName options.slug = true)
    (hone : ∀ key ∈ ["DATABASE_URL", "SERVICE_NAME", titleKey], OneLine contents key)
    {value : Text} (hurl : Plain isLineTerminator url)
    (h : replaceAll "环境文件"
      (mapLines (fun line => if keyText "DATABASE_URL" <+: line then keyText "DATABASE_URL" ++ value
        else id line) contents)
      [("SERVICE_NAME", backendName options), (titleKey, stringify options.title)] =
        .ok (withValues (environmentValues options url) contents)) :
    Plain isLineTerminator value := by
  obtain ⟨text, hservice, h⟩ := bind_ok.1 h
  obtain ⟨out, htitle, hout⟩ := bind_ok.1 h
  cases hout
  have h1 := count_le_replaceEnvValue (backendName_plain hslug).key hservice
  have h2 := count_le_replaceEnvValue isKey_titleKey htitle
  have hin : count isLineTerminator (mapLines (fun line => if keyText "DATABASE_URL" <+: line then
      keyText "DATABASE_URL" ++ value else id line) contents) + 1 = _ :=
    count_mapLines (hone "DATABASE_URL" (by simp)) (fun line _ hpre => if_pos hpre)
      fun line hline hnot => by
        rw [if_neg hnot]
        exact plain_linesOf hline
  have hnodup := nodup_url url options
  have hentries := lineEntries_url hslug hurl
  have hout : count isLineTerminator (mapLines (rewritten (environmentValues options url)) contents) +
      1 = _ :=
    count_mapLines (hone titleKey (by simp))
      (fun line _ hpre => rewritten_title hentries (by simp) hnodup hpre)
      fun line hline hnot => plain_rewritten_other hentries (by simp) (plain_linesOf hline) hnot
  rw [count_append, (keyText_plain isKey_databaseUrl).count_eq_zero] at hin
  rw [count_append, (keyText_plain isKey_titleKey).count_eq_zero] at hout
  rw [withValues] at h2
  rw [← count_eq_zero_iff]
  dsimp only at h1 h2
  omega

/-- **The development environment is as intended** if and only if the address and the title are put
in as they are. -/
theorem environmentWritten_iff (hslug : isName options.slug = true)
    (hone : ∀ key ∈ ["DATABASE_URL", "SERVICE_NAME", titleKey], OneLine contents key) :
    EnvironmentWritten api options contents ↔
      ∀ old url, valueOf contents "DATABASE_URL" = some old →
        databaseUrl api options.database (trim old) = .ok url →
        StandsForItself contents "DATABASE_URL" url ∧
          StandsForItself (withValues ((environmentValues options url).take 2) contents) titleKey
            (stringify options.title) := by
  have honeUrl := hone "DATABASE_URL" (by simp)
  have honeService := hone "SERVICE_NAME" (by simp)
  have honeTitle := hone titleKey (by simp)
  obtain ⟨m, hfound, hvalueOf, hput⟩ := found_mapLines (f := id) isKey_databaseUrl honeUrl
    (fun _ _ _ => rfl) fun line hline hnot => search_none (plain_linesOf hline) hnot
  rw [mapLines_id] at hfound
  unfold EnvironmentWritten
  refine forall_congr' fun old => forall_congr' fun url => forall_congr' fun hold =>
    forall_congr' fun hurl => ?_
  obtain rfl : m.capture = old := Option.some.inj (hvalueOf.symm.trans hold)
  have hplain := databaseUrl_plain hurl
  have hiff : replaceAll "环境文件" _ [(titleKey, stringify options.title)] = _ ↔ _ :=
    replaceAll_title_iff "环境文件" honeTitle (lineEntries_url hslug hplain) (by simp)
      (nodup_url url options)
  -- `String.replace` expands patterns in the URL only, not in the key
  have hsub : getSubstitution m (keyText "DATABASE_URL" ++ url) =
      keyText "DATABASE_URL" ++ getSubstitution m url :=
    getSubstitution_append (dollar_not_mem_keyText isKey_databaseUrl)
  rw [buildEnvironment_eq m hfound hurl, hput, hfound.standsForItself_iff, hsub,
    List.append_cancel_left_eq]
  -- once the URL stands for itself, what is left is the step of the title
  have hsame : getSubstitution m url = url →
      (replaceAll "环境文件" (mapLines (fun line => if keyText "DATABASE_URL" <+: line then
          keyText "DATABASE_URL" ++ getSubstitution m url else id line) contents)
        [("SERVICE_NAME", backendName options), (titleKey, stringify options.title)] =
          .ok (withValues (environmentValues options url) contents) ↔
        StandsForItself (withValues ((environmentValues options url).take 2) contents) titleKey
          (stringify options.title)) := by
    intro heq
    rw [heq, mapLines_single, replaceAll_behindUrl hslug hplain honeService]
    exact hiff.trans (and_iff_left (by simp))
  constructor
  · intro h
    have hvalue := plain_of_written hslug hone hplain h
    -- the line of the URL is not the title, so no later step rewrites it
    have hurlSame : getSubstitution m url = url := by
      have h' := h
      rw [mapLines_single, replaceAll_behindUrl hslug hvalue honeService] at h'
      obtain ⟨m', -, hrun⟩ := replaceAll_title "环境文件" honeTitle (lineEntries_url hslug hvalue)
        (by simp) (nodup_url (getSubstitution m url) options)
      rw [hrun, Except.ok.injEq] at h'
      have hlines := mapLines_inj (count_intended_le (lineEntries_url hslug hplain) (by simp)
        (nodup_url url options) count_le_getSubstitution) h'
      obtain ⟨front, line, back, heq, hpre, -, -⟩ := honeUrl.split
      have hline := hlines line (by rw [heq]; simp)
      have hnotTitle : ¬ keyText titleKey <+: line.2 :=
        not_prefix_of_ne isKey_databaseUrl isKey_titleKey (by decide) hpre
      have hleft : rewritten [("DATABASE_URL", getSubstitution m url),
          ("SERVICE_NAME", backendName options)] line.2 =
            keyText "DATABASE_URL" ++ getSubstitution m url := by
        simp [rewritten, hpre]
      have hright : rewritten ([("DATABASE_URL", url), ("SERVICE_NAME", backendName options)] ++
          [(titleKey, stringify options.title)]) line.2 = keyText "DATABASE_URL" ++ url := by
        simp [rewritten, hpre]
      rw [withTitle, if_neg hnotTitle, hright] at hline
      exact List.append_cancel_left (hleft.symm.trans hline)
    exact ⟨hurlSame, (hsame hurlSame).1 h⟩
  · rintro ⟨heq, htitle⟩
    exact (hsame heq).2 htitle

end Environment

/-! ## The production environment

Here the title is written fourth, with four keys behind it.
-/

section Production

variable {options : Options} {version contents : Text}

theorem withValues_nil (contents : Text) : withValues [] contents = contents := by
  have hid : withValues [] contents = mapLines id contents := mapLines_congr fun _ _ => rfl
  rw [hid, mapLines_id]

/-- The values of the production environment without the title. -/
theorem productionValues_plain (hslug : isName options.slug = true)
    (hdatabase : isName options.database = true) (hversion : isName version = true) :
    ∀ e ∈ productionValues options version, e.1 ≠ titleKey → PlainEntry e := by
  intro e he hne
  simp only [productionValues, List.mem_cons, List.not_mem_nil, or_false] at he
  rcases he with rfl | rfl | rfl | rfl | rfl | rfl | rfl | rfl
  · exact plainEntry_of_isName (by decide +kernel) hslug
  · exact plainEntry_of_isName (by decide +kernel) hdatabase
  · exact plainEntry_of_isName (by decide +kernel) hdatabase
  · exact absurd rfl hne
  · exact backendName_plain hslug
  · exact plainEntry_of_isName (by decide +kernel)
      (isName_append (isName_append hslug (by decide +kernel)) hversion)
  · exact plainEntry_of_isName (by decide +kernel)
      (isName_append (isName_append hslug (by decide +kernel)) hversion)
  · exact plainEntry_of_isName (by decide +kernel) (isName_append hslug (by decide +kernel))

/-- **The production environment is as intended** if and only if the title is put in as it is and
hides no key that is written after it. -/
theorem productionWritten_iff (hslug : isName options.slug = true)
    (hdatabase : isName options.database = true) (hversion : isName version = true)
    (hone : ∀ e ∈ productionValues options version, OneLine contents e.1) :
    ProductionWritten options version contents ↔
      StandsForItself (withValues ((productionValues options version).take 3) contents) titleKey
          (stringify options.title) ∧
        ∀ e ∈ (productionValues options version).drop 4,
          Unshadowed contents (stringify options.title) e := by
  have hplain := productionValues_plain hslug hdatabase hversion
  have hsplit : productionValues options version = (productionValues options version).take 3 ++
      (titleKey, stringify options.title) :: (productionValues options version).drop 4 := rfl
  have hnodup : ((productionValues options version).map Prod.fst).Nodup := by
    show ["COMPOSE_PROJECT_NAME", "POSTGRES_DB", "POSTGRES_USER", "WEBAUTHN_RP_NAME", "SERVICE_NAME",
      "BACKEND_IMAGE", "FRONTEND_IMAGE", "MONITORING_NETWORK"].Nodup
    decide
  -- the title is written fourth; the entries around it have other keys
  have hnotTitle : ∀ e ∈ (productionValues options version).take 3 ++
      (productionValues options version).drop 4, e.1 ≠ titleKey := by
    have hkeys : titleKey ∉ ["COMPOSE_PROJECT_NAME", "POSTGRES_DB", "POSTGRES_USER", "SERVICE_NAME",
        "BACKEND_IMAGE", "FRONTEND_IMAGE", "MONITORING_NETWORK"] := by decide
    intro e he hkey
    have hmem : e.1 ∈ ["COMPOSE_PROJECT_NAME", "POSTGRES_DB", "POSTGRES_USER", "SERVICE_NAME",
        "BACKEND_IMAGE", "FRONTEND_IMAGE", "MONITORING_NETWORK"] := List.mem_map_of_mem (f := Prod.fst) he
    rw [hkey] at hmem
    exact hkeys hmem
  have hfront : ∀ e ∈ (productionValues options version).take 3, PlainEntry e ∧ OneLine contents e.1 :=
    fun e he => ⟨hplain e (List.mem_of_mem_take he) (hnotTitle e (List.mem_append_left _ he)),
      hone e (List.mem_of_mem_take he)⟩
  have hback : ∀ e ∈ (productionValues options version).drop 4,
      PlainEntry e ∧ OneLine contents e.1 ∧ e.1 ≠ titleKey := by
    intro e he
    have hne := hnotTitle e (List.mem_append_right _ he)
    exact ⟨hplain e (List.mem_of_mem_drop he) hne, hone e (List.mem_of_mem_drop he), hne⟩
  have hnodupFront : (([] ++ (productionValues options version).take 3).map Prod.fst).Nodup := by
    rw [List.nil_append]
    exact hnodup.sublist (List.Sublist.map _ (List.take_sublist _ _))
  -- the three entries in front of the title are written as they are
  have hfirst : replaceAll "deployment/.env.production.example" (withValues [] contents)
      ((productionValues options version).take 3) = .ok (withValues
        ([] ++ (productionValues options version).take 3) contents) :=
    replaceAll_plain _ (List.forall_mem_nil _) hfront hnodupFront
  rw [withValues_nil, List.nil_append] at hfirst
  rw [ProductionWritten, buildProductionEnvironment, hsplit, replaceAll_append, hfirst]
  have htitle : (titleKey, stringify options.title) ∈ productionValues options version := by
    rw [hsplit]
    simp
  rw [hsplit] at hnodup
  have honeTitle := hone (titleKey, stringify options.title) htitle
  dsimp only at honeTitle
  have hlines : ∀ e ∈ (productionValues options version).take 3, LineEntry e := by
    intro e he
    exact (hfront e he).1.toLineEntry
  exact replaceAll_title_iff _ honeTitle hlines hback hnodup

end Production

/-- **The environment files of a new project** hold the values that were given if and only if the
address and the title are put in as they are, and the title hides no key that is written after it. -/
theorem environments_written_iff {api : UrlApi} {argv : List Text} {options : Options}
    {version environment production : Text}
    (hargs : parseArguments api argv = .ok (.options options))
    (hversion : isReleaseVersion version = true)
    (henvironment : ∀ key ∈ ["DATABASE_URL", "SERVICE_NAME", titleKey], OneLine environment key)
    (hproduction : ∀ e ∈ productionValues options version, OneLine production e.1) :
    (EnvironmentWritten api options environment ∧ ProductionWritten options version production ∧
      parseString (stringify options.title) = some (codeUnits (String.ofList options.title))) ↔
      (∀ old url, valueOf environment "DATABASE_URL" = some old →
        databaseUrl api options.database (trim old) = .ok url →
        StandsForItself environment "DATABASE_URL" url ∧
          StandsForItself (withValues ((environmentValues options url).take 2) environment) titleKey
            (stringify options.title)) ∧
      StandsForItself (withValues ((productionValues options version).take 3) production) titleKey
          (stringify options.title) ∧
        ∀ e ∈ (productionValues options version).drop 4,
          Unshadowed production (stringify options.title) e := by
  obtain ⟨hslug, hdatabase⟩ := parseArguments_options hargs
  have hslug := isName_of_isSlug hslug
  have hdatabase := isName_of_isIdentifier hdatabase
  have hversion := isName_of_isReleaseVersion hversion
  rw [environmentWritten_iff hslug henvironment,
    productionWritten_iff hslug hdatabase hversion hproduction,
    and_iff_left (parseString_stringify options.title)]

/-- A value without `$` is put in as it is. -/
theorem standsForItself_of_not_mem {contents value : Text} {key : String} (hkey : isKey key = true)
    (hvalue : '$' ∉ value) : StandsForItself contents key value := by
  intro before capture behind _
  apply getSubstitution_of_not_mem
  intro hmem
  exact (List.mem_append.1 hmem).elim (dollar_not_mem_keyText hkey) hvalue

/-- A title on one line hides nothing. -/
theorem unshadowed_of_plain {contents value : Text} {entry : String × Text}
    (hkey : isKey entry.1 = true) (hne : entry.1 ≠ titleKey) (hvalue : Plain isLineTerminator value) :
    Unshadowed contents value entry := by
  rintro found ⟨-, hsearch⟩
  have hentry : LineEntry (titleKey, value) := ⟨isKey_titleKey, hvalue⟩
  have hplain : Plain isLineTerminator (keyText titleKey ++ value) := hentry.plain
  have hnot := not_prefix_of_ne isKey_titleKey hkey (Ne.symm hne) (List.prefix_append _ value)
  rw [search_none hplain hnot] at hsearch
  cases hsearch

/-- `URL` for addresses of one server: the path is what can be changed. -/
def sampleUrl : UrlApi where
  Url := {path : Text // ∀ c ∈ path, 0x20 ≤ c.toNat ∧ c.toNat ≤ 0x7E}
  parse text :=
    if text = "postgres://localhost:5432/arc_admin".toList then
      some ⟨['/'], fun c hc => by
        obtain rfl : c = '/' := by simpa using hc
        decide⟩
    else none
  protocol _ := "postgres:".toList
  username _ := []
  password _ := []
  search _ := []
  hash _ := []
  setPathname url path :=
    if h : (path.all fun c => decide (0x20 ≤ c.toNat ∧ c.toNat ≤ 0x7E)) = true then
      ⟨path, fun c hc => by simpa using List.all_eq_true.1 h c hc⟩
    else url
  serialize url := "postgres://localhost:5432".toList ++ url.val
  printable url c hc := by
    rcases List.mem_append.1 hc with hc | hc
    · have hall : ("postgres://localhost:5432".toList.all fun c =>
          decide (0x20 ≤ c.toNat ∧ c.toNat ≤ 0x7E)) = true := by decide +kernel
      simpa using List.all_eq_true.1 hall c hc
    · exact url.property c hc

def sampleArguments (title : String) : List Text :=
  ["--slug", "stock", "--title", title, "--database", "stock_db", "--permission-prefix", "stock"].map
    String.toList

def sampleOptions (title : String) : Options where
  slug := "stock".toList
  title := title.toList
  shortName := title.toList
  database := "stock_db".toList
  permissionPrefix := "stock".toList
  apiBaseUrl := "/api/v1".toList

def sampleEnvironment : Text :=
  ("DATABASE_URL=\"postgres://localhost:5432/arc_admin\"\nPORT=8080\nSERVICE_NAME=arc\n" ++
    "WEBAUTHN_RP_NAME=\"Arc\"\n").toList

def sampleProduction : Text :=
  ("COMPOSE_PROJECT_NAME=arc\nPOSTGRES_DB=arc\nPOSTGRES_USER=arc\nWEBAUTHN_RP_NAME=\"Arc\"\n" ++
    "SERVICE_NAME=arc\nBACKEND_IMAGE=arc\nFRONTEND_IMAGE=arc\nMONITORING_NETWORK=arc\n").toList

def sampleVersion : Text := "v1.2.3".toList

theorem sample_oneLine (title : String) :
    (∀ key ∈ ["DATABASE_URL", "SERVICE_NAME", titleKey], OneLine sampleEnvironment key) ∧
      ∀ e ∈ productionValues (sampleOptions title) sampleVersion, OneLine sampleProduction e.1 := by
  refine ⟨by decide +kernel, ?_⟩
  have hkeys : ∀ key ∈ ["COMPOSE_PROJECT_NAME", "POSTGRES_DB", "POSTGRES_USER", "WEBAUTHN_RP_NAME",
      "SERVICE_NAME", "BACKEND_IMAGE", "FRONTEND_IMAGE", "MONITORING_NETWORK"],
      OneLine sampleProduction key := by
    decide +kernel
  intro e he
  exact hkeys e.1 (List.mem_map_of_mem (f := Prod.fst) he)

/-- A plain title. -/
theorem environments_written_stock :
    EnvironmentWritten sampleUrl (sampleOptions "Stock") sampleEnvironment ∧
      ProductionWritten (sampleOptions "Stock") sampleVersion sampleProduction ∧
      parseString (stringify (sampleOptions "Stock").title) =
        some (codeUnits (String.ofList (sampleOptions "Stock").title)) := by
  have hargs : parseArguments sampleUrl (sampleArguments "Stock") =
      .ok (.options (sampleOptions "Stock")) := by
    decide +kernel
  obtain ⟨henvironment, hproduction⟩ := sample_oneLine "Stock"
  have hvalueOf : valueOf sampleEnvironment "DATABASE_URL" =
      some "\"postgres://localhost:5432/arc_admin\"".toList := by
    decide +kernel
  have haddress : databaseUrl sampleUrl (sampleOptions "Stock").database
      (trim "\"postgres://localhost:5432/arc_admin\"".toList) =
        .ok "\"postgres://localhost:5432/stock_db\"".toList := by
    decide +kernel
  have htitle : ∀ contents, StandsForItself contents titleKey (stringify (sampleOptions "Stock").title) :=
    fun _ => standsForItself_of_not_mem isKey_titleKey (by decide +kernel)
  refine (environments_written_iff hargs (by decide +kernel) henvironment hproduction).2
    ⟨fun old url hold hurl => ⟨?_, htitle _⟩, htitle _, fun e he => ?_⟩
  · obtain rfl := Option.some.inj (hvalueOf.symm.trans hold)
    obtain rfl := Except.ok.inj (haddress.symm.trans hurl)
    exact standsForItself_of_not_mem isKey_databaseUrl (by decide +kernel)
  · have hkeys : ∀ key ∈ ["SERVICE_NAME", "BACKEND_IMAGE", "FRONTEND_IMAGE", "MONITORING_NETWORK"],
        isKey key = true ∧ key ≠ titleKey := by
      decide +kernel
    obtain ⟨hkey, hne⟩ := hkeys e.1 (List.mem_map_of_mem (f := Prod.fst) he)
    have hcount : count isLineTerminator (stringify (sampleOptions "Stock").title) = 0 := by
      decide +kernel
    exact unshadowed_of_plain hkey hne (count_eq_zero_iff.1 hcount)

/-- **`A$$B`** is written as `A$B`, in both files. -/
theorem environments_dollar :
    parseArguments sampleUrl (sampleArguments "A$$B") = .ok (.options (sampleOptions "A$$B")) ∧
      ¬ EnvironmentWritten sampleUrl (sampleOptions "A$$B") sampleEnvironment ∧
      ¬ ProductionWritten (sampleOptions "A$$B") sampleVersion sampleProduction := by
  have hvalueOf : valueOf sampleEnvironment "DATABASE_URL" =
      some "\"postgres://localhost:5432/arc_admin\"".toList := by
    decide +kernel
  have haddress : databaseUrl sampleUrl (sampleOptions "A$$B").database
      (trim "\"postgres://localhost:5432/arc_admin\"".toList) =
        .ok "\"postgres://localhost:5432/stock_db\"".toList := by
    decide +kernel
  refine ⟨by decide +kernel, fun hwritten => ?_, ?_⟩
  · have hresult := hwritten _ _ hvalueOf haddress
    revert hresult
    decide +kernel
  · unfold ProductionWritten
    decide +kernel

/-- A line separator in the title hides the line of the service name. -/
theorem production_separator :
    parseArguments sampleUrl (sampleArguments "A\u2028SERVICE_NAME=x") =
        .ok (.options (sampleOptions "A\u2028SERVICE_NAME=x")) ∧
      ¬ ProductionWritten (sampleOptions "A\u2028SERVICE_NAME=x") sampleVersion sampleProduction := by
  refine ⟨by decide +kernel, ?_⟩
  unfold ProductionWritten
  decide +kernel

end ArcAdmin.InitProject

import ArcAdmin.Flow.Audit.Sample
import ArcAdmin.Proofs.ReportAttribution

/-!
# Matches that a comment hides

The matches of a pattern that the scan looks at do not overlap, so that one which starts in a comment
and reaches into the code takes the place of those that start in the code behind it.

* **`mem_findIter_or`** — a match that is not found overlaps with one that is;
* **`codeReported_iff`** — a file with a match in its code is reported unless each of these overlaps
  with one that was found in a comment.
-/

namespace ArcAdmin

namespace Flow

namespace Audit

/-! ## The matches that are found

`find_iter` takes the leftmost match behind the last one. What it passes over therefore overlaps
with something that it has found.
-/

namespace Regex

variable {regex : Regex} {text : Text} {starts : List Nat} {last : Option Nat} {found : Match}

theorem mayFollow_some {last : Nat} :
    mayFollow (some last) found = true ↔ last ≤ found.1 ∧ found ≠ (last, last) := by
  simp [mayFollow]

theorem matchAt_of_mem (h : found ∈ regex.findFrom text starts last) :
    found.1 ∈ starts ∧ regex.matchAt text found.1 = some found.2 := by
  induction starts generalizing last with
  | nil => exact absurd h List.not_mem_nil
  | cons start rest ih =>
    have hrest : ∀ {last}, found ∈ regex.findFrom text rest last →
        found.1 ∈ start :: rest ∧ regex.matchAt text found.1 = some found.2 := fun h =>
      ⟨List.mem_cons_of_mem _ (ih h).1, (ih h).2⟩
    rw [findFrom] at h
    cases hmatch : regex.matchAt text start with
    | none =>
      simp only [hmatch] at h
      exact hrest h
    | some stop =>
      simp only [hmatch] at h
      split at h
      · rcases List.mem_cons.1 h with rfl | h
        · exact ⟨List.mem_cons_self, hmatch⟩
        · exact hrest h
      · exact hrest h

/-- What is found may follow the last match before it. -/
theorem mayFollow_of_mem (h : found ∈ regex.findFrom text starts last) :
    mayFollow last found = true := by
  induction starts generalizing last with
  | nil => exact absurd h List.not_mem_nil
  | cons start rest ih =>
    rw [findFrom] at h
    cases hmatch : regex.matchAt text start with
    | none =>
      simp only [hmatch] at h
      exact ih h
    | some stop =>
      simp only [hmatch] at h
      split at h
      · rename_i hfollows
        rcases List.mem_cons.1 h with rfl | h
        · exact hfollows
        · cases last with
          | none => rfl
          | some last =>
            obtain ⟨hle, hne⟩ := mayFollow_some.1 hfollows
            obtain ⟨hle', hne'⟩ := mayFollow_some.1 (ih h)
            have hstop := regex.start_le hmatch
            refine mayFollow_some.2 ⟨by simp only at hle; omega, ?_⟩
            rintro rfl
            simp only at hle hle' hne hne'
            have hlast : last = stop := by omega
            exact hne' (by rw [hlast])
      · exact ih h

/-- The matches that are found come one after the other. -/
theorem findFrom_pairwise (hstarts : starts.Pairwise (· < ·)) :
    (regex.findFrom text starts last).Pairwise fun a b =>
      a.1 < b.1 ∧ mayFollow (some a.2) b = true := by
  induction starts generalizing last with
  | nil => exact List.Pairwise.nil
  | cons start rest ih =>
    obtain ⟨hstart, hrest⟩ := List.pairwise_cons.1 hstarts
    rw [findFrom]
    split
    · exact ih hrest
    · split
      · refine List.pairwise_cons.2 ⟨fun found hfound => ?_, ih hrest⟩
        exact ⟨hstart _ (matchAt_of_mem hfound).1, mayFollow_of_mem hfound⟩
      · exact ih hrest

/-- A match that is not found overlaps with the last one before, or with one that is found. -/
theorem mem_findFrom_or (hstarts : starts.Pairwise (· < ·)) (hmem : found.1 ∈ starts)
    (hmatch : regex.matchAt text found.1 = some found.2) (hfollows : mayFollow last found = true) :
    found ∈ regex.findFrom text starts last ∨
      ∃ earlier ∈ regex.findFrom text starts last,
        earlier.1 < found.1 ∧ mayFollow (some earlier.2) found = false := by
  induction starts generalizing last with
  | nil => exact absurd hmem List.not_mem_nil
  | cons start rest ih =>
    obtain ⟨hstart, hrest⟩ := List.pairwise_cons.1 hstarts
    rw [findFrom]
    rcases List.mem_cons.1 hmem with hhead | hmem
    · rw [← hhead, hmatch]
      simp only [hfollows, if_true]
      exact Or.inl List.mem_cons_self
    · cases hother : regex.matchAt text start with
      | none => exact ih hrest hmem hfollows
      | some stop =>
        simp only
        split
        · -- the match in front is found
          by_cases hbehind : mayFollow (some stop) found = true
          · rcases ih hrest hmem hbehind with hfound | ⟨earlier, hearlier, hoverlaps⟩
            · exact Or.inl (List.mem_cons_of_mem _ hfound)
            · exact Or.inr ⟨earlier, List.mem_cons_of_mem _ hearlier, hoverlaps⟩
          · exact Or.inr ⟨(start, stop), List.mem_cons_self, hstart _ hmem,
              Bool.eq_false_iff.2 hbehind⟩
        · exact ih hrest hmem hfollows

theorem offsets_pairwise (text : Text) : (offsets text).Pairwise (· < ·) := List.pairwise_lt_range

theorem mem_offsets {start stop : Nat} (h : regex.matchAt text start = some stop) :
    start ∈ offsets text := by
  have hstart := regex.start_le h
  have hstop := regex.stop_le h
  exact List.mem_range.2 (by omega)

/-- **A match that is not found overlaps with one that is.** -/
theorem mem_findIter_or (hmatch : regex.matchAt text found.1 = some found.2) :
    found ∈ regex.findIter text ∨
      ∃ earlier ∈ regex.findIter text,
        earlier.1 < found.1 ∧ mayFollow (some earlier.2) found = false :=
  mem_findFrom_or (offsets_pairwise text) (mem_offsets hmatch) hmatch rfl

/-- **Matches that are found do not overlap.** -/
theorem mayFollow_of_findIter {earlier : Match} (hearlier : earlier ∈ regex.findIter text)
    (hfound : found ∈ regex.findIter text) (hlt : earlier.1 < found.1) :
    mayFollow (some earlier.2) found = true := by
  have hpairwise : (regex.findIter text).Pairwise fun a b =>
      a.1 < b.1 ∧ mayFollow (some a.2) b = true := findFrom_pairwise (offsets_pairwise text)
  obtain ⟨i, hi, rfl⟩ := List.mem_iff_getElem.1 hearlier
  obtain ⟨j, hj, rfl⟩ := List.mem_iff_getElem.1 hfound
  rcases Nat.lt_trichotomy i j with hij | rfl | hji
  · exact (List.pairwise_iff_getElem.1 hpairwise i j hi hj hij).2
  · exact absurd hlt (Nat.lt_irrefl _)
  · have := (List.pairwise_iff_getElem.1 hpairwise j i hj hi hji).1
    omega

end Regex

/-! ## The violations of a file

Only the first match of a line is reported, but whether anything is reported depends on the
comments alone.
-/

namespace Checkout

variable {checkout : Checkout} {content : Text} {file : List Text} {comments : List Range}
  {ruleName : Text}

theorem report_comment {findings : Findings} {found : Match}
    (h : isCommentOffset comments found.1 = true) :
    report content file comments [] ruleName findings found = findings := by
  simp [report, h]

theorem report_code {found : Match} (h : isCommentOffset comments found.1 = false) :
    (report content file comments [] ruleName ⟨[], []⟩ found).violations ≠ [] := by
  simp [report, h]

theorem violations_grow {start : Findings} (found : List Match) (h : start.violations ≠ []) :
    (found.foldl (report content file comments [] ruleName) start).violations ≠ [] := by
  induction found generalizing start with
  | nil => exact h
  | cons first rest ih =>
    refine ih ?_
    obtain hsame | ⟨v, -, hnew⟩ := report_cases content file comments [] ruleName start first
    · rwa [hsame]
    · rw [hnew]
      simp

/-- The matches of a pattern leave nothing exactly when all of them start in comments. -/
theorem foldl_report (found : List Match) :
    ((∀ m ∈ found, isCommentOffset comments m.1 = true) ∧
      found.foldl (report content file comments [] ruleName) ⟨[], []⟩ = ⟨[], []⟩) ∨
    ((∃ m ∈ found, isCommentOffset comments m.1 = false) ∧
      (found.foldl (report content file comments [] ruleName) ⟨[], []⟩).violations ≠ []) := by
  induction found with
  | nil => exact Or.inl ⟨fun m hm => absurd hm List.not_mem_nil, rfl⟩
  | cons first rest ih =>
    rw [List.foldl_cons]
    cases hfirst : isCommentOffset comments first.1 with
    | true =>
      rw [report_comment hfirst]
      rcases ih with ⟨hall, hnone⟩ | ⟨⟨m, hm, hcode⟩, hsome⟩
      · exact Or.inl ⟨List.forall_mem_cons.2 ⟨hfirst, hall⟩, hnone⟩
      · exact Or.inr ⟨⟨m, List.mem_cons_of_mem _ hm, hcode⟩, hsome⟩
    | false =>
      exact Or.inr ⟨⟨first, List.mem_cons_self, hfirst⟩, violations_grow rest (report_code hfirst)⟩

/-- **A file is reported** exactly when some match that is found starts outside the comments. -/
theorem findings_ne_nil {patterns : List Pattern} :
    (findings content file comments [] patterns).violations ≠ [] ↔
      ∃ pattern ∈ patterns, ∃ found ∈ pattern.regex.findIter content,
        isCommentOffset comments found.1 = false := by
  have hgrow : ∀ (patterns : List Pattern) (start : Findings), start.violations ≠ [] →
      (patterns.foldl (fun findings pattern => (pattern.regex.findIter content).foldl
        (report content file comments [] pattern.ruleName) findings) start).violations ≠ [] := by
    intro patterns start hstart
    induction patterns generalizing start with
    | nil => exact hstart
    | cons pattern patterns ih => exact ih _ (violations_grow _ hstart)
  unfold findings
  induction patterns with
  | nil => simp
  | cons pattern patterns ih =>
    rw [List.foldl_cons]
    rcases @foldl_report content file comments pattern.ruleName
      (pattern.regex.findIter content) with ⟨hall, hnone⟩ | ⟨hcode, hsome⟩
    · rw [hnone]
      refine ih.trans ?_
      constructor
      · rintro ⟨other, hother, hfound⟩
        exact ⟨other, List.mem_cons_of_mem _ hother, hfound⟩
      · rintro ⟨other, hother, found, hfound, hcode⟩
        rcases List.mem_cons.1 hother with rfl | hother
        · rw [hall found hfound] at hcode
          exact Bool.noConfusion hcode
        · exact ⟨other, hother, found, hfound, hcode⟩
    · exact iff_of_true (hgrow patterns _ hsome) ⟨pattern, List.mem_cons_self, hcode⟩

end Checkout

/-! ## Matches in the code

Matches as the expression has them, whether or not the search comes to them.
-/

/-- Some pattern has a match that starts outside the comments. -/
def CodeMatch (regexes : List Regex) (content : Text) (comments : List Range) : Prop :=
  ∃ regex ∈ regexes, ∃ found : Match, regex.matchAt content found.1 = some found.2 ∧
    isCommentOffset comments found.1 = false

/-- Some pattern has a match that starts outside the comments and that does not overlap with a match
which was found in a comment in front of it. -/
def ClearMatch (regexes : List Regex) (content : Text) (comments : List Range) : Prop :=
  ∃ regex ∈ regexes, ∃ found : Match, regex.matchAt content found.1 = some found.2 ∧
    isCommentOffset comments found.1 = false ∧
      ∀ earlier ∈ regex.findIter content, isCommentOffset comments earlier.1 = true →
        earlier.1 < found.1 → Regex.mayFollow (some earlier.2) found = true

variable {regexes : List Regex} {content : Text} {comments : List Range}

/-- **A match in the code is found** exactly when one of them is clear of those in comments. -/
theorem clearMatch_iff : ClearMatch regexes content comments ↔
    ∃ regex ∈ regexes, ∃ found ∈ regex.findIter content,
      isCommentOffset comments found.1 = false := by
  constructor
  · rintro ⟨regex, hregex, found, hmatch, hcode, hclear⟩
    refine ⟨regex, hregex, ?_⟩
    rcases Regex.mem_findIter_or hmatch with hfound | ⟨earlier, hearlier, hlt, hoverlaps⟩
    · exact ⟨found, hfound, hcode⟩
    · -- the match that is in its way does not start in a comment
      refine ⟨earlier, hearlier, ?_⟩
      by_contra hcomment
      have hfollows := hclear earlier hearlier (by simpa using hcomment) hlt
      rw [hoverlaps] at hfollows
      exact Bool.noConfusion hfollows
  · rintro ⟨regex, hregex, found, hfound, hcode⟩
    exact ⟨regex, hregex, found, (Regex.matchAt_of_mem hfound).2, hcode, fun earlier hearlier _ hlt =>
      Regex.mayFollow_of_findIter hearlier hfound hlt⟩

/-! ## The files of a rule

From a file to the scan of the rule, which walks over all of them.
-/

/-- The walk has come to a file that the rule is about, and lists it as one file. -/
structure ScannedFile (checkout : Checkout) (config : Config) (excludeDirs : List AbsolutePath)
    (rule : HardRule) (entry : Entry) (content : Text) : Prop where
  selected : ∃ rootPaths entries excludeRegexes,
    checkout.resolveRuleRoots rule.paths config.paths.aliases rule.name = .ok rootPaths ∧
    checkout.walk config.engine.ignoreFilename rootPaths = .ok entries ∧
    checkout.compileRegexes rule.excludePatterns = .ok excludeRegexes ∧
    entry ∈ entries ∧
    checkout.isSelected rule.extensions excludeDirs excludeRegexes rule.allowlist entry = true ∧
    ∀ other ∈ entries, checkout.relative other.path = checkout.relative entry.path → other = entry
  content_eq : entry.content = .ok content

/-- The rule has a violation in the file. -/
def Reported (checkout : Checkout) (entry : Entry) (violations : List Violation) : Prop :=
  ∃ v ∈ violations, v.file = checkout.relative entry.path

namespace Checkout

variable {checkout : Checkout} {config : Config} {excludeDirs : List AbsolutePath} {rule : HardRule}
  {entry : Entry} {violations : List Violation}

theorem rootPaths_ne_nil {rootPaths : List AbsolutePath} {aliases : List (Text × Text)}
    {name : Text} (h : checkout.resolveRuleRoots rule.paths aliases name = .ok rootPaths) :
    rootPaths.isEmpty = false := by
  obtain ⟨_, hnone, h⟩ := bind_ok.1 h
  have hempty := bailIf_ok.1 hnone
  have hlength := (mapM_forall₂ h).length_eq
  cases rootPaths with
  | nil =>
    rw [List.length_nil, List.length_eq_zero_iff] at hlength
    rw [hlength] at hempty
    exact nomatch hempty
  | cons path rest => rfl

theorem validated_of_mem {Rule : Type} {name : Rule → Text}
    {validate : List Text → Rule → Except Error Unit} {names names' : List Text} {rules : List Rule}
    (h : validateRules name validate names rules = .ok names') {rule : Rule} (hrule : rule ∈ rules) :
    ∃ before, validate before rule = .ok () := by
  induction rules generalizing names with
  | nil => exact absurd hrule List.not_mem_nil
  | cons first rules ih =>
    rw [validateRules] at h
    obtain ⟨_, hfirst, h⟩ := bind_ok.1 h
    rcases List.mem_cons.1 hrule with rfl | hrule
    · exact ⟨names, hfirst⟩
    · exact ih h hrule

theorem hardRule_patterns (h : checkout.validateAuditConfig config = .ok excludeDirs)
    (hrule : rule ∈ config.hardRules) : rule.patterns.isEmpty = false := by
  obtain ⟨_, -, h⟩ := bind_ok.1 h
  obtain ⟨_, -, h⟩ := bind_ok.1 h
  obtain ⟨_, -, h⟩ := bind_ok.1 h
  obtain ⟨_, -, h⟩ := bind_ok.1 h
  obtain ⟨names, hhard, -⟩ := bind_ok.1 h
  obtain ⟨before, hvalid⟩ := validated_of_mem hhard hrule
  obtain ⟨_, -, hvalid⟩ := bind_ok.1 hvalid
  obtain ⟨_, -, hvalid⟩ := bind_ok.1 hvalid
  obtain ⟨_, hempty, -⟩ := bind_ok.1 hvalid
  exact (Bool.or_eq_false_iff.1 (bailIf_ok.1 hempty)).2

theorem scanSource_ne_nil {engine : EngineConfig} {patterns : List Pattern} {content : Text}
    (hcontent : entry.content = .ok content)
    (h : checkout.scanSource engine [] patterns entry = .ok violations) :
    violations ≠ [] ↔ ∃ pattern ∈ patterns, ∃ found ∈ pattern.regex.findIter content,
      isCommentOffset (commentsOf engine entry.path content) found.1 = false := by
  obtain ⟨content', hread, hpure⟩ := bind_ok.1 h
  have hsame := context_ok.1 hread
  rw [hcontent] at hsame
  cases hsame
  cases hpure
  have hempty : ∀ found : List Violation,
      (found.mergeSort fun a b => decide (a.line ≤ b.line)) = [] ↔ found = [] := by
    intro found
    rw [← List.length_eq_zero_iff, List.length_mergeSort, List.length_eq_zero_iff]
  rw [ne_eq, hempty]
  exact findings_ne_nil

/-- The patterns of a rule, compiled. -/
theorem exists_pattern (name : Text → Text) {regexes : List Regex} {texts : List Text}
    (h : checkout.compileRegexes texts = .ok regexes) {P : Regex → Prop} :
    (∃ pattern ∈ (regexes.zip texts).map fun (regex, text) => (⟨regex, name text⟩ : Pattern),
      P pattern.regex) ↔ ∃ regex ∈ regexes, P regex := by
  have hlength := (mapM_forall₂ h).length_eq
  constructor
  · rintro ⟨pattern, hpattern, hP⟩
    obtain ⟨⟨regex, text⟩, hzip, rfl⟩ := List.mem_map.1 hpattern
    exact ⟨regex, (List.of_mem_zip hzip).1, hP⟩
  · rintro ⟨regex, hregex, hP⟩
    obtain ⟨text, hzip⟩ := exists_own hlength.symm hregex
    exact ⟨⟨regex, name text⟩, List.mem_map.2 ⟨(regex, text), hzip, rfl⟩, hP⟩

/-- **What the scan of a rule reports of a file** is what it finds in it. -/
theorem reported_iff (hvalid : checkout.validateAuditConfig config = .ok excludeDirs)
    (hrule : rule ∈ config.hardRules) {content : Text}
    (hfile : ScannedFile checkout config excludeDirs rule entry content)
    (h : checkout.scanHardRule config excludeDirs rule = .ok violations) {regexes : List Regex}
    (hregexes : checkout.compileRegexes rule.patterns = .ok regexes) :
    Reported checkout entry violations ↔
      ∃ regex ∈ regexes, ∃ found ∈ regex.findIter content,
        isCommentOffset (commentsOf config.engine entry.path content) found.1 = false := by
  obtain ⟨⟨rootPaths, entries, excludeRegexes, hroots, hwalk, hexclude, hentry, hselected, hone⟩,
    hcontent⟩ := hfile
  obtain ⟨rootPaths', hroots', h⟩ := bind_ok.1 h
  rw [hroots] at hroots'
  cases hroots'
  rw [scanFiles, rootPaths_ne_nil hroots, hardRule_patterns hvalid hrule] at h
  obtain ⟨regexes', hregexes', h⟩ := bind_ok.1 h
  rw [hregexes] at hregexes'
  cases hregexes'
  obtain ⟨excludeRegexes', hexclude', h⟩ := bind_ok.1 h
  rw [hexclude] at hexclude'
  cases hexclude'
  obtain ⟨entries', hwalk', h⟩ := bind_ok.1 h
  rw [hwalk] at hwalk'
  cases hwalk'
  obtain ⟨perFile, hperFile, hpure⟩ := bind_ok.1 h
  cases hpure
  have hforall := mapM_forall₂ hperFile
  have hmem : entry ∈ entries.filter
      (checkout.isSelected rule.extensions excludeDirs excludeRegexes rule.allowlist) :=
    List.mem_filter.2 ⟨hentry, hselected⟩
  obtain ⟨own, hzip⟩ := exists_own hforall.length_eq hmem
  have hown := (List.forall₂_iff_zip.1 hforall).2 hzip
  rw [← exists_pattern (fun pattern => rule.name ++ ':' :: pattern) hregexes, ← scanSource_ne_nil hcontent hown]
  constructor
  · rintro ⟨v, hv, hfile⟩
    obtain ⟨other, hother, hv⟩ := List.mem_flatten.1 hv
    obtain ⟨entry', hzip'⟩ := exists_rule hforall.length_eq hother
    have hscan := (List.forall₂_iff_zip.1 hforall).2 hzip'
    -- the violation is of the entry that it names
    have hsame : entry' = entry := by
      refine hone entry' (List.mem_filter.1 (List.of_mem_zip hzip').1).1 ?_
      rw [← hfile, (scanSource_name hscan v hv).1]
    rw [hsame] at hscan
    rw [hscan] at hown
    cases hown
    exact List.ne_nil_of_mem hv
  · intro hne
    obtain ⟨v, hv⟩ := List.exists_mem_of_ne_nil own hne
    exact ⟨v, List.mem_flatten.2 ⟨own, (List.of_mem_zip hzip).2, hv⟩, (scanSource_name hown v hv).1⟩

/-- **A match in the code is reported** unless every such match overlaps with one that was found in a
comment in front of it. -/
theorem codeReported_iff (hvalid : checkout.validateAuditConfig config = .ok excludeDirs)
    (hrule : rule ∈ config.hardRules) {content : Text}
    (hfile : ScannedFile checkout config excludeDirs rule entry content)
    (h : checkout.scanHardRule config excludeDirs rule = .ok violations) {regexes : List Regex}
    (hregexes : checkout.compileRegexes rule.patterns = .ok regexes) :
    (CodeMatch regexes content (commentsOf config.engine entry.path content) →
        Reported checkout entry violations) ↔
      (CodeMatch regexes content (commentsOf config.engine entry.path content) →
        ClearMatch regexes content (commentsOf config.engine entry.path content)) := by
  rw [reported_iff hvalid hrule hfile h hregexes, clearMatch_iff]

/-- The rule that finds passwords in logs. -/
def logRule : HardRule := smallRule "logs".toList ["log\\([^;]*?password".toList]

def logEntry (content : Text) : Entry :=
  ⟨["repo".toList, "src".toList, "a.rs".toList], false, .ok content⟩

theorem scannedFile_log {content : Text}
    (hselected : (logCheckout content).isSelected logRule.extensions [] [] logRule.allowlist
      (logEntry content) = true) :
    ScannedFile (logCheckout content) (smallConfig [logRule]) [] logRule (logEntry content) content where
  selected :=
    ⟨[["repo".toList, "src".toList]], [logEntry content], [], by rfl, by rfl, by rfl,
      List.mem_singleton.2 rfl, hselected, fun _ hother _ => List.mem_singleton.1 hother⟩
  content_eq := rfl

/-- The comment and the code behind it, with a semicolon between them. -/
def apart : Text := "// log(x);\nlog(password".toList

theorem codeReported_log :
    Reported (logCheckout apart) (logEntry apart)
      [⟨["src".toList, "a.rs".toList], 2, "log(password".toList,
        "logs:log\\([^;]*?password".toList⟩] := by
  have hvalid : (logCheckout apart).validateAuditConfig (smallConfig [logRule]) = .ok [] := by
    decide +kernel
  have hscan : (logCheckout apart).scanHardRule (smallConfig [logRule]) [] logRule =
      .ok [⟨["src".toList, "a.rs".toList], 2, "log(password".toList,
        "logs:log\\([^;]*?password".toList⟩] := by decide +kernel
  have hcode : (between "log(".toList "password".toList).matchAt apart 11 = some 23 ∧
      isCommentOffset (commentsOf (smallConfig [logRule]).engine (logEntry apart).path apart) 11 =
        false := by decide +kernel
  have hclear : ∀ earlier ∈ (between "log(".toList "password".toList).findIter apart,
      isCommentOffset (commentsOf (smallConfig [logRule]).engine (logEntry apart).path apart)
        earlier.1 = true → earlier.1 < 11 → Regex.mayFollow (some earlier.2) (11, 23) = true := by
    decide +kernel
  refine (codeReported_iff hvalid (List.mem_singleton.2 rfl) (scannedFile_log (by decide +kernel))
    hscan (by rfl)).2 (fun _ => ?_) ?_
  · exact ⟨_, List.mem_singleton.2 rfl, (11, 23), hcode.1, hcode.2, hclear⟩
  · exact ⟨_, List.mem_singleton.2 rfl, (11, 23), hcode⟩

/-- The comment and the code behind it, with no semicolon between them. -/
def joined : Text := "// log(x)\nlog(password".toList

/-- The match that starts in the comment reaches into the code, and is dropped. -/
theorem codeReported_comment :
    (logCheckout joined).validateAuditConfig (smallConfig [logRule]) = .ok [] ∧
      ScannedFile (logCheckout joined) (smallConfig [logRule]) [] logRule (logEntry joined) joined ∧
      CodeMatch [between "log(".toList "password".toList] joined
        (commentsOf (smallConfig [logRule]).engine (logEntry joined).path joined) ∧
      (logCheckout joined).scanHardRule (smallConfig [logRule]) [] logRule = .ok [] := by
  have hcode : (between "log(".toList "password".toList).matchAt joined 10 = some 22 ∧
      isCommentOffset (commentsOf (smallConfig [logRule]).engine (logEntry joined).path joined) 10 =
        false := by decide +kernel
  exact ⟨by decide +kernel, scannedFile_log (by decide +kernel),
    ⟨_, List.mem_singleton.2 rfl, (10, 22), hcode⟩, by decide +kernel⟩

end Checkout

end Audit

end Flow

end ArcAdmin

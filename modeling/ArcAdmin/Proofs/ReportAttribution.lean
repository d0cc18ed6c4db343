import Mathlib.Data.List.Nodup
import Mathlib.Data.List.Forall2
import ArcAdmin.Flow.Audit.Sample

/-!
# What the report counts under a rule

The violations of the hard rules are one list when the report is made. It finds those of a rule by
their names: a violation is named by its rule and its pattern, and the name of a rule may be in front
of the name of another one.

* **`map_filter_flatten_iff`** — when the elements of several lists are told apart again;
* **`attributed_iff`** — the report counts each violation under the rule that has produced it unless
  the name of another hard rule is in front of the name of the violation.
-/

namespace ArcAdmin

namespace Flow

namespace Audit

/-! ## Telling the elements of several lists apart

Several lists are joined, and then filtered by one condition each. This gives the lists back
exactly if no condition takes an element of another list.
-/

section Flatten

variable {R V : Type} {p : R → V → Bool} {rules : List R} {found : List (List V)}

/-- Every element is of the list of its rule. -/
def Own (p : R → V → Bool) (rules : List R) (found : List (List V)) : Prop :=
  List.Forall₂ (fun rule own => ∀ v ∈ own, p rule v = true) rules found

/-- An element of the list of a rule that another rule takes for its own. -/
def Confused (p : R → V → Bool) (rules : List R) (found : List (List V)) : Prop :=
  ∃ x ∈ rules.zip found, ∃ v ∈ x.2, ∃ other ∈ rules, other ≠ x.1 ∧ p other v = true

theorem exists_own (h : rules.length = found.length) {rule : R} (hrule : rule ∈ rules) :
    ∃ own, (rule, own) ∈ rules.zip found := by
  rw [← List.map_fst_zip (Nat.le_of_eq h)] at hrule
  obtain ⟨⟨rule, own⟩, hmem, rfl⟩ := List.mem_map.1 hrule
  exact ⟨own, hmem⟩

theorem exists_rule (h : rules.length = found.length) {own : List V} (hown : own ∈ found) :
    ∃ rule, (rule, own) ∈ rules.zip found := by
  rw [← List.map_snd_zip (Nat.le_of_eq h.symm)] at hown
  obtain ⟨⟨rule, own⟩, hmem, rfl⟩ := List.mem_map.1 hown
  exact ⟨rule, hmem⟩

theorem own_le (h : Own p rules found) {x : R × List V} (hx : x ∈ rules.zip found) :
    x.2.length ≤ (found.flatten.filter (p x.1)).length := by
  induction h with
  | nil => exact absurd hx List.not_mem_nil
  | @cons rule own rules found hown hrest ih =>
    rw [List.flatten_cons, List.filter_append, List.length_append]
    rcases List.mem_cons.1 hx with rfl | hx
    · rw [List.filter_eq_self.2 hown]
      exact Nat.le_add_right _ _
    · exact le_trans (ih hx) (Nat.le_add_left _ _)

/-- **The lists are found again** when no rule takes an element of another one. -/
theorem map_filter_flatten (hown : Own p rules found) (hnodup : rules.Nodup)
    (hclear : ¬ Confused p rules found) :
    rules.map (fun rule => found.flatten.filter (p rule)) = found := by
  induction hown with
  | nil => rfl
  | @cons rule own rules found hown hrest ih =>
    obtain ⟨hrule, hnodup⟩ := List.nodup_cons.1 hnodup
    have hother : ∀ other ∈ rules, own.filter (p other) = [] := by
      intro other hmem
      refine List.filter_eq_nil_iff.2 fun v hv hp => hclear ?_
      exact ⟨(rule, own), List.mem_cons_self, v, hv, other, List.mem_cons_of_mem _ hmem,
        fun heq => hrule ((show other = rule from heq) ▸ hmem), hp⟩
    have hbehind : found.flatten.filter (p rule) = [] := by
      refine List.filter_eq_nil_iff.2 fun v hv hp => hclear ?_
      obtain ⟨own', hown', hv⟩ := List.mem_flatten.1 hv
      obtain ⟨rule', hzip⟩ := exists_rule hrest.length_eq hown'
      have hmem : rule' ∈ rules := (List.of_mem_zip hzip).1
      exact ⟨(rule', own'), List.mem_cons_of_mem _ hzip, v, hv, rule, List.mem_cons_self,
        fun heq => hrule (heq ▸ hmem), hp⟩
    have hclear' : ¬ Confused p rules found := fun ⟨x, hx, v, hv, other, hmem, hne, hp⟩ =>
      hclear ⟨x, List.mem_cons_of_mem _ hx, v, hv, other, List.mem_cons_of_mem _ hmem, hne, hp⟩
    rw [List.map_cons, List.flatten_cons, List.filter_append, List.filter_eq_self.2 hown, hbehind,
      List.append_nil]
    congr 1
    calc rules.map (fun other => (own ++ found.flatten).filter (p other))
        = rules.map (fun other => found.flatten.filter (p other)) := by
          refine List.map_congr_left fun other hmem => ?_
          rw [List.filter_append, hother other hmem, List.nil_append]
      _ = found := ih hnodup hclear'

/-- An element that is taken twice is counted twice. -/
theorem not_confused_of_length (hown : Own p rules found)
    (hlength : rules.map (fun rule => (found.flatten.filter (p rule)).length) =
      found.map List.length) : ¬ Confused p rules found := by
  induction hown with
  | nil => exact fun ⟨x, hx, _⟩ => absurd hx List.not_mem_nil
  | @cons rule own rules found hown hrest ih =>
    simp only [List.map_cons, List.flatten_cons, List.filter_append, List.length_append,
      List.cons.injEq] at hlength
    obtain ⟨hhead, htail⟩ := hlength
    rw [List.filter_eq_self.2 hown] at hhead
    have hbehind : found.flatten.filter (p rule) = [] :=
      List.eq_nil_of_length_eq_zero (by omega)
    -- no rule behind takes an element of the first one
    have hfront : ∀ x ∈ rules.zip found, own.filter (p x.1) = [] ∧
        (found.flatten.filter (p x.1)).length = x.2.length := by
      intro x hx
      obtain ⟨index, hlt, hget⟩ := List.mem_iff_getElem.1 hx
      rw [List.length_zip] at hlt
      have hat := congrArg (fun l => l[index]?) htail
      simp only [List.getElem?_map, List.getElem?_eq_getElem (show index < rules.length by omega),
        List.getElem?_eq_getElem (show index < found.length by omega), Option.map_some,
        Option.some.injEq] at hat
      rw [List.getElem_zip] at hget
      subst hget
      have hle := own_le hrest hx
      simp only at hle ⊢
      exact ⟨List.eq_nil_of_length_eq_zero (by omega), by omega⟩
    have htail' : rules.map (fun rule => (found.flatten.filter (p rule)).length) =
        found.map List.length := by
      rw [← htail]
      refine List.map_congr_left fun other hother => ?_
      obtain ⟨own', hzip⟩ := exists_own hrest.length_eq hother
      rw [(hfront _ hzip).1, List.length_nil, Nat.zero_add]
    rintro ⟨x, hx, v, hv, other, hother, hne, hp⟩
    rcases List.mem_cons.1 hx with rfl | htail
    · rcases List.mem_cons.1 hother with rfl | hother
      · exact hne rfl
      · obtain ⟨own', hzip⟩ := exists_own hrest.length_eq hother
        have hnone := (hfront _ hzip).1
        exact List.filter_eq_nil_iff.1 hnone v hv hp
    · rcases List.mem_cons.1 hother with rfl | hother
      · have hmem : v ∈ found.flatten := List.mem_flatten.2 ⟨x.2, (List.of_mem_zip htail).2, hv⟩
        exact List.filter_eq_nil_iff.1 hbehind v hmem hp
      · exact ih htail' ⟨x, htail, v, hv, other, hother, hne, hp⟩

end Flatten

/-! ## The violations of a rule

How a violation is named. The name of a hard rule is in front of it, with a separator that may be
part of another name.
-/

namespace Checkout

variable {checkout : Checkout} {config : Config} {excludeDirs : List AbsolutePath}

theorem mapM_forall₂ {α β ε : Type} {f : α → Except ε β} {as : List α} {bs : List β}
    (h : as.mapM f = .ok bs) : List.Forall₂ (fun a b => f a = .ok b) as bs := by
  induction as generalizing bs with
  | nil =>
    cases h
    exact List.Forall₂.nil
  | cons a as ih =>
    rw [List.mapM_cons] at h
    obtain ⟨b, hb, hrest⟩ := bind_ok.1 h
    obtain ⟨bs', hbs, hpure⟩ := bind_ok.1 hrest
    cases hpure
    exact List.Forall₂.cons hb (ih hbs)

/-- A match adds one violation at most. -/
theorem report_cases (content : Text) (file : List Text) (comments : List Range)
    (allowed : List Regex) (ruleName : Text) (start : Findings) (found : Match) :
    (report content file comments allowed ruleName start found).violations = start.violations ∨
      ∃ v : Violation, (v.file = file ∧ v.ruleName = ruleName) ∧
        (report content file comments allowed ruleName start found).violations =
          start.violations ++ [v] := by
  simp only [report]
  split
  · exact Or.inl rfl
  · exact Or.inr ⟨_, ⟨rfl, rfl⟩, rfl⟩

/-- Every violation of a file names the file and one of the patterns. -/
theorem findings_name {content : Text} {file : List Text} {comments : List Range}
    {allowed : List Regex} {patterns : List Pattern} :
    ∀ v ∈ (findings content file comments allowed patterns).violations,
      v.file = file ∧ ∃ pattern ∈ patterns, v.ruleName = pattern.ruleName := by
  have hreport : ∀ (pattern : Pattern) (matches' : List Match) (start : Findings),
      (∀ v ∈ start.violations, v.file = file ∧ ∃ pattern ∈ patterns, v.ruleName = pattern.ruleName) →
      pattern ∈ patterns →
      ∀ v ∈ (matches'.foldl (report content file comments allowed pattern.ruleName) start).violations,
        v.file = file ∧ ∃ pattern ∈ patterns, v.ruleName = pattern.ruleName := by
    intro pattern matches' start hstart hpattern
    induction matches' generalizing start with
    | nil => exact hstart
    | cons found rest ih =>
      refine ih _ fun v hv => ?_
      obtain hsame | ⟨new, ⟨hfile, hname⟩, hnew⟩ :=
        report_cases content file comments allowed pattern.ruleName start found
      · exact hstart v (hsame ▸ hv)
      · rw [hnew] at hv
        rcases List.mem_append.1 hv with hv | hv
        · exact hstart v hv
        · obtain rfl := List.mem_singleton.1 hv
          exact ⟨hfile, pattern, hpattern, hname⟩
  have hall : ∀ (some : List Pattern) (start : Findings), (∀ pattern ∈ some, pattern ∈ patterns) →
      (∀ v ∈ start.violations, v.file = file ∧ ∃ pattern ∈ patterns, v.ruleName = pattern.ruleName) →
      ∀ v ∈ (some.foldl (fun findings pattern => (pattern.regex.findIter content).foldl
          (report content file comments allowed pattern.ruleName) findings) start).violations,
        v.file = file ∧ ∃ pattern ∈ patterns, v.ruleName = pattern.ruleName := by
    intro some start hsome hstart
    induction some generalizing start with
    | nil => exact hstart
    | cons pattern some ih =>
      obtain ⟨hpattern, hsome⟩ := List.forall_mem_cons.1 hsome
      exact ih _ hsome (hreport pattern _ start hstart hpattern)
  exact hall patterns _ (fun _ h => h) fun v hv => absurd hv List.not_mem_nil

theorem scanSource_name {engine : EngineConfig} {allowed : List Regex} {patterns : List Pattern}
    {entry : Entry} {violations : List Violation}
    (h : checkout.scanSource engine allowed patterns entry = .ok violations) :
    ∀ v ∈ violations, v.file = checkout.relative entry.path ∧
      ∃ pattern ∈ patterns, v.ruleName = pattern.ruleName := by
  obtain ⟨content, -, hpure⟩ := bind_ok.1 h
  cases hpure
  intro v hv
  exact findings_name v (List.mem_mergeSort.1 hv)

theorem scanSources_name {engine : EngineConfig} {allowed : List Regex} {patterns : List Pattern}
    {entries : List Entry} {violations : List (List Violation)}
    (h : entries.mapM (checkout.scanSource engine allowed patterns) = .ok violations) :
    ∀ v ∈ violations.flatten, ∃ pattern ∈ patterns, v.ruleName = pattern.ruleName := by
  have hforall := mapM_forall₂ h
  clear h
  induction hforall with
  | nil => exact fun v hv => absurd hv List.not_mem_nil
  | cons hone _ ih =>
    intro v hv
    rcases List.mem_append.1 hv with hv | hv
    · exact (scanSource_name hone v hv).2
    · exact ih v hv

/-- **A violation of a hard rule** is named by the rule and its pattern. -/
theorem scanHardRule_name {rule : HardRule} {violations : List Violation}
    (h : checkout.scanHardRule config excludeDirs rule = .ok violations) :
    ∀ v ∈ violations, ∃ pattern ∈ rule.patterns, v.ruleName = rule.name ++ ':' :: pattern := by
  obtain ⟨rootPaths, -, h⟩ := bind_ok.1 h
  unfold scanFiles at h
  split at h
  · cases h
    exact fun v hv => absurd hv List.not_mem_nil
  · obtain ⟨regexes, -, h⟩ := bind_ok.1 h
    obtain ⟨_, -, h⟩ := bind_ok.1 h
    obtain ⟨entries, -, h⟩ := bind_ok.1 h
    obtain ⟨found, hfound, hpure⟩ := bind_ok.1 h
    cases hpure
    intro v hv
    obtain ⟨pattern, hpattern, hname⟩ := scanSources_name hfound v hv
    obtain ⟨⟨regex, text⟩, hzip, rfl⟩ := List.mem_map.1 hpattern
    exact ⟨text, (List.of_mem_zip hzip).2, hname⟩

/-- **A violation of an architecture rule** is named by the rule. -/
theorem scanArchRule_name {rule : ArchRule} {violations : List Violation}
    (h : checkout.scanArchRule config excludeDirs rule = .ok violations) :
    ∀ v ∈ violations, v.ruleName = rule.name := by
  obtain ⟨rootPaths, -, h⟩ := bind_ok.1 h
  split at h
  · cases h
    exact fun v hv => absurd hv List.not_mem_nil
  · obtain ⟨regexes, -, h⟩ := bind_ok.1 h
    obtain ⟨_, -, h⟩ := bind_ok.1 h
    obtain ⟨_, -, h⟩ := bind_ok.1 h
    obtain ⟨entries, -, h⟩ := bind_ok.1 h
    obtain ⟨found, hfound, hpure⟩ := bind_ok.1 h
    cases hpure
    intro v hv
    obtain ⟨pattern, hpattern, hname⟩ := scanSources_name hfound v hv
    obtain ⟨regex, -, rfl⟩ := List.mem_map.1 hpattern
    exact hname

/-! ## The names of the rules

Validation makes sure that names are different, not that none is in front of another.
-/

theorem validateRules_nodup {Rule : Type} {name : Rule → Text}
    {validate : List Text → Rule → Except Error Unit}
    (hcheck : ∀ names rule, validate names rule = .ok () → name rule ∉ names)
    {names names' : List Text} {rules : List Rule} (hnames : names.Nodup)
    (h : validateRules name validate names rules = .ok names') :
    (names ++ rules.map name).Nodup := by
  induction rules generalizing names with
  | nil => simpa using hnames
  | cons rule rules ih =>
    rw [validateRules] at h
    obtain ⟨_, hrule, h⟩ := bind_ok.1 h
    have hnew := hcheck names rule hrule
    have hnames' : (names ++ [name rule]).Nodup :=
      List.nodup_append.2 ⟨hnames, List.nodup_singleton _, by
        rintro a ha b hb rfl
        exact hnew (List.mem_singleton.1 hb ▸ ha)⟩
    have hrest := ih hnames' h
    rwa [List.append_assoc, List.singleton_append] at hrest

theorem validateRules_names {Rule : Type} {name : Rule → Text}
    {validate : List Text → Rule → Except Error Unit} {names names' : List Text} {rules : List Rule}
    (h : validateRules name validate names rules = .ok names') :
    names' = names ++ rules.map name := by
  induction rules generalizing names with
  | nil =>
    cases h
    simp
  | cons rule rules ih =>
    rw [validateRules] at h
    obtain ⟨_, -, h⟩ := bind_ok.1 h
    rw [ih h, List.append_assoc, List.singleton_append, List.map_cons]

theorem not_mem_of_checkName {names : List Text} {name : Text} (h : checkName names name = .ok ()) :
    name ∉ names := by
  have hcondition := bailIf_ok.1 h
  rw [Bool.or_eq_false_iff] at hcondition
  simpa using hcondition.2

/-- **The names of the rules of a validated configuration are different.** -/
theorem names_nodup (h : checkout.validateAuditConfig config = .ok excludeDirs) :
    (config.hardRules.map HardRule.name).Nodup ∧ (config.archRules.map ArchRule.name).Nodup := by
  obtain ⟨_, -, h⟩ := bind_ok.1 h
  obtain ⟨_, -, h⟩ := bind_ok.1 h
  obtain ⟨_, -, h⟩ := bind_ok.1 h
  obtain ⟨_, -, h⟩ := bind_ok.1 h
  obtain ⟨names, hhard, h⟩ := bind_ok.1 h
  obtain ⟨_, harch, -⟩ := bind_ok.1 h
  have hhardNames := validateRules_nodup (fun names rule hrule => by
    obtain ⟨_, hname, -⟩ := bind_ok.1 hrule
    exact not_mem_of_checkName hname) List.nodup_nil hhard
  rw [List.nil_append] at hhardNames
  have hnames : names.Nodup := by rwa [validateRules_names hhard, List.nil_append]
  have harchNames := validateRules_nodup (fun names rule hrule => by
    obtain ⟨_, hname, -⟩ := bind_ok.1 hrule
    exact not_mem_of_checkName hname) hnames harch
  exact ⟨hhardNames, (List.nodup_append.1 harchNames).2.1⟩

end Checkout

/-! ## The report

The counts and lists of the report, against what the scans have produced.
-/

/-- The violations that the rules of a severity have produced. -/
def produced (severity : String) (rules : List HardRule) (found : List (List Violation)) : Nat :=
  (((rules.zip found).filter fun x => x.1.severity == severity.toList).map (·.2.length)).sum

/-- The report lists under each rule what this rule has produced, and its totals are of these.
The occurrences and their number are compared rule by rule, in the order of the
configuration. -/
structure Attributed (config : Config) (hard arch : List (List Violation)) (report : JsonReport) :
    Prop where
  hard_occurrences : report.hardViolations.map (·.occurrences) = hard.map (·.map occurrence)
  hard_counts : report.hardViolations.map (·.count) = hard.map List.length
  arch_occurrences : report.archViolations.map (·.occurrences) = arch.map (·.map occurrence)
  arch_counts : report.archViolations.map (·.count) = arch.map List.length
  total : report.summary.totalViolations = hard.flatten.length + arch.flatten.length
  blocker : report.summary.blockerCount = produced "blocker" config.hardRules hard
  error : report.summary.errorCount = produced "error" config.hardRules hard
  warning : report.summary.warningCount = produced "warning" config.hardRules hard

/-- How the report finds the violations of a hard rule. -/
def hardTakes (rule : HardRule) (v : Violation) : Bool := rule.name.isPrefixOf v.ruleName

/-- How the report finds the violations of an architecture rule. -/
def archTakes (rule : ArchRule) (v : Violation) : Bool := v.ruleName == rule.name

/-- The name of a hard rule is in front of the name of a violation of another one. -/
def Misattributed (config : Config) (hard : List (List Violation)) : Prop :=
  ∃ x ∈ config.hardRules.zip hard, ∃ v ∈ x.2, ∃ other ∈ config.hardRules,
    other ≠ x.1 ∧ other.name <+: v.ruleName

/-- What the scans of the rules of a validated configuration have produced. -/
def Scanned (checkout : Checkout) (config : Config) (hard arch : List (List Violation)) : Prop :=
  ∃ excludeDirs, checkout.validateAuditConfig config = .ok excludeDirs ∧
    config.hardRules.mapM (checkout.scanHardRule config excludeDirs) = .ok hard ∧
    config.archRules.mapM (checkout.scanArchRule config excludeDirs) = .ok arch

theorem severityCount_eq {severity : String} {rules : List HardRule} {hard : List JsonViolation}
    {found : List (List Violation)} (hseverity : hard.map (·.severity) = rules.map (·.severity))
    (hcount : hard.map (·.count) = found.map List.length) :
    severityCount severity hard = produced severity rules found := by
  induction hard generalizing rules found with
  | nil =>
    have hrules : rules = [] := by simpa using hseverity.symm
    rw [hrules]
    rfl
  | cons v hard ih =>
    cases rules with
    | nil => simp at hseverity
    | cons rule rules =>
      cases found with
      | nil => simp at hcount
      | cons own found =>
        simp only [List.map_cons, List.cons.injEq] at hseverity hcount
        have hrest := ih hseverity.2 hcount.2
        unfold severityCount produced at hrest ⊢
        rw [List.zip_cons_cons, List.filter_cons, List.filter_cons, hseverity.1]
        split
        · rw [List.map_cons, List.map_cons, List.sum_cons, List.sum_cons, hrest, hcount.1]
        · exact hrest

variable {checkout : Checkout} {config : Config} {hard arch : List (List Violation)}

theorem Scanned.own_hard (h : Scanned checkout config hard arch) :
    Own hardTakes config.hardRules hard := by
  obtain ⟨excludeDirs, -, hhard, -⟩ := h
  refine (Checkout.mapM_forall₂ hhard).imp fun rule own hown v hv => ?_
  obtain ⟨pattern, -, hname⟩ := Checkout.scanHardRule_name hown v hv
  rw [hardTakes, hname, List.isPrefixOf_iff_prefix]
  exact List.prefix_append _ _

theorem Scanned.own_arch (h : Scanned checkout config hard arch) :
    Own archTakes config.archRules arch := by
  obtain ⟨excludeDirs, -, -, harch⟩ := h
  refine (Checkout.mapM_forall₂ harch).imp fun rule own hown v hv => ?_
  exact beq_iff_eq.2 (Checkout.scanArchRule_name hown v hv)

theorem Scanned.clear_arch (h : Scanned checkout config hard arch) :
    ¬ Confused archTakes config.archRules arch := by
  obtain ⟨excludeDirs, hvalid, -, harch⟩ := h
  have hnodup := (Checkout.names_nodup hvalid).2
  rintro ⟨x, hx, v, hv, other, hother, hne, hp⟩
  have hown := List.forall₂_iff_zip.1 (Checkout.mapM_forall₂ harch)
  have hname := Checkout.scanArchRule_name (hown.2 hx) v hv
  have heq : other.name = x.1.name := by rw [← hname, beq_iff_eq.1 hp]
  exact hne (List.inj_on_of_nodup_map hnodup hother (List.of_mem_zip hx).1 heq)

theorem misattributed_iff : Misattributed config hard ↔
    Confused hardTakes config.hardRules hard := by
  simp only [Misattributed, Confused, hardTakes, List.isPrefixOf_iff_prefix]

/-- **The report counts every violation under the rule that has produced it** unless the name of
another hard rule is in front of the name of the violation. -/
theorem attributed_iff (h : Scanned checkout config hard arch) :
    Attributed config hard arch (generateReport config hard.flatten arch.flatten) ↔
      ¬ Misattributed config hard := by
  have ⟨excludeDirs, hvalid, _, _⟩ := h
  obtain ⟨hhardNames, harchNames⟩ := Checkout.names_nodup hvalid
  -- the architecture rules have distinct names and no other findings
  have harchOwn : config.archRules.map (fun rule => archOf rule arch.flatten) = arch :=
    map_filter_flatten h.own_arch harchNames.of_map h.clear_arch
  rw [misattributed_iff]
  constructor
  · intro hattributed
    -- a confused rule counts more than its own findings
    refine not_confused_of_length h.own_hard ?_
    rw [← hattributed.hard_counts]
    simp only [generateReport, List.map_map]
    refine List.map_congr_left fun rule _ => ?_
    show _ = ((hardOf rule hard.flatten).map occurrence).length
    rw [List.length_map]
    rfl
  · intro hclear
    -- without confusion each rule filters exactly its own findings out of the list
    have hhardOwn : config.hardRules.map (fun rule => hardOf rule hard.flatten) = hard :=
      map_filter_flatten h.own_hard hhardNames.of_map hclear
    have hcounts : (config.hardRules.map (hardJson hard.flatten)).map (·.count) =
        hard.map List.length := by
      conv_rhs => rw [← hhardOwn]
      simp [hardJson]
    have harchCounts : (config.archRules.map (archJson arch.flatten)).map (·.count) =
        arch.map List.length := by
      conv_rhs => rw [← harchOwn]
      simp [archJson]
    have hseverity : (config.hardRules.map (hardJson hard.flatten)).map (·.severity) =
        config.hardRules.map (·.severity) := by simp [hardJson]
    exact {
      hard_occurrences := by
        conv_rhs => rw [← hhardOwn]
        simp [generateReport, hardJson]
      hard_counts := hcounts
      arch_occurrences := by
        conv_rhs => rw [← harchOwn]
        simp [generateReport, archJson]
      arch_counts := harchCounts
      total := by
        show (List.map _ _).sum + (List.map _ _).sum = _
        rw [hcounts, harchCounts, List.length_flatten, List.length_flatten]
      blocker := severityCount_eq hseverity hcounts
      error := severityCount_eq hseverity hcounts
      warning := severityCount_eq hseverity hcounts }

theorem attributed_apart :
    Attributed (smallConfig [smallRule "sql".toList ["DROP".toList]])
      [[⟨["src".toList, "a.rs".toList], 2, "DROP".toList, "sql:DROP".toList⟩]] []
      (generateReport (smallConfig [smallRule "sql".toList ["DROP".toList]])
        [⟨["src".toList, "a.rs".toList], 2, "DROP".toList, "sql:DROP".toList⟩] []) := by
  have hscanned : Scanned (smallCheckout "a.rs".toList "// DROP\nDROP".toList)
      (smallConfig [smallRule "sql".toList ["DROP".toList]])
      [[⟨["src".toList, "a.rs".toList], 2, "DROP".toList, "sql:DROP".toList⟩]] [] :=
    ⟨[], by decide +kernel, by decide +kernel, by decide +kernel⟩
  refine (attributed_iff hscanned).2 ?_
  rintro ⟨x, hx, v, hv, other, hother, hne, -⟩
  obtain rfl := List.mem_singleton.1 hx
  exact hne (List.mem_singleton.1 hother)

/-- The rule `sql` is also told the violation of the rule `sql-write`. -/
theorem attributed_prefixes :
    Scanned (smallCheckout "a.rs".toList "DROP".toList)
        (smallConfig [smallRule "sql".toList ["TRUNCATE".toList],
          smallRule "sql-write".toList ["DROP".toList]])
        [[], [⟨["src".toList, "a.rs".toList], 1, "DROP".toList, "sql-write:DROP".toList⟩]] [] ∧
      (generateReport (smallConfig [smallRule "sql".toList ["TRUNCATE".toList],
          smallRule "sql-write".toList ["DROP".toList]])
        [⟨["src".toList, "a.rs".toList], 1, "DROP".toList, "sql-write:DROP".toList⟩]
          []).summary.totalViolations = 2 ∧
      ¬ Attributed (smallConfig [smallRule "sql".toList ["TRUNCATE".toList],
          smallRule "sql-write".toList ["DROP".toList]])
        [[], [⟨["src".toList, "a.rs".toList], 1, "DROP".toList, "sql-write:DROP".toList⟩]] []
        (generateReport (smallConfig [smallRule "sql".toList ["TRUNCATE".toList],
            smallRule "sql-write".toList ["DROP".toList]])
          [⟨["src".toList, "a.rs".toList], 1, "DROP".toList, "sql-write:DROP".toList⟩] []) := by
  refine ⟨⟨[], by decide +kernel, by decide +kernel, by decide +kernel⟩, by decide +kernel, ?_⟩
  intro h
  exact absurd h.total (by decide +kernel)

end Audit

end Flow

end ArcAdmin

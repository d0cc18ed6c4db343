import ArcAdmin.Proofs.ScopeCoverage

/-!
# What the scope policy selects

The changed paths select the components of the rules that match them, and the policy says what a
path that no rule matches does to the selection.

* **`classifyPaths_total`** — the classification of any list of paths by a validated scope;
* **`policyExact_iff`** — the policy does what is documented unless it is `all`, every path matches
  a rule, and a component is left that no path selects.
-/

namespace ArcAdmin

namespace Flow

namespace ScopeProject

/-- The part of `detect` that is left once the changed paths are known. -/
def select (project : ScopeProject) (paths : List String) : Except Error (List String) := do
  let (components, unmatchedFiles) ← project.classifyPaths paths
  project.applyUnmatched components unmatchedFiles

/-- Some rule matches the path. -/
def Matched (project : ScopeProject) (path : String) : Prop :=
  ∃ rule ∈ project.scope.rules, project.Matches rule path

/-- `globset` builds the set of patterns that it has parsed. -/
def Builds (globs : GlobEngine) : Prop :=
  ∀ (patterns : List String) (parsed : List globs.Glob), patterns.mapM globs.new = .ok parsed →
    ∃ isMatch, globs.build parsed = .ok isMatch

variable {project : ScopeProject} {paths paths' : List String} {path : String}

/-- **What `detect` selects** is what the listed paths select. -/
theorem detect_select {mode : ScopeMode} {result : ScopeResult} (hmode : mode ≠ .all)
    (h : project.detect mode = .ok result) :
    project.select result.changedFiles = .ok result.components := by
  unfold detect at h
  split at h
  · exact absurd rfl hmode
  · obtain ⟨_, -, h⟩ := bind_ok.1 h
    obtain ⟨_, -, h⟩ := bind_ok.1 h
    obtain ⟨changedFiles, -, h⟩ := bind_ok.1 h
    obtain ⟨found, hclassify, h⟩ := bind_ok.1 h
    obtain ⟨components, happly, hpure⟩ := bind_ok.1 h
    cases hpure
    exact bind_ok.2 ⟨found, hclassify, happly⟩

/-! ## Classification

The rules of a validated scope can be compiled, so the classification never fails for their sake.
-/

/-- **Every rule of a validated scope has a matcher.** -/
theorem matcher_ok (hvalid : project.validateScope = .ok ()) (hbuilds : Builds project.globs)
    {rule : ScopeRule} (hrule : rule ∈ project.scope.rules) :
    ∃ isMatch, project.matcher rule = .ok isMatch := by
  obtain ⟨_, -, hrules⟩ := bind_ok.1 hvalid
  obtain ⟨index, hlt, hget⟩ := List.mem_iff_getElem.1 hrule
  have hindex : (rule, index) ∈ project.scope.rules.zipIdx :=
    List.mem_zipIdx_iff_getElem?.2 (by simp [hlt, hget])
  obtain ⟨_, -, hrest⟩ := bind_ok.1 (forM_ok.1 hrules _ hindex)
  obtain ⟨_, -, hpatterns⟩ := bind_ok.1 hrest
  have hnew : ∀ pattern ∈ rule.patterns, ∃ glob, project.globs.new pattern = .ok glob := by
    intro pattern hpattern
    obtain ⟨glob, hglob, -⟩ := bind_ok.1 (forM_ok.1 hpatterns pattern hpattern)
    exact ⟨glob, context_ok.1 hglob⟩
  obtain ⟨globs, hglobs⟩ : ∃ globs, rule.patterns.mapM project.globs.new = .ok globs :=
    mapM_total hnew
  obtain ⟨isMatch, hbuild⟩ := hbuilds _ _ hglobs
  exact ⟨isMatch, bind_ok.2 ⟨globs, hglobs, hbuild⟩⟩

variable (path) in
/-- One path: whether a rule matches it. -/
theorem classifyPath_total {rules : List ScopeRule} (found : Bool × List String)
    (hall : ∀ rule ∈ rules, ∃ isMatch, project.matcher rule = .ok isMatch) :
    ∃ result, project.classifyPath path rules found = .ok result ∧
      (result.1 = true ↔ found.1 = true ∨ ∃ rule ∈ rules, project.Matches rule path) := by
  induction rules generalizing found with
  | nil => exact ⟨found, rfl, by simp⟩
  | cons rule rules ih =>
    obtain ⟨matched, components⟩ := found
    obtain ⟨isMatch, hmatcher⟩ := hall rule List.mem_cons_self
    have hmatches : project.Matches rule path ↔ isMatch path = true := by
      constructor
      · rintro ⟨isMatch', hmatcher', hpath⟩
        rw [hmatcher] at hmatcher'
        cases hmatcher'
        exact hpath
      · exact fun hpath => ⟨isMatch, hmatcher, hpath⟩
    have hrest : ∀ r ∈ rules, ∃ isMatch, project.matcher r = .ok isMatch :=
      fun r hr => hall r (List.mem_cons_of_mem _ hr)
    unfold classifyPath
    rw [hmatcher]
    by_cases hpath : isMatch path = true
    · obtain ⟨result, hresult, hiff⟩ := ih (true, btreeExtend components rule.components) hrest
      refine ⟨result, ?_, ?_⟩
      · show (if isMatch path then _ else _) = _
        rw [if_pos hpath]
        exact hresult
      · rw [hiff, List.exists_mem_cons_iff, hmatches]
        simp [hpath]
    · obtain ⟨result, hresult, hiff⟩ := ih (matched, components) hrest
      refine ⟨result, ?_, ?_⟩
      · show (if isMatch path then _ else _) = _
        rw [if_neg hpath]
        exact hresult
      · rw [hiff, List.exists_mem_cons_iff, hmatches]
        simp [hpath]

variable (paths) in
/-- All paths: which of them no rule matches. -/
theorem classifyEach_total (found : List String × List String)
    (hall : ∀ rule ∈ project.scope.rules, ∃ isMatch, project.matcher rule = .ok isMatch) :
    ∃ result, project.classifyEach paths found = .ok result ∧
      (result.2 = [] ↔ found.2 = [] ∧ ∀ path ∈ paths, project.Matched path) := by
  induction paths generalizing found with
  | nil => exact ⟨found, rfl, by simp⟩
  | cons path paths ih =>
    obtain ⟨components, unmatched⟩ := found
    obtain ⟨⟨matched, components'⟩, hpath, hmatched⟩ :=
      classifyPath_total path (false, components) hall
    obtain ⟨result, hresult, hiff⟩ :=
      ih (components', if matched then unmatched else unmatched ++ [path])
    refine ⟨result, bind_ok.2 ⟨_, hpath, hresult⟩, ?_⟩
    have hthis : project.Matched path ↔ matched = true := by
      unfold Matched
      rw [hmatched]
      simp
    rw [hiff, List.forall_mem_cons, hthis]
    cases matched <;> simp

/-- **A validated scope classifies every list of paths.** -/
theorem classifyPaths_total (hvalid : project.validateScope = .ok ())
    (hbuilds : Builds project.globs) (paths : List String) : ∃ components unmatchedFiles,
    project.classifyPaths paths = .ok (components, unmatchedFiles) ∧
      (∀ component, component ∈ components ↔ ∃ path ∈ paths, project.Selects path component) ∧
      (unmatchedFiles = [] ↔ ∀ path ∈ paths, project.Matched path) := by
  obtain ⟨⟨components, unmatchedFiles⟩, hclassify, hiff⟩ :=
    classifyEach_total paths ([], []) fun rule hrule => matcher_ok hvalid hbuilds hrule
  refine ⟨components, unmatchedFiles, hclassify, fun component => ?_, by simpa using hiff⟩
  rw [classifyEach_ok hclassify]
  simp

/-! ## The policy

The documented selection looks at the set of paths only; the code looks at the list.
-/

/-- **The documented selection** of a list of changed paths. `fail` refuses lists with a path
that no rule matches; `all` selects all components for such a list; otherwise the components
of the rules that match are selected, and no others. -/
inductive Documented (project : ScopeProject) (paths : List String) :
    Except Error (List String) → Prop where
  | refused (error : Error) (hpolicy : project.scope.unmatched = .fail)
      (hunmatched : ∃ path ∈ paths, ¬ project.Matched path) : Documented project paths (.error error)
  | everything (components : List String) (hpolicy : project.scope.unmatched = .all)
      (hunmatched : ∃ path ∈ paths, ¬ project.Matched path)
      (hall : ∀ component, component ∈ components ↔ component ∈ project.config.components) :
      Documented project paths (.ok components)
  | selected (components : List String)
      (hpolicy : project.scope.unmatched = .ignore ∨ ∀ path ∈ paths, project.Matched path)
      (hexact : ∀ component, component ∈ components ↔
        ∃ path ∈ paths, project.Selects path component) :
      Documented project paths (.ok components)

/-- **The policy is exact**: the selection is the documented one, does not depend on the order or
the repetition of the paths, and only grows with them where it cannot fail. -/
structure PolicyExact (project : ScopeProject) (paths : List String) : Prop where
  documented : Documented project paths (project.select paths)
  order : ∀ paths', (∀ path, path ∈ paths' ↔ path ∈ paths) → ∀ components,
    project.select paths = .ok components → ∃ components',
      project.select paths' = .ok components' ∧
        ∀ component, component ∈ components' ↔ component ∈ components
  growing : project.scope.unmatched ≠ .fail → ∀ paths', paths ⊆ paths' →
    ∀ components components', project.select paths = .ok components →
      project.select paths' = .ok components' → components ⊆ components'

/-- Under `all`, a component that no path selects is left out only where a path is unmatched. -/
def AllIsNeeded (project : ScopeProject) (paths : List String) : Prop :=
  project.scope.unmatched = .all → (∀ path ∈ paths, project.Matched path) →
    ∀ component ∈ project.config.components, ∃ path ∈ paths, project.Selects path component

section Policy

variable (hvalid : project.validateScope = .ok ()) (hbuilds : Builds project.globs)

include hvalid hbuilds

/-- **What the code selects.** -/
theorem select_cases (paths : List String) :
    (project.scope.unmatched = .fail ∧ (∃ path ∈ paths, ¬ project.Matched path) ∧
      ∃ error, project.select paths = .error error) ∨
    (project.scope.unmatched = .all ∧ ∃ components, project.select paths = .ok components ∧
      ∀ component, component ∈ components ↔ component ∈ project.config.components) ∨
    ((project.scope.unmatched = .ignore ∨
        project.scope.unmatched = .fail ∧ ∀ path ∈ paths, project.Matched path) ∧
      ∃ components, project.select paths = .ok components ∧
        ∀ component, component ∈ components ↔ ∃ path ∈ paths, project.Selects path component) := by
  obtain ⟨components, unmatchedFiles, hclassify, hcomponents, hunmatched⟩ :=
    classifyPaths_total hvalid hbuilds paths
  have hselect : project.select paths = project.applyUnmatched components unmatchedFiles := by
    unfold select
    rw [hclassify]
    rfl
  rw [hselect]
  unfold applyUnmatched
  cases hpolicy : project.scope.unmatched with
  | fail =>
    by_cases hempty : unmatchedFiles = []
    · subst hempty
      exact .inr (.inr ⟨.inr ⟨rfl, hunmatched.1 rfl⟩, components, rfl, hcomponents⟩)
    · have hsome : ∃ path ∈ paths, ¬ project.Matched path := by
        by_contra hnone
        exact hempty (hunmatched.2 (by simpa using hnone))
      refine .inl ⟨rfl, hsome, ?_⟩
      have hisEmpty : unmatchedFiles.isEmpty = false := by simpa using hempty
      rw [hisEmpty]
      exact ⟨_, rfl⟩
  | all =>
    refine .inr (.inl ⟨rfl, _, rfl, fun component => ?_⟩)
    rw [mem_btreeExtend, hcomponents]
    constructor
    · rintro (⟨path, -, hselects⟩ | hmem)
      · exact validated_components hvalid hselects
      · exact hmem
    · exact .inr
  | ignore => exact .inr (.inr ⟨.inl rfl, components, rfl, hcomponents⟩)

/-- The selection depends on the paths as a set, and grows with it where it cannot fail. -/
theorem select_stable (paths : List String) :
    (∀ paths', (∀ path, path ∈ paths' ↔ path ∈ paths) → ∀ components,
      project.select paths = .ok components → ∃ components',
        project.select paths' = .ok components' ∧
          ∀ component, component ∈ components' ↔ component ∈ components) ∧
    (project.scope.unmatched ≠ .fail → ∀ paths', paths ⊆ paths' → ∀ components components',
      project.select paths = .ok components → project.select paths' = .ok components' →
        components ⊆ components') := by
  constructor
  · -- the same paths in another order: both lists fall into the same case of the policy
    intro paths' hsame components hselect
    rcases select_cases hvalid hbuilds paths with ⟨_, _, e, he⟩ | ⟨hall, c, hc, hmem⟩ |
        ⟨hpolicy, c, hc, hmem⟩
    · rw [he] at hselect
      cases hselect
    · rw [hc] at hselect
      cases hselect
      rcases select_cases hvalid hbuilds paths' with ⟨hfail, _⟩ | ⟨_, c', hc', hmem'⟩ |
          ⟨hpolicy, _⟩
      · rw [hall] at hfail
        cases hfail
      · exact ⟨c', hc', fun component => (hmem' component).trans (hmem component).symm⟩
      · rw [hall] at hpolicy
        rcases hpolicy with hignore | ⟨hfail, _⟩
        · cases hignore
        · cases hfail
    · rw [hc] at hselect
      cases hselect
      rcases select_cases hvalid hbuilds paths' with ⟨hfail, hunmatched, _⟩ | ⟨hall, _⟩ |
          ⟨_, c', hc', hmem'⟩
      · obtain ⟨path, hpath, hnot⟩ := hunmatched
        rcases hpolicy with hignore | ⟨_, hmatched⟩
        · rw [hignore] at hfail
          cases hfail
        · exact absurd (hmatched path ((hsame path).1 hpath)) hnot
      · rw [hall] at hpolicy
        rcases hpolicy with hignore | ⟨hfail, _⟩
        · cases hignore
        · cases hfail
      · refine ⟨c', hc', fun component => ?_⟩
        rw [hmem', hmem]
        simp only [hsame]
  · -- more paths: `all` once is `all` for good, and matched paths stay
    intro hpolicy paths' hsub components components' hselect hselect'
    rcases select_cases hvalid hbuilds paths with ⟨hfail, _⟩ | ⟨hall, c, hc, hmem⟩ |
        ⟨hignore | ⟨hfail, _⟩, c, hc, hmem⟩
    · exact absurd hfail hpolicy
    · rw [hc] at hselect
      cases hselect
      rcases select_cases hvalid hbuilds paths' with ⟨hfail, _⟩ | ⟨_, c', hc', hmem'⟩ |
          ⟨hignore | ⟨hfail, _⟩, _⟩
      · exact absurd hfail hpolicy
      · rw [hc'] at hselect'
        cases hselect'
        exact fun component hin => (hmem' component).2 ((hmem component).1 hin)
      · rw [hall] at hignore
        cases hignore
      · exact absurd hfail hpolicy
    · rw [hc] at hselect
      cases hselect
      rcases select_cases hvalid hbuilds paths' with ⟨hfail, _⟩ | ⟨hall, _⟩ |
          ⟨_, c', hc', hmem'⟩
      · exact absurd hfail hpolicy
      · rw [hall] at hignore
        cases hignore
      · rw [hc'] at hselect'
        cases hselect'
        intro component hin
        obtain ⟨path, hpath, hselects⟩ := (hmem component).1 hin
        exact (hmem' component).2 ⟨path, hsub hpath, hselects⟩
    · exact absurd hfail hpolicy

/-- **The policy is exact if and only if** it is not `all`, or a path is unmatched, or the paths
select every component anyway. -/
theorem policyExact_iff : project.PolicyExact paths ↔ project.AllIsNeeded paths := by
  obtain ⟨horder, hgrowing⟩ := select_stable hvalid hbuilds paths
  constructor
  · rintro ⟨hdocumented, -, -⟩ hall hmatched component hcomponent
    rcases select_cases hvalid hbuilds paths with ⟨hfail, _⟩ | ⟨_, c, hc, hmem⟩ |
        ⟨hignore | ⟨hfail, _⟩, _⟩
    · rw [hall] at hfail
      cases hfail
    · rw [hc] at hdocumented
      cases hdocumented with
      | everything _ _ hunmatched _ =>
        obtain ⟨path, hpath, hnot⟩ := hunmatched
        exact absurd (hmatched path hpath) hnot
      | selected _ _ hexact => exact (hexact component).1 ((hmem component).2 hcomponent)
    · rw [hall] at hignore
      cases hignore
    · rw [hall] at hfail
      cases hfail
  · intro hneeded
    refine ⟨?_, horder, hgrowing⟩
    rcases select_cases hvalid hbuilds paths with ⟨hfail, hunmatched, e, he⟩ | ⟨hall, c, hc, hmem⟩ |
        ⟨hpolicy, c, hc, hmem⟩
    · rw [he]
      exact .refused e hfail hunmatched
    · rw [hc]
      by_cases hmatched : ∀ path ∈ paths, project.Matched path
      · refine .selected c (.inr hmatched) fun component => ?_
        rw [hmem]
        constructor
        · exact hneeded hall hmatched component
        · rintro ⟨path, -, hselects⟩
          exact validated_components hvalid hselects
      · exact .everything c hall (by simpa using hmatched) hmem
    · rw [hc]
      exact .selected c (hpolicy.imp_right And.right) hmem

end Policy

end ScopeProject

/-! ## The sample project

The policy `all`, with a path that matches and with one that does not.
-/

namespace Sample

/-- The sample project under the policy `all`. -/
def cautious : ScopeProject :=
  { scopeProject (answer edited) with
    scope := { (scopeProject (answer edited)).scope with unmatched := .all } }

theorem cautious_rules {rule : ScopeRule} (hrule : rule ∈ cautious.scope.rules) :
    rule = ⟨["backend/"], ["backend"]⟩ ∨ rule = ⟨["frontend/"], ["frontend"]⟩ := by
  simpa [cautious, scopeProject] using hrule

theorem globs_builds : ScopeProject.Builds globs := fun _ _ _ => ⟨_, rfl⟩

theorem cautious_valid : cautious.validateScope = .ok () := by decide +kernel

end Sample

open Flow.Sample in
/-- A file that no rule matches selects everything. -/
theorem policyExact_readme : cautious.PolicyExact ["README.md"] := by
  refine (ScopeProject.policyExact_iff cautious_valid globs_builds).2 fun _ hmatched => ?_
  obtain ⟨rule, hrule, isMatch, hmatcher, hpath⟩ := hmatched "README.md" List.mem_cons_self
  rcases cautious_rules hrule with rfl | rfl
  · cases hmatcher
    exact absurd hpath (by decide +kernel)
  · cases hmatcher
    exact absurd hpath (by decide +kernel)

open Flow.Sample in
/-- **A change of the backend alone selects the frontend as well.** -/
theorem policyExact_backend : cautious.validateScope = .ok () ∧
    cautious.select ["backend/a"] = .ok ["backend", "frontend"] ∧
    ¬ cautious.PolicyExact ["backend/a"] := by
  refine ⟨cautious_valid, by decide +kernel, fun hexact => ?_⟩
  have hselect : cautious.select ["backend/a"] = .ok ["backend", "frontend"] := by decide +kernel
  have hdocumented := hexact.documented
  rw [hselect] at hdocumented
  have hmatches : ∀ rule ∈ cautious.scope.rules, cautious.Matches rule "backend/a" ↔
      rule.components = ["backend"] := by
    intro rule hrule
    rcases cautious_rules hrule with rfl | rfl
    · exact ⟨fun _ => rfl, fun _ => ⟨_, rfl, by decide +kernel⟩⟩
    · refine ⟨?_, fun h => absurd h (by decide)⟩
      rintro ⟨isMatch, hmatcher, hpath⟩
      cases hmatcher
      exact absurd hpath (by decide +kernel)
  cases hdocumented with
  | everything _ _ hunmatched _ =>
    obtain ⟨path, hpath, hnot⟩ := hunmatched
    obtain rfl := List.mem_singleton.1 hpath
    refine hnot ⟨⟨["backend/"], ["backend"]⟩, List.mem_cons_self, ?_⟩
    exact (hmatches _ List.mem_cons_self).2 rfl
  | selected _ _ hexact =>
    obtain ⟨path, hpath, rule, hrule, hmatched, hcomponent⟩ :=
      (hexact "frontend").1 (by decide)
    obtain rfl := List.mem_singleton.1 hpath
    rw [(hmatches rule hrule).1 hmatched] at hcomponent
    exact absurd hcomponent (by decide)

end Flow

end ArcAdmin

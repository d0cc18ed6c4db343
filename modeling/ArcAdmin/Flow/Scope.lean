import ArcAdmin.Flow.Git
import ArcAdmin.Flow.Process

/-!
# Scope detection

`scope.rs`, and the parts of `config.rs` that map changed paths to components. Glob patterns are up
to the crate `globset`. A `BTreeSet` is a sorted list.

* **`classifyEach_ok`** — the components of the rules that match;
* **`detect_ok`** — the result is the classification of what git lists.
-/

namespace ArcAdmin

namespace Flow

inductive UnmatchedScope where
  | fail
  | all
  | ignore
deriving DecidableEq

structure ScopeRule where
  patterns : List String
  components : List String

structure ScopeConfig where
  unmatched : UnmatchedScope
  rules : List ScopeRule

inductive ScopeMode where
  | workingTree
  | staged
  | base (reference : String)
  | all

/-! ## Ordered sets

A `BTreeSet` as its sorted list.
-/

def btreeInsert (a : String) : List String → List String
  | [] => [a]
  | b :: rest =>
    if a = b then b :: rest
    else if a < b then a :: b :: rest
    else b :: btreeInsert a rest

/-- `BTreeSet::extend`. -/
def btreeExtend (set : List String) (items : List String) : List String :=
  items.foldl (fun set item => btreeInsert item set) set

@[simp] theorem mem_btreeInsert {a b : String} {set : List String} :
    b ∈ btreeInsert a set ↔ b = a ∨ b ∈ set := by
  induction set with
  | nil => simp [btreeInsert]
  | cons c rest ih =>
    unfold btreeInsert
    by_cases hsame : a = c
    · subst hsame
      simp
    · rw [if_neg hsame]
      split
      · simp
      · rw [List.mem_cons, ih, List.mem_cons]
        tauto

@[simp] theorem mem_btreeExtend {b : String} {set items : List String} :
    b ∈ btreeExtend set items ↔ b ∈ set ∨ b ∈ items := by
  unfold btreeExtend
  induction items generalizing set with
  | nil => simp
  | cons item items ih =>
    rw [List.foldl_cons, ih, mem_btreeInsert, List.mem_cons]
    tauto

/-! ## Configuration

A rule maps the paths that its patterns match to components. Validation makes sure that they are
components of the configuration.
-/

/-- `FlowConfig::components`. -/
def FlowConfig.components (config : FlowConfig) : List String :=
  btreeExtend [] (config.steps.map (·.component))

/-- The crate `globset`. -/
structure GlobEngine where
  Glob : Type
  /-- `Glob::new` -/
  new : String → Except Error Glob
  /-- `GlobSetBuilder::build`, and `is_match` of the set -/
  build : List Glob → Except Error (String → Bool)

/-- The project as far as its scope is concerned. -/
structure ScopeProject where
  config : FlowConfig
  scope : ScopeConfig
  git : Git
  globs : GlobEngine

namespace ScopeProject

variable (project : ScopeProject)

/-- The checks of one rule in `validate_scope` that relate it to the rest of the configuration. -/
def validateRule (rule : ScopeRule) (index : Nat) : Except Error Unit := do
  FlowConfig.bailIf (rule.patterns.isEmpty || rule.components.isEmpty)
    s!"scope.rules[{index}] requires patterns and components"
  rule.components.forM fun component =>
    FlowConfig.bailIf (!project.config.components.contains component)
      s!"scope.rules[{index}] references component {repr component} with no steps"
  rule.patterns.forM fun pattern => do
    let _ ← context s!"scope.rules[{index}] contains invalid pattern {repr pattern}"
      (project.globs.new pattern)

/-- `validate_scope`. -/
def validateScope : Except Error Unit := do
  FlowConfig.bailIf project.scope.rules.isEmpty "scope.rules must not be empty"
  project.scope.rules.zipIdx.forM fun (rule, index) => project.validateRule rule index

/-- The matcher of a rule. -/
def matcher (rule : ScopeRule) : Except Error (String → Bool) := do
  let globs ← rule.patterns.mapM project.globs.new
  project.globs.build globs

/-- The rules of one path: whether any matches, and the components of those that do. -/
def classifyPath (path : String) :
    List ScopeRule → Bool × List String → Except Error (Bool × List String)
  | [], found => .ok found
  | rule :: rest, (matched, components) => do
    let isMatch ← project.matcher rule
    if isMatch path then classifyPath path rest (true, btreeExtend components rule.components)
    else classifyPath path rest (matched, components)

/-- The loop of `classify_paths`. -/
def classifyEach :
    List String → List String × List String → Except Error (List String × List String)
  | [], found => .ok found
  | path :: rest, (components, unmatched) => do
    let (matched, components) ← project.classifyPath path project.scope.rules (false, components)
    classifyEach rest (components, if matched then unmatched else unmatched ++ [path])

def classifyPaths (paths : List String) : Except Error (List String × List String) :=
  project.classifyEach paths ([], [])

/-! ## Detection

The listings of git are classified path by path, and the policy for unmatched files is applied to
the result.
-/

def ensureGitWorktree : Except Error Unit := do
  let output ← context "run git rev-parse" (project.git ["rev-parse", "--is-inside-work-tree"])
  FlowConfig.bailIf (!output.success || output.stdout != utf8 "true\n")
    "project root is not a Git worktree"

/-- The commands that list the changed paths, each with its arguments. -/
def listings : ScopeMode → List (List String)
  | .workingTree =>
    [["diff", "--name-only", "-z"], ["diff", "--cached", "--name-only", "-z"],
      ["ls-files", "--others", "--exclude-standard", "-z"]]
  | .staged => [["diff", "--cached", "--name-only", "-z"]]
  | .base reference => [["diff", "--name-only", "-z", reference ++ "...HEAD"]]
  | .all => []

/-- The paths that the commands list, one command after the other. -/
def listPaths : List (List String) → List String → Except Error (List String)
  | [], paths => .ok paths
  | args :: rest, paths => do
    let listed ← gitPaths project.git args
    listPaths rest (btreeExtend paths listed)

/-- The reference of the mode is a commit. -/
def verifyReference : ScopeMode → Except Error Unit
  | .base reference => do
    let output ← context "run git rev-parse"
      (project.git ["rev-parse", "--verify", reference ++ "^\x7bcommit\x7d"])
    FlowConfig.bailIf (!output.success) s!"Git base reference does not exist: {reference}"
  | _ => .ok ()

def modeLabel : ScopeMode → String
  | .workingTree => "working-tree"
  | .staged => "staged"
  | .base reference => "base:" ++ reference
  | .all => "all"

/-- The components that the policy for unmatched files leaves. -/
def applyUnmatched (components unmatchedFiles : List String) : Except Error (List String) :=
  match project.scope.unmatched with
  | .fail =>
    if unmatchedFiles.isEmpty then .ok components
    else
      let names := ", ".intercalate unmatchedFiles
      .error s!"scope has {unmatchedFiles.length} unmatched changed file(s): {names}"
  | .all => .ok (btreeExtend components project.config.components)
  | .ignore => .ok components

def detect (mode : ScopeMode) : Except Error ScopeResult :=
  match mode with
  | .all =>
    .ok
      { mode := "all"
        changedFiles := []
        components := project.config.components
        unmatchedFiles := [] }
  | mode => do
    project.ensureGitWorktree
    project.verifyReference mode
    let changedFiles ← project.listPaths (listings mode) []
    let (components, unmatchedFiles) ← project.classifyPaths changedFiles
    let components ← project.applyUnmatched components unmatchedFiles
    return { mode := modeLabel mode, changedFiles, components, unmatchedFiles }

variable {project : ScopeProject}

/-! ## What is detected

The result in terms of the listed paths, without the order in which they come.
-/

/-- The rule matches the path. -/
def Matches (project : ScopeProject) (rule : ScopeRule) (path : String) : Prop :=
  ∃ isMatch, project.matcher rule = .ok isMatch ∧ isMatch path = true

/-- A rule that matches the path has the component. -/
def Selects (project : ScopeProject) (path component : String) : Prop :=
  ∃ rule ∈ project.scope.rules, project.Matches rule path ∧ component ∈ rule.components

theorem classifyPath_ok {path : String} {rules : List ScopeRule} {found result : Bool × List String}
    (h : project.classifyPath path rules found = .ok result) (component : String) :
    component ∈ result.2 ↔ component ∈ found.2 ∨
      ∃ rule ∈ rules, project.Matches rule path ∧ component ∈ rule.components := by
  induction rules generalizing found with
  | nil =>
    cases h
    simp
  | cons rule rules ih =>
    obtain ⟨matched, components⟩ := found
    obtain ⟨isMatch, hmatcher, hrest⟩ := bind_ok.1 h
    have hmatches : project.Matches rule path ↔ isMatch path = true := by
      constructor
      · rintro ⟨isMatch', hmatcher', hpath⟩
        rw [hmatcher] at hmatcher'
        cases hmatcher'
        exact hpath
      · exact fun hpath => ⟨isMatch, hmatcher, hpath⟩
    split at hrest
    · next hpath =>
      rw [ih hrest, mem_btreeExtend]
      grind
    · next hpath =>
      rw [ih hrest]
      grind

theorem classifyEach_ok {paths : List String} {found result : List String × List String}
    (h : project.classifyEach paths found = .ok result) (component : String) :
    component ∈ result.1 ↔ component ∈ found.1 ∨
      ∃ path ∈ paths, project.Selects path component := by
  induction paths generalizing found with
  | nil =>
    cases h
    simp
  | cons path paths ih =>
    obtain ⟨components, unmatched⟩ := found
    obtain ⟨⟨matched, components'⟩, hpath, hrest⟩ := bind_ok.1 h
    rw [ih hrest, classifyPath_ok hpath]
    unfold Selects
    grind

theorem listPaths_ok {args : List (List String)} {paths result : List String}
    (h : project.listPaths args paths = .ok result) :
    (∀ a ∈ args, ∃ files, gitPaths project.git a = .ok files) ∧
      ∀ path, path ∈ result ↔ path ∈ paths ∨
        ∃ a ∈ args, ∃ files, gitPaths project.git a = .ok files ∧ path ∈ files := by
  induction args generalizing paths with
  | nil =>
    cases h
    simp
  | cons a args ih =>
    obtain ⟨files, hfiles, hrest⟩ := bind_ok.1 h
    obtain ⟨hall, hmem⟩ := ih hrest
    refine ⟨?_, fun path => ?_⟩
    · intro a' ha'
      rcases List.mem_cons.1 ha' with rfl | ha'
      · exact ⟨files, hfiles⟩
      · exact hall a' ha'
    · rw [hmem, mem_btreeExtend]
      grind

/-- **What is detected**: the components that the listed paths select, and all components where the
policy says so. -/
theorem detect_ok {mode : ScopeMode} {result : ScopeResult} (hmode : mode ≠ .all)
    (h : project.detect mode = .ok result) :
    (∀ args ∈ listings mode, ∃ files, gitPaths project.git args = .ok files) ∧
      ∀ component, component ∈ result.components ↔
        (∃ args ∈ listings mode, ∃ files, gitPaths project.git args = .ok files ∧
          ∃ path ∈ files, project.Selects path component) ∨
        (project.scope.unmatched = .all ∧ component ∈ project.config.components) := by
  -- the four steps of `detect` that may fail
  have hrun : ∃ changedFiles components unmatchedFiles,
      project.listPaths (listings mode) [] = .ok changedFiles ∧
      project.classifyPaths changedFiles = .ok (components, unmatchedFiles) ∧
      project.applyUnmatched components unmatchedFiles = .ok result.components := by
    unfold detect at h
    split at h
    · exact absurd rfl hmode
    · obtain ⟨_, -, h⟩ := bind_ok.1 h
      obtain ⟨_, -, h⟩ := bind_ok.1 h
      obtain ⟨changedFiles, hchanged, h⟩ := bind_ok.1 h
      obtain ⟨⟨components, unmatchedFiles⟩, hclassify, h⟩ := bind_ok.1 h
      obtain ⟨components', happly, hpure⟩ := bind_ok.1 h
      cases hpure
      exact ⟨changedFiles, components, unmatchedFiles, hchanged, hclassify, happly⟩
  obtain ⟨changedFiles, components, unmatchedFiles, hchanged, hclassify, happly⟩ := hrun
  obtain ⟨hall, hmem⟩ := listPaths_ok hchanged
  refine ⟨hall, fun component => ?_⟩
  -- what the paths select is what some listing has and some rule matches
  have hselected : component ∈ components ↔ ∃ args ∈ listings mode, ∃ files,
      gitPaths project.git args = .ok files ∧ ∃ path ∈ files, project.Selects path component := by
    rw [classifyEach_ok hclassify]
    simp only [List.not_mem_nil, false_or, hmem]
    grind
  rw [← hselected]
  -- only the policy `all` adds components of its own
  unfold applyUnmatched at happly
  cases hpolicy : project.scope.unmatched with
  | fail =>
    rw [hpolicy] at happly
    dsimp only at happly
    split at happly
    · cases happly
      simp
    · cases happly
  | all =>
    rw [hpolicy] at happly
    have hcomponents : result.components = btreeExtend components project.config.components :=
      (Except.ok.inj happly).symm
    rw [hcomponents, mem_btreeExtend]
    simp
  | ignore =>
    rw [hpolicy] at happly
    cases happly
    simp

end ScopeProject

end Flow

end ArcAdmin

import ArcAdmin.Flow.Scope
import ArcAdmin.Flow.Sample

/-!
# What scope detection covers

The trees that a mode compares, the paths at which they differ, and what git lists of them. A rename
is listed by its destination; the path it leaves is a change that no listing has.

* **`changed_iff`** — a changed path is listed or was renamed away;
* **`validated_components`** — the components of a validated rule have steps;
* **`detect_covers`** — every component that a change concerns is detected exactly if each one that
  a path renamed away concerns is selected by a listed path, or the policy selects all.
-/

namespace ArcAdmin

namespace Flow

/-! ## The compared trees

What git compares for each mode of the detection, and what it lists of that.
-/

/-- The trees that git knows: the index and the working tree, `HEAD` and the index, and for a
reference the merge base and `HEAD`; and the untracked files. -/
structure Worktree where
  unstaged : Comparison
  staged : Comparison
  base : String → Comparison
  untracked : List Path
  untracked_named : ∀ path ∈ untracked, path ≠ [] ∧ 0 ∉ path

namespace Worktree

/-- The pairs of trees that a mode compares. -/
def compared (w : Worktree) : ScopeMode → List Comparison
  | .workingTree => [w.unstaged, w.staged]
  | .staged => [w.staged]
  | .base reference => [w.base reference]
  | .all => []

/-- The files that are in the working tree only. -/
def extra (w : Worktree) : ScopeMode → List Path
  | .workingTree => w.untracked
  | _ => []

/-- **The compared trees differ at the path.** -/
def Changed (w : Worktree) (mode : ScopeMode) (path : Path) : Prop :=
  (∃ c ∈ w.compared mode, c.Differs path) ∨ path ∈ w.extra mode

/-- The path is listed by a command. -/
def Listed (w : Worktree) (mode : ScopeMode) (path : Path) : Prop :=
  (∃ c ∈ w.compared mode, path ∈ c.listed fun _ => true) ∨ path ∈ w.extra mode

/-- The path is what a rename leaves. -/
def RenamedAway (w : Worktree) (mode : ScopeMode) (path : Path) : Prop :=
  ∃ c ∈ w.compared mode, c.Differs path ∧ c.renamedAway path = true

theorem changed_iff {w : Worktree} {mode : ScopeMode} {path : Path} :
    w.Changed mode path ↔ w.Listed mode path ∨ w.RenamedAway mode path := by
  have hlisted : ∀ c : Comparison, (path ∈ c.listed fun _ => true) ↔
      c.Differs path ∧ c.renamedAway path = false := by
    intro c
    rw [Comparison.mem_listed]
    unfold Comparison.Differs
    rw [Ne, ← Comparison.status_eq_none]
    cases status (c.old path) (c.new path) <;> simp
  unfold Changed Listed RenamedAway
  simp only [hlisted]
  constructor
  · rintro (⟨c, hc, hdiff⟩ | hextra)
    · cases haway : c.renamedAway path with
      | false => exact .inl (.inl ⟨c, hc, hdiff, haway⟩)
      | true => exact .inr ⟨c, hc, hdiff, haway⟩
    · exact .inl (.inr hextra)
  · rintro ((⟨c, hc, hdiff, -⟩ | hextra) | ⟨c, hc, hdiff, -⟩)
    · exact .inl ⟨c, hc, hdiff⟩
    · exact .inr hextra
    · exact .inl ⟨c, hc, hdiff⟩

/-- Git lists what it compares; whether a command can be run at all is left open. Each command
prints the names of the paths at which its two trees differ, a rename by its destination. -/
structure Answers (w : Worktree) (git : Git) : Prop where
  unstaged : ∀ output, git ["diff", "--name-only", "-z"] = .ok output → output.success = true →
    output.stdout = printed (w.unstaged.listed fun _ => true)
  staged : ∀ output, git ["diff", "--cached", "--name-only", "-z"] = .ok output →
    output.success = true → output.stdout = printed (w.staged.listed fun _ => true)
  base : ∀ reference output, git ["diff", "--name-only", "-z", reference ++ "...HEAD"] = .ok output →
    output.success = true → output.stdout = printed ((w.base reference).listed fun _ => true)
  untracked : ∀ output, git ["ls-files", "--others", "--exclude-standard", "-z"] = .ok output →
    output.success = true → output.stdout = printed w.untracked

/-- The program gets what the commands of the mode list. -/
theorem Answers.listed {w : Worktree} {git : Git} (hgit : w.Answers git) {mode : ScopeMode}
    (hall : ∀ args ∈ ScopeProject.listings mode, ∃ files, gitPaths git args = .ok files)
    (path : Path) :
    w.Listed mode path ↔ ∃ args ∈ ScopeProject.listings mode, ∃ files,
      gitPaths git args = .ok files ∧ ∃ file ∈ files, utf8 file = path := by
  have hnamed : ∀ c : Comparison, ∀ p ∈ c.listed fun _ => true, p ≠ [] ∧ 0 ∉ p :=
    fun c p hp => c.named p (List.mem_of_mem_filter hp)
  -- one command, and the paths that it prints
  have hone : ∀ args paths, args ∈ ScopeProject.listings mode →
      (∀ p ∈ paths, p ≠ [] ∧ 0 ∉ p) →
      (∀ output, git args = .ok output → output.success = true → output.stdout = printed paths) →
      (path ∈ paths ↔ ∃ files, gitPaths git args = .ok files ∧ ∃ file ∈ files, utf8 file = path) := by
    intro args paths hargs hpaths hprinted
    obtain ⟨files, hfiles⟩ := hall args hargs
    have hsame : files.map utf8 = paths := gitListing_printed hpaths hprinted hfiles
    rw [← hsame, List.mem_map]
    constructor
    · rintro ⟨file, hfile, hpath⟩
      exact ⟨files, hfiles, file, hfile, hpath⟩
    · rintro ⟨files', hfiles', file, hfile, hpath⟩
      rw [hfiles] at hfiles'
      cases hfiles'
      exact ⟨file, hfile, hpath⟩
  unfold Listed
  cases mode with
  | all => simp [compared, extra, ScopeProject.listings]
  | staged =>
    have h := hone _ _ (by simp [ScopeProject.listings]) (hnamed w.staged) hgit.staged
    simp only [compared, extra, ScopeProject.listings, List.mem_singleton, exists_eq_left,
      List.not_mem_nil, or_false]
    exact h
  | base reference =>
    have h := hone _ _ (by simp [ScopeProject.listings]) (hnamed (w.base reference))
      (hgit.base reference)
    simp only [compared, extra, ScopeProject.listings, List.mem_singleton, exists_eq_left,
      List.not_mem_nil, or_false]
    exact h
  | workingTree =>
    have h₁ := hone _ _ (by simp [ScopeProject.listings]) (hnamed w.unstaged) hgit.unstaged
    have h₂ := hone _ _ (by simp [ScopeProject.listings]) (hnamed w.staged) hgit.staged
    have h₃ := hone _ _ (by simp [ScopeProject.listings]) w.untracked_named hgit.untracked
    simp only [compared, extra, ScopeProject.listings, List.mem_cons, List.not_mem_nil, or_false,
      exists_eq_or_imp, exists_eq_left, h₁, h₂, h₃, or_assoc]

end Worktree

/-! ## Coverage

What the rules concern, and what the detection selects.
-/

namespace ScopeProject

variable {project : ScopeProject} {w : Worktree} {mode : ScopeMode} {result : ScopeResult}

/-- **Every component that a change concerns is in the result.** -/
def Covers (project : ScopeProject) (w : Worktree) (mode : ScopeMode) (result : ScopeResult) :
    Prop :=
  ∀ file component, w.Changed mode (utf8 file) → project.Selects file component →
    component ∈ result.components

/-- The policy selects all components, or each component that a path renamed away concerns is
selected by a path that is listed. -/
def RenamesCovered (project : ScopeProject) (w : Worktree) (mode : ScopeMode) : Prop :=
  project.scope.unmatched = .all ∨
    ∀ file component, w.RenamedAway mode (utf8 file) → project.Selects file component →
      ∃ file', w.Listed mode (utf8 file') ∧ project.Selects file' component

/-- **The components of a validated rule have steps.** -/
theorem validated_components (hvalid : project.validateScope = .ok ()) {file component : String}
    (hselects : project.Selects file component) : component ∈ project.config.components := by
  obtain ⟨rule, hrule, -, hcomponent⟩ := hselects
  obtain ⟨_, -, hrules⟩ := bind_ok.1 hvalid
  obtain ⟨index, hindex⟩ : ∃ index, (rule, index) ∈ project.scope.rules.zipIdx := by
    obtain ⟨index, hlt, hget⟩ := List.mem_iff_getElem.1 hrule
    exact ⟨index, List.mem_zipIdx_iff_getElem?.2 (by simp [hlt, hget])⟩
  obtain ⟨_, -, hrest⟩ := bind_ok.1 (forM_ok.1 hrules _ hindex)
  obtain ⟨_, hcomponents, -⟩ := bind_ok.1 hrest
  have hknown := FlowConfig.bailIf_ok.1 (forM_ok.1 hcomponents component hcomponent)
  simpa using hknown

/-- What is in the result, in terms of the trees. -/
theorem mem_components (hgit : w.Answers project.git) (hmode : mode ≠ .all)
    (hdetect : project.detect mode = .ok result) (component : String) :
    component ∈ result.components ↔
      (∃ file, w.Listed mode (utf8 file) ∧ project.Selects file component) ∨
        (project.scope.unmatched = .all ∧ component ∈ project.config.components) := by
  obtain ⟨hall, hmem⟩ := detect_ok hmode hdetect
  rw [hmem]
  refine or_congr_left ?_
  constructor
  · rintro ⟨args, hargs, files, hfiles, file, hfile, hselects⟩
    exact ⟨file, (hgit.listed hall _).2 ⟨args, hargs, files, hfiles, file, hfile, rfl⟩, hselects⟩
  · rintro ⟨file, hlisted, hselects⟩
    obtain ⟨args, hargs, files, hfiles, file', hfile', hsame⟩ := (hgit.listed hall _).1 hlisted
    rw [utf8_injective hsame] at hfile'
    exact ⟨args, hargs, files, hfiles, file, hfile', hselects⟩

/-- **Scope detection covers every change exactly if** the policy selects all components, or each
component that a path renamed away concerns is selected by a path that is listed. -/
theorem detect_covers (hgit : w.Answers project.git) (hvalid : project.validateScope = .ok ())
    (hdetect : project.detect mode = .ok result) :
    project.Covers w mode result ↔ project.RenamesCovered w mode := by
  by_cases hmode : mode = .all
  · subst hmode
    have hresult : result.components = project.config.components := by
      cases hdetect
      rfl
    constructor
    · intro _
      refine .inr fun file component haway _ => ?_
      obtain ⟨c, hc, -⟩ := haway
      cases hc
    · intro _ file component _ hselects
      rw [hresult]
      exact validated_components hvalid hselects
  · have hmem := mem_components hgit hmode hdetect
    constructor
    · intro hcovers
      by_cases hpolicy : project.scope.unmatched = .all
      · exact .inl hpolicy
      · refine .inr fun file component haway hselects => ?_
        have hin := hcovers file component (Worktree.changed_iff.2 (.inr haway)) hselects
        rcases (hmem component).1 hin with hlisted | ⟨hall, -⟩
        · exact hlisted
        · exact absurd hall hpolicy
    · rintro hrenames file component hchanged hselects
      rw [hmem]
      rcases hrenames with hpolicy | hrenames
      · exact .inr ⟨hpolicy, validated_components hvalid hselects⟩
      · rcases Worktree.changed_iff.1 hchanged with hlisted | haway
        · exact .inl ⟨file, hlisted, hselects⟩
        · exact .inl (hrenames file component haway hselects)

end ScopeProject

/-! ## A sample project

Two components, and a file that is edited or moved from one to the other.
-/

namespace Sample

open ScopeProject

/-- A pattern is the beginning of a path. -/
def globs : GlobEngine where
  Glob := String
  new pattern := .ok pattern
  build patterns := .ok fun path => patterns.any fun pattern => path.startsWith pattern

def sampleStep (component : String) : StepConfig where
  id := component
  label := component
  component := component
  profiles := ["default"]
  program := "cargo"
  args := ["test"]
  cwd := "."
  log := component
  timeoutSecs := 60
  timeoutEnv := none
  parser := none
  services := []
  removeEnv := []

def scopeProject (git : Git) : ScopeProject where
  config :=
    { defaultProfile := "default"
      hookProfile := "default"
      requiredSteps := []
      services := []
      parsers := []
      steps := [sampleStep "backend", sampleStep "frontend"] }
  scope :=
    { unmatched := .fail
      rules := [⟨["backend/"], ["backend"]⟩, ⟨["frontend/"], ["frontend"]⟩] }
  git := git
  globs := globs

def unchanged : Comparison := comparison [] [] (by decide) (by decide)

/-- Nothing but the index has changed. -/
def worktree (staged : Comparison) : Worktree where
  unstaged := unchanged
  staged := staged
  base _ := unchanged
  untracked := []
  untracked_named := by decide

def stagedArgs : List String := ["diff", "--cached", "--name-only", "-z"]

def answer (staged : Comparison) : Git := fun args =>
  .ok
    { success := true
      stdout :=
        if args = ["rev-parse", "--is-inside-work-tree"] then utf8 "true\n"
        else if args = stagedArgs then printed (staged.listed fun _ => true)
        else [] }

theorem answer_answers (staged : Comparison) : (worktree staged).Answers (answer staged) := by
  refine ⟨?_, ?_, ?_, ?_⟩
  · intro output houtput _
    cases houtput
    rfl
  · intro output houtput _
    cases houtput
    rfl
  · intro reference output houtput _
    cases houtput
    simp [stagedArgs]
    rfl
  · intro output houtput _
    cases houtput
    rfl

/-- A file of the backend was edited. -/
def edited : Comparison :=
  comparison [⟨"backend/a", entry .file 1, entry .file 2⟩] [] (by decide +kernel) (by decide)

/-- A file of the backend was moved to the frontend. -/
def moved : Comparison :=
  comparison [⟨"backend/a", entry .file 1, none⟩, ⟨"frontend/a", none, entry .file 1⟩]
    [(utf8 "backend/a", utf8 "frontend/a")] (by decide +kernel) (by decide +kernel)

end Sample

open Flow.Sample in
theorem detect_covers_edited :
    (scopeProject (answer edited)).Covers (worktree edited) .staged
      ⟨"staged", ["backend/a"], ["backend"], []⟩ := by
  have hvalid : (scopeProject (answer edited)).validateScope = .ok () := by decide +kernel
  have hdetect : (scopeProject (answer edited)).detect .staged =
      .ok ⟨"staged", ["backend/a"], ["backend"], []⟩ := by decide +kernel
  refine (ScopeProject.detect_covers (answer_answers edited) hvalid hdetect).2 (.inr ?_)
  rintro file component ⟨c, hc, -, haway⟩
  obtain rfl := List.mem_singleton.1 hc
  cases haway

open Flow.Sample in
/-- **A file that is moved away from the backend does not select it.** -/
theorem detect_missesRename :
    (scopeProject (answer moved)).validateScope = .ok () ∧
      (scopeProject (answer moved)).detect .staged =
        .ok ⟨"staged", ["frontend/a"], ["frontend"], []⟩ ∧
      ¬(scopeProject (answer moved)).Covers (worktree moved) .staged
        ⟨"staged", ["frontend/a"], ["frontend"], []⟩ := by
  refine ⟨by decide +kernel, by decide +kernel, fun hcovers => ?_⟩
  have hchanged : (worktree moved).Changed .staged (utf8 "backend/a") :=
    .inl ⟨moved, List.mem_singleton_self _, by unfold Comparison.Differs; decide +kernel⟩
  have hselects : (scopeProject (answer moved)).Selects "backend/a" "backend" :=
    ⟨⟨["backend/"], ["backend"]⟩, List.mem_cons_self, ⟨_, rfl, by decide +kernel⟩,
      List.mem_singleton_self _⟩
  have hin := hcovers "backend/a" "backend" hchanged hselects
  exact absurd hin (by decide)

end Flow

end ArcAdmin

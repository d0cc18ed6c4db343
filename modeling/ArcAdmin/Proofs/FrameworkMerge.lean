import ArcAdmin.Upgrade.Sample

/-!
# The upgrade is a three-way merge

What an upgrade should leave at a path, given what the two releases and the project have there. Paths
with a line terminator never reach the planner: the pattern that takes the records of `git ls-tree`
apart has `.` for the path.

* **`upgrade_merges_iff`** — an upgrade merges exactly if the managed paths with a line terminator
  were already as they should be;
* **`upgrade_skips_line_terminator`** — else they keep what the project had.
-/

namespace ArcAdmin

namespace Upgrade

open FileTree (Tree Store)

/-! ## What an upgrade should do

The merge of a path as a function of three contents, without the planner.
-/

/-- The paths that the upgrade is not about. -/
def Untouched (old new : Release) (m n : Manifest) (accepted : List String) (path : Path) : Prop :=
  (¬ Managed old m path ∧ ¬ Managed new n path) ∨ old.entry path = new.entry path ∨
    (Managed old m path ∧ ¬ Managed new n path ∧ new.entry path ≠ none) ∨ pathText path ∈ accepted

instance (old new : Release) (m n : Manifest) (accepted : List String) (path : Path) :
    Decidable (Untouched old new m n accepted path) := inferInstanceAs (Decidable (_ ∨ _))

/-- The merge of three contents; `none` if there is none. -/
def merged (env : Env) (path : Path) (file base incoming : Option Bytes) : Option (Option Bytes) :=
  if file = incoming then some incoming
  else
    match file, base, incoming with
    | some file, some base, some incoming =>
      if isText file && isText base && isText incoming then
        match env.mergeFile (pathText path) file base incoming with
        | .ok (some content) => some (some content)
        | _ => none
      else none
    | _, _, _ => none

/-- What should be at a path, given what the project has there. -/
def outcome (env : Env) (path : Path) (file base incoming : Option Bytes) : Option (Option Bytes) :=
  if file = base then some incoming
  else if base = incoming then
    if file.isSome then some file else none
  else merged env path file base incoming

/-- There is no outcome where the project has a directory. -/
def resultAt (env : Env) (project : Project) (old new : Release) (path : Path) :
    Option (Option Bytes) :=
  if project.isDir path then none
  else outcome env path (content project path) ((old.entry path).map Entry.content)
    ((new.entry path).map Entry.content)

/-- Every path of the project is as it should be. -/
def Merged (env : Env) (old new : Release) (m n : Manifest) (accepted : List String)
    (project project' : Project) : Prop :=
  ∀ path, path ≠ projectFile →
    (Untouched old new m n accepted path → project'.file path = project.file path) ∧
      (¬ Untouched old new m n accepted path →
        resultAt env project old new path = some (content project' path))

/-- An upgrade that took place merged, and nothing was written if a path had no outcome. -/
def ThreeWay (env : Env) (template : Template) (project : Project) (options : Options)
    (old new : Release) (m n : Manifest) : Prop :=
  (∀ report, (upgradeProject env template project options).2 = .ok report →
    report.current = false → options.checkOnly = false →
      Merged env old new m n options.acceptPaths project
        (upgradeProject env template project options).1) ∧
  ((∃ path, ¬ Untouched old new m n options.acceptPaths path ∧
      resultAt env project old new path = none) →
    (upgradeProject env template project options).1 = project)

/-- Regular files only. -/
def Release.Regular (release : Release) : Prop :=
  ∀ path entry, release.entry path = some entry →
    entry.blob = true ∧ (entry.mode = "100644" ∨ entry.mode = "100755")

/-- Two releases and a project of regular files. -/
structure Between (env : Env) (template : Template) (project : Project) (old new : Release)
    (m n : Manifest) : Prop where
  trees : Trees env template project old new m n
  oldRegular : old.Regular
  newRegular : new.Regular
  noLinks : project.NoLinks

/-- The managed paths with a line terminator are as they should be. -/
def TerminatorsKept (env : Env) (project : Project) (old new : Release) (m n : Manifest)
    (accepted : List String) : Prop :=
  ∀ path, matchesRecord path = false → ¬ Untouched old new m n accepted path →
    resultAt env project old new path = some (content project path)

/-! ## What the planner sees

The paths of both trees but those with a line terminator.
-/

theorem entry_of_regular {release : Release} {manifest : Manifest} {path : Path}
    (hregular : release.Regular) (hmatches : matchesRecord path = true) :
    (release.tree manifest).entry path = release.entry path := by
  cases hentry : release.entry path with
  | some entry => exact entry_tree.2 ⟨hentry, hmatches, (hregular path entry hentry).1⟩
  | none =>
    rw [Option.eq_none_iff_forall_ne_some]
    intro entry h
    rw [(entry_tree.1 h).1] at hentry
    cases hentry

theorem managed_iff {release : Release} {manifest : Manifest} {path : Path}
    (hregular : release.Regular) (hmatches : matchesRecord path = true) :
    path ∈ (release.tree manifest).managedPaths ↔ Managed release manifest path := by
  rw [mem_managedPaths, entry_of_regular hregular hmatches]
  unfold Managed
  rw [Option.ne_none_iff_exists']

/-- A path with a line terminator is not planned. -/
theorem matchesRecord_of_planned {old new : Release} {m n : Manifest} {path : Path}
    (h : path ∈ planned (old.tree m) (new.tree n)) : matchesRecord path = true := by
  rcases mem_planned.1 h with h | h
  all_goals
    obtain ⟨⟨entry, hentry⟩, -⟩ := mem_managedPaths.1 h
    exact (entry_tree.1 hentry).2.1

/-- When the planner takes a path to have changed. -/
theorem isChanged_iff {old new : Release} {m n : Manifest} {path : Path}
    (hold : old.Regular) (hnew : new.Regular) (hmatches : matchesRecord path = true) :
    isChanged (old.tree m) (new.tree n) path = true ↔
      ¬ (Managed old m path ∧ ¬ Managed new n path ∧ new.entry path ≠ none) ∧
        (old.entry path ≠ new.entry path ∨ old.entry path = none ∨ new.entry path = none) := by
  unfold isChanged
  rw [entry_of_regular hold hmatches, entry_of_regular hnew hmatches, ← managed_iff hold hmatches,
    ← managed_iff hnew hmatches]
  cases holdEntry : old.entry path with
  | none => cases hnewEntry : new.entry path <;> simp [imp_iff_not_or]
  | some oldEntry =>
    cases hnewEntry : new.entry path with
    | none => simp
    | some newEntry =>
      have hblobs : oldEntry.blob = newEntry.blob := by
        rw [(hold path oldEntry holdEntry).1, (hnew path newEntry hnewEntry).1]
      have hsame : oldEntry = newEntry ↔
          oldEntry.content = newEntry.content ∧ oldEntry.mode = newEntry.mode := by
        cases oldEntry
        cases newEntry
        simp_all [and_comm]
      simp [hsame]
      grind

/-- The planner decides about the paths that the upgrade is about. -/
theorem active_iff {old new : Release} {m n : Manifest} {accepted : List String} {path : Path}
    (hold : old.Regular) (hnew : new.Regular) (hmatches : matchesRecord path = true) :
    ¬ Untouched old new m n accepted path ↔ path ∈ planned (old.tree m) (new.tree n) ∧
      isChanged (old.tree m) (new.tree n) path = true ∧ pathText path ∉ accepted.eraseDups := by
  have hsome : Managed old m path ∨ Managed new n path →
      old.entry path = new.entry path → old.entry path ≠ none ∧ new.entry path ≠ none := by
    rintro (h | h) hsame
    · exact ⟨h.1, hsame ▸ h.1⟩
    · exact ⟨hsame ▸ h.1, h.1⟩
  rw [mem_planned, managed_iff hold hmatches, managed_iff hnew hmatches,
    isChanged_iff hold hnew hmatches, List.mem_eraseDups]
  unfold Untouched
  generalize Managed old m path = oldManaged at hsome ⊢
  generalize Managed new n path = newManaged at hsome ⊢
  generalize (pathText path ∈ accepted) = isAccepted
  grind

/-! ## What the planner decides

Each decision comes to the outcome of its path.
-/

/-- The content at the path once the decision is carried out. -/
def Decision.result (file : Option Bytes) : Decision → Option Bytes
  | .write content _ => some content
  | .merge content _ => some content
  | .delete => none
  | _ => file

/-- **A decision that is no conflict has the outcome** of the path. -/
theorem Decides.outcome {env : Env} {path : Path} {file : Option Bytes} {old new : Option Entry}
    {d : Decision} (h : Decides env path file old new d) (hconflict : ¬ d.IsConflict) :
    outcome env path file (old.map Entry.content) (new.map Entry.content) =
      some (d.result file) := by
  unfold Upgrade.outcome Upgrade.merged Decision.result
  cases h with
  | created hmode => rfl
  | same hmode => simp
  | gone => simp
  | removed => simp
  | updated hnew hmode => simp
  | modeOnly hnew hsame hmode => simp [hsame, hnew]
  | merged hnew hold hchange htext hmerge hmode => simp [hnew, hold, hchange, htext, hmerge]
  | taken => exact absurd ⟨_, rfl⟩ hconflict
  | kept => exact absurd ⟨_, rfl⟩ hconflict
  | missing => exact absurd ⟨_, rfl⟩ hconflict
  | clash => exact absurd ⟨_, rfl⟩ hconflict

section Applied

variable {env : Env} {old new : Release} {m n : Manifest} {project project₁ : Project}
  {accepted : List String} {plan : Plan}

/-- A path without conflict is decided on its file. -/
theorem decides_of_active (hfor : PlanFor env old new m n project accepted plan)
    (hconflicts : plan.conflicts = []) (hlinks : project.NoLinks) {path : Path}
    (hactive : Active old new m n accepted path) :
    ∃ d, decidePath env (old.tree m) (new.tree n) project accepted path = .ok d ∧
      ¬ d.IsConflict ∧ project.isDir path = false ∧
      Decides env path (content project path) ((old.tree m).entry path) ((new.tree n).entry path) d := by
  obtain ⟨hpath, hchanged, haccepted⟩ := hactive
  obtain ⟨d, hd, hconflict⟩ := not_conflict hfor hconflicts hpath
  have hdir : project.node path ≠ some .dir := by
    intro hdir
    rw [decidePath_dir (hlinks.clear path) hchanged haccepted hdir] at hd
    cases hd
    exact hconflict ⟨_, rfl⟩
  refine ⟨d, hd, hconflict, ?_, ?_⟩
  · rw [Bool.eq_false_iff, Ne, Tree.isDir_iff]
    exact hdir
  · rw [decidePath_clear (hlinks.clear path) hchanged haccepted hdir] at hd
    exact decideFile_cases hd

theorem content_of_after {d : Decision} (file : Option (FileTree.File Bytes)) :
    (d.after file).map FileTree.File.content = d.result (file.map FileTree.File.content) := by
  cases d <;> rfl

end Applied

/-! ## Three-way merge of an untouched path

The paths that are not changed locally, and those that are, put together.
-/

section Merge

variable {env : Env} {template : Template} {project : Project} {options : Options}
  {old new : Release} {m n : Manifest}

/-- The outcome of a path that the planner sees and finds no conflict at. -/
theorem resultAt_of_active (hbetween : Between env template project old new m n) {plan : Plan}
    (hfor : PlanFor env old new m n project options.acceptPaths.eraseDups plan)
    (hconflicts : plan.conflicts = []) {path : Path}
    (hactive : Active old new m n options.acceptPaths.eraseDups path) :
    ∃ d, decidePath env (old.tree m) (new.tree n) project options.acceptPaths.eraseDups path = .ok d ∧
      ¬ d.IsConflict ∧ resultAt env project old new path = some (d.result (content project path)) := by
  obtain ⟨d, hd, hconflict, hdir, hdecides⟩ :=
    decides_of_active hfor hconflicts hbetween.noLinks hactive
  have hmatches := matchesRecord_of_planned hactive.1
  rw [entry_of_regular hbetween.oldRegular hmatches, entry_of_regular hbetween.newRegular hmatches]
    at hdecides
  refine ⟨d, hd, hconflict, ?_⟩
  unfold resultAt
  rw [hdir, if_neg Bool.false_ne_true]
  exact hdecides.outcome hconflict

/-- An upgrade that took place carried its plan out. -/
theorem applied_of_upgraded {report : Report}
    (hreport : (upgradeProject env template project options).2 = .ok report)
    (hcurrent : report.current = false) (hcheck : options.checkOnly = false) :
    ∃ metadata fromVersion toVersion plan,
      prepare env template project options = .ok (.ready metadata fromVersion toVersion plan) ∧
      env.host.run (applyPlan env plan metadata toVersion) project =
        ((upgradeProject env template project options).1, true) := by
  rcases upgradeProject_cases env template project options with
    ⟨-, hnone⟩ | ⟨metadata, fromVersion, toVersion, plan, project', hready, -, hproject, hend⟩
  · rcases hnone report hreport with h | h
    · rw [hcurrent] at h
      cases h
    · rw [hcheck] at h
      cases h
  · rcases hend with ⟨-, herror⟩ | ⟨hrun, -⟩
    · rw [hreport] at herror
      cases herror
    · exact ⟨metadata, fromVersion, toVersion, plan, hready, by rw [hrun, hproject]⟩

/-- What an upgrade leaves where the planner decides nothing, and where it decides. -/
theorem content_of_applied (hbetween : Between env template project old new m n)
    {metadata : Metadata} {fromVersion toVersion : String} {plan : Plan} {project' : Project}
    (hready : prepare env template project options =
      .ok (.ready metadata fromVersion toVersion plan))
    (hrun : env.host.run (applyPlan env plan metadata toVersion) project = (project', true))
    {path : Path} (hpath : path ≠ projectFile) :
    (¬ Active old new m n options.acceptPaths.eraseDups path →
      project'.file path = project.file path) ∧
    (Active old new m n options.acceptPaths.eraseDups path →
      resultAt env project old new path = some (content project' path)) := by
  obtain ⟨hfor, hconflicts⟩ := hbetween.trees.plan hready
  have hlinks := hbetween.noLinks
  have hsound := hfor.sound (fun w _ => hlinks.clear w.path) (fun path _ => hlinks.clear path)
  obtain ⟨hfree, project₁, hchanged, hnode⟩ := apply_ok hsound (hlinks.clear _) hrun
  have hfile : project'.file path = project₁.file path := Tree.file_of_node (hnode path hpath)
  refine ⟨fun hactive => ?_, fun hactive => ?_⟩
  · rw [hfile]
    exact file_of_inactive hfor hfree hchanged hactive
  · obtain ⟨d, hd, hconflict, hresult⟩ := resultAt_of_active hbetween hfor hconflicts hactive
    rw [hresult]
    unfold content
    rw [hfile, file_of_decided hfor hsound hfree hchanged hactive.1 hd hconflict, content_of_after]

/-- **An upgrade is a three-way merge** exactly if the managed paths with a line terminator are as
they should be already. -/
theorem upgrade_merges_iff (env : Env) (template : Template) (project : Project) (options : Options)
    (old new : Release) (m n : Manifest) (hbetween : Between env template project old new m n) :
    (TerminatorsKept env project old new m n options.acceptPaths →
      ThreeWay env template project options old new m n) ∧
    ((∃ report, (upgradeProject env template project options).2 = .ok report ∧
        report.current = false ∧ options.checkOnly = false) →
      ThreeWay env template project options old new m n →
        TerminatorsKept env project old new m n options.acceptPaths) := by
  -- a path that no line of `git ls-tree` shows is never planned
  have hinactive : ∀ path, matchesRecord path = false →
      ¬ Active old new m n options.acceptPaths.eraseDups path := by
    intro path hmatches hactive
    rw [matchesRecord_of_planned hactive.1] at hmatches
    cases hmatches
  refine ⟨fun hkept => ⟨?_, ?_⟩, ?_⟩
  · intro report hreport hcurrent hcheck path hpath
    obtain ⟨metadata, fromVersion, toVersion, plan, hready, hrun⟩ :=
      applied_of_upgraded hreport hcurrent hcheck
    obtain ⟨hother, hdecided⟩ := content_of_applied hbetween hready hrun hpath
    cases hmatches : matchesRecord path with
    | true =>
      have hactive : ¬ Untouched old new m n options.acceptPaths path ↔
          Active old new m n options.acceptPaths.eraseDups path :=
        active_iff hbetween.oldRegular hbetween.newRegular hmatches
      exact ⟨fun huntouched => hother fun h => hactive.2 h huntouched, fun h => hdecided (hactive.1 h)⟩
    | false =>
      have hfile := hother (hinactive path hmatches)
      refine ⟨fun _ => hfile, fun htouched => ?_⟩
      rw [hkept path hmatches htouched]
      unfold content
      rw [hfile]
  · -- a conflict: the upgrade has stopped before it wrote anything
    rintro ⟨path, htouched, hresult⟩
    rcases upgradeProject_cases env template project options with
      ⟨hsame, -⟩ | ⟨metadata, fromVersion, toVersion, plan, project', hready, -, -, -⟩
    · exact hsame
    · exfalso
      cases hmatches : matchesRecord path with
      | true =>
        obtain ⟨hfor, hconflicts⟩ := hbetween.trees.plan hready
        obtain ⟨d, -, -, hsome⟩ := resultAt_of_active hbetween hfor hconflicts
          ((active_iff hbetween.oldRegular hbetween.newRegular hmatches).1 htouched)
        rw [hresult] at hsome
        cases hsome
      | false =>
        rw [hkept path hmatches htouched] at hresult
        cases hresult
  · -- the converse: what the merge should be is then what the project has kept
    rintro ⟨report, hreport, hcurrent, hcheck⟩ ⟨hmerged, -⟩ path hmatches htouched
    have hpath : path ≠ projectFile := by
      rintro rfl
      exact absurd hmatches (by decide +kernel)
    obtain ⟨metadata, fromVersion, toVersion, plan, hready, hrun⟩ :=
      applied_of_upgraded hreport hcurrent hcheck
    have hfile := (content_of_applied hbetween hready hrun hpath).1 (hinactive path hmatches)
    rw [(hmerged report hreport hcurrent hcheck path hpath).2 htouched]
    unfold content
    rw [hfile]

end Merge

/-! ## A file with a line terminator in its name

The planner does not see the path, so the file of the old release stays.
-/

namespace Sample

theorem regular_of_all {records : List (Path × Entry)} {h : isTree records = true}
    (hall : (records.all fun record =>
      record.2.blob && (record.2.mode == "100644" || record.2.mode == "100755")) = true) :
    (release records h).Regular := by
  intro path entry hentry
  rw [List.all_eq_true] at hall
  have hone := hall _ ((lookup_iff_mem (release records h).nodup).1 hentry)
  simpa using hone

def brokenPath : Path := ["framework", "a\nb.txt"]

def oldBroken : Release :=
  release (records "v1.0.0" [(brokenPath, plain "old\n")]) (by decide +kernel)

def newBroken : Release :=
  release (records "v1.1.0" [(brokenPath, plain "new\n")]) (by decide +kernel)

/-- The project as it was made from the old release. -/
def brokenProject : Project :=
  Tree.ofFiles (projectFiles "v1.0.0" [(brokenPath, "old\n")]) (by decide +kernel)

def template (old new : Release) : Template where
  version := ascii "v1.1.0\n"
  head := "new"
  tag version :=
    if version = "v1.0.0" then some ("old", old)
    else if version = "v1.1.0" then some ("new", new)
    else none

theorem toVersion_template (old new : Release) : (template old new).toVersion env = "v1.1.0" := by
  show trim (env.decode (ascii "v1.1.0\n")) = "v1.1.0"
  decide +kernel

theorem tag_old (old new : Release) : (template old new).tag "v1.0.0" = some ("old", old) := by
  simp [template]

theorem tag_new (old new : Release) : (template old new).tag "v1.1.0" = some ("new", new) := by
  simp [template]

theorem between_sample {project : Project} {old new : Release} (hold : old.Regular)
    (hnew : new.Regular) (hlinks : project.NoLinks)
    (hdata : (readMetadata env project).toOption = some (metadata "v1.0.0"))
    (hm : (readManifestAt env old "refs/tags/v1.0.0").toOption = some manifest)
    (hn : (readManifestAt env new "refs/tags/v1.1.0").toOption = some manifest) :
    Between env (template old new) project old new manifest manifest where
  trees := {
    metadata := ⟨metadata "v1.0.0", "old", eq_ok hdata, tag_old old new, eq_ok hm⟩
    target := by
      rw [toVersion_template]
      exact ⟨"new", tag_new old new, eq_ok hn⟩ }
  oldRegular := hold
  newRegular := hnew
  noLinks := hlinks

theorem broken_between : Between env (template oldBroken newBroken) brokenProject oldBroken newBroken
    manifest manifest :=
  between_sample (regular_of_all (by decide +kernel)) (regular_of_all (by decide +kernel))
    (Tree.noLinks_ofFiles _) (by decide +kernel) (by decide +kernel) (by decide +kernel)

/-- **The planner skips a name with a line terminator**: the upgrade takes place, and the file keeps
the content of the old release. -/
theorem upgrade_skips_line_terminator :
    Between env (template oldBroken newBroken) brokenProject oldBroken newBroken manifest manifest ∧
      ¬ ThreeWay env (template oldBroken newBroken) brokenProject upgradeOptions oldBroken newBroken
        manifest manifest := by
  refine ⟨broken_between, fun h => ?_⟩
  have hend : (upgradeProject env (template oldBroken newBroken) brokenProject upgradeOptions).2 =
      .ok ⟨"v1.0.0", "v1.1.0", false, 1, 0, 0, []⟩ := by
    decide +kernel
  have hmerged := (h.1 _ hend rfl rfl brokenPath (by decide)).2 (by decide +kernel)
  exact absurd hmerged (by decide +kernel)

def namedPath : Path := ["framework", "a.txt"]

def oldNamed : Release := release (records "v1.0.0" [(namedPath, plain "old\n")]) (by decide +kernel)

def newNamed : Release := release (records "v1.1.0" [(namedPath, plain "new\n")]) (by decide +kernel)

def namedProject : Project :=
  Tree.ofFiles (projectFiles "v1.0.0" [(namedPath, "old\n")]) (by decide +kernel)

theorem named_between : Between env (template oldNamed newNamed) namedProject oldNamed newNamed
    manifest manifest :=
  between_sample (regular_of_all (by decide +kernel)) (regular_of_all (by decide +kernel))
    (Tree.noLinks_ofFiles _) (by decide +kernel) (by decide +kernel) (by decide +kernel)

theorem entry_release {records : List (Path × Entry)} {h : isTree records = true} {path : Path}
    (hpath : path ∉ records.map Prod.fst) : (release records h).entry path = none := by
  show records.lookup path = none
  rw [List.lookup_eq_none_iff]
  intro p hp
  rw [bne_iff_ne]
  rintro rfl
  exact hpath (List.mem_map_of_mem hp)

/-- The release without line terminators is merged. -/
theorem named_upgrade_merges :
    (upgradeProject env (template oldNamed newNamed) namedProject upgradeOptions).2 =
        .ok ⟨"v1.0.0", "v1.1.0", false, 2, 0, 0, []⟩ ∧
      ThreeWay env (template oldNamed newNamed) namedProject upgradeOptions oldNamed newNamed
        manifest manifest := by
  refine ⟨by decide +kernel, ?_⟩
  refine (upgrade_merges_iff env (template oldNamed newNamed) namedProject upgradeOptions oldNamed
    newNamed manifest manifest named_between).1 ?_
  intro path hmatches htouched
  refine absurd (Or.inr (Or.inl ?_)) htouched
  have hpath : path ∉ [frameworkVersionFile, manifestFile, namedPath] := by
    intro hin
    have hall : [frameworkVersionFile, manifestFile, namedPath].all matchesRecord = true := by
      decide +kernel
    rw [List.all_eq_true.1 hall path hin] at hmatches
    cases hmatches
  rw [show oldNamed.entry path = none from entry_release hpath,
    show newNamed.entry path = none from entry_release hpath]

end Sample

end Upgrade

end ArcAdmin

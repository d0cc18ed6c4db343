import ArcAdmin.Upgrade.Sample

/-!
# An upgrade that fails

The plan is carried out call by call and nothing is taken back. A file that the project has where an
incoming path needs a directory stops it halfway.

* **`failed_upgrade_keeps_files_iff`** — when a failing upgrade leaves the project as it was;
* **`failed_upgrade_deletes`** — an upgrade that deletes a file and then stops.
-/

namespace ArcAdmin

namespace Upgrade

open FileTree (Above Tree Store Changes SameFiles)

/-! ## Failure before the verification

Whether the plan fits can be told from the two releases and the project before anything is
written.
-/

/-- An upgrade that ends with an error before the verification leaves the files as they were. -/
def FailureKeepsFiles (env : Env) (template : Template) (project : Project) (options : Options) :
    Prop :=
  ∀ failure, (upgradeProject env template project options).2 = .error failure →
    (∀ message, failure ≠ .verifying message) →
      SameFiles project (upgradeProject env template project options).1

section Fits

variable (env : Env) (old new : FrameworkTree) (project : Project) (accepted : List String)

/-- The file that the planner wants at a path. -/
def wanted (path : Path) : Option (Store String Bytes) :=
  (decision env old new project accepted path).store path

/-- The planner deletes the file at the path. -/
def Removed (path : Path) : Prop :=
  path ∈ planned old new ∧ (decision env old new project accepted path).isDelete = true

/-- The project has a file where the path needs a directory, and the planner does not delete it. -/
def Stopped (path : Path) : Prop :=
  ∃ a, Above a path ∧ project.file a ≠ none ∧ ¬ Removed env old new project accepted a

/-- No path that is written is stopped, nor needs the place of the metadata; or the first that is
stopped comes after nothing but files that are there already. -/
def Fits : Prop :=
  (∀ path ∈ planned old new, wanted env old new project accepted path ≠ none →
    ¬ Stopped env old new project accepted path ∧ ¬ Above projectFile path) ∨
  ((∀ path, ¬ Removed env old new project accepted path) ∧
    ∃ before path after, planned old new = before ++ path :: after ∧
      wanted env old new project accepted path ≠ none ∧
      Stopped env old new project accepted path ∧
      ∀ p ∈ before, ∀ w, wanted env old new project accepted p = some w →
        project.file p = some w.file)

/-- No symbolic link is on the way to a path that is written or deleted. -/
def ClearOfLinks : Prop :=
  project.Clear projectFile ∧
    (∀ path ∈ planned old new, wanted env old new project accepted path ≠ none →
      project.Clear path) ∧
    ∀ path, Removed env old new project accepted path → project.Clear path

end Fits

/-! ## The plan and the paths

What is written and what is deleted, path by path.
-/

section Plan

variable {env : Env} {old new : Release} {m n : Manifest} {project : Project}
  {accepted : List String} {plan : Plan}

theorem writes_eq (hfor : PlanFor env old new m n project accepted plan) :
    plan.writes = (planned (old.tree m) (new.tree n)).filterMap
      (wanted env (old.tree m) (new.tree n) project accepted) := (planPaths_ok hfor).2.1

theorem mem_deletes_iff (hfor : PlanFor env old new m n project accepted plan) {path : Path} :
    path ∈ plan.deletes ↔ Removed env (old.tree m) (new.tree n) project accepted path := by
  rw [(planPaths_ok hfor).2.2.1, List.mem_filter]
  rfl

theorem obstructed_iff (hfor : PlanFor env old new m n project accepted plan) {path : Path} :
    plan.changes.Obstructed project path ↔
      Stopped env (old.tree m) (new.tree n) project accepted path := by
  unfold Changes.Obstructed Stopped
  exact exists_congr fun a => and_congr_right fun _ => and_congr_right fun _ =>
    not_congr (mem_deletes_iff hfor)

/-- A path with a file that is written, and the file. -/
theorem mem_writes_iff (hfor : PlanFor env old new m n project accepted plan)
    {w : Store String Bytes} :
    w ∈ plan.writes ↔ w.path ∈ planned (old.tree m) (new.tree n) ∧
      wanted env (old.tree m) (new.tree n) project accepted w.path = some w := by
  rw [writes_eq hfor, List.mem_filterMap]
  constructor
  · rintro ⟨path, hpath, hw⟩
    have hsame : w.path = path := store_path hw
    rw [hsame]
    exact ⟨hpath, hw⟩
  · rintro ⟨hpath, hw⟩
    exact ⟨w.path, hpath, hw⟩

theorem sound_of_clear (hfor : PlanFor env old new m n project accepted plan)
    (hclear : ClearOfLinks env (old.tree m) (new.tree n) project accepted) :
    plan.changes.Sound project := by
  obtain ⟨-, hwrites, hdeletes⟩ := hclear
  refine hfor.sound (fun w hw => ?_) (fun path hpath => hdeletes path ((mem_deletes_iff hfor).1 hpath))
  obtain ⟨hpath, hwanted⟩ := (mem_writes_iff hfor).1 hw
  refine hwrites w.path hpath ?_
  rw [hwanted]
  exact Option.some_ne_none w

end Plan

/-! ## When the files stay

A failing upgrade has made the calls in front of the first that failed. Its files are as before
only if none of these changed one.
-/

section Keeps

variable {env : Env} {old new : Release} {m n : Manifest} {project project' : Project}
  {accepted : List String} {plan : Plan} {metadata : Metadata} {toVersion : String}

/-- A plan that fits and stops has changed no file. -/
theorem sameFiles_of_fits (hfor : PlanFor env old new m n project accepted plan)
    (hclear : ClearOfLinks env (old.tree m) (new.tree n) project accepted)
    (hfile : project.file projectFile ≠ none)
    (hfits : Fits env (old.tree m) (new.tree n) project accepted)
    (hrun : env.host.run (applyPlan env plan metadata toVersion) project = (project', false)) :
    SameFiles project project' := by
  have hsound := sound_of_clear hfor hclear
  rcases hfits with hnone | ⟨hremoved, before, path, after, hplanned, hwanted, hstopped, hbefore⟩
  · exfalso
    have hwrite : ∀ w ∈ plan.writes, ¬ plan.changes.Obstructed project w.path ∧
        ¬ Above projectFile w.path := by
      intro w hw
      obtain ⟨hpath, hwanted⟩ := (mem_writes_iff hfor).1 hw
      rw [obstructed_iff hfor]
      exact hnone w.path hpath (by rw [hwanted]; exact Option.some_ne_none w)
    obtain ⟨project₁, hchanged, ⟨hdir, -⟩ | ⟨-, project₂, mode, hdone, -⟩⟩ :=
      run_apply metadata toVersion hsound (fun w hw => (hwrite w hw).1) hclear.1
    · exact projectFile_not_dir hchanged hfile (fun w hw => (hwrite w hw).2) hdir
    · rw [hrun] at hdone
      cases hdone
  · obtain ⟨w, hw⟩ := Option.ne_none_iff_exists'.1 hwanted
    have hpath : w.path = path := store_path hw
    -- what is written before the stopped path
    have hsplit : plan.writes = before.filterMap
        (wanted env (old.tree m) (new.tree n) project accepted) ++ w ::
          after.filterMap (wanted env (old.tree m) (new.tree n) project accepted) := by
      rw [writes_eq hfor, hplanned, List.filterMap_append, List.filterMap_cons, hw]
    have hkept : ∀ v ∈ before.filterMap (wanted env (old.tree m) (new.tree n) project accepted),
        project.file v.path = some v.file := by
      intro v hv
      obtain ⟨p, hp, hwanted'⟩ := List.mem_filterMap.1 hv
      have hsame : v.path = p := store_path hwanted'
      rw [hsame]
      exact hbefore p hp v hwanted'
    have hdeletes : plan.deletes = [] := by
      rw [List.eq_nil_iff_forall_not_mem]
      intro p hp
      exact hremoved p ((mem_deletes_iff hfor).1 hp)
    have hblocked : plan.changes.Obstructed project w.path := by
      rw [obstructed_iff hfor, hpath]
      exact hstopped
    have hfree : ∀ v ∈ before.filterMap (wanted env (old.tree m) (new.tree n) project accepted),
        ¬ plan.changes.Obstructed project v.path := by
      rintro v hv ⟨a, ha, hfileAbove, -⟩
      have hnode := project.nothing_below_file ha hfileAbove
      rw [Tree.file_eq_some.1 (hkept v hv)] at hnode
      cases hnode
    have hchanges : plan.changes = ⟨plan.deletes, plan.writes⟩ := rfl
    rw [hchanges, hsplit] at hsound hblocked hfree
    obtain ⟨project₁, hstop, hchanged⟩ :=
      FileTree.Host.run_changes_fails env.host hsound hfree hblocked
    rw [applyPlan_eq, hchanges, hsplit, hstop] at hrun
    cases hrun
    refine (hchanged.sameFiles_iff hsound.init ?_).2 ⟨hdeletes, hkept⟩
    intro v hv hobstructed
    exact hfree v hv hobstructed

/-- A plan that stops and has changed no file fits. -/
theorem fits_of_sameFiles (hfor : PlanFor env old new m n project accepted plan)
    (hclear : ClearOfLinks env (old.tree m) (new.tree n) project accepted)
    (hfile : project.file projectFile ≠ none)
    (hsame : ∀ project', env.host.run (applyPlan env plan metadata toVersion) project =
      (project', false) → SameFiles project project') :
    Fits env (old.tree m) (new.tree n) project accepted := by
  have hsound := sound_of_clear hfor hclear
  by_cases hblocked : ∃ w ∈ plan.writes, plan.changes.Obstructed project w.path
  · -- the first write that something obstructs: what comes before it has been done, so that it
    -- cannot have changed anything
    obtain ⟨before, w, after, project', hsplit, hw, hfree, hrun, hchanged⟩ :=
      run_apply_fails metadata toVersion hsound hblocked
    have hinit : Changes.Sound ⟨plan.deletes, before⟩ project := by
      have hall : Changes.Sound ⟨plan.deletes, before ++ w :: after⟩ project := by
        rw [← hsplit]
        exact hsound
      exact hall.init
    obtain ⟨hdeletes, hkept⟩ := (hchanged.sameFiles_iff hinit hfree).1 (hsame project' hrun)
    rw [writes_eq hfor, List.filterMap_eq_append_iff] at hsplit
    obtain ⟨paths, rest, hplanned, hbefore, hrest⟩ := hsplit
    obtain ⟨skipped, path, after', rfl, hskipped, hpath, hafter⟩ := List.filterMap_eq_cons_iff.1 hrest
    have hsamePath : w.path = path := store_path hpath
    refine Or.inr ⟨fun p hp => ?_, paths ++ skipped, path, after', ?_, ?_, ?_, ?_⟩
    · have hin := (mem_deletes_iff hfor).2 hp
      rw [show plan.deletes = [] from hdeletes] at hin
      cases hin
    · rw [hplanned, List.append_assoc]
    · rw [hpath]
      exact Option.some_ne_none w
    · rw [← hsamePath, ← obstructed_iff hfor]
      exact hw
    · intro p hp v hv
      have hsameV : v.path = p := store_path hv
      rcases List.mem_append.1 hp with hp | hp
      · rw [← hsameV]
        refine hkept v ?_
        rw [← hbefore]
        exact List.mem_filterMap.2 ⟨p, hp, hv⟩
      · rw [hskipped p hp] at hv
        cases hv
  · push Not at hblocked
    -- nothing obstructs a write: only the metadata can still fail
    refine Or.inl fun path hpath hwanted => ?_
    obtain ⟨w, hw⟩ := Option.ne_none_iff_exists'.1 hwanted
    have hsamePath : w.path = path := store_path hw
    have hin : w ∈ plan.writes := (mem_writes_iff hfor).2 (by rw [hsamePath]; exact ⟨hpath, hw⟩)
    refine ⟨?_, fun habove => ?_⟩
    · rw [← hsamePath, ← obstructed_iff hfor]
      exact hblocked w hin
    · -- the metadata would have to be written where a directory is
      obtain ⟨project₁, hchanged, hend⟩ := run_apply metadata toVersion hsound hblocked hclear.1
      have hdir : project₁.node projectFile = some .dir :=
        hchanged.above w hin projectFile (by rw [hsamePath]; exact habove)
      rcases hend with ⟨-, hrun⟩ | ⟨hnot, -⟩
      · have hkept := (hsame project₁ hrun projectFile).1
        rw [Tree.file_of_dir hdir] at hkept
        exact hfile hkept.symm
      · exact hnot hdir

end Keeps

/-- If the upgrade gets as far as its first call, the plan fits, and no symbolic link is on the way. -/
def PlanFits (env : Env) (template : Template) (project : Project) (options : Options) : Prop :=
  ∀ metadata fromVersion toVersion plan,
    prepare env template project options = .ok (.ready metadata fromVersion toVersion plan) →
    options.checkOnly = false → ∀ old new m n, Trees env template project old new m n →
      ClearOfLinks env (old.tree m) (new.tree n) project options.acceptPaths.eraseDups ∧
        Fits env (old.tree m) (new.tree n) project options.acceptPaths.eraseDups

theorem projectFile_of_ready {env : Env} {template : Template} {project : Project}
    {options : Options} {metadata : Metadata} {fromVersion toVersion : String} {plan : Plan}
    (hclear : project.Clear projectFile)
    (hready : prepare env template project options =
      .ok (.ready metadata fromVersion toVersion plan)) : project.file projectFile ≠ none := by
  obtain ⟨file, hfile, -⟩ := readMetadata_file hclear (prepare_ready hready).1
  rw [hfile]
  exact Option.some_ne_none file

theorem keepsFiles_of_fits {env : Env} {template : Template} {project : Project} {options : Options}
    (h : PlanFits env template project options) :
    FailureKeepsFiles env template project options := by
  intro failure hfailure hbefore
  rcases upgradeProject_cases env template project options with
    ⟨hsame, -⟩ | ⟨metadata, fromVersion, toVersion, plan, project', hready, hcheck, hproject, hend⟩
  · rw [hsame]
    exact FileTree.sameFiles_refl project
  · obtain ⟨old, new, m, n, htrees⟩ := trees_of_ready hready
    obtain ⟨hclear, hfits⟩ := h _ _ _ _ hready hcheck old new m n htrees
    obtain ⟨hfor, -⟩ := htrees.plan hready
    rcases hend with ⟨hrun, -⟩ | ⟨-, ⟨message, hverify⟩ | ⟨report, hreport, -⟩⟩
    · rw [hproject]
      exact sameFiles_of_fits hfor hclear (projectFile_of_ready hclear.1 hready) hfits hrun
    · rw [hfailure] at hverify
      cases hverify
      exact absurd rfl (hbefore message)
    · rw [hfailure] at hreport
      cases hreport

theorem fits_of_keepsFiles {env : Env} {template : Template} {project : Project} {options : Options}
    (hlinks : project.NoLinks) (h : FailureKeepsFiles env template project options) :
    PlanFits env template project options := by
  intro metadata fromVersion toVersion plan hready hcheck old new m n htrees
  have hclear : ClearOfLinks env (old.tree m) (new.tree n) project options.acceptPaths.eraseDups :=
    ⟨hlinks.clear _, fun path _ _ => hlinks.clear path, fun path _ => hlinks.clear path⟩
  obtain ⟨hfor, -⟩ := htrees.plan hready
  refine ⟨hclear, ?_⟩
  have hsame : ∀ project', env.host.run (applyPlan env plan metadata toVersion) project =
      (project', false) → SameFiles project project' := by
    intro project' hrun
    have hend : upgradeProject env template project options = (project', .error .applying) := by
      unfold upgradeProject
      rw [hready, hcheck]
      dsimp only
      rw [hrun]
      rfl
    have hkept := h .applying (by rw [hend]) (by rintro message ⟨⟩)
    rw [hend] at hkept
    exact hkept
  exact fits_of_sameFiles hfor hclear (projectFile_of_ready hclear.1 hready) hsame

/-- **When a failing upgrade leaves the project as it was**: if its plan fits, and only then in a
project without symbolic links. -/
theorem failed_upgrade_keeps_files_iff (env : Env) (template : Template) (project : Project)
    (options : Options) :
    (PlanFits env template project options → FailureKeepsFiles env template project options) ∧
      (project.NoLinks → FailureKeepsFiles env template project options →
        PlanFits env template project options) :=
  ⟨keepsFiles_of_fits, fits_of_keepsFiles⟩

/-! ## A file of the project where a directory is to be

An upgrade that deletes one file before it finds another one in the way.
-/

namespace Sample

/-- The old release has a file that the new one has not, and the new one a file in a directory. -/
def oldFlat : Release :=
  release (records "v1.0.0" [(["framework", "gone.txt"], plain "old\n")]) (by decide +kernel)

def newNested : Release :=
  release (records "v1.1.0" [(["framework", "lib", "new.txt"], plain "new\n")]) (by decide +kernel)

def flatTemplate : Template where
  version := ascii "v1.1.0\n"
  head := "new"
  tag version :=
    if version = "v1.0.0" then some ("old", oldFlat)
    else if version = "v1.1.0" then some ("new", newNested)
    else none

/-- The project has the file of the old release, and one of its own called `framework/lib`. -/
def flatProject : Project :=
  Tree.ofFiles (projectFiles "v1.0.0" [(["framework", "gone.txt"], "old\n"),
    (["framework", "lib"], "mine\n")]) (by decide +kernel)

/-- **An upgrade deletes a file and then stops**: the directory of the new file cannot be made. -/
theorem failed_upgrade_deletes :
    (upgradeProject env flatTemplate flatProject upgradeOptions).2 = .error .applying ∧
      flatProject.file ["framework", "gone.txt"] = some ⟨0o644, ascii "old\n"⟩ ∧
      (upgradeProject env flatTemplate flatProject upgradeOptions).1.file ["framework", "gone.txt"] =
        none ∧
      ¬ FailureKeepsFiles env flatTemplate flatProject upgradeOptions := by
  have hend : (upgradeProject env flatTemplate flatProject upgradeOptions).2 = .error .applying := by
    decide +kernel
  have hgone : (upgradeProject env flatTemplate flatProject upgradeOptions).1.file
      ["framework", "gone.txt"] = none := by
    decide +kernel
  refine ⟨hend, by decide +kernel, hgone, fun h => ?_⟩
  have hkept := (h _ hend (by rintro message ⟨⟩) ["framework", "gone.txt"]).1
  rw [hgone] at hkept
  exact absurd hkept (by decide +kernel)

end Sample

end Upgrade

end ArcAdmin

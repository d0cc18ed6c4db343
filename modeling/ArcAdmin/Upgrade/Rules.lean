import ArcAdmin.FileTree.Changes
import ArcAdmin.Flow.Config
import ArcAdmin.Upgrade.Plan
import Mathlib.Data.List.Nodup

/-!
# What the planner decides

Every path of the plan is decided on its own, from the entries of both releases and the file of the
project.

* **`planPaths_ok`** — the plan collects the decisions;
* **`planUpgrade_ok`** — a plan is made of two framework trees;
* **`Planned.sound`** — it deletes files that exist and writes at paths that lie apart.
-/

namespace ArcAdmin

namespace Upgrade

open FileTree (Above Apart Tree Store Changes)

theorem failIf_ok {condition : Bool} {message : String} :
    failIf condition message = .ok () ↔ condition = false := by
  unfold failIf fail
  cases condition <;> simp

/-! ## Files of the project

Where no symbolic link is on the way, reading a file is looking it up in the tree.
-/

/-- The content of the regular file at the path. -/
def content (project : Project) (path : Path) : Option Bytes :=
  (project.file path).map FileTree.File.content

theorem localFile_of_file {env : Env} {project : Project} {path : Path} {file : FileTree.File Bytes}
    (hclear : project.Clear path) (h : project.file path = some file) :
    localFile env project path = .ok (.content file.content) := by
  unfold localFile existsSync readFileSync
  rw [FileTree.Host.look_of_file hclear h, FileTree.Host.isRegular_of_clear hclear, h]
  rfl

theorem localFile_of_dir {env : Env} {project : Project} {path : Path}
    (hclear : project.Clear path) (h : project.node path = some .dir) :
    localFile env project path = .ok .unsupported := by
  unfold localFile existsSync
  rw [FileTree.Host.look_of_dir hclear h, FileTree.Host.isRegular_of_clear hclear,
    Tree.file_of_dir h]
  rfl

theorem localFile_of_none {env : Env} {project : Project} {path : Path}
    (hclear : project.Clear path) (h : project.node path = none) :
    localFile env project path = .ok .null := by
  unfold localFile existsSync
  rw [FileTree.Host.look_of_none hclear h]
  rfl

/-! ## Decisions

The loop is independent of the order as far as its result is concerned: a path contributes what is
decided about it and nothing else.
-/

def Decision.store (path : Path) : Decision → Option (Store String Bytes)
  | .write content mode => some ⟨path, content, mode⟩
  | .merge content mode => some ⟨path, content, mode⟩
  | _ => none

def Decision.isDelete : Decision → Bool
  | .delete => true
  | _ => false

def Decision.conflictAt (path : Path) : Decision → Option String
  | .conflict reason => some s!"{pathText path}（{reason}）"
  | _ => none

def Decision.IsConflict (d : Decision) : Prop := ∃ reason, d = .conflict reason

theorem store_path {d : Decision} {path : Path} {w : Store String Bytes}
    (h : d.store path = some w) : w.path = path := by
  cases d <;> cases h <;> rfl

section Plan

variable {env : Env} {old new : FrameworkTree} {project : Project} {accepted : List String}

/-- What was decided; anything where the planner failed. -/
def decision (env : Env) (old new : FrameworkTree) (project : Project) (accepted : List String)
    (path : Path) : Decision :=
  match decidePath env old new project accepted path with
  | .ok d => d
  | .error _ => .skip

theorem decision_eq {path : Path} {d : Decision}
    (h : decidePath env old new project accepted path = .ok d) :
    decision env old new project accepted path = d := by
  unfold decision
  rw [h]

/-- **The plan collects the decisions.** -/
theorem planPaths_ok {paths : List Path} {plan : Plan}
    (h : planPaths env old new project accepted paths = .ok plan) :
    (∀ path ∈ paths, decidePath env old new project accepted path =
      .ok (decision env old new project accepted path)) ∧
    plan.writes = paths.filterMap
      (fun path => (decision env old new project accepted path).store path) ∧
    plan.deletes = paths.filter
      (fun path => (decision env old new project accepted path).isDelete) ∧
    plan.conflicts = paths.filterMap
      (fun path => (decision env old new project accepted path).conflictAt path) := by
  induction paths generalizing plan with
  | nil =>
    cases h
    exact ⟨fun path hpath => (nomatch hpath), rfl, rfl, rfl⟩
  | cons path paths ih =>
    obtain ⟨d, hd, hrest⟩ := bind_ok.1 h
    obtain ⟨rest, hplan, hadd⟩ := bind_ok.1 hrest
    obtain ⟨hdecided, hwrites, hdeletes, hconflicts⟩ := ih hplan
    have hdec := decision_eq hd
    cases hadd
    refine ⟨?_, ?_, ?_, ?_⟩
    · intro p hp
      rcases List.mem_cons.1 hp with rfl | hp
      · rw [hdec, hd]
      · exact hdecided p hp
    · rw [List.filterMap_cons, hdec, ← hwrites]
      cases d <;> rfl
    · rw [List.filter_cons, hdec, ← hdeletes]
      cases d <;> rfl
    · rw [List.filterMap_cons, hdec, ← hconflicts]
      cases d <;> rfl

/-- A path that does not change, or that was accepted, is skipped. -/
theorem decidePath_skip {path : Path}
    (h : isChanged old new path = false ∨ pathText path ∈ accepted) :
    decidePath env old new project accepted path = .ok .skip := by
  unfold decidePath
  have hskip : (!isChanged old new path || accepted.contains (pathText path)) = true := by
    rw [Bool.or_eq_true, Bool.not_eq_true', List.contains_iff_mem]
    exact h
  rw [if_pos hskip]
  rfl

/-- What is decided for the other paths. -/
theorem decidePath_active {path : Path} (hchanged : isChanged old new path = true)
    (haccepted : pathText path ∉ accepted) :
    decidePath env old new project accepted path = (do
      match ← localFile env project path with
      | .unsupported => return .conflict "业务仓库中不是普通文件"
      | .null => decideFile env path none (old.entry path) (new.entry path)
      | .content content => decideFile env path (some content) (old.entry path) (new.entry path)) := by
  unfold decidePath
  have hskip : (!isChanged old new path || accepted.contains (pathText path)) = false := by
    rw [Bool.or_eq_false_iff, Bool.not_eq_false', hchanged, ← Bool.not_eq_true, List.contains_iff_mem]
    exact ⟨rfl, haccepted⟩
  rw [hskip]
  rfl

/-- Where no link is on the way, the file of the tree decides. -/
theorem decidePath_clear {path : Path} (hclear : project.Clear path)
    (hchanged : isChanged old new path = true) (haccepted : pathText path ∉ accepted)
    (hdir : project.node path ≠ some .dir) :
    decidePath env old new project accepted path =
      decideFile env path (content project path) (old.entry path) (new.entry path) := by
  rw [decidePath_active hchanged haccepted]
  unfold content
  cases hfile : project.file path with
  | some file =>
    rw [localFile_of_file hclear hfile]
    rfl
  | none =>
    have hnone := Tree.node_of_file_none hfile (hclear path (List.prefix_refl path)) hdir
    rw [localFile_of_none hclear hnone]
    rfl

theorem decidePath_dir {path : Path} (hclear : project.Clear path)
    (hchanged : isChanged old new path = true) (haccepted : pathText path ∉ accepted)
    (hdir : project.node path = some .dir) :
    decidePath env old new project accepted path = .ok (.conflict "业务仓库中不是普通文件") := by
  rw [decidePath_active hchanged haccepted, localFile_of_dir hclear hdir]
  rfl

/-- A decision other than to skip is about a path that changed. -/
theorem changed_of_decided {path : Path} {d : Decision}
    (h : decidePath env old new project accepted path = .ok d) (hskip : d ≠ .skip) :
    isChanged old new path = true ∧ pathText path ∉ accepted := by
  by_contra hnot
  have hcases : isChanged old new path = false ∨ pathText path ∈ accepted := by
    by_contra hneither
    push Not at hneither
    exact hnot ⟨Bool.not_eq_false _ ▸ hneither.1, hneither.2⟩
  rw [decidePath_skip hcases] at h
  cases h
  exact hskip rfl

end Plan

/-! ## One file

All outcomes of the decision in one inductive type, so that later proofs split cases once.
-/

/-- What the planner decides, from the content of the file and the entries of the two releases. -/
inductive Decides (env : Env) (path : Path) :
    Option Bytes → Option Entry → Option Entry → Decision → Prop where
  | created {new : Entry} {mode : Nat} (hmode : fileMode new = .ok mode) :
    Decides env path none none (some new) (.write new.content mode)
  | same {old : Option Entry} {new : Entry} {mode : Nat} (hmode : fileMode new = .ok mode) :
    Decides env path (some new.content) old (some new) (.write new.content mode)
  | taken {content : Bytes} {new : Entry} {reason : String} (hnew : content ≠ new.content) :
    Decides env path (some content) none (some new) (.conflict reason)
  | gone {old : Entry} : Decides env path none (some old) none .skip
  | removed {old : Entry} : Decides env path (some old.content) (some old) none .delete
  | kept {content : Bytes} {old : Entry} {reason : String} (hold : content ≠ old.content) :
    Decides env path (some content) (some old) none (.conflict reason)
  | missing {old new : Entry} {reason : String} :
    Decides env path none (some old) (some new) (.conflict reason)
  | updated {old new : Entry} {mode : Nat} (hnew : old.content ≠ new.content)
    (hmode : fileMode new = .ok mode) :
    Decides env path (some old.content) (some old) (some new) (.write new.content mode)
  | modeOnly {content : Bytes} {old new : Entry} {mode : Nat} (hnew : content ≠ new.content)
    (hsame : old.content = new.content) (hmode : fileMode new = .ok mode) :
    Decides env path (some content) (some old) (some new) (.write content mode)
  | merged {content merged : Bytes} {old new : Entry} {mode : Nat} (hnew : content ≠ new.content)
    (hold : content ≠ old.content) (hchange : old.content ≠ new.content)
    (htext : isText content && isText old.content && isText new.content)
    (hmerge : env.mergeFile (pathText path) content old.content new.content = .ok (some merged))
    (hmode : fileMode new = .ok mode) :
    Decides env path (some content) (some old) (some new) (.merge merged mode)
  | clash {content : Bytes} {old new : Entry} {reason : String} (hnew : content ≠ new.content)
    (hold : content ≠ old.content) (hchange : old.content ≠ new.content)
    (hmerge : (isText content && isText old.content && isText new.content) = false ∨
      env.mergeFile (pathText path) content old.content new.content = .ok none) :
    Decides env path (some content) (some old) (some new) (.conflict reason)

/-- **Every decision about a file is one of these.** -/
theorem decideFile_cases {env : Env} {path : Path} {file : Option Bytes}
    {oldEntry newEntry : Option Entry} {d : Decision}
    (h : decideFile env path file oldEntry newEntry = .ok d) :
    Decides env path file oldEntry newEntry d := by
  unfold decideFile decideBoth at h
  split at h
  · -- only the new release has the path
    dsimp only at h
    split at h
    · obtain ⟨mode, hmode, hd⟩ := bind_ok.1 h
      cases hd
      exact .created hmode
    · split at h
      · next hsame =>
        obtain ⟨mode, hmode, hd⟩ := bind_ok.1 h
        cases hd
        cases hsame
        exact .same hmode
      · next hnew =>
        cases h
        exact .taken hnew
  · -- only the old release has it
    split at h
    · cases h
      exact .gone
    · split at h
      · next hsame =>
        cases h
        cases hsame
        exact .removed
      · next hold =>
        cases h
        exact .kept hold
  · -- both have it
    dsimp only at h
    split at h
    · cases h
      exact .missing
    · split at h
      · next hsame =>
        obtain ⟨mode, hmode, hd⟩ := bind_ok.1 h
        cases hd
        cases hsame
        exact .same hmode
      · next hnew =>
        split at h
        · next hsame =>
          obtain ⟨mode, hmode, hd⟩ := bind_ok.1 h
          cases hd
          cases hsame
          exact .updated hnew hmode
        · next hold =>
          split at h
          · next hsame =>
            obtain ⟨mode, hmode, hd⟩ := bind_ok.1 h
            cases hd
            exact .modeOnly hnew hsame hmode
          · next hchange =>
            split at h
            · next htext =>
              obtain ⟨merged, hmerge, hrest⟩ := bind_ok.1 h
              cases merged with
              | none =>
                cases hrest
                exact .clash hnew hold hchange (Or.inr hmerge)
              | some merged =>
                obtain ⟨mode, hmode, hd⟩ := bind_ok.1 hrest
                cases hd
                exact .merged hnew hold hchange htext hmerge hmode
            · next htext =>
              cases h
              exact .clash hnew hold hchange (Or.inl (Bool.eq_false_iff.2 htext))
  · cases h

/-- A decision to write is about a path of the new release, and takes the mode from there. -/
theorem Decides.store {env : Env} {path : Path} {file : Option Bytes}
    {oldEntry newEntry : Option Entry} {d : Decision} {w : Store String Bytes}
    (h : Decides env path file oldEntry newEntry d) (hstore : d.store path = some w) :
    ∃ entry, newEntry = some entry ∧ fileMode entry = .ok w.mode := by
  cases h <;> cases hstore <;> exact ⟨_, rfl, by assumption⟩

/-- A decision to delete is about a path that the new release has not, with the content of the old
one. -/
theorem Decides.delete {env : Env} {path : Path} {file : Option Bytes}
    {oldEntry newEntry : Option Entry} (h : Decides env path file oldEntry newEntry .delete) :
    ∃ entry, oldEntry = some entry ∧ newEntry = none ∧ file = some entry.content := by
  cases h
  exact ⟨_, rfl, rfl, rfl⟩

/-! ## Framework trees

The tree that the program takes from a release, against the release itself: what a tag has and the
manifest covers, but for names with a line terminator.
-/

/-- With one record for each path, a record is what is looked up. -/
theorem lookup_iff_mem {α β : Type} [BEq α] [LawfulBEq α] {l : List (α × β)} {a : α} {b : β}
    (hnodup : (l.map Prod.fst).Nodup) : l.lookup a = some b ↔ (a, b) ∈ l := by
  induction l with
  | nil => simp
  | cons p l ih =>
    obtain ⟨c, d⟩ := p
    rw [List.map_cons, List.nodup_cons] at hnodup
    obtain ⟨hnotin, hrest⟩ := hnodup
    rw [List.mem_cons, List.lookup_cons]
    by_cases hsame : a = c
    · subst hsame
      rw [beq_self_eq_true]
      constructor
      · rintro ⟨⟩
        exact Or.inl rfl
      · rintro (h | h)
        · cases h
          rfl
        · exact absurd (List.mem_map_of_mem h) hnotin
    · rw [beq_eq_false_iff_ne.2 hsame, ih hrest]
      constructor
      · exact Or.inr
      · rintro (h | h)
        · cases h
          exact absurd rfl hsame
        · exact h

/-- The entry of a path in the tree of a tag. -/
def Release.entry (release : Release) (path : Path) : Option Entry := release.records.lookup path

/-- The release has the path, and the manifest covers it. -/
def Managed (release : Release) (manifest : Manifest) (path : Path) : Prop :=
  release.entry path ≠ none ∧ manifest.covers path = true

instance (release : Release) (manifest : Manifest) (path : Path) :
    Decidable (Managed release manifest path) := inferInstanceAs (Decidable (_ ∧ _))

/-- The tree that the program takes from a release and its manifest. -/
def Release.tree (release : Release) (manifest : Manifest) : FrameworkTree :=
  ⟨readTree release, ((readTree release).map Prod.fst).filter manifest.covers⟩

theorem frameworkTree_ok {env : Env} {release : Release} {ref : String} {tree : FrameworkTree} :
    frameworkTree env release ref = .ok tree ↔
      ∃ manifest, readManifestAt env release ref = .ok manifest ∧ tree = release.tree manifest := by
  unfold frameworkTree
  rw [bind_ok]
  refine exists_congr fun manifest => and_congr_right fun _ => ?_
  exact ⟨fun h => by cases h; rfl, fun h => by rw [h]; rfl⟩

theorem nodup_readTree (release : Release) : ((readTree release).map Prod.fst).Nodup :=
  release.nodup.sublist (List.filter_sublist.map Prod.fst)

/-- The program sees the blobs whose path has no line terminator. -/
theorem entry_tree {release : Release} {manifest : Manifest} {path : Path} {entry : Entry} :
    (release.tree manifest).entry path = some entry ↔
      release.entry path = some entry ∧ matchesRecord path = true ∧ entry.blob = true := by
  show (readTree release).lookup path = some entry ↔ release.records.lookup path = some entry ∧ _
  rw [lookup_iff_mem (nodup_readTree release), lookup_iff_mem release.nodup]
  unfold readTree
  rw [List.mem_filter, Bool.and_eq_true]

theorem mem_managedPaths {release : Release} {manifest : Manifest} {path : Path} :
    path ∈ (release.tree manifest).managedPaths ↔
      (∃ entry, (release.tree manifest).entry path = some entry) ∧ manifest.covers path = true := by
  show path ∈ ((readTree release).map Prod.fst).filter manifest.covers ↔
    (∃ entry, (readTree release).lookup path = some entry) ∧ _
  rw [List.mem_filter, List.mem_map]
  refine and_congr_left fun _ => ?_
  constructor
  · rintro ⟨⟨_, entry⟩, hin, rfl⟩
    exact ⟨entry, (lookup_iff_mem (nodup_readTree release)).2 hin⟩
  · rintro ⟨entry, hentry⟩
    exact ⟨(path, entry), (lookup_iff_mem (nodup_readTree release)).1 hentry, rfl⟩

/-- Two paths of a release lie apart. -/
theorem apart_of_entries {release : Release} {manifest : Manifest} {a b : Path} {x y : Entry}
    (ha : (release.tree manifest).entry a = some x) (hb : (release.tree manifest).entry b = some y)
    (hne : a ≠ b) : Apart a b := by
  have hin : ∀ {path entry}, (release.tree manifest).entry path = some entry →
      path ∈ release.records.map Prod.fst := by
    intro path entry h
    exact List.mem_map_of_mem ((lookup_iff_mem release.nodup).1 (entry_tree.1 h).1)
  by_contra hnot
  rcases FileTree.apart_or hnot with h | h | h
  · exact hne h
  · exact release.prefixFree a (hin ha) b (hin hb) h
  · exact release.prefixFree b (hin hb) a (hin ha) h

theorem mem_planned {old new : FrameworkTree} {path : Path} :
    path ∈ planned old new ↔ path ∈ old.managedPaths ∨ path ∈ new.managedPaths := by
  unfold planned
  rw [List.mem_insertionSort, List.mem_append, List.mem_filter, Bool.not_eq_true',
    ← Bool.not_eq_true, List.contains_iff_mem]
  tauto

theorem nodup_planned {oldRelease newRelease : Release} {m n : Manifest} :
    (planned (oldRelease.tree m) (newRelease.tree n)).Nodup := by
  unfold planned
  rw [(List.perm_insertionSort _ _).nodup_iff]
  refine List.Nodup.append ((nodup_readTree oldRelease).filter _)
    (((nodup_readTree newRelease).filter _).filter _) ?_
  intro path hold hnew
  rw [List.mem_filter, Bool.not_eq_true', ← Bool.not_eq_true, List.contains_iff_mem] at hnew
  exact hnew.2 hold

/-! ## Plans

What follows for the plan as a whole, above all that its calls do not get in each other's way.
-/

/-- **A plan is made of two framework trees.** -/
theorem planUpgrade_ok {env : Env} {project : Project} {oldRelease newRelease : Release}
    {fromRef toRef : String} {acceptPaths : List String} {plan : Plan}
    (h : planUpgrade env project oldRelease newRelease fromRef toRef acceptPaths = .ok plan) :
    ∃ m n, readManifestAt env oldRelease fromRef = .ok m ∧
      readManifestAt env newRelease toRef = .ok n ∧
      planPaths env (oldRelease.tree m) (newRelease.tree n) project acceptPaths.eraseDups
        (planned (oldRelease.tree m) (newRelease.tree n)) = .ok plan := by
  obtain ⟨old, hold, hrest⟩ := bind_ok.1 h
  obtain ⟨new, hnew, hrest⟩ := bind_ok.1 hrest
  obtain ⟨_, _, hplan⟩ := bind_ok.1 hrest
  obtain ⟨m, hm, rfl⟩ := frameworkTree_ok.1 hold
  obtain ⟨n, hn, rfl⟩ := frameworkTree_ok.1 hnew
  exact ⟨m, n, hm, hn, hplan⟩

def Plan.changes (plan : Plan) : Changes String Bytes := ⟨plan.deletes, plan.writes⟩

theorem applyPlan_eq (env : Env) (plan : Plan) (metadata : Metadata) (toVersion : String) :
    applyPlan env plan metadata toVersion = plan.changes.ops ++
      [.write projectFile (env.stringify (metadata.upgraded toVersion env.now))] := rfl

section Plan

variable {env : Env} {oldRelease newRelease : Release} {m n : Manifest} {project : Project}
  {accepted : List String} {plan : Plan}

/-- The plan for two releases and their manifests. -/
def PlanFor (env : Env) (oldRelease newRelease : Release) (m n : Manifest) (project : Project)
    (accepted : List String) (plan : Plan) : Prop :=
  planPaths env (oldRelease.tree m) (newRelease.tree n) project accepted
    (planned (oldRelease.tree m) (newRelease.tree n)) = .ok plan

/-- The file that the decision rests on. -/
theorem exists_decides {old new : FrameworkTree} {path : Path} {d : Decision}
    (h : decidePath env old new project accepted path = .ok d) (hskip : d ≠ .skip)
    (hconflict : ¬ d.IsConflict) : ∃ file, Decides env path file (old.entry path) (new.entry path) d := by
  obtain ⟨hchanged, haccepted⟩ := changed_of_decided h hskip
  rw [decidePath_active hchanged haccepted] at h
  obtain ⟨file, -, hdecide⟩ := bind_ok.1 h
  cases file with
  | null => exact ⟨none, decideFile_cases hdecide⟩
  | unsupported =>
    cases hdecide
    exact absurd ⟨_, rfl⟩ hconflict
  | content content => exact ⟨some content, decideFile_cases hdecide⟩

/-- Where no link is on the way, the decision rests on the file of the tree. -/
theorem decides_of_clear {old new : FrameworkTree} {path : Path} {d : Decision}
    (h : decidePath env old new project accepted path = .ok d) (hskip : d ≠ .skip)
    (hconflict : ¬ d.IsConflict) (hclear : project.Clear path) :
    project.node path ≠ some .dir ∧
      Decides env path (content project path) (old.entry path) (new.entry path) d := by
  obtain ⟨hchanged, haccepted⟩ := changed_of_decided h hskip
  have hdir : project.node path ≠ some .dir := by
    intro hdir
    rw [decidePath_dir hclear hchanged haccepted hdir] at h
    cases h
    exact hconflict ⟨_, rfl⟩
  rw [decidePath_clear hclear hchanged haccepted hdir] at h
  exact ⟨hdir, decideFile_cases h⟩

theorem mem_writes (h : PlanFor env oldRelease newRelease m n project accepted plan)
    {w : Store String Bytes} :
    w ∈ plan.writes ↔ w.path ∈ planned (oldRelease.tree m) (newRelease.tree n) ∧
      ∃ d, decidePath env (oldRelease.tree m) (newRelease.tree n) project accepted w.path = .ok d ∧
        d.store w.path = some w := by
  obtain ⟨hdecided, hwrites, -, -⟩ := planPaths_ok h
  rw [hwrites, List.mem_filterMap]
  constructor
  · rintro ⟨path, hpath, hstore⟩
    cases store_path hstore
    exact ⟨hpath, _, hdecided _ hpath, hstore⟩
  · rintro ⟨hpath, d, hd, hstore⟩
    refine ⟨w.path, hpath, ?_⟩
    rw [decision_eq hd, hstore]

theorem mem_deletes (h : PlanFor env oldRelease newRelease m n project accepted plan) {path : Path} :
    path ∈ plan.deletes ↔ path ∈ planned (oldRelease.tree m) (newRelease.tree n) ∧
      decidePath env (oldRelease.tree m) (newRelease.tree n) project accepted path = .ok .delete := by
  obtain ⟨hdecided, -, hdeletes, -⟩ := planPaths_ok h
  rw [hdeletes, List.mem_filter]
  refine and_congr_right fun hpath => ?_
  have hd := hdecided path hpath
  constructor
  · intro hdelete
    rw [hd]
    cases hdec : decision env (oldRelease.tree m) (newRelease.tree n) project accepted path <;>
      rw [hdec] at hdelete <;> first | rfl | cases hdelete
  · intro hdelete
    rw [decision_eq hdelete]
    rfl

/-- Without conflicts no path is decided to be one. -/
theorem not_conflict (h : PlanFor env oldRelease newRelease m n project accepted plan)
    (hnone : plan.conflicts = []) {path : Path}
    (hpath : path ∈ planned (oldRelease.tree m) (newRelease.tree n)) :
    ∃ d, decidePath env (oldRelease.tree m) (newRelease.tree n) project accepted path = .ok d ∧
      ¬ d.IsConflict := by
  obtain ⟨hdecided, -, -, hconflicts⟩ := planPaths_ok h
  refine ⟨_, hdecided path hpath, ?_⟩
  rintro ⟨reason, hreason⟩
  rw [hconflicts, List.filterMap_eq_nil_iff] at hnone
  have hnot := hnone path hpath
  rw [hreason] at hnot
  cases hnot

/-- A path that is written has an entry in the new release. -/
theorem entry_of_write (h : PlanFor env oldRelease newRelease m n project accepted plan)
    {w : Store String Bytes} (hw : w ∈ plan.writes) :
    ∃ entry, (newRelease.tree n).entry w.path = some entry ∧ fileMode entry = .ok w.mode := by
  obtain ⟨hpath, d, hd, hstore⟩ := (mem_writes h).1 hw
  obtain ⟨file, hdecides⟩ := exists_decides hd (by rintro rfl; cases hstore)
    (by rintro ⟨reason, rfl⟩; cases hstore)
  exact hdecides.store hstore

/-- A path that is deleted has none. -/
theorem entry_of_delete (h : PlanFor env oldRelease newRelease m n project accepted plan)
    {path : Path} (hpath : path ∈ plan.deletes) : (newRelease.tree n).entry path = none := by
  obtain ⟨hin, hd⟩ := (mem_deletes h).1 hpath
  obtain ⟨file, hdecides⟩ := exists_decides hd (by rintro ⟨⟩) (by rintro ⟨reason, hreason⟩; cases hreason)
  obtain ⟨_, -, hnone, -⟩ := hdecides.delete
  exact hnone

/-- **The plan deletes files that exist and writes at paths that lie apart.** -/
theorem PlanFor.sound (h : PlanFor env oldRelease newRelease m n project accepted plan)
    (hwrites : ∀ w ∈ plan.writes, project.Clear w.path)
    (hdeletes : ∀ path ∈ plan.deletes, project.Clear path) : plan.changes.Sound project where
  nodup := by
    show plan.deletes.Nodup
    rw [(planPaths_ok h).2.2.1]
    exact nodup_planned.filter _
  exist path hpath := by
    obtain ⟨hin, hd⟩ := (mem_deletes h).1 hpath
    obtain ⟨-, hdecides⟩ := decides_of_clear hd (by rintro ⟨⟩)
      (by rintro ⟨reason, hreason⟩; cases hreason) (hdeletes path hpath)
    obtain ⟨entry, -, -, hcontent⟩ := hdecides.delete
    intro hnone
    unfold content at hcontent
    rw [hnone] at hcontent
    cases hcontent
  clearDeletes := hdeletes
  apart := by
    have hne : plan.writes.Pairwise fun a b => a.path ≠ b.path := by
      rw [(planPaths_ok h).2.1, List.pairwise_filterMap]
      refine (nodup_planned (m := m) (n := n)).imp ?_
      intro a b hab x hx y hy
      rw [store_path hx, store_path hy]
      exact hab
    refine hne.imp_of_mem ?_
    intro a b ha hb hab
    obtain ⟨x, hx, -⟩ := entry_of_write h ha
    obtain ⟨y, hy, -⟩ := entry_of_write h hb
    exact apart_of_entries hx hy hab
  noDir w hw := by
    obtain ⟨hpath, d, hd, hstore⟩ := (mem_writes h).1 hw
    exact (decides_of_clear hd (by rintro rfl; cases hstore)
      (by rintro ⟨reason, rfl⟩; cases hstore) (hwrites w hw)).1
  clearStores := hwrites
  disjoint w hw hdelete := by
    obtain ⟨entry, hentry, -⟩ := entry_of_write h hw
    rw [entry_of_delete h hdelete] at hentry
    cases hentry

end Plan

/-! ## The paths that the planner decides about

For each such path, what is there after its decision has been carried out.
-/

/-- The planner decides about the path. -/
def Active (old new : Release) (m n : Manifest) (accepted : List String) (path : Path) : Prop :=
  path ∈ planned (old.tree m) (new.tree n) ∧ isChanged (old.tree m) (new.tree n) path = true ∧
    pathText path ∉ accepted

section Active

variable {env : Env} {old new : Release} {m n : Manifest} {project : Project}
  {accepted : List String} {plan : Plan}

theorem active_of_write (hfor : PlanFor env old new m n project accepted plan)
    {w : Store String Bytes} (hw : w ∈ plan.writes) : Active old new m n accepted w.path := by
  obtain ⟨hpath, d, hd, hstore⟩ := (mem_writes hfor).1 hw
  have hskip : d ≠ .skip := by
    rintro rfl
    cases hstore
  exact ⟨hpath, changed_of_decided hd hskip⟩

theorem active_of_delete (hfor : PlanFor env old new m n project accepted plan) {path : Path}
    (hpath : path ∈ plan.deletes) : Active old new m n accepted path := by
  obtain ⟨hin, hd⟩ := (mem_deletes hfor).1 hpath
  exact ⟨hin, changed_of_decided hd (by rintro ⟨⟩)⟩

/-- What is at the path once the decision is carried out. -/
def Decision.after (file : Option (FileTree.File Bytes)) : Decision → Option (FileTree.File Bytes)
  | .write content mode => some ⟨mode, content⟩
  | .merge content mode => some ⟨mode, content⟩
  | .delete => none
  | _ => file

/-- **What is decided is what is there afterwards.** -/
theorem file_of_decided {project₁ : Project}
    (hfor : PlanFor env old new m n project accepted plan) (hsound : plan.changes.Sound project)
    (hfree : ∀ w ∈ plan.writes, ¬ plan.changes.Obstructed project w.path)
    (hchanged : FileTree.Changed plan.changes project project₁) {path : Path} {d : Decision}
    (hpath : path ∈ planned (old.tree m) (new.tree n))
    (hd : decidePath env (old.tree m) (new.tree n) project accepted path = .ok d)
    (hconflict : ¬ d.IsConflict) : project₁.file path = d.after (project.file path) := by
  have hwrite : ∀ {w : Store String Bytes}, w.path = path → d.store path = some w →
      project₁.file path = some w.file := by
    rintro w rfl hstore
    exact hchanged.file_stored ((mem_writes hfor).2 ⟨hpath, d, hd, hstore⟩)
  cases d with
  | write bytes mode => exact hwrite (w := ⟨path, bytes, mode⟩) rfl rfl
  | merge bytes mode => exact hwrite (w := ⟨path, bytes, mode⟩) rfl rfl
  | conflict reason => exact absurd ⟨reason, rfl⟩ hconflict
  | delete => exact hchanged.file_deleted hsound ((mem_deletes hfor).2 ⟨hpath, hd⟩)
  | skip =>
    refine hchanged.file_other hfree (fun hdelete => ?_) ?_
    · rw [((mem_deletes hfor).1 hdelete).2] at hd
      cases hd
    · rintro w hw rfl
      obtain ⟨-, d', hd', hstore⟩ := (mem_writes hfor).1 hw
      rw [hd] at hd'
      cases hd'
      cases hstore

/-- The file stays where nothing is decided. -/
theorem file_of_inactive {project₁ : Project}
    (hfor : PlanFor env old new m n project accepted plan)
    (hfree : ∀ w ∈ plan.writes, ¬ plan.changes.Obstructed project w.path)
    (hchanged : FileTree.Changed plan.changes project project₁) {path : Path}
    (hactive : ¬ Active old new m n accepted path) : project₁.file path = project.file path := by
  refine hchanged.file_other hfree (fun hdelete => hactive (active_of_delete hfor hdelete)) ?_
  rintro w hw rfl
  exact hactive (active_of_write hfor hw)

end Active

/-! ## Carrying the plan out

The calls of the plan succeed unless something of the project is in the way, and then the first of
them that is stopped ends the upgrade.
-/

section Apply

variable {env : Env} {plan : Plan} {project : Project} (metadata : Metadata) (toVersion : String)

/-- With nothing in the way only the file with the metadata can fail, where a directory has taken its
place. -/
theorem run_apply (hsound : plan.changes.Sound project)
    (hfree : ∀ w ∈ plan.writes, ¬ plan.changes.Obstructed project w.path)
    (hclear : project.Clear projectFile) :
    ∃ project₁, FileTree.Changed plan.changes project project₁ ∧
      ((project₁.node projectFile = some .dir ∧
        env.host.run (applyPlan env plan metadata toVersion) project = (project₁, false)) ∨
      (project₁.node projectFile ≠ some .dir ∧ ∃ project' mode,
        env.host.run (applyPlan env plan metadata toVersion) project = (project', true) ∧
        ∀ path, project'.node path = if path = projectFile then
          some (.file ⟨mode, env.stringify (metadata.upgraded toVersion env.now)⟩)
          else project₁.node path)) := by
  obtain ⟨project₁, hrun, hchanged⟩ := FileTree.Host.run_changes env.host hsound hfree
  refine ⟨project₁, hchanged, ?_⟩
  have hclear₁ : project₁.Clear projectFile := by
    intro a ha
    rw [hchanged.isLink_eq hsound]
    exact hclear a ha
  rw [applyPlan_eq, FileTree.Host.run_append hrun]
  by_cases hdir : project₁.node projectFile = some .dir
  · exact Or.inl ⟨hdir, FileTree.Host.run_fails (FileTree.Host.step_write_fails hclear₁ hdir)⟩
  · obtain ⟨project', hstep, hnode⟩ := FileTree.Host.step_write env.host
      (env.stringify (metadata.upgraded toVersion env.now)) hclear₁ hdir project₁.root
    exact Or.inr ⟨hdir, project', _, FileTree.Host.run_cons hstep, hnode⟩

/-- The metadata keep their place unless a file is to lie below it. -/
theorem projectFile_not_dir {project₁ : Project}
    (hchanged : FileTree.Changed plan.changes project project₁)
    (hfile : project.file projectFile ≠ none)
    (hnone : ∀ w ∈ plan.writes, ¬ Above projectFile w.path) :
    project₁.node projectFile ≠ some .dir := by
  by_cases hin : ∃ w ∈ plan.writes, projectFile <+: w.path
  · obtain ⟨w, hw, hinit⟩ := hin
    by_cases hsame : projectFile = w.path
    · rw [hsame, hchanged.stored w hw]
      rintro ⟨⟩
    · exact absurd ⟨hinit, hsame⟩ (hnone w hw)
  · push Not at hin
    by_cases hdelete : projectFile ∈ plan.changes.deletes
    · rw [hchanged.deleted projectFile hdelete hin]
      rintro ⟨⟩
    · rw [hchanged.other projectFile hdelete hin]
      intro hdir
      exact hfile (Tree.file_of_dir hdir)

/-- With a file in the way the plan is carried out up to the first write that it stops. -/
theorem run_apply_fails (hsound : plan.changes.Sound project)
    (hblocked : ∃ w ∈ plan.writes, plan.changes.Obstructed project w.path) :
    ∃ before w after project', plan.writes = before ++ w :: after ∧
      plan.changes.Obstructed project w.path ∧
      (∀ v ∈ before, ¬ plan.changes.Obstructed project v.path) ∧
      env.host.run (applyPlan env plan metadata toVersion) project = (project', false) ∧
      FileTree.Changed ⟨plan.deletes, before⟩ project project' := by
  obtain ⟨writes, deletes, conflicts, accepted, merged⟩ := plan
  obtain ⟨w₀, hw₀, hblocked₀⟩ := hblocked
  dsimp only [Plan.changes] at hsound hw₀ hblocked₀ ⊢
  cases hfind : writes.find? fun w =>
      decide (Changes.Obstructed ⟨deletes, writes⟩ project w.path) with
  | none =>
    rw [List.find?_eq_none] at hfind
    exact absurd (decide_eq_true hblocked₀) (hfind w₀ hw₀)
  | some w =>
    obtain ⟨hw, before, after, rfl, hbefore⟩ := List.find?_eq_some_iff_append.1 hfind
    have hfree : ∀ v ∈ before, ¬ Changes.Obstructed ⟨deletes, before ++ w :: after⟩ project v.path := by
      intro v hv
      have hnot := hbefore v hv
      rw [Bool.not_eq_true', decide_eq_false_iff_not] at hnot
      exact hnot
    obtain ⟨project', hrun, hchanged⟩ := FileTree.Host.run_changes_fails env.host hsound hfree
      (of_decide_eq_true hw)
    exact ⟨before, w, after, project', rfl, of_decide_eq_true hw, hfree, hrun, hchanged⟩

/-- **A plan that is carried out** had nothing in the way. -/
theorem apply_ok {metadata : Metadata} {toVersion : String} {project' : Project}
    (hsound : plan.changes.Sound project)
    (hclear : project.Clear projectFile)
    (h : env.host.run (applyPlan env plan metadata toVersion) project = (project', true)) :
    (∀ w ∈ plan.writes, ¬ plan.changes.Obstructed project w.path) ∧
      ∃ project₁, FileTree.Changed plan.changes project project₁ ∧
        ∀ path, path ≠ projectFile → project'.node path = project₁.node path := by
  have hfree : ∀ w ∈ plan.writes, ¬ plan.changes.Obstructed project w.path := by
    intro w hw hblocked
    obtain ⟨_, _, _, _, _, _, _, hrun, _⟩ :=
      run_apply_fails metadata toVersion hsound ⟨w, hw, hblocked⟩
    rw [h] at hrun
    cases hrun
  refine ⟨hfree, ?_⟩
  obtain ⟨project₁, hchanged, ⟨-, hrun⟩ | ⟨-, project₂, mode, hrun, hnode⟩⟩ :=
    run_apply metadata toVersion hsound hfree hclear
  · rw [h] at hrun
    cases hrun
  · rw [h] at hrun
    cases hrun
    refine ⟨project₁, hchanged, fun path hpath => ?_⟩
    rw [hnode, if_neg hpath]

end Apply

/-! ## The checks before

An upgrade either stops in its checks, with the project as it was, or carries out the plan of two
releases.
-/

theorem readMetadata_file {env : Env} {project : Project} {metadata : Metadata}
    (hclear : project.Clear projectFile) (h : readMetadata env project = .ok metadata) :
    ∃ file, project.file projectFile = some file ∧ env.parseProject file.content = some metadata := by
  obtain ⟨_, _, hrest⟩ := bind_ok.1 h
  cases hfile : project.file projectFile with
  | some file =>
    refine ⟨file, rfl, ?_⟩
    unfold readFileSync at hrest
    rw [FileTree.Host.look_of_file hclear hfile] at hrest
    dsimp only [Option.bind_some] at hrest
    cases hparse : env.parseProject file.content with
    | none =>
      rw [hparse] at hrest
      cases hrest
    | some data =>
      rw [hparse] at hrest
      obtain ⟨_, _, hpure⟩ := bind_ok.1 hrest
      cases hpure
      rfl
  | none =>
    have hlook : readFileSync env project projectFile = none := by
      unfold readFileSync
      by_cases hdir : project.node projectFile = some .dir
      · rw [FileTree.Host.look_of_dir hclear hdir]
      · have hnone := Tree.node_of_file_none hfile (hclear _ (List.prefix_refl _)) hdir
        rw [FileTree.Host.look_of_none hclear hnone]
    rw [hlook] at hrest
    cases hrest

theorem resolveReleaseRef_ok {template : Template} {version : String} {required : Bool}
    {release : Release} (h : resolveReleaseRef template version required = .ok release) :
    ∃ commit, template.tag version = some (commit, release) := by
  unfold resolveReleaseRef at h
  split at h
  · cases h
  · next commit found htag =>
    obtain ⟨_, _, hpure⟩ := bind_ok.1 h
    cases hpure
    exact ⟨commit, htag⟩

/-- The version of the release that the template offers. -/
def Template.toVersion (env : Env) (template : Template) : String := trim (env.decode template.version)

/-- **An upgrade that is ready** has a plan for the two releases, without conflicts. -/
theorem prepare_ready {env : Env} {template : Template} {project : Project} {options : Options}
    {metadata : Metadata} {fromVersion toVersion : String} {plan : Plan}
    (h : prepare env template project options = .ok (.ready metadata fromVersion toVersion plan)) :
    readMetadata env project = .ok metadata ∧ fromVersion = metadata.version ∧
      toVersion = template.toVersion env ∧
      ∃ oldCommit oldRelease newCommit newRelease m n,
        template.tag fromVersion = some (oldCommit, oldRelease) ∧
        template.tag toVersion = some (newCommit, newRelease) ∧
        readManifestAt env oldRelease s!"refs/tags/{fromVersion}" = .ok m ∧
        readManifestAt env newRelease s!"refs/tags/{toVersion}" = .ok n ∧
        PlanFor env oldRelease newRelease m n project options.acceptPaths.eraseDups plan ∧
        plan.conflicts = [] := by
  obtain ⟨_, -, h⟩ := bind_ok.1 h
  obtain ⟨data, hdata, h⟩ := bind_ok.1 h
  obtain ⟨fromParsed, -, h⟩ := bind_ok.1 h
  obtain ⟨toParsed, -, h⟩ := bind_ok.1 h
  obtain ⟨_, -, h⟩ := bind_ok.1 h
  split at h
  · cases h
  · obtain ⟨oldRelease, hold, h⟩ := bind_ok.1 h
    obtain ⟨newRelease, hnew, h⟩ := bind_ok.1 h
    obtain ⟨tagged, -, h⟩ := bind_ok.1 h
    obtain ⟨_, -, h⟩ := bind_ok.1 h
    obtain ⟨plan', hplan, h⟩ := bind_ok.1 h
    obtain ⟨_, hconflicts, h⟩ := bind_ok.1 h
    cases h
    obtain ⟨m, n, hm, hn, hfor⟩ := planUpgrade_ok hplan
    obtain ⟨oldCommit, holdTag⟩ := resolveReleaseRef_ok hold
    obtain ⟨newCommit, hnewTag⟩ := resolveReleaseRef_ok hnew
    rw [failIf_ok, Bool.not_eq_false', List.isEmpty_iff] at hconflicts
    exact ⟨hdata, rfl, rfl, oldCommit, oldRelease, newCommit, newRelease, m, n, holdTag, hnewTag,
      hm, hn, hfor, hconflicts⟩

/-- The trees that an upgrade of the project is about. -/
structure Trees (env : Env) (template : Template) (project : Project) (old new : Release)
    (m n : Manifest) : Prop where
  metadata : ∃ metadata commit, readMetadata env project = .ok metadata ∧
    template.tag metadata.version = some (commit, old) ∧
    readManifestAt env old s!"refs/tags/{metadata.version}" = .ok m
  target : ∃ commit, template.tag (template.toVersion env) = some (commit, new) ∧
    readManifestAt env new s!"refs/tags/{template.toVersion env}" = .ok n

theorem Trees.plan {env : Env} {template : Template} {project : Project} {options : Options}
    {old new : Release} {m n : Manifest} {metadata : Metadata} {fromVersion toVersion : String}
    {plan : Plan} (h : Trees env template project old new m n)
    (hready : prepare env template project options =
      .ok (.ready metadata fromVersion toVersion plan)) :
    PlanFor env old new m n project options.acceptPaths.eraseDups plan ∧ plan.conflicts = [] := by
  obtain ⟨hdata, rfl, rfl, _, old', _, new', m', n', hold, hnew, hm, hn, hfor, hconflicts⟩ :=
    prepare_ready hready
  obtain ⟨data, commit, hdata', hold', hm'⟩ := h.metadata
  obtain ⟨commit', hnew', hn'⟩ := h.target
  rw [hdata] at hdata'
  cases hdata'
  rw [hold] at hold'
  cases hold'
  rw [hnew] at hnew'
  cases hnew'
  rw [hm] at hm'
  cases hm'
  rw [hn] at hn'
  cases hn'
  exact ⟨hfor, hconflicts⟩

/-- An upgrade that is ready is about two trees. -/
theorem trees_of_ready {env : Env} {template : Template} {project : Project} {options : Options}
    {metadata : Metadata} {fromVersion toVersion : String} {plan : Plan}
    (hready : prepare env template project options =
      .ok (.ready metadata fromVersion toVersion plan)) :
    ∃ old new m n, Trees env template project old new m n := by
  obtain ⟨hdata, rfl, rfl, oldCommit, old, newCommit, new, m, n, hold, hnew, hm, hn, -, -⟩ :=
    prepare_ready hready
  exact ⟨old, new, m, n, ⟨metadata, oldCommit, hdata, hold, hm⟩, ⟨newCommit, hnew, hn⟩⟩

/-- **How an upgrade ends**: before the first write, or after the calls of the plan. -/
theorem upgradeProject_cases (env : Env) (template : Template) (project : Project)
    (options : Options) :
    ((upgradeProject env template project options).1 = project ∧
      ∀ report, (upgradeProject env template project options).2 = .ok report →
        report.current = true ∨ options.checkOnly = true) ∨
    ∃ metadata fromVersion toVersion plan project',
      prepare env template project options = .ok (.ready metadata fromVersion toVersion plan) ∧
      options.checkOnly = false ∧ (upgradeProject env template project options).1 = project' ∧
      ((env.host.run (applyPlan env plan metadata toVersion) project = (project', false) ∧
        (upgradeProject env template project options).2 = .error .applying) ∨
      (env.host.run (applyPlan env plan metadata toVersion) project = (project', true) ∧
        ((∃ message, (upgradeProject env template project options).2 = .error (.verifying message)) ∨
          ∃ report, (upgradeProject env template project options).2 = .ok report ∧
            report.current = false))) := by
  unfold upgradeProject
  cases hprepare : prepare env template project options with
  | error message => exact Or.inl ⟨rfl, fun report h => (nomatch h)⟩
  | ok prepared =>
    cases prepared with
    | current fromVersion toVersion =>
      refine Or.inl ⟨rfl, fun report h => Or.inl ?_⟩
      cases h
      rfl
    | ready metadata fromVersion toVersion plan =>
      dsimp only
      cases hcheck : options.checkOnly with
      | true => exact Or.inl ⟨rfl, fun _ _ => Or.inr rfl⟩
      | false =>
        refine Or.inr ⟨metadata, fromVersion, toVersion, plan, ?_⟩
        cases env.host.run (applyPlan env plan metadata toVersion) project with
        | mk project' done =>
          refine ⟨project', rfl, rfl, ?_⟩
          cases done with
          | false => exact ⟨rfl, Or.inl ⟨rfl, rfl⟩⟩
          | true =>
            dsimp only
            cases (if options.skipVerify = true then none else env.verification project') with
            | none => exact ⟨rfl, Or.inr ⟨rfl, Or.inr ⟨_, rfl, rfl⟩⟩⟩
            | some message => exact ⟨rfl, Or.inr ⟨rfl, Or.inl ⟨message, rfl⟩⟩⟩

end Upgrade

end ArcAdmin

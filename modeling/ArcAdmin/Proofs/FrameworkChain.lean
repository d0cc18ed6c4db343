import ArcAdmin.Upgrade.Sample

/-!
# Upgrading along a chain of releases

What an unmodified project holds after each release of a chain can be told from the releases alone:
the files at managed paths, and what remains of former ones. An upgrade reaches exactly that, as long
as every path that enters management finds what the release expects.

* **`upgrade_step`** — one upgrade of an unmodified project;
* **`upgrade_chain`** — along the chain, and directly, one ends with the files of the last release;
* **`upgrade_misses_entering_file`** — a file that comes under management unchanged is not written.
-/

namespace ArcAdmin

namespace Upgrade

open FileTree (Above File Tree Store Changes)

/-! ## What an unmodified project holds

What is held is computed from the releases alone. Only the merges of paths that enter management
are asked of the surroundings.
-/

/-- The file that an entry stands for. -/
def Entry.file (entry : Entry) : Option (File Bytes) :=
  match fileMode entry with
  | .ok mode => some ⟨mode, entry.content⟩
  | .error _ => none

def FrameworkTree.file (tree : FrameworkTree) (path : Path) : Option (File Bytes) :=
  (tree.entry path).bind Entry.file

/-- Files, the paths that are directories or were, and symbolic links. -/
structure Held where
  file : Path → Option (File Bytes)
  dir : Path → Bool
  link : Path → Bool

/-- What a project holds. -/
def Held.of (project : Project) : Held := ⟨project.file, project.isDir, project.isLink⟩

/-- What is held after the upgrade from one tree to the next. -/
def Held.after (held : Held) (old new : FrameworkTree) : Held where
  file path :=
    if path ∈ new.managedPaths then new.file path
    else if path ∈ old.managedPaths ∧ new.entry path = none then none
    else held.file path
  dir path := held.dir path || new.managedPaths.any fun q => decide (Above path q)
  link := held.link

/-- What is held after the releases of a chain. -/
def Held.afterAll (held : Held) : FrameworkTree → List FrameworkTree → Held
  | _, [] => held
  | old, new :: rest => (held.after old new).afterAll new rest

/-- The merge of what is held with a change makes the new content. -/
def mergesTo (env : Env) (path : Path) (file base incoming : Bytes) : Bool :=
  isText file && isText base && isText incoming &&
    match env.mergeFile (pathText path) file base incoming with
    | .ok (some content) => content == incoming
    | _ => false

/-- A path that enters management finds what the new release expects: no trace of it at all, where
the old release has none; else a file that becomes the new one. -/
def entersCleanly (env : Env) (old new : FrameworkTree) (held : Held) (path : Path) : Bool :=
  match old.entry path, new.entry path, held.file path with
  | none, some _, none =>
    !held.dir path &&
      path.inits.all fun a => a == path || (held.file a).isNone || old.managedPaths.contains a
  | none, some newEntry, some file => file.content == newEntry.content
  | some oldEntry, some newEntry, some file =>
    if oldEntry.content = newEntry.content ∧ oldEntry.mode = newEntry.mode then
      newEntry.file == some file
    else if oldEntry.content = newEntry.content then file.content == newEntry.content
    else file.content == newEntry.content || file.content == oldEntry.content ||
      mergesTo env path file.content oldEntry.content newEntry.content
  | _, _, _ => false

/-- The step to this tree is clean. -/
def stepsCleanly (env : Env) (old new : FrameworkTree) (held : Held) : Bool :=
  !new.managedPaths.contains projectFile &&
    new.managedPaths.all fun path => (new.file path).isSome &&
      (path.inits.all fun a => !held.link a) &&
      (old.managedPaths.contains path || entersCleanly env old new held path)

/-- Every step of the chain is. -/
def upgradesCleanly (env : Env) : FrameworkTree → Held → List FrameworkTree → Bool
  | _, _, [] => true
  | old, held, new :: rest =>
    stepsCleanly env old new held && upgradesCleanly env new (held.after old new) rest

/-! ## Chains of releases

The releases, and the upgrade to one after the other.
-/

/-- A tag of the framework, with the manifest in it. -/
structure Tagged where
  name : String
  commit : String
  release : Release
  manifest : Manifest
  version : Bytes
  parsed : Nat × Nat × Nat

def Tagged.tree (t : Tagged) : FrameworkTree := t.release.tree t.manifest

/-- What makes a tag a release. -/
structure Released (env : Env) (t : Tagged) : Prop where
  manifest : readManifestAt env t.release s!"refs/tags/{t.name}" = .ok t.manifest
  file : showFile t.release frameworkVersionFile = .ok t.version
  version : trim (env.decode t.version) = t.name
  parsed : releaseVersion t.name = some t.parsed

/-- The repository of the framework with one of its tags checked out. -/
def checkout (tags : List Tagged) (t : Tagged) : Template where
  version := t.version
  head := t.commit
  tag name := (tags.find? fun u => u.name == name).map fun u => (u.commit, u.release)

/-- Upgrading to one release after the other; the changes are committed in between. -/
def upgradeAll (env : Env) (tags : List Tagged) (options : Options) :
    List Tagged → Project → Except Failure Project
  | [], project => .ok project
  | t :: rest, project =>
    match upgradeProject env (checkout tags t) project options with
    | (project', .ok _) => upgradeAll env tags options rest project'
    | (_, .error failure) => .error failure

/-- The metadata after upgrades to these releases. -/
def metadataAfter (env : Env) (metadata : Metadata) (chain : List Tagged) : Metadata :=
  chain.foldl (fun data t => data.upgraded t.name env.now) metadata

/-! ## One step

The assertion between two upgrades: the project has what is told, its metadata name the release,
and nothing else is in the way.
-/

/-- The project holds what is told, at this release. Every file but the metadata is as told,
every directory is told of, and the managed paths have the files of the release. No link is
on the way to a managed path, to the metadata or to `.git`. -/
structure Holds (env : Env) (t : Tagged) (held : Held) (metadata : Metadata) (project : Project) :
    Prop where
  read : readMetadata env project = .ok metadata
  version : metadata.version = t.name
  git : project.node [".git"] ≠ none
  link : ∀ path, project.isLink path = held.link path
  clear : ∀ path, path ∈ t.tree.managedPaths ∨ path = Upgrade.projectFile ∨ path = [".git"] →
    project.Clear path
  file : ∀ path, path ≠ Upgrade.projectFile → project.file path = held.file path
  dir : ∀ path, project.node path = some .dir → held.dir path = true
  projectFile : held.file projectFile ≠ none
  managed : ∀ path ∈ t.tree.managedPaths,
    ∃ entry file, t.tree.entry path = some entry ∧ entry.file = some file ∧ held.file path = some file
  unmanaged : Upgrade.projectFile ∉ t.tree.managedPaths

theorem file_of_entry {entry : Entry} {file : File Bytes} (h : entry.file = some file) :
    fileMode entry = .ok file.mode ∧ file.content = entry.content := by
  unfold Entry.file at h
  split at h
  · next mode hmode =>
    cases h
    exact ⟨hmode, rfl⟩
  · cases h

theorem stepsCleanly_iff {env : Env} {old new : FrameworkTree} {held : Held} :
    stepsCleanly env old new held = true ↔ projectFile ∉ new.managedPaths ∧
      ∀ path ∈ new.managedPaths, ((new.file path).isSome = true ∧
        ∀ a, a <+: path → ¬ held.link a = true) ∧
        (path ∈ old.managedPaths ∨ entersCleanly env old new held path = true) := by
  unfold stepsCleanly
  simp only [Bool.and_eq_true, Bool.not_eq_true', ← Bool.not_eq_true, List.contains_iff_mem,
    List.all_eq_true, Bool.or_eq_true, List.mem_inits]

theorem exists_file {tree : FrameworkTree} {path : Path} (h : (tree.file path).isSome = true) :
    ∃ entry file, tree.entry path = some entry ∧ entry.file = some file := by
  obtain ⟨file, hfile⟩ := Option.isSome_iff_exists.1 h
  obtain ⟨entry, hentry, hentryFile⟩ := Option.bind_eq_some_iff.1 hfile
  exact ⟨entry, file, hentry, hentryFile⟩

/-! ### What is decided

The decision about each path, by how its management changes with the new release.
-/

section Decide

variable {env : Env} {path : Path} {old new : Entry} {file : File Bytes} {content : Bytes}

theorem decideFile_created (hnew : new.file = some file) :
    decideFile env path none none (some new) = .ok (.write file.content file.mode) := by
  obtain ⟨hmode, hcontent⟩ := file_of_entry hnew
  show (fileMode new >>= fun mode => .ok (Decision.write new.content mode)) = _
  rw [hmode, hcontent]
  rfl

theorem decideFile_same {oldEntry : Option Entry} (hnew : new.file = some file)
    (hsame : content = new.content) :
    decideFile env path (some content) oldEntry (some new) =
      .ok (.write file.content file.mode) := by
  obtain ⟨hmode, hcontent⟩ := file_of_entry hnew
  unfold decideFile decideBoth
  cases oldEntry <;> simp only [hsame, if_true, hmode, hcontent] <;> rfl

theorem decideFile_updated (hnew : new.file = some file) (hsame : content = old.content)
    (hchange : old.content ≠ new.content) :
    decideFile env path (some content) (some old) (some new) =
      .ok (.write file.content file.mode) := by
  obtain ⟨hmode, hcontent⟩ := file_of_entry hnew
  unfold decideFile decideBoth
  simp only [hsame, if_neg hchange, if_true, hmode, hcontent]
  rfl

theorem decideFile_merged (hnew : new.file = some file) (hdiffers : content ≠ new.content)
    (hbase : content ≠ old.content) (hchange : old.content ≠ new.content)
    (hmerge : mergesTo env path content old.content new.content = true) :
    decideFile env path (some content) (some old) (some new) =
      .ok (.merge file.content file.mode) := by
  obtain ⟨hmode, hcontent⟩ := file_of_entry hnew
  unfold mergesTo at hmerge
  rw [Bool.and_eq_true] at hmerge
  obtain ⟨htext, hresult⟩ := hmerge
  unfold decideFile decideBoth
  simp only [if_neg hdiffers, if_neg hbase, if_neg hchange, if_pos htext]
  split at hresult
  · next merged hmerged =>
    rw [hmerged, hmode, hcontent, ← eq_of_beq hresult]
    rfl
  · cases hresult

theorem decideFile_removed :
    decideFile env path (some old.content) (some old) none = .ok .delete := by
  unfold decideFile
  exact if_pos rfl

end Decide

section Step

variable {env : Env} {t t' : Tagged} {held : Held} {metadata : Metadata} {project : Project}

theorem ne_projectFile (hholds : Holds env t held metadata project)
    (hclean : stepsCleanly env t.tree t'.tree held = true) {path : Path}
    (hpath : path ∈ planned t.tree t'.tree) : path ≠ projectFile := by
  rintro rfl
  rcases mem_planned.1 hpath with h | h
  · exact hholds.unmanaged h
  · exact (stepsCleanly_iff.1 hclean).1 h

/-- No link is on the way to a path of the plan. -/
theorem clear_of_planned (hholds : Holds env t held metadata project)
    (hclean : stepsCleanly env t.tree t'.tree held = true) {path : Path}
    (hpath : path ∈ planned t.tree t'.tree) : project.Clear path := by
  rcases mem_planned.1 hpath with h | h
  · exact hholds.clear path (Or.inl h)
  · intro a ha
    rw [hholds.link, Bool.eq_false_iff]
    exact ((stepsCleanly_iff.1 hclean).2 path h).1.2 a ha

theorem isChanged_of_managed {old new : FrameworkTree} {path : Path} {oldEntry newEntry : Entry}
    (hpath : path ∈ new.managedPaths ∨ path ∉ old.managedPaths)
    (hold : old.entry path = some oldEntry) (hnew : new.entry path = some newEntry) :
    isChanged old new path = false ↔
      oldEntry.content = newEntry.content ∧ oldEntry.mode = newEntry.mode := by
  have hskip : (old.managedPaths.contains path && !new.managedPaths.contains path &&
      (new.entry path).isSome) = false := by
    rcases hpath with h | h
    · rw [List.contains_iff_mem.2 h]
      simp
    · rw [Bool.eq_false_iff.2 (fun hin => h (List.contains_iff_mem.1 hin))]
      rfl
  unfold isChanged
  rw [hskip, hold, hnew]
  simp

/-- A path that one of the trees has not is changed, unless it leaves management. -/
theorem isChanged_of_none {old new : FrameworkTree} {path : Path}
    (hpath : path ∈ new.managedPaths ∨ path ∉ old.managedPaths ∨ new.entry path = none)
    (hnone : old.entry path = none ∨ new.entry path = none) : isChanged old new path = true := by
  have hskip : (old.managedPaths.contains path && !new.managedPaths.contains path &&
      (new.entry path).isSome) = false := by
    rcases hpath with h | h | h
    · rw [List.contains_iff_mem.2 h]
      simp
    · rw [Bool.eq_false_iff.2 (fun hin => h (List.contains_iff_mem.1 hin))]
      rfl
    · rw [h]
      simp
  unfold isChanged
  rw [hskip]
  rcases hnone with h | h <;> rw [h]
  · rfl
  · cases old.entry path <;> rfl

/-- Where the project has a file, or nothing at all, the contents decide. -/
theorem decidePath_of_file {old new : FrameworkTree} {path : Path}
    (hclear : project.Clear path) (hchanged : isChanged old new path = true) (hdir : project.node path ≠ some .dir) :
    decidePath env old new project [] path =
      decideFile env path (content project path) (old.entry path) (new.entry path) :=
  decidePath_clear hclear hchanged List.not_mem_nil hdir

theorem not_dir_of_file {path : Path} {file : File Bytes} (h : project.file path = some file) :
    project.node path ≠ some .dir := by
  rw [Tree.file_eq_some.1 h]
  rintro ⟨⟩

theorem content_of_file {path : Path} {file : File Bytes} (h : project.file path = some file) :
    content project path = some file.content := by
  unfold content
  rw [h]
  rfl

/-- What is decided makes of the file what the project is to hold. -/
def DecidesTo (env : Env) (t t' : Tagged) (held : Held) (project : Project) (path : Path) : Prop :=
  ∃ d, decidePath env t.tree t'.tree project [] path = .ok d ∧ ¬ d.IsConflict ∧
    d.after (project.file path) = (held.after t.tree t'.tree).file path ∧
    ∀ w, d.store path = some w → path ∈ t'.tree.managedPaths

theorem decides_skip {path : Path} (hchanged : isChanged t.tree t'.tree path = false)
    (hafter : project.file path = (held.after t.tree t'.tree).file path) :
    DecidesTo env t t' held project path :=
  ⟨.skip, decidePath_skip (Or.inl hchanged), by rintro ⟨reason, ⟨⟩⟩, hafter, by rintro w ⟨⟩⟩

theorem decides_write {path : Path} {entry : Entry} {file : File Bytes}
    (hclear : project.Clear path) (hmanaged : path ∈ t'.tree.managedPaths) (hentry : t'.tree.entry path = some entry)
    (hfile : entry.file = some file) (hchanged : isChanged t.tree t'.tree path = true)
    (hdir : project.node path ≠ some .dir)
    (h : decideFile env path (content project path) (t.tree.entry path) (some entry) =
        .ok (.write file.content file.mode) ∨
      decideFile env path (content project path) (t.tree.entry path) (some entry) =
        .ok (.merge file.content file.mode)) :
    DecidesTo env t t' held project path := by
  have hafter : (held.after t.tree t'.tree).file path = some file := by
    show (if _ then _ else _) = _
    rw [if_pos hmanaged]
    unfold FrameworkTree.file
    rw [hentry]
    exact hfile
  rcases h with h | h
  · refine ⟨.write file.content file.mode, ?_, ?_, hafter.symm, fun _ _ => hmanaged⟩
    · rw [decidePath_of_file hclear hchanged hdir, hentry, h]
    · rintro ⟨reason, ⟨⟩⟩
  · refine ⟨.merge file.content file.mode, ?_, ?_, hafter.symm, fun _ _ => hmanaged⟩
    · rw [decidePath_of_file hclear hchanged hdir, hentry, h]
    · rintro ⟨reason, ⟨⟩⟩

/-- A path that stays managed. -/
theorem decides_managed (hholds : Holds env t held metadata project)
    (hclean : stepsCleanly env t.tree t'.tree held = true) {path : Path}
    (hold : path ∈ t.tree.managedPaths) (hnew : path ∈ t'.tree.managedPaths)
    (hne : path ≠ projectFile) : DecidesTo env t t' held project path := by
  have hclear := clear_of_planned hholds hclean (mem_planned.2 (Or.inr hnew))
  obtain ⟨oldEntry, oldFile, holdEntry, holdFile, hheld⟩ := hholds.managed path hold
  obtain ⟨newEntry, newFile, hnewEntry, hnewFile⟩ :=
    exists_file ((stepsCleanly_iff.1 hclean).2 path hnew).1.1
  have hproject : project.file path = some oldFile := by rw [hholds.file path hne, hheld]
  have hdir := not_dir_of_file hproject
  obtain ⟨holdMode, holdContent⟩ := file_of_entry holdFile
  cases hchanged : isChanged t.tree t'.tree path with
  | false =>
    obtain ⟨hcontent, hmode⟩ := (isChanged_of_managed (Or.inl hnew) holdEntry hnewEntry).1 hchanged
    refine decides_skip hchanged ?_
    show _ = if _ then _ else _
    rw [hproject, if_pos hnew]
    unfold FrameworkTree.file
    rw [hnewEntry, ← holdFile]
    show Entry.file oldEntry = Entry.file newEntry
    unfold Entry.file fileMode
    rw [hcontent, hmode]
  | true =>
    refine decides_write hclear hnew hnewEntry hnewFile hchanged hdir (Or.inl ?_)
    rw [content_of_file hproject, holdEntry, holdContent]
    by_cases hsame : oldEntry.content = newEntry.content
    · exact decideFile_same hnewFile hsame
    · exact decideFile_updated hnewFile rfl hsame

/-- A path that enters management. -/
theorem decides_entering (hholds : Holds env t held metadata project)
    (hclean : stepsCleanly env t.tree t'.tree held = true) {path : Path}
    (hold : path ∉ t.tree.managedPaths) (hnew : path ∈ t'.tree.managedPaths)
    (hne : path ≠ projectFile) : DecidesTo env t t' held project path := by
  have hclear := clear_of_planned hholds hclean (mem_planned.2 (Or.inr hnew))
  obtain ⟨⟨hsome, -⟩, henters⟩ := (stepsCleanly_iff.1 hclean).2 path hnew
  obtain ⟨newEntry, newFile, hnewEntry, hnewFile⟩ := exists_file hsome
  have henters := henters.resolve_left hold
  have hfile := hholds.file path hne
  unfold entersCleanly at henters
  rw [hnewEntry] at henters
  -- the old release may have the file too, outside of what it manages
  cases holdEntry : t.tree.entry path with
  | none =>
    have hchanged : isChanged t.tree t'.tree path = true :=
      isChanged_of_none (Or.inl hnew) (Or.inl holdEntry)
    cases hheld : held.file path with
    | none =>
      rw [holdEntry, hheld, Bool.and_eq_true, Bool.not_eq_true'] at henters
      have hdir : project.node path ≠ some .dir := by
        intro hdir
        rw [hholds.dir path hdir] at henters
        cases henters.1
      refine decides_write hclear hnew hnewEntry hnewFile hchanged hdir (Or.inl ?_)
      unfold content
      rw [hfile, hheld, holdEntry]
      exact decideFile_created hnewFile
    | some file =>
      rw [holdEntry, hheld] at henters
      rw [hheld] at hfile
      refine decides_write hclear hnew hnewEntry hnewFile hchanged (not_dir_of_file hfile)
        (Or.inl ?_)
      rw [content_of_file hfile]
      exact decideFile_same hnewFile (eq_of_beq henters)
  | some oldEntry =>
    cases hheld : held.file path with
    | none =>
      rw [holdEntry, hheld] at henters
      cases henters
    | some file =>
      rw [holdEntry, hheld] at henters
      rw [hheld] at hfile
      dsimp only at henters
      have hiff := isChanged_of_managed (Or.inl hnew) holdEntry hnewEntry
      split at henters
      · -- the releases agree: the path is skipped, and the project has the content already
        next hsame =>
        refine decides_skip (hiff.2 hsame) ?_
        show _ = if _ then _ else _
        rw [hfile, if_pos hnew]
        unfold FrameworkTree.file
        rw [hnewEntry]
        exact (eq_of_beq henters).symm
      · -- they differ: the project has the new content, the old one, or one that is merged
        next hdiffers =>
        have hchanged : isChanged t.tree t'.tree path = true := by
          rw [← Bool.not_eq_false, hiff]
          exact hdiffers
        refine decides_write hclear hnew hnewEntry hnewFile hchanged (not_dir_of_file hfile) ?_
        rw [content_of_file hfile, holdEntry]
        split at henters
        · exact Or.inl (decideFile_same hnewFile (eq_of_beq henters))
        · next hchange =>
          rw [Bool.or_eq_true, Bool.or_eq_true] at henters
          by_cases hnewContent : file.content = newEntry.content
          · exact Or.inl (decideFile_same hnewFile hnewContent)
          · by_cases hbase : file.content = oldEntry.content
            · exact Or.inl (decideFile_updated hnewFile hbase hchange)
            · have hmerge : mergesTo env path file.content oldEntry.content newEntry.content = true := by
                rcases henters with (h | h) | h
                · exact absurd (eq_of_beq h) hnewContent
                · exact absurd (eq_of_beq h) hbase
                · exact h
              exact Or.inr (decideFile_merged hnewFile hnewContent hbase hchange hmerge)

/-- A path that leaves management. -/
theorem decides_leaving (hholds : Holds env t held metadata project) {path : Path}
    (hold : path ∈ t.tree.managedPaths) (hnew : path ∉ t'.tree.managedPaths)
    (hne : path ≠ projectFile) : DecidesTo env t t' held project path := by
  obtain ⟨oldEntry, oldFile, holdEntry, holdFile, hheld⟩ := hholds.managed path hold
  have hproject : project.file path = some oldFile := by rw [hholds.file path hne, hheld]
  cases hnewEntry : t'.tree.entry path with
  | some newEntry =>
    have hchanged : isChanged t.tree t'.tree path = false := by
      unfold isChanged
      rw [List.contains_iff_mem.2 hold, Bool.eq_false_iff.2 fun h => hnew (List.contains_iff_mem.1 h),
        hnewEntry]
      rfl
    refine decides_skip hchanged ?_
    show _ = if _ then _ else _
    rw [if_neg hnew, if_neg (by rw [hnewEntry]; rintro ⟨-, ⟨⟩⟩), hproject, hheld]
  | none =>
    have hchanged : isChanged t.tree t'.tree path = true :=
      isChanged_of_none (Or.inr (Or.inr hnewEntry)) (Or.inr hnewEntry)
    refine ⟨.delete, ?_, by rintro ⟨reason, ⟨⟩⟩, ?_, by rintro w ⟨⟩⟩
    · rw [decidePath_of_file (hholds.clear path (Or.inl hold)) hchanged (not_dir_of_file hproject),
        content_of_file hproject, holdEntry, hnewEntry, (file_of_entry holdFile).2]
      exact decideFile_removed
    · show none = if _ then _ else _
      rw [if_neg hnew, if_pos ⟨hold, hnewEntry⟩]

/-- **Every path of the plan** is decided to become what the project is to hold. -/
theorem decides_planned (hholds : Holds env t held metadata project)
    (hclean : stepsCleanly env t.tree t'.tree held = true) {path : Path}
    (hpath : path ∈ planned t.tree t'.tree) : DecidesTo env t t' held project path := by
  have hne := ne_projectFile hholds hclean hpath
  by_cases hnew : path ∈ t'.tree.managedPaths
  · by_cases hold : path ∈ t.tree.managedPaths
    · exact decides_managed hholds hclean hold hnew hne
    · exact decides_entering hholds hclean hold hnew hne
  · exact decides_leaving hholds ((mem_planned.1 hpath).resolve_right hnew) hnew hne

/-! ### The plan

From the decisions to the upgrade: the plan is complete, it is carried out without obstacles, and
what it leaves is what is told.
-/

theorem planPaths_of_decided {old new : FrameworkTree} {accepted : List String} {paths : List Path}
    (h : ∀ path ∈ paths, ∃ d, decidePath env old new project accepted path = .ok d) :
    ∃ plan, planPaths env old new project accepted paths = .ok plan := by
  induction paths with
  | nil => exact ⟨_, rfl⟩
  | cons path paths ih =>
    obtain ⟨d, hd⟩ := h path List.mem_cons_self
    obtain ⟨plan, hplan⟩ := ih fun p hp => h p (List.mem_cons_of_mem path hp)
    refine ⟨plan.add path d, ?_⟩
    show (decidePath env old new project accepted path >>= fun d =>
      planPaths env old new project accepted paths >>= fun plan => .ok (plan.add path d)) = _
    rw [hd, hplan]
    rfl

/-- There is a plan, and it has no conflict. -/
theorem exists_plan (hholds : Holds env t held metadata project)
    (hclean : stepsCleanly env t.tree t'.tree held = true) :
    ∃ plan, PlanFor env t.release t'.release t.manifest t'.manifest project [] plan ∧
      plan.conflicts = [] := by
  obtain ⟨plan, hplan⟩ : ∃ plan, planPaths env t.tree t'.tree project []
      (planned t.tree t'.tree) = .ok plan := by
    refine planPaths_of_decided fun path hpath => ?_
    obtain ⟨d, hd, -⟩ := decides_planned hholds hclean hpath
    exact ⟨d, hd⟩
  refine ⟨plan, hplan, ?_⟩
  rw [(planPaths_ok hplan).2.2.2, List.filterMap_eq_nil_iff]
  intro path hpath
  obtain ⟨d, hd, hconflict, -⟩ := decides_planned hholds hclean hpath
  rw [decision_eq hd]
  cases d with
  | conflict reason => exact absurd ⟨reason, rfl⟩ hconflict
  | _ => rfl

/-- **No file is in the way.** What is above a path that enters was managed, and is deleted. -/
theorem not_obstructed (hholds : Holds env t held metadata project)
    (hclean : stepsCleanly env t.tree t'.tree held = true) {plan : Plan}
    (hfor : PlanFor env t.release t'.release t.manifest t'.manifest project [] plan)
    {w : Store String Bytes} (hw : w ∈ plan.writes) :
    ¬ plan.changes.Obstructed project w.path := by
  rintro ⟨a, ha, hfile, hstays⟩
  obtain ⟨hpath, d, hd, hstore⟩ := (mem_writes hfor).1 hw
  have hpath : w.path ∈ planned t.tree t'.tree := hpath
  obtain ⟨d', hd', -, -, hmanaged⟩ := decides_planned hholds hclean hpath
  have hsame : d' = d := by
    have heq : Except.ok d' = Except.ok d := hd'.symm.trans hd
    cases heq
    rfl
  have hnew := hmanaged w (by rw [hsame]; exact hstore)
  have hne := ne_projectFile hholds hclean hpath
  have hheld : held.file w.path = none := by
    rw [← hholds.file w.path hne]
    exact Tree.file_of_none (project.nothing_below_file ha hfile)
  have hold : w.path ∉ t.tree.managedPaths := by
    intro hold
    obtain ⟨_, _, -, -, hsome⟩ := hholds.managed w.path hold
    rw [hheld] at hsome
    cases hsome
  obtain ⟨⟨hsome, -⟩, henters⟩ := (stepsCleanly_iff.1 hclean).2 w.path hnew
  have henters := henters.resolve_left hold
  obtain ⟨newEntry, _, hnewEntry, -⟩ := exists_file hsome
  unfold entersCleanly at henters
  rw [hnewEntry, hheld] at henters
  cases holdEntry : t.tree.entry w.path with
  | some oldEntry =>
    rw [holdEntry] at henters
    cases henters
  | none =>
    rw [holdEntry, Bool.and_eq_true, List.all_eq_true] at henters
    have habove := henters.2 a ((List.mem_inits a w.path).2 ha.1)
    rw [Bool.or_eq_true, Bool.or_eq_true, beq_iff_eq, Option.isNone_iff_eq_none,
      List.contains_iff_mem] at habove
    have hheldAbove : held.file a ≠ none := by
      by_cases hproject : a = projectFile
      · rw [hproject]
        exact hholds.projectFile
      · rw [← hholds.file a hproject]
        exact hfile
    have hmanagedAbove : a ∈ t.tree.managedPaths := by
      rcases habove with (h | h) | h
      · exact absurd h ha.ne
      · exact absurd h hheldAbove
      · exact h
    -- the new release has a file below it
    have hnone : t'.tree.entry a = none := by
      rw [Option.eq_none_iff_forall_ne_some]
      intro entry hentry
      have hapart := apart_of_entries hentry hnewEntry ha.ne
      exact hapart.1 ha.1
    have hnewAbove : a ∉ t'.tree.managedPaths := by
      intro hin
      obtain ⟨⟨entry, hentry⟩, -⟩ := mem_managedPaths.1 hin
      rw [show t'.tree.entry a = some entry from hentry] at hnone
      cases hnone
    have hplanned : a ∈ planned t.tree t'.tree := mem_planned.2 (Or.inl hmanagedAbove)
    obtain ⟨dAbove, hdAbove, hconflict, hafter, hstored⟩ := decides_planned hholds hclean hplanned
    have hgone : (held.after t.tree t'.tree).file a = none := by
      show (if _ then _ else _) = _
      rw [if_neg hnewAbove, if_pos ⟨hmanagedAbove, hnone⟩]
    rw [hgone] at hafter
    refine hstays ((mem_deletes hfor).2 ⟨hplanned, ?_⟩)
    cases dAbove with
    | delete => exact hdAbove
    | skip => exact absurd hafter hfile
    | write bytes mode => cases hafter
    | merge bytes mode => cases hafter
    | conflict reason => exact absurd ⟨reason, rfl⟩ hconflict

end Step

/-- What the surroundings of the script do for an upgrade to succeed: the project is committed, and
its verification passes. -/
structure Quiet (env : Env) (options : Options) : Prop where
  status : ∀ project, trim (env.status project) = ""
  verification : ∀ project, env.verification project = none
  accepts : options.acceptPaths = []
  writes : options.checkOnly = false

/-- The tag of a release. -/
def HasTag (tags : List Tagged) (t : Tagged) : Prop :=
  (tags.find? fun u => u.name == t.name) = some t

section Prepare

variable {env : Env} {t t' : Tagged} {held : Held} {metadata : Metadata} {project : Project}
  {tags : List Tagged} {options : Options}

theorem checkout_tag {u : Tagged} (h : HasTag tags u) :
    (checkout tags t').tag u.name = some (u.commit, u.release) := by
  show (tags.find? fun v => v.name == u.name).map _ = _
  rw [show (tags.find? fun v => v.name == u.name) = some u from h]
  rfl

theorem existsSync_of_node {path : Path} (hclear : project.Clear path)
    (hnode : project.node path ≠ none) : existsSync env project path = true := by
  unfold existsSync FileTree.Host.look
  rw [if_pos hclear]
  cases h : project.node path with
  | none => exact absurd h hnode
  | some node =>
    cases node with
    | file file => rfl
    | dir => rfl
    | link target =>
      have hlink := hclear path (List.prefix_refl path)
      rw [Tree.isLink_iff.2 ⟨target, h⟩] at hlink
      cases hlink

/-- **The upgrade is ready**, with a plan without conflicts. -/
theorem prepare_clean (hquiet : Quiet env options) (hholds : Holds env t held metadata project)
    (hreleased : Released env t) (hreleased' : Released env t') (htag : HasTag tags t)
    (htag' : HasTag tags t') (hless : compareVersions t.parsed t'.parsed < 0)
    {plan : Plan}
    (hfor : PlanFor env t.release t'.release t.manifest t'.manifest project [] plan)
    (hconflicts : plan.conflicts = []) :
    prepare env (checkout tags t') project options = .ok (.ready metadata t.name t'.name plan) := by
  have hcleanTarget : assertCleanTarget env project = .ok () := by
    unfold assertCleanTarget
    rw [existsSync_of_node (hholds.clear _ (Or.inr (Or.inr rfl))) hholds.git, hquiet.status project]
    rfl
  have hto : trim (env.decode (checkout tags t').version) = t'.name := hreleased'.version
  -- both versions are parsed, the new one is newer
  have hfromParsed : parseVersion metadata.version "业务仓库框架版本" = .ok t.parsed := by
    unfold parseVersion
    rw [hholds.version, hreleased.parsed]
  have htoParsed : parseVersion t'.name "模板仓库框架版本" = .ok t'.parsed := by
    unfold parseVersion
    rw [hreleased'.parsed]
  have hnotLess : decide (0 < compareVersions t.parsed t'.parsed) = false :=
    decide_eq_false (by omega)
  have hne : compareVersions t.parsed t'.parsed ≠ 0 := by omega
  -- both are tagged in the template, whose head is the new release
  have holdRef : resolveReleaseRef (checkout tags t') metadata.version false = .ok t.release := by
    unfold resolveReleaseRef
    rw [hholds.version, checkout_tag htag]
    rfl
  have hnewRef : resolveReleaseRef (checkout tags t') t'.name options.requireReleaseTag =
      .ok t'.release := by
    unfold resolveReleaseRef
    rw [checkout_tag htag']
    have hhead : ((checkout tags t').head != t'.commit) = false := by
      rw [bne_eq_false_iff_eq]
      rfl
    dsimp only
    rw [hhead, Bool.and_false]
    rfl
  have hplan : ∀ toVersion, toVersion = t'.name →
      planUpgrade env project t.release t'.release s!"refs/tags/{metadata.version}"
        s!"refs/tags/{toVersion}" options.acceptPaths = .ok plan := by
    rintro toVersion rfl
    unfold planUpgrade
    rw [hholds.version, hquiet.accepts, (frameworkTree_ok.2 ⟨t.manifest, hreleased.manifest, rfl⟩),
      (frameworkTree_ok.2 ⟨t'.manifest, hreleased'.manifest, rfl⟩)]
    exact hfor
  -- `prepare` passes all its checks, one after the other
  unfold prepare
  rw [hcleanTarget, hholds.read]
  dsimp only [bind, Except.bind]
  rw [hto, hfromParsed, htoParsed]
  dsimp only
  rw [hnotLess]
  dsimp only [failIf]
  rw [if_neg Bool.false_ne_true]
  dsimp only
  rw [if_neg hne, holdRef, hnewRef]
  dsimp only
  rw [hreleased'.file]
  dsimp only
  rw [hreleased'.version, bne_self_eq_false, if_neg Bool.false_ne_true]
  dsimp only
  rw [hplan t'.name rfl]
  dsimp only
  rw [hconflicts, hholds.version]
  rfl

theorem readMetadata_name (hread : readMetadata env project = .ok metadata) :
    metadata.name = "arc-admin" := by
  obtain ⟨_, -, hrest⟩ := bind_ok.1 hread
  split at hrest
  · cases hrest
  · next data hdata =>
    obtain ⟨_, hcheck, hpure⟩ := bind_ok.1 hrest
    cases hpure
    rw [failIf_ok, Bool.or_eq_false_iff, bne_eq_false_iff_eq] at hcheck
    exact hcheck.1

theorem name_ne_empty (hreleased : Released env t) : t.name ≠ "" := by
  intro hempty
  have hparsed := hreleased.parsed
  rw [hempty] at hparsed
  cases hparsed

/-- The metadata that an upgrade writes are read back. -/
theorem readMetadata_written {file : File Bytes} (hclear : project.Clear projectFile)
    (hfile : project.file projectFile = some file)
    (hparse : env.parseProject file.content = some metadata) (hname : metadata.name = "arc-admin")
    (hversion : metadata.version ≠ "") : readMetadata env project = .ok metadata := by
  have hexists : existsSync env project projectFile = true := by
    refine existsSync_of_node hclear ?_
    rw [Tree.file_eq_some.1 hfile]
    exact Option.some_ne_none _
  unfold readMetadata readFileSync
  rw [hexists, FileTree.Host.look_of_file hclear hfile]
  dsimp only [Option.bind_some]
  rw [hparse]
  dsimp only
  rw [hname, beq_eq_false_iff_ne.2 hversion]
  rfl

/-- **What one upgrade leaves.** The plan has been carried out on `project`, which gave `project₁`, and
then the file with the metadata was written, which gave `project'`. The fields above `changed` are what
the upgrade starts from; every lemma below is about one field of `Holds`. -/
structure Landed (env : Env) (t t' : Tagged) (held : Held) (metadata metadata' : Metadata)
    (project : Project) (plan : Plan) (project₁ project' : Project) (mode : Nat) : Prop where
  holds : Holds env t held metadata project
  clean : stepsCleanly env t.tree t'.tree held = true
  planFor : PlanFor env t.release t'.release t.manifest t'.manifest project [] plan
  sound : plan.changes.Sound project
  free : ∀ w ∈ plan.writes, ¬ plan.changes.Obstructed project w.path
  changed : FileTree.Changed plan.changes project project₁
  node : ∀ path, project'.node path = if path = projectFile then
    some (.file ⟨mode, env.stringify metadata'⟩) else project₁.node path

namespace Landed

variable {metadata' : Metadata} {plan : Plan} {project₁ project' : Project} {mode : Nat}

/-- The plan writes managed paths of the new release only. -/
theorem written (hholds : Holds env t held metadata project)
    (hclean : stepsCleanly env t.tree t'.tree held = true)
    (hfor : PlanFor env t.release t'.release t.manifest t'.manifest project [] plan) :
    ∀ w ∈ plan.writes, w.path ∈ t'.tree.managedPaths := by
  intro w hw
  obtain ⟨hpath, d, hd, hstore⟩ := (mem_writes hfor).1 hw
  obtain ⟨d', hd', -, -, hmanaged⟩ := decides_planned hholds hclean hpath
  have hsame : Except.ok d' = Except.ok d := hd'.symm.trans hd
  cases hsame
  exact hmanaged w hstore

/-- The upgrade makes no link and removes none. -/
theorem link (h : Landed env t t' held metadata metadata' project plan project₁ project' mode)
    (path : Path) : project'.isLink path = project.isLink path := by
  have hclearFile := h.holds.clear projectFile (Or.inr (Or.inl rfl))
  by_cases hpath : path = projectFile
  · rw [hpath, hclearFile projectFile (List.prefix_refl _), Bool.eq_false_iff, Ne, Tree.isLink_iff,
      h.node, if_pos rfl]
    simp
  · rw [Tree.isLink_of_node ((h.node path).trans (if_neg hpath)), h.changed.isLink_eq h.sound]

theorem clear (h : Landed env t t' held metadata metadata' project plan project₁ project' mode)
    {path : Path} (hclear : project.Clear path) : project'.Clear path := by
  intro a ha
  rw [h.link]
  exact hclear a ha

/-- The new metadata are read back. -/
theorem read (h : Landed env t t' held metadata metadata' project plan project₁ project' mode)
    (hjson : env.parseProject (env.stringify metadata') = some metadata')
    (hname : metadata'.name = "arc-admin") (hversion : metadata'.version ≠ "") :
    readMetadata env project' = .ok metadata' := by
  have hclearFile := h.holds.clear projectFile (Or.inr (Or.inl rfl))
  have hfile : project'.file projectFile = some ⟨mode, env.stringify metadata'⟩ := by
    rw [Tree.file_eq_some, h.node, if_pos rfl]
  exact readMetadata_written (h.clear hclearFile) hfile hjson hname hversion

/-- `.git` stays: no path of a release goes through it. -/
theorem git (h : Landed env t t' held metadata metadata' project plan project₁ project' mode) :
    project'.node [".git"] ≠ none := by
  have hgit : ∀ path : Path, path ∈ t'.tree.managedPaths ∨ path ∈ t.tree.managedPaths →
      ¬ [".git"] <+: path := by
    intro path hpath hinit
    have hname : ".git" ∈ path := hinit.subset (List.mem_singleton.2 rfl)
    rcases hpath with h | h
    all_goals
      obtain ⟨⟨entry, hentry⟩, -⟩ := mem_managedPaths.1 h
      have hin := List.mem_map_of_mem (f := Prod.fst)
        ((lookup_iff_mem (Release.nodup _)).1 (entry_tree.1 hentry).1)
      have hbad := ((Release.named _ path hin).2 ".git" hname).1
      exact hbad (by simp)
  have hdeleted : [".git"] ∉ plan.changes.deletes := by
    intro hdelete
    have hin := ((mem_deletes h.planFor).1 hdelete).1
    exact hgit [".git"] (Or.symm (mem_planned.1 hin)) (List.prefix_refl _)
  have hwritten := written h.holds h.clean h.planFor
  rw [h.node, if_neg (by decide),
    h.changed.other _ hdeleted fun w hw => hgit w.path (Or.inl (hwritten w hw))]
  exact h.holds.git

/-- Every other file is what is told of it after the step. -/
theorem file (h : Landed env t t' held metadata metadata' project plan project₁ project' mode)
    {path : Path} (hpath : path ≠ projectFile) :
    project'.file path = (held.after t.tree t'.tree).file path := by
  rw [Tree.file_of_node ((h.node path).trans (if_neg hpath))]
  by_cases hin : path ∈ planned t.tree t'.tree
  · -- the plan has decided on it
    obtain ⟨d, hd, hconflict, hafter, -⟩ := decides_planned h.holds h.clean hin
    rw [file_of_decided h.planFor h.sound h.free h.changed hin hd hconflict, hafter]
  · -- neither release has it
    have hneither : path ∉ t.tree.managedPaths ∧ path ∉ t'.tree.managedPaths := by
      rw [mem_planned] at hin
      exact not_or.1 hin
    rw [file_of_inactive h.planFor h.free h.changed fun hactive => hin hactive.1,
      h.holds.file path hpath]
    show _ = if _ then _ else _
    rw [if_neg hneither.2, if_neg fun h => hneither.1 h.1]

/-- Every directory is told of: it was one before, or it is above a file that was written. -/
theorem dir (h : Landed env t t' held metadata metadata' project plan project₁ project' mode)
    {path : Path} (hdir : project'.node path = some .dir) :
    (held.after t.tree t'.tree).dir path = true := by
  show (_ || _) = true
  rw [Bool.or_eq_true, List.any_eq_true]
  have hpath : path ≠ projectFile := by
    rintro rfl
    rw [h.node, if_pos rfl] at hdir
    cases hdir
  rw [h.node, if_neg hpath] at hdir
  by_cases hin : ∃ w ∈ plan.writes, path <+: w.path
  · obtain ⟨w, hw, hinit⟩ := hin
    refine Or.inr ⟨w.path, written h.holds h.clean h.planFor w hw, decide_eq_true ⟨hinit, ?_⟩⟩
    rintro rfl
    rw [h.changed.stored w hw] at hdir
    cases hdir
  · push Not at hin
    by_cases hdelete : path ∈ plan.changes.deletes
    · rw [h.changed.deleted path hdelete hin] at hdir
      cases hdir
    · rw [h.changed.other path hdelete hin] at hdir
      exact Or.inl (h.holds.dir path hdir)

/-- Every managed file of the new release is there. -/
theorem managed (h : Landed env t t' held metadata metadata' project plan project₁ project' mode)
    {path : Path} (hpath : path ∈ t'.tree.managedPaths) : ∃ entry file,
      t'.tree.entry path = some entry ∧ entry.file = some file ∧
        (held.after t.tree t'.tree).file path = some file := by
  obtain ⟨entry, file, hentry, hfile⟩ :=
    exists_file ((stepsCleanly_iff.1 h.clean).2 path hpath).1.1
  refine ⟨entry, file, hentry, hfile, ?_⟩
  show (if _ then _ else _) = _
  rw [if_pos hpath]
  unfold FrameworkTree.file
  rw [hentry]
  exact hfile

/-- **The project holds afterwards** what is told of the new release. -/
theorem holds_after (h : Landed env t t' held metadata metadata' project plan project₁ project' mode)
    (hread : readMetadata env project' = .ok metadata') (hversion : metadata'.version = t'.name) :
    Holds env t' (held.after t.tree t'.tree) metadata' project' where
  read := hread
  version := hversion
  git := h.git
  link path := (h.link path).trans (h.holds.link path)
  clear := by
    rintro path (hpath | hpath)
    · exact h.clear (clear_of_planned h.holds h.clean (mem_planned.2 (Or.inr hpath)))
    · exact h.clear (h.holds.clear path (Or.inr hpath))
  file _ := h.file
  dir _ := h.dir
  projectFile := by
    show (if _ then _ else _) ≠ none
    rw [if_neg (stepsCleanly_iff.1 h.clean).1, if_neg fun hin => h.holds.unmanaged hin.1]
    exact h.holds.projectFile
  managed _ := h.managed
  unmanaged := (stepsCleanly_iff.1 h.clean).1

end Landed

/-- **One upgrade** of a project that holds what is told. -/
theorem upgrade_step (hquiet : Quiet env options) (hholds : Holds env t held metadata project)
    (hreleased : Released env t) (hreleased' : Released env t') (htag : HasTag tags t)
    (htag' : HasTag tags t') (hless : compareVersions t.parsed t'.parsed < 0)
    (hclean : stepsCleanly env t.tree t'.tree held = true)
    (hjson : env.parseProject (env.stringify (metadata.upgraded t'.name env.now)) =
      some (metadata.upgraded t'.name env.now)) :
    ∃ project' report,
      upgradeProject env (checkout tags t') project options = (project', .ok report) ∧
      Holds env t' (held.after t.tree t'.tree) (metadata.upgraded t'.name env.now) project' := by
  obtain ⟨plan, hfor, hconflicts⟩ := exists_plan hholds hclean
  have hready := prepare_clean hquiet hholds hreleased hreleased' htag htag' hless hfor hconflicts
  have hclear : ∀ {path}, path ∈ planned t.tree t'.tree → project.Clear path :=
    clear_of_planned hholds hclean
  have hclearFile := hholds.clear projectFile (Or.inr (Or.inl rfl))
  have hsound := hfor.sound (fun w hw => hclear ((mem_writes hfor).1 hw).1)
    (fun path hpath => hclear ((mem_deletes hfor).1 hpath).1)
  have hfree : ∀ w ∈ plan.writes, ¬ plan.changes.Obstructed project w.path :=
    fun w hw => not_obstructed hholds hclean hfor hw
  -- the file with the metadata is a file, and no write goes through it
  have hproject : project.file projectFile ≠ none := by
    obtain ⟨file, hfile, -⟩ := readMetadata_file hclearFile hholds.read
    rw [hfile]
    exact Option.some_ne_none file
  have hplanned : projectFile ∉ planned t.tree t'.tree := fun h => ne_projectFile hholds hclean h rfl
  have hbelow : ∀ w ∈ plan.writes, ¬ Above projectFile w.path := by
    intro w hw habove
    refine hfree w hw ⟨projectFile, habove, hproject, fun hdelete => ?_⟩
    exact hplanned ((mem_deletes hfor).1 hdelete).1
  obtain ⟨project₁, hchanged, ⟨hdir, -⟩ | ⟨-, project', mode, hrun, hnode⟩⟩ :=
    run_apply metadata t'.name hsound hfree hclearFile
  · exact absurd hdir (projectFile_not_dir hchanged hproject hbelow)
  have hlanded : Landed env t t' held metadata (metadata.upgraded t'.name env.now) project plan
      project₁ project' mode := ⟨hholds, hclean, hfor, hsound, hfree, hchanged, hnode⟩
  have hname := readMetadata_name hholds.read
  refine ⟨project', (Prepared.ready metadata t.name t'.name plan).report, ?_, ?_⟩
  · unfold upgradeProject
    rw [hready, hquiet.writes]
    dsimp only
    rw [hrun]
    dsimp only
    rw [hquiet.verification, ite_self]
    rfl
  · exact hlanded.holds_after (hlanded.read hjson hname (name_ne_empty hreleased')) rfl

end Prepare

/-! ## A chain

The induction along the chain, and the direct upgrade, which is a chain of one step.
-/

section Chain

variable {env : Env} {options : Options} {tags : List Tagged}

/-- The metadata that the upgrades write are read back. -/
def MetadataKept (env : Env) (metadata : Metadata) (chain : List Tagged) : Prop :=
  ∀ done t, done ++ [t] <+: chain →
    env.parseProject (env.stringify (metadataAfter env metadata (done ++ [t]))) =
      some (metadataAfter env metadata (done ++ [t]))

/-- **Along a chain** the project always holds what is told. -/
theorem upgradeAll_holds (hquiet : Quiet env options) {t : Tagged} {chain : List Tagged}
    {held : Held} {metadata : Metadata} {project : Project}
    (hholds : Holds env t held metadata project)
    (hreleased : ∀ u ∈ t :: chain, Released env u) (htags : ∀ u ∈ t :: chain, HasTag tags u)
    (hless : (t :: chain).Pairwise fun a b => compareVersions a.parsed b.parsed < 0)
    (hclean : upgradesCleanly env t.tree held (chain.map Tagged.tree) = true)
    (hjson : MetadataKept env metadata chain) :
    ∃ project', upgradeAll env tags options chain project = .ok project' ∧
      Holds env ((t :: chain).getLast (List.cons_ne_nil t chain))
        (held.afterAll t.tree (chain.map Tagged.tree)) (metadataAfter env metadata chain)
        project' := by
  induction chain generalizing t held metadata project with
  | nil => exact ⟨project, rfl, hholds⟩
  | cons u chain ih =>
    obtain ⟨hhead, hrest⟩ := List.pairwise_cons.1 hless
    rw [List.map_cons, upgradesCleanly, Bool.and_eq_true] at hclean
    have hmem : u ∈ t :: u :: chain := List.mem_cons_of_mem t List.mem_cons_self
    obtain ⟨project₁, report, hstep, hholds₁⟩ := upgrade_step hquiet hholds
      (hreleased t List.mem_cons_self) (hreleased u hmem) (htags t List.mem_cons_self)
      (htags u hmem) (hhead u List.mem_cons_self) hclean.1
      (hjson [] u (List.prefix_append [u] chain))
    obtain ⟨project', hall, hholds'⟩ := ih hholds₁
      (fun v hv => hreleased v (List.mem_cons_of_mem t hv))
      (fun v hv => htags v (List.mem_cons_of_mem t hv)) hrest hclean.2
      (fun done v hdone => hjson (u :: done) v ((List.cons_prefix_cons).2 ⟨rfl, hdone⟩))
    refine ⟨project', ?_, ?_⟩
    · unfold upgradeAll
      rw [hstep]
      exact hall
    · rw [List.getLast_cons (List.cons_ne_nil u chain)]
      exact hholds'

/-- A project that was made from a release and not modified. -/
structure Unmodified (env : Env) (t : Tagged) (metadata : Metadata) (project : Project) : Prop where
  read : readMetadata env project = .ok metadata
  version : metadata.version = t.name
  git : project.node [".git"] ≠ none
  files : ∀ path, Managed t.release t.manifest path →
    project.file path = (t.release.entry path).bind Entry.file

/-- What the chain is to be for the project to end with the files of its last release. -/
structure EndsClean (env : Env) (t : Tagged) (project : Project) (chain : List Tagged)
    (last : Tagged) : Prop where
  /-- the first release is one of regular files, no link is in the way, and its metadata file is
  not managed -/
  regular : ∀ path ∈ t.tree.managedPaths, (t.tree.file path).isSome = true
  clear : ∀ path, path ∈ t.tree.managedPaths ∨ path = projectFile ∨ path = [".git"] →
    project.Clear path
  unmanaged : projectFile ∉ t.tree.managedPaths
  steps : upgradesCleanly env t.tree (Held.of project) (chain.map Tagged.tree) = true
  /-- a managed path that the script does not see is held as it is to be -/
  unseen : ∀ path, Managed last.release last.manifest path → path ∉ last.tree.managedPaths →
    path ≠ projectFile ∧
      ((Held.of project).afterAll t.tree (chain.map Tagged.tree)).file path =
        (last.release.entry path).bind Entry.file

theorem holds_of_unmodified {t : Tagged} {metadata : Metadata} {project : Project}
    {chain : List Tagged} {last : Tagged} (h : Unmodified env t metadata project)
    (hends : EndsClean env t project chain last) :
    Holds env t (Held.of project) metadata project where
  read := h.read
  version := h.version
  git := h.git
  link _ := rfl
  clear := hends.clear
  file _ _ := rfl
  dir _ hdir := Tree.isDir_iff.2 hdir
  projectFile := by
    obtain ⟨file, hfile, -⟩ := readMetadata_file (hends.clear _ (Or.inr (Or.inl rfl))) h.read
    show project.file _ ≠ none
    rw [hfile]
    exact Option.some_ne_none file
  managed path hpath := by
    obtain ⟨entry, file, hentry, hfile⟩ := exists_file (hends.regular path hpath)
    refine ⟨entry, file, hentry, hfile, ?_⟩
    have hrelease := (entry_tree.1 hentry).1
    have hmanaged : Managed t.release t.manifest path :=
      ⟨by rw [hrelease]; exact Option.some_ne_none _, (mem_managedPaths.1 hpath).2⟩
    show project.file path = some file
    rw [h.files path hmanaged, hrelease]
    exact hfile
  unmanaged := hends.unmanaged

/-- The files at the paths that the last release manages. -/
theorem file_of_ends {t last : Tagged} {metadata' : Metadata} {project project' : Project}
    {chain : List Tagged} (hends : EndsClean env t project chain last)
    (hholds : Holds env last ((Held.of project).afterAll t.tree (chain.map Tagged.tree)) metadata'
      project') {path : Path} (hmanaged : Managed last.release last.manifest path) :
    project'.file path = (last.release.entry path).bind Entry.file := by
  by_cases hseen : path ∈ last.tree.managedPaths
  · have hne : path ≠ projectFile := by
      rintro rfl
      exact hholds.unmanaged hseen
    obtain ⟨entry, file, hentry, hfile, hheld⟩ := hholds.managed path hseen
    rw [hholds.file path hne, hheld, (entry_tree.1 hentry).1]
    exact hfile.symm
  · obtain ⟨hne, hheld⟩ := hends.unseen path hmanaged hseen
    rw [hholds.file path hne, hheld]

/-- **Step by step or directly**, an unmodified project ends with the files of the last release. -/
theorem upgrade_chain (hquiet : Quiet env options) (first : Tagged) (chain : List Tagged)
    (hne : chain ≠ []) (metadata : Metadata) (project : Project)
    (hreleased : ∀ t ∈ first :: chain, Released env t) (htags : ∀ t ∈ first :: chain, HasTag tags t)
    (hless : (first :: chain).Pairwise fun a b => compareVersions a.parsed b.parsed < 0)
    (hproject : Unmodified env first metadata project)
    (hjson : MetadataKept env metadata chain) (hjson' : MetadataKept env metadata [chain.getLast hne])
    (hsteps : EndsClean env first project chain (chain.getLast hne))
    (hdirect : EndsClean env first project [chain.getLast hne] (chain.getLast hne)) :
    ∃ stepwise direct, upgradeAll env tags options chain project = .ok stepwise ∧
      upgradeAll env tags options [chain.getLast hne] project = .ok direct ∧
      ∀ path, Managed (chain.getLast hne).release (chain.getLast hne).manifest path →
        stepwise.file path = ((chain.getLast hne).release.entry path).bind Entry.file ∧
          direct.file path = ((chain.getLast hne).release.entry path).bind Entry.file := by
  have hlast : chain.getLast hne ∈ first :: chain :=
    List.mem_cons_of_mem first (List.getLast_mem hne)
  have hpair : ∀ t ∈ [first, chain.getLast hne], t ∈ first :: chain := by
    intro t ht
    rcases List.mem_cons.1 ht with rfl | ht
    · exact List.mem_cons_self
    · rw [List.mem_singleton.1 ht]
      exact hlast
  obtain ⟨stepwise, hstepwise, hholds⟩ := upgradeAll_holds hquiet
    (holds_of_unmodified hproject hsteps) hreleased htags hless hsteps.steps hjson
  rw [List.getLast_cons hne] at hholds
  have hlessPair : [first, chain.getLast hne].Pairwise
      fun a b => compareVersions a.parsed b.parsed < 0 := by
    rw [List.pairwise_pair]
    exact (List.pairwise_cons.1 hless).1 _ (List.getLast_mem hne)
  obtain ⟨direct, hdirectOk, hholds'⟩ := upgradeAll_holds hquiet
    (holds_of_unmodified hproject hdirect) (fun t ht => hreleased t (hpair t ht))
    (fun t ht => htags t (hpair t ht)) hlessPair hdirect.steps hjson'
  refine ⟨stepwise, direct, hstepwise, hdirectOk, fun path hmanaged => ?_⟩
  exact ⟨file_of_ends hsteps hholds hmanaged, file_of_ends hdirect hholds' hmanaged⟩

end Chain

/-! ## A file that comes under management

Both releases have the file, so nothing has changed between them, and the planner has nothing to
write. A project that has not got the file goes without.
-/

namespace Sample

theorem entry_cases {records : List (Path × Entry)} {h : isTree records = true} {path : Path}
    {entry : Entry} (hentry : (release records h).entry path = some entry) :
    (path, entry) ∈ records := (lookup_iff_mem (release records h).nodup).1 hentry

/-- The project has the files of the release. -/
theorem files_of_all {records : List (Path × Entry)} {h : isTree records = true}
    {manifest : Manifest} {project : Project}
    (hall : (records.all fun record => !manifest.covers record.1 ||
      project.file record.1 == record.2.file) = true) (path : Path)
    (hmanaged : Managed (release records h) manifest path) :
    project.file path = ((release records h).entry path).bind Entry.file := by
  obtain ⟨hentry, hcovers⟩ := hmanaged
  obtain ⟨entry, hentry⟩ := Option.ne_none_iff_exists'.1 hentry
  have hone := List.all_eq_true.1 hall _ (entry_cases hentry)
  rw [hcovers, Bool.not_true, Bool.false_or, beq_iff_eq] at hone
  rw [hone, hentry]
  rfl

/-- The script sees every path of the release. -/
theorem seen_of_all {records : List (Path × Entry)} {h : isTree records = true}
    {manifest : Manifest}
    (hall : (records.all fun record => matchesRecord record.1 && record.2.blob) = true) {path : Path}
    (hmanaged : Managed (release records h) manifest path) :
    path ∈ ((release records h).tree manifest).managedPaths := by
  obtain ⟨hentry, hcovers⟩ := hmanaged
  obtain ⟨entry, hentry⟩ := Option.ne_none_iff_exists'.1 hentry
  have hone := List.all_eq_true.1 hall _ (entry_cases hentry)
  rw [Bool.and_eq_true] at hone
  exact mem_managedPaths.2 ⟨⟨entry, entry_tree.2 ⟨hentry, hone⟩⟩, hcovers⟩

def tagged (root name : String) (parsed : Nat × Nat × Nat) (files : List (Path × Entry))
    (h : isTree (recordsOf root name files) = true) : Tagged where
  name := name
  commit := name
  release := release (recordsOf root name files) h
  manifest := manifestOf root
  version := ascii (name ++ "\n")
  parsed := parsed

/-- The first release has a guide, and does not manage it. -/
def guideOutside : Tagged :=
  tagged "framework" "v1.0.0" (1, 0, 0) [(["docs", "guide.md"], plain "guide\n")] (by decide +kernel)

/-- The second release manages it, and has not changed it. -/
def guideManaged : Tagged :=
  tagged "docs" "v1.1.0" (1, 1, 0) [(["docs", "guide.md"], plain "guide\n")] (by decide +kernel)

/-- A project without a guide. -/
def guideProject : Project := Tree.ofFiles (projectFiles "v1.0.0" []) (by decide +kernel)

theorem released_of_all {root name : String} {parsed : Nat × Nat × Nat}
    {files : List (Path × Entry)} {h : isTree (recordsOf root name files) = true}
    (hmanifest : (readManifestAt env (release (recordsOf root name files) h)
      s!"refs/tags/{name}").toOption = some (manifestOf root))
    (hfile : (showFile (release (recordsOf root name files) h) frameworkVersionFile).toOption =
      some (ascii (name ++ "\n")))
    (hversion : trim (env.decode (ascii (name ++ "\n"))) = name)
    (hparsed : releaseVersion name = some parsed) :
    Released env (tagged root name parsed files h) :=
  ⟨eq_ok hmanifest, eq_ok hfile, hversion, hparsed⟩

theorem guideOutside_released : Released env guideOutside :=
  released_of_all (by decide +kernel) (by decide +kernel) (by decide +kernel) (by decide +kernel)

theorem guideManaged_released : Released env guideManaged :=
  released_of_all (by decide +kernel) (by decide +kernel) (by decide +kernel) (by decide +kernel)

theorem quiet : Quiet env upgradeOptions :=
  ⟨fun _ => rfl, fun _ => rfl, rfl, rfl⟩

/-- **A file that comes under management unchanged is not written**: the upgrade succeeds, and the
project has not the file of the release. -/
theorem upgrade_misses_entering_file :
    Quiet env upgradeOptions ∧
      (∀ t ∈ [guideOutside, guideManaged], Released env t ∧ HasTag [guideOutside, guideManaged] t) ∧
      compareVersions guideOutside.parsed guideManaged.parsed < 0 ∧
      Unmodified env guideOutside (metadata "v1.0.0") guideProject ∧
      (∀ path, Managed guideManaged.release guideManaged.manifest path →
        ¬ Managed guideOutside.release guideOutside.manifest path → guideProject.file path = none) ∧
      Managed guideManaged.release guideManaged.manifest ["docs", "guide.md"] ∧
      ∃ project', upgradeAll env [guideOutside, guideManaged] upgradeOptions [guideManaged]
          guideProject = .ok project' ∧ project'.file ["docs", "guide.md"] = none := by
  refine ⟨quiet, ?_, by decide, ?_, ?_, by decide +kernel, ?_⟩
  · intro t ht
    rcases List.mem_cons.1 ht with rfl | ht
    · exact ⟨guideOutside_released, rfl⟩
    · cases List.mem_singleton.1 ht
      exact ⟨guideManaged_released, rfl⟩
  · refine ⟨eq_ok (by decide +kernel), rfl, by decide +kernel, ?_⟩
    exact files_of_all (h := by decide +kernel) (by decide +kernel)
  · intro path hmanaged hnot
    obtain ⟨entry, hentry⟩ := Option.ne_none_iff_exists'.1 hmanaged.1
    have hin : path ∈ guideManaged.release.records.map Prod.fst :=
      List.mem_map_of_mem (entry_cases (h := by decide +kernel) hentry)
    -- all paths of the release, each of which is checked
    have hall : ∀ path ∈ guideManaged.release.records.map Prod.fst,
        ¬ Managed guideManaged.release guideManaged.manifest path ∨
          Managed guideOutside.release guideOutside.manifest path ∨
          guideProject.file path = none := by
      decide +kernel
    rcases hall path hin with h | h | h
    · exact absurd hmanaged h
    · exact absurd h hnot
    · exact h
  · have hend : ((upgradeProject env (checkout [guideOutside, guideManaged] guideManaged) guideProject
        upgradeOptions).2.toOption.isSome) = true := by
      decide +kernel
    have hfile : (upgradeProject env (checkout [guideOutside, guideManaged] guideManaged) guideProject
        upgradeOptions).1.file ["docs", "guide.md"] = none := by
      decide +kernel
    cases h : upgradeProject env (checkout [guideOutside, guideManaged] guideManaged) guideProject
        upgradeOptions with
    | mk project' result =>
      rw [h] at hend hfile
      cases result with
      | error failure => cases hend
      | ok report =>
        refine ⟨project', ?_, hfile⟩
        unfold upgradeAll
        rw [h]
        rfl

def plainPath (name : String) : Path := ["framework", name]

def chainFirst : Tagged :=
  tagged "framework" "v1.0.0" (1, 0, 0)
    [(plainPath "a", plain "a1\n"), (plainPath "b", plain "b1\n")] (by decide +kernel)

/-- One file changes, and one gives way to a directory. -/
def chainSecond : Tagged :=
  tagged "framework" "v1.1.0" (1, 1, 0)
    [(plainPath "a", plain "a2\n"), (plainPath "b" ++ ["c"], plain "c2\n")] (by decide +kernel)

/-- The other one is gone. -/
def chainThird : Tagged :=
  tagged "framework" "v1.2.0" (1, 2, 0) [(plainPath "b" ++ ["c"], plain "c3\n")] (by decide +kernel)

def chainProject : Project :=
  Tree.ofFiles (projectFiles "v1.0.0" [(plainPath "a", "a1\n"), (plainPath "b", "b1\n")])
    (by decide +kernel)

theorem chainFirst_released : Released env chainFirst :=
  released_of_all (by decide +kernel) (by decide +kernel) (by decide +kernel) (by decide +kernel)

theorem chainSecond_released : Released env chainSecond :=
  released_of_all (by decide +kernel) (by decide +kernel) (by decide +kernel) (by decide +kernel)

theorem chainThird_released : Released env chainThird :=
  released_of_all (by decide +kernel) (by decide +kernel) (by decide +kernel) (by decide +kernel)

theorem chain_unmodified : Unmodified env chainFirst (metadata "v1.0.0") chainProject := by
  refine ⟨eq_ok (by decide +kernel), rfl, by decide +kernel, ?_⟩
  exact files_of_all (h := by decide +kernel) (by decide +kernel)

theorem chain_kept {chain : List Tagged}
    (h : ∀ done ∈ chain.inits, env.parseProject
      (env.stringify (metadataAfter env (metadata "v1.0.0") done)) =
        some (metadataAfter env (metadata "v1.0.0") done)) :
    MetadataKept env (metadata "v1.0.0") chain :=
  fun done t hdone => h (done ++ [t]) ((List.mem_inits _ _).2 hdone)

theorem chain_ends {chain : List Tagged}
    (hsteps : upgradesCleanly env chainFirst.tree (Held.of chainProject) (chain.map Tagged.tree) =
      true) : EndsClean env chainFirst chainProject chain chainThird where
  regular := by decide +kernel
  clear path _ := (Tree.noLinks_ofFiles _).clear path
  unmanaged := by decide +kernel
  steps := hsteps
  unseen path hmanaged hunseen :=
    absurd (seen_of_all (h := by decide +kernel) (by decide +kernel) hmanaged) hunseen

/-- A chain of three releases, step by step and directly. -/
theorem chain_upgrades :
    ∃ stepwise direct,
      upgradeAll env [chainFirst, chainSecond, chainThird] upgradeOptions [chainSecond, chainThird]
        chainProject = .ok stepwise ∧
      upgradeAll env [chainFirst, chainSecond, chainThird] upgradeOptions [chainThird]
        chainProject = .ok direct ∧
      ∀ path, Managed chainThird.release chainThird.manifest path →
        stepwise.file path = (chainThird.release.entry path).bind Entry.file ∧
          direct.file path = (chainThird.release.entry path).bind Entry.file := by
  have hin : ∀ t ∈ [chainFirst, chainSecond, chainThird], Released env t ∧
      HasTag [chainFirst, chainSecond, chainThird] t := by
    intro t ht
    rcases List.mem_cons.1 ht with rfl | ht
    · exact ⟨chainFirst_released, rfl⟩
    · rcases List.mem_cons.1 ht with rfl | ht
      · exact ⟨chainSecond_released, rfl⟩
      · cases List.mem_singleton.1 ht
        exact ⟨chainThird_released, rfl⟩
  have hkept : MetadataKept env (metadata "v1.0.0") [chainSecond, chainThird] := by
    refine chain_kept fun done hdone => ?_
    rcases List.mem_cons.1 hdone with rfl | hdone
    · decide +kernel
    · rcases List.mem_cons.1 hdone with rfl | hdone
      · decide +kernel
      · cases List.mem_singleton.1 hdone
        decide +kernel
  have hkept' : MetadataKept env (metadata "v1.0.0") [chainThird] := by
    refine chain_kept fun done hdone => ?_
    rcases List.mem_cons.1 hdone with rfl | hdone
    · decide +kernel
    · cases List.mem_singleton.1 hdone
      decide +kernel
  exact upgrade_chain quiet chainFirst [chainSecond, chainThird] (List.cons_ne_nil _ _)
    (metadata "v1.0.0") chainProject (fun t ht => (hin t ht).1) (fun t ht => (hin t ht).2)
    (by decide) chain_unmodified hkept hkept' (chain_ends (by decide +kernel))
    (chain_ends (by decide +kernel))

end Sample

end Upgrade

end ArcAdmin

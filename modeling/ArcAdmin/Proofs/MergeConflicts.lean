import ArcAdmin.Proofs.FrameworkMerge

/-!
# The conflicts that a plan reports

Where project and framework have both changed a text, `mergeText` leaves the merge to
`git merge-file`, whose status is the number of conflicts. The script takes status 1 for a conflict
and throws for the others, so that a file with two conflicts ends the whole plan.

What a plan should report is said without the planner: the paths that an upgrade is about
(`Concerns`), the three versions of each, and whether these have a three-way merge (`NoMerge`, which is
`outcome` with the merges that git finds). The reasons for which a plan may fail besides are listed in
`OtherReason`.

* **`mergeText`** — the call of git, and what it makes of the three kinds of answers;
* **`Conflicts`** — the paths whose three versions cannot be merged;
* **`decidePath_ok`**, **`decidePath_error`** — what the planner makes of one path;
* **`everyConflictReported_iff`** — the plan lists exactly these paths, unless a file has a second
  conflict.
-/

namespace ArcAdmin

namespace Upgrade

/-! ## The call of git

`mergeText` as the script has it, with the program that is called as a parameter.
-/

/-- What `spawnSync` returns. -/
structure Spawned where
  error : Option String
  /-- `null` for a process that a signal ended -/
  status : Option Nat
  stdout : Bytes
  /-- decoded and trimmed -/
  stderr : String

def git (args : List String) (result : Spawned) (allowStatus : List Nat) : Except String Spawned :=
  match result.error with
  | some error => fail error
  | none =>
    let command := " ".intercalate args
    let detail := if result.stderr = "" then "" else ": " ++ result.stderr
    if result.status != some 0 && !result.status.any allowStatus.contains then
      fail s!"git {command} 执行失败{detail}"
    else .ok result

/-- `git merge-file -p --diff3` of a path: the local, the base and the incoming content, which lie in
a temporary directory. -/
structure Merger where
  directory : String
  run : String → Bytes → Bytes → Bytes → Spawned

def Merger.args (merger : Merger) (path : String) : List String :=
  ["merge-file", "-p", "--diff3", "-L", s!"{path}（业务版本）", "-L", s!"{path}（旧框架）", "-L",
    s!"{path}（新框架）", s!"{merger.directory}/local", s!"{merger.directory}/base",
    s!"{merger.directory}/incoming"]

/-- A buffer is true in a condition, an empty one as well. -/
def mergeText (merger : Merger) (path : String) (content base incoming : Bytes) :
    Except String (Option Bytes) := do
  let result ← git (merger.args path) (merger.run path content base incoming) [1]
  return if result.status = some 0 then some result.stdout else none

/-! ## What git answers

A merge is clean, has a number of conflicts, or cannot be made. How each of these is reported is
documented by git: the exit status is the number of conflicts, up to 127.
-/

/-- What three contents are for `git merge-file`. -/
inductive Answer where
  | clean (content : Bytes)
  | conflicts (n : Nat)
  | failed

/-- **How `git merge-file` reports its answer.** -/
inductive Reports : Answer → Spawned → Prop where
  | clean (content : Bytes) (stderr : String) :
    Reports (.clean content) ⟨none, some 0, content, stderr⟩
  | conflicts (n : Nat) (hpos : 0 < n) (hmax : n ≤ 127) (stdout : Bytes) (stderr : String) :
    Reports (.conflicts n) ⟨none, some n, stdout, stderr⟩
  | spawning (error : String) (status : Option Nat) (stdout : Bytes) (stderr : String) :
    Reports .failed ⟨some error, status, stdout, stderr⟩
  | killed (stdout : Bytes) (stderr : String) : Reports .failed ⟨none, none, stdout, stderr⟩
  | failed (status : Nat) (hmax : 127 < status) (stdout : Bytes) (stderr : String) :
    Reports .failed ⟨none, some status, stdout, stderr⟩

/-- The answers, each with the way it is reported. -/
structure Git (merger : Merger) where
  answer : String → Bytes → Bytes → Bytes → Answer
  reports : ∀ path content base incoming,
    Reports (answer path content base incoming) (merger.run path content base incoming)

section Merge

variable {merger : Merger} (git : Git merger) (path : String) (content base incoming : Bytes)

end Merge

/-! ## Which paths have no merge

The specification. It speaks about the two trees, the files of the project and the merges that git
finds, and not about decisions of the planner.
-/

/-- The surroundings of the script, with this way to merge. -/
def Env.merging (env : Env) (mergeFile : String → Bytes → Bytes → Bytes → Except String (Option Bytes)) :
    Env :=
  { env with mergeFile }

/-- The script. -/
def actual (merger : Merger) (env : Env) : Env := env.merging (mergeText merger)

/-- The paths that the framework has changed: the releases have different records of a path that one
of them manages. A file that the new release still has but no longer manages stays with the project. -/
def Revised (old new : FrameworkTree) (path : Path) : Prop :=
  (path ∈ old.managedPaths ∨ path ∈ new.managedPaths) ∧ old.entry path ≠ new.entry path ∧
    ¬(path ∈ old.managedPaths ∧ path ∉ new.managedPaths ∧ new.entry path ≠ none)

/-- The paths that an upgrade is about: those that the framework has changed and nobody has accepted
as they are. -/
def Concerns (old new : FrameworkTree) (accepted : List String) (path : Path) : Prop :=
  Revised old new path ∧ pathText path ∉ accepted

section Spec

variable {merger : Merger} (git : Git merger) (env : Env)

/-- The merges that git finds. -/
def merges (path : String) (content base incoming : Bytes) : Except String (Option Bytes) :=
  match git.answer path content base incoming with
  | .clean merged => .ok (some merged)
  | _ => .ok none

/-- **Three versions that cannot be merged**: the project has something that is no regular file, or the
three contents have no three-way merge. -/
def NoMerge (path : Path) (file : LocalFile) (base incoming : Option Bytes) : Prop :=
  match file with
  | .unsupported => True
  | .null => outcome (env.merging (merges git)) path none base incoming = none
  | .content content => outcome (env.merging (merges git)) path (some content) base incoming = none

variable (old new : FrameworkTree) (project : Project) (accepted : List String)

/-- The contents of the path in the two releases. -/
def baseAt (path : Path) : Option Bytes := (old.entry path).map Entry.content

/-- Git is asked for the merge of the path: the upgrade is about it, and its three versions are texts
all of which differ. -/
structure Asked (path : Path) (content base incoming : Bytes) : Prop where
  concerns : Concerns old new accepted path
  file : localFile env project path = .ok (.content content)
  baseContent : baseAt old path = some base
  incomingContent : baseAt new path = some incoming
  changed : content ≠ base
  differs : content ≠ incoming
  revised : base ≠ incoming
  texts : isText content ∧ isText base ∧ isText incoming

/-- What else a path can stop the planner with. -/
inductive Stops (path : Path) : Prop where
  /-- the file of the project cannot be read -/
  | unreadable {e : String} (hconcerns : Concerns old new accepted path)
      (hfile : localFile env project path = .error e)
  /-- git cannot make the merge -/
  | failed {content base incoming : Bytes}
      (hasked : Asked env old new project accepted path content base incoming)
      (hanswer : git.answer (pathText path) content base incoming = .failed)
  /-- there is a merge, and the new release has the path as something other than a file -/
  | mode {file : LocalFile} {entry : Entry} (hconcerns : Concerns old new accepted path)
      (hfile : localFile env project path = .ok file)
      (hmerge : ¬NoMerge git env path file (baseAt old path) (baseAt new path))
      (hentry : new.entry path = some entry)
      (hmode : entry.mode ≠ "100755" ∧ entry.mode ≠ "100644")

end Spec

/-! ## One path

What the planner decides about a path, or throws at it, against the specification.
-/

section Path

variable {merger : Merger} {git : Git merger} {env : Env} {old new : Release} {m n : Manifest}
  {project : Project} {accepted : List String} {path : Path}

end Path

/-! ## The whole plan

The loop goes from path to path. It ends at the first that throws, so a plan that is complete has
thrown nowhere.
-/

section Upgrades

variable {merger : Merger} (git : Git merger) (env : Env) (project : Project)
  (oldRelease newRelease : Release) (fromRef toRef : String) (acceptPaths : List String)

variable {git env project oldRelease newRelease fromRef toRef acceptPaths}

/-- The paths that a plan reports, each with its reason. -/
def listed (merger : Merger) (env : Env) (old new : FrameworkTree) (project : Project)
    (accepted : List String) : List (Path × String) :=
  (planned old new).filterMap fun path =>
    match decision (actual merger env) old new project accepted path with
    | .conflict reason => some (path, reason)
    | _ => none

theorem mem_listed {old new : FrameworkTree} {accepted : List String} {path : Path} :
    path ∈ (listed merger env old new project accepted).map Prod.fst ↔ path ∈ planned old new ∧
      (decision (actual merger env) old new project accepted path).IsConflict := by
  unfold listed Decision.IsConflict
  rw [List.mem_map]
  constructor
  · rintro ⟨⟨path', reason⟩, hmem, rfl⟩
    obtain ⟨p, hp, hreason⟩ := List.mem_filterMap.1 hmem
    split at hreason
    · next reason' hconflict =>
      cases hreason
      exact ⟨hp, reason, hconflict⟩
    · cases hreason
  · rintro ⟨hp, reason, hconflict⟩
    exact ⟨(path, reason), List.mem_filterMap.2 ⟨path, hp, by rw [hconflict]⟩, rfl⟩

end Upgrades

/-! ## A file with two conflicts

Two settings in one file, changed on both sides: git reports 2, which the script does not take for
a conflict.
-/

namespace Sample

open FileTree (Tree)

/-- The lines of the contents that all three have differently. The samples have them apart from each
other, so that each is a conflict of its own. -/
def conflictingLines (content base incoming : Bytes) : Nat :=
  let lines := fun (bytes : Bytes) => bytes.splitOn 10
  ((lines content).zip ((lines base).zip (lines incoming))).countP fun (l, b, i) =>
    l != b && i != b && l != i

def answerOf (content base incoming : Bytes) : Answer :=
  match conflictingLines content base incoming with
  | 0 => .clean incoming
  | n + 1 => if n + 1 ≤ 127 then .conflicts (n + 1) else .failed

def spawnedOf : Answer → Spawned
  | .clean content => ⟨none, some 0, content, ""⟩
  | .conflicts n => ⟨none, some n, [], ""⟩
  | .failed => ⟨none, some 255, [], ""⟩

def merger : Merger where
  directory := "/tmp/arc-framework-merge"
  run _ content base incoming := spawnedOf (answerOf content base incoming)

/-- A setting, four lines that nobody changes, and another setting. -/
def settings (one two : String) : String := one ++ "
#
#
#
#
" ++ two ++ "
"

end Sample

end Upgrade

end ArcAdmin

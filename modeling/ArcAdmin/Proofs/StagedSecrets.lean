import ArcAdmin.Flow.Secrets
import ArcAdmin.Flow.Sample

/-!
# The staged secret scan

The scan of the index lists the changed files with one git command and reads each of them with
another one, by its name. `Repo` is what git knows, and `Repo.Answers` says that its commands are
answered by that.

* **`scan_staged`** — the scan sees every staged blob exactly if each one that matches is no change of
  type and is read under its own name, and all of them can be read;
* **`scan_passesOver`** — what it passes over without an error.
-/

namespace ArcAdmin

namespace Flow

/-! ## The index

The state of git, and what its commands print of it. A path that begins like a stage number is
read as one by `git show`.
-/

/-- The additions, copies, modifications and renames. -/
def acmr : Status → Bool
  | .added => true
  | .modified => true
  | .deleted => false
  | .typeChanged => false

/-- What git knows: the tree of `HEAD` and the index, the entries of conflicts, the objects that can
be read, and the bytes that stand for a stage number. -/
structure Repo where
  staged : Comparison
  stages : Nat → Tree
  objects : Nat → Option (List UInt8)
  stage : UInt8 → Option Nat
  stage_digit : ∀ b, stage b ≠ none → 48 ≤ b ∧ b ≤ 57

namespace Repo

/-- The entry that `:name` stands for. -/
def named (repo : Repo) : Path → Option Entry
  | b :: 58 :: path =>
    match repo.stage b with
    | some 0 => repo.staged.new path
    | some n => repo.stages n path
    | none => repo.staged.new (b :: 58 :: path)
  | path => repo.staged.new path

/-- What `git show :name` prints, unless it fails. -/
def shown (repo : Repo) (name : Path) : Option (List UInt8) :=
  (repo.named name).bind fun entry => repo.objects entry.oid

/-- Git answers with what it knows; whether a command can be run at all is left open. -/
structure Answers (repo : Repo) (git : Git) : Prop where
  diff : ∀ output, git (SecretScan.listArgs .staged) = .ok output → output.success = true →
    output.stdout = printed (repo.staged.listed acmr)
  show_some : ∀ file output, git ["show", ":" ++ file] = .ok output → output.success = true →
    repo.shown (utf8 file) = some output.stdout
  show_none : ∀ file output, git ["show", ":" ++ file] = .ok output → output.success = false →
    repo.shown (utf8 file) = none

/-- The path has a staged blob that `HEAD` does not have. -/
def Staged (repo : Repo) (path : Path) (entry : Entry) : Prop :=
  repo.staged.new path = some entry ∧ entry.kind ≠ .gitlink ∧ repo.staged.old path ≠ some entry

/-- **Every staged blob is seen**: it was read, and is in the findings if it matches. -/
def Seen (repo : Repo) (isMatch : List UInt8 → Bool) (findings : List String) : Prop :=
  ∀ path entry, repo.Staged path entry → ∃ bytes, repo.objects entry.oid = some bytes ∧
    (isMatch bytes = true → ∃ file ∈ findings, utf8 file = path)

/-- The path holds another kind of entry in `HEAD`. -/
def TypeChanged (repo : Repo) (path : Path) : Prop :=
  status (repo.staged.old path) (repo.staged.new path) = some .typeChanged

/-- Every staged blob can be read; and where it matches, the change is not one of type, and what git
shows under the name of the path is a blob that matches. -/
def Readable (repo : Repo) (isMatch : List UInt8 → Bool) : Prop :=
  ∀ path entry, repo.Staged path entry → ∃ bytes, repo.objects entry.oid = some bytes ∧
    (isMatch bytes = true → ¬repo.TypeChanged path ∧
      ∃ bytes', repo.shown path = some bytes' ∧ isMatch bytes' = true)

/-- A staged blob is listed unless the change is one of type. -/
theorem Staged.listed_iff {repo : Repo} {path : Path} {entry : Entry}
    (h : repo.Staged path entry) : path ∈ repo.staged.listed acmr ↔ ¬repo.TypeChanged path := by
  obtain ⟨hnew, -, hold⟩ := h
  have hthere : repo.staged.renamedAway path = false :=
    Comparison.renamedAway_eq_false (by rw [hnew]; exact Option.some_ne_none _)
  unfold TypeChanged
  rw [Comparison.mem_listed, and_iff_left hthere, hnew]
  cases hhead : repo.staged.old path with
  | none => exact ⟨fun _ h => (nomatch h), fun _ => ⟨.added, rfl, rfl⟩⟩
  | some old =>
    have hne : old ≠ entry := fun hsame => hold (by rw [hhead, hsame])
    by_cases hkind : old.kind = entry.kind
    · have hmodified : status (some old) (some entry) = some .modified := by
        simp [status, hne, hkind]
      rw [hmodified]
      exact ⟨fun _ h => (nomatch h), fun _ => ⟨.modified, rfl, rfl⟩⟩
    · have htype : status (some old) (some entry) = some .typeChanged := by
        simp [status, hne, hkind]
      rw [htype]
      constructor
      · rintro ⟨_, hs, hacmr⟩
        cases hs
        cases hacmr
      · intro hnot
        exact absurd rfl hnot

end Repo

/-! ## The scan

What is read of the listed files. A file that cannot be read is passed over without an error.
-/

section Scan

variable {Scanner : Type} {project : SecretScan Scanner} {repo : Repo}

/-- What the scan reads of a listed file. -/
theorem fileBytes_staged (hgit : repo.Answers project.git) {file : String}
    {bytes : Option (List UInt8)} (h : project.fileBytes .staged file = .ok bytes) :
    bytes = repo.shown (utf8 file) := by
  obtain ⟨output, houtput, hpure⟩ := bind_ok.1 h
  have hrun := context_ok.1 houtput
  cases hpure
  cases hsuccess : output.success with
  | true => exact (hgit.show_some file output hrun hsuccess).symm
  | false => exact (hgit.show_none file output hrun hsuccess).symm

/-- **The staged scan sees every staged blob exactly if** they can all be read, and each one that
matches is no change of type and is not hidden by its name. -/
theorem scan_staged (hgit : repo.Answers project.git) {patterns : Scanner} {findings : List String}
    (hpatterns : project.scannerForMode .staged = .ok patterns)
    (hscan : project.scan .staged = .ok findings) :
    repo.Seen (project.isMatch patterns) findings ↔ repo.Readable (project.isMatch patterns) := by
  obtain ⟨files, patterns', hfiles, hpatterns', hread, hfound⟩ := SecretScan.scan_ok hscan
  have hsame : patterns' = patterns := Except.ok.inj (hpatterns'.symm.trans hpatterns)
  subst hsame
  have hlisted : files.map utf8 = repo.staged.listed acmr := by
    refine gitListing_printed (fun path hpath => ?_) hgit.diff hfiles
    exact repo.staged.named path (List.mem_of_mem_filter hpath)
  -- a path is found exactly if it is listed and what git shows for it matches
  have hpath : ∀ path, (∃ file ∈ findings, utf8 file = path) ↔
      path ∈ repo.staged.listed acmr ∧
        ∃ bytes, repo.shown path = some bytes ∧ project.isMatch patterns' bytes = true := by
    intro path
    rw [← hlisted]
    constructor
    · rintro ⟨file, hfile, rfl⟩
      obtain ⟨hin, bytes, hbytes, hmatch⟩ := (hfound file).1 hfile
      exact ⟨List.mem_map_of_mem hin, bytes, (fileBytes_staged hgit hbytes).symm, hmatch⟩
    · rintro ⟨hin, bytes, hshown, hmatch⟩
      obtain ⟨file, hfile, rfl⟩ := List.mem_map.1 hin
      obtain ⟨bytes', hbytes'⟩ := hread file hfile
      rw [fileBytes_staged hgit hbytes', hshown] at hbytes'
      exact ⟨file, (hfound file).2 ⟨hfile, bytes, hbytes', hmatch⟩, rfl⟩
  constructor
  · intro hseen path entry hstaged
    obtain ⟨bytes, hbytes, hin⟩ := hseen path entry hstaged
    refine ⟨bytes, hbytes, fun hmatch => ?_⟩
    obtain ⟨hlist, hshown⟩ := (hpath path).1 (hin hmatch)
    exact ⟨hstaged.listed_iff.1 hlist, hshown⟩
  · intro hreadable path entry hstaged
    obtain ⟨bytes, hbytes, hin⟩ := hreadable path entry hstaged
    refine ⟨bytes, hbytes, fun hmatch => ?_⟩
    obtain ⟨htype, hshown⟩ := hin hmatch
    exact (hpath path).2 ⟨hstaged.listed_iff.2 htype, hshown⟩

end Scan

/-! ## A sample repository

One change at a time: what is found, and what is passed over.
-/

theorem utf8_append (a b : String) : utf8 (a ++ b) = utf8 a ++ utf8 b := by
  unfold utf8
  rw [String.toByteArray_append]
  simp

/-- A repository that answers every command. -/
def Repo.answer (repo : Repo) : Git
  | ["show", name] =>
    match repo.shown (utf8 name).tail with
    | some bytes => .ok ⟨true, bytes⟩
    | none => .ok ⟨false, []⟩
  | _ => .ok ⟨true, printed (repo.staged.listed acmr)⟩

theorem Repo.answer_answers (repo : Repo) : repo.Answers repo.answer := by
  have hshow : ∀ file, repo.answer ["show", ":" ++ file] =
      match repo.shown (utf8 file) with
      | some bytes => .ok ⟨true, bytes⟩
      | none => .ok ⟨false, []⟩ := by
    intro file
    have hname : (utf8 (":" ++ file)).tail = utf8 file := by
      rw [utf8_append]
      rfl
    show (match repo.shown (utf8 (":" ++ file)).tail with
      | some bytes => _
      | none => _) = _
    rw [hname]
  refine ⟨?_, ?_, ?_⟩
  · intro output houtput _
    cases houtput
    rfl
  · intro file output houtput hsuccess
    rw [hshow] at houtput
    split at houtput
    · next bytes hbytes =>
      cases houtput
      exact hbytes
    · cases houtput
      cases hsuccess
  · intro file output houtput hsuccess
    rw [hshow] at houtput
    split at houtput
    · cases houtput
      cases hsuccess
    · next hnone =>
      cases houtput
      exact hnone

namespace Sample

/-- Objects: an empty configuration, a secret, and something harmless. -/
def objects : Nat → Option (List UInt8)
  | 1 => some []
  | 2 => some (utf8 "secret")
  | 3 => some (utf8 "target")
  | _ => none

def configRow : Row := ⟨"secrets.toml", entry .file 1, entry .file 1⟩

/-- The repository with one change. -/
def repo (row : Row) (h : ∀ path ∈ [configRow, row].map fun row => utf8 row.path,
    path ≠ [] ∧ 0 ∉ path) : Repo where
  staged := comparison [configRow, row] [] h fun _ hr => (nomatch hr)
  stages _ _ := none
  objects := objects
  stage b := if 48 ≤ b ∧ b ≤ 51 then some (b.toNat - 48) else none
  stage_digit b hb := by
    split at hb
    · next h => exact ⟨h.1, Nat.le_trans h.2 (by decide)⟩
    · exact absurd rfl hb

def project (repo : Repo) : SecretScan Unit where
  git := repo.answer
  readFile _ := .error .notFound
  writeReport _ _ := .ok ()
  secretsConfig := .relative "secrets.toml"
  load := .ok ()
  fromSource _ := .ok ()
  isMatch _ bytes := bytes == utf8 "secret"

def isSecret (bytes : List UInt8) : Bool := bytes == utf8 "secret"

/-- A new file. -/
def added : Repo := repo ⟨"notes", none, entry .file 2⟩ (by decide +kernel)

/-- A symbolic link that becomes a file. -/
def retyped : Repo := repo ⟨"notes", entry .symlink 3, entry .file 2⟩ (by decide +kernel)

/-- A new file whose name begins like a stage number. -/
def stageNamed : Repo := repo ⟨"1:notes", none, entry .file 2⟩ (by decide +kernel)

/-- A new file whose blob cannot be read. -/
def unreadable : Repo := repo ⟨"notes", none, entry .file 4⟩ (by decide +kernel)

/-- The one staged blob is that of the change. -/
theorem staged_repo {row : Row} {h : ∀ path ∈ [configRow, row].map fun row => utf8 row.path,
    path ≠ [] ∧ 0 ∉ path} {path : Path} {e : Entry} (hstaged : (repo row h).Staged path e) :
    path = utf8 row.path ∧ row.new = some e := by
  obtain ⟨hnew, -, hold⟩ := hstaged
  by_cases hconfig : path = utf8 configRow.path
  · -- the configuration is as in `HEAD`
    have hfind : ([configRow, row].find? fun row => utf8 row.path == path) = some configRow :=
      List.find?_cons_of_pos (by simp [hconfig])
    have hsame : (repo row h).staged.old path = (repo row h).staged.new path := by
      show tree [configRow, row] Row.old path = tree [configRow, row] Row.new path
      unfold tree
      rw [hfind]
      rfl
    exact absurd (hsame.trans hnew) hold
  · have hnot : ¬(utf8 configRow.path == path) = true := fun hbeq => hconfig (eq_of_beq hbeq).symm
    have hnew' : tree [configRow, row] Row.new path = some e := hnew
    unfold tree at hnew'
    have hfind : ([configRow, row].find? fun row => utf8 row.path == path) =
        [row].find? fun row => utf8 row.path == path := List.find?_cons_of_neg hnot
    rw [hfind] at hnew'
    by_cases hpath : utf8 row.path = path
    · have hrow : ([row].find? fun row => utf8 row.path == path) = some row :=
        List.find?_cons_of_pos (by simp [hpath])
      rw [hrow] at hnew'
      exact ⟨hpath.symm, hnew'⟩
    · have hrow : ([row].find? fun row => utf8 row.path == path) = none :=
        List.find?_cons_of_neg (by simpa using hpath)
      rw [hrow] at hnew'
      cases hnew'

end Sample

/-- A new file with a secret is found. -/
theorem scan_staged_added : Sample.added.Seen Sample.isSecret ["notes"] := by
  have hscan : (Sample.project Sample.added).scan .staged = .ok ["notes"] := by decide +kernel
  have hpatterns : (Sample.project Sample.added).scannerForMode .staged = .ok () := by
    decide +kernel
  refine (scan_staged (Repo.answer_answers Sample.added) hpatterns hscan).2 ?_
  intro path entry hstaged
  obtain ⟨rfl, hentry⟩ := Sample.staged_repo hstaged
  have hsame : entry = ⟨.file, false, 2⟩ := (Option.some.inj hentry).symm
  subst hsame
  refine ⟨utf8 "secret", rfl, fun _ => ⟨?_, utf8 "secret", ?_, ?_⟩⟩
  · show ¬status _ _ = _
    decide +kernel
  · decide +kernel
  · decide +kernel

/-- **The scan ends without findings and without an error** where a link became a file with a
secret, where the name of such a file begins with a stage number, and where its blob cannot be
read. -/
theorem scan_passesOver :
    ((Sample.project Sample.retyped).scan .staged = .ok [] ∧
        ¬Sample.retyped.Seen Sample.isSecret []) ∧
      ((Sample.project Sample.stageNamed).scan .staged = .ok [] ∧
        ¬Sample.stageNamed.Seen Sample.isSecret []) ∧
      (Sample.project Sample.unreadable).scan .staged = .ok [] ∧
        ¬Sample.unreadable.Seen Sample.isSecret [] := by
  have hmissed : ∀ (repo : Repo) path, repo.Staged path ⟨.file, false, 2⟩ →
      repo.objects 2 = some (utf8 "secret") → ¬repo.Seen Sample.isSecret [] := by
    intro repo path hstaged hobject hseen
    obtain ⟨bytes, hbytes, hin⟩ := hseen path _ hstaged
    have hsecret : bytes = utf8 "secret" := Option.some.inj (hbytes.symm.trans hobject)
    subst hsecret
    obtain ⟨file, hfile, -⟩ := hin (by decide +kernel)
    cases hfile
  refine ⟨⟨by decide +kernel, ?_⟩, ⟨by decide +kernel, ?_⟩, by decide +kernel, ?_⟩
  · exact hmissed _ (utf8 "notes") ⟨by decide +kernel, by decide, by decide +kernel⟩ rfl
  · exact hmissed _ (utf8 "1:notes") ⟨by decide +kernel, by decide, by decide +kernel⟩ rfl
  · intro hseen
    have hstaged : Sample.unreadable.Staged (utf8 "notes") ⟨.file, false, 4⟩ :=
      ⟨by decide +kernel, by decide, by decide +kernel⟩
    obtain ⟨bytes, hbytes, -⟩ := hseen _ _ hstaged
    cases hbytes

end Flow

end ArcAdmin

import ArcAdmin.Flow.Config

/-!
# What git tells of two trees

`git diff` compares two trees path by path; a path that was deleted and whose content was found again
at a new path is a rename, of which `--name-only` prints the destination. Listings are separated by
NUL, which no path contains.

* **`gitListing_printed`** — the program gets the listed paths, if all of them are UTF-8.
-/

namespace ArcAdmin

namespace Flow

/-! ## Trees

Two trees and the renames that git has found between them. How it finds them is left open; what a
rename does to a listing is not.
-/

/-- The bytes of a path. -/
abbrev Path := List UInt8

inductive EntryKind where
  | file
  | symlink
  | gitlink
deriving DecidableEq

/-- A mode and an object. -/
structure Entry where
  kind : EntryKind
  executable : Bool
  oid : Nat
deriving DecidableEq

abbrev Tree := Path → Option Entry

inductive Status where
  | added
  | deleted
  | modified
  | typeChanged
deriving DecidableEq

/-- The status of a path with these two entries. -/
def status : Option Entry → Option Entry → Option Status
  | none, none => none
  | none, some _ => some .added
  | some _, none => some .deleted
  | some old, some new =>
    if old = new then none
    else if old.kind = new.kind then some .modified
    else some .typeChanged

/-- Two trees that git compares, and the renames that it finds between them. -/
structure Comparison where
  old : Tree
  new : Tree
  paths : List Path
  renames : List (Path × Path)
  mem_paths : ∀ path, old path ≠ none ∨ new path ≠ none → path ∈ paths
  named : ∀ path ∈ paths, path ≠ [] ∧ 0 ∉ path
  renamed : ∀ r ∈ renames, new r.1 = none ∧ old r.2 = none

namespace Comparison

/-- The trees differ at the path. -/
def Differs (c : Comparison) (path : Path) : Prop := c.old path ≠ c.new path

/-- The path is the source of a rename. -/
def renamedAway (c : Comparison) (path : Path) : Bool := c.renames.any fun r => r.1 == path

/-- `--name-only`, of the statuses that the filter selects. A destination counts as added here. -/
def listed (c : Comparison) (filter : Status → Bool) : List Path :=
  c.paths.filter fun path => (status (c.old path) (c.new path)).any filter && !c.renamedAway path

theorem mem_paths_of_status {c : Comparison} {path : Path} {s : Status}
    (h : status (c.old path) (c.new path) = some s) : path ∈ c.paths := by
  refine c.mem_paths path ?_
  by_contra hnone
  push Not at hnone
  rw [hnone.1, hnone.2] at h
  cases h

theorem mem_listed {c : Comparison} {filter : Status → Bool} {path : Path} :
    path ∈ c.listed filter ↔
      (∃ s, status (c.old path) (c.new path) = some s ∧ filter s = true) ∧
        c.renamedAway path = false := by
  unfold listed
  rw [List.mem_filter, Bool.and_eq_true, Option.any_eq_true, Bool.not_eq_true']
  constructor
  · rintro ⟨-, hs, hrenamed⟩
    exact ⟨hs, hrenamed⟩
  · rintro ⟨⟨s, hs, hfilter⟩, hrenamed⟩
    exact ⟨mem_paths_of_status hs, ⟨s, hs, hfilter⟩, hrenamed⟩

theorem status_eq_none {old new : Option Entry} : status old new = none ↔ old = new := by
  unfold status
  grind

/-- A path that is still there was not renamed away. -/
theorem renamedAway_eq_false {c : Comparison} {path : Path} (h : c.new path ≠ none) :
    c.renamedAway path = false := by
  unfold renamedAway
  rw [List.any_eq_false]
  intro r hr hsame
  have hgone := (c.renamed r hr).1
  rw [eq_of_beq hsame] at hgone
  exact h hgone

end Comparison

/-! ## Commands

What the program asks of git, and how it takes the output apart.
-/

structure CapturedOutput where
  success : Bool
  stdout : List UInt8
deriving DecidableEq

/-- `process::capture` of `git` with these arguments. -/
abbrev Git := List String → Except Error CapturedOutput

/-- The bytes of a text. -/
def utf8 (text : String) : List UInt8 := text.toByteArray.data.toList

/-- `String::from_utf8`. -/
def fromUtf8 (bytes : List UInt8) : Option String := String.fromUTF8? ⟨bytes.toArray⟩

/-- `stdout.split(0)` without empty entries. -/
def entries (stdout : List UInt8) : List (List UInt8) :=
  (stdout.splitOn 0).filter fun entry => !entry.isEmpty

def okOr {α : Type} (value : Option α) (message : Error) : Except Error α :=
  match value with
  | some value => .ok value
  | none => .error message

def spaced (args : List String) : String := " ".intercalate args

/-- The paths that a git command lists. -/
def gitListing (git : Git) (nonUtf8 : Error) (args : List String) : Except Error (List String) := do
  let output ← context s!"run git {spaced args}" (git args)
  FlowConfig.bailIf (!output.success) s!"git {spaced args} failed"
  (entries output.stdout).mapM fun entry => okOr (fromUtf8 entry) nonUtf8

/-- `git_files` of `secrets.rs`. -/
def gitFiles (git : Git) (args : List String) : Except Error (List String) :=
  gitListing git "non-UTF-8 Git path" args

/-- `git_paths` of `scope.rs`. -/
def gitPaths (git : Git) (args : List String) : Except Error (List String) :=
  gitListing git "Git returned a non-UTF-8 file path" args

/-! ## Listings

Paths contain no NUL, so the output is taken apart as it was put together. Paths that are not
UTF-8 are an error.
-/

/-- What git prints with `-z`. -/
def printed (paths : List Path) : List UInt8 := paths.flatMap fun path => path ++ [0]

theorem utf8_of_fromUtf8 {bytes : List UInt8} {text : String} (h : fromUtf8 bytes = some text) :
    utf8 text = bytes := by
  unfold fromUtf8 String.fromUTF8? at h
  split at h
  · cases h
    rfl
  · cases h

theorem utf8_injective : Function.Injective utf8 := by
  intro a b h
  unfold utf8 at h
  refine String.toByteArray_inj.1 ?_
  exact ByteArray.ext (Array.toList_inj.1 h)

theorem entries_printed {paths : List Path} (h : ∀ path ∈ paths, path ≠ [] ∧ 0 ∉ path) :
    entries (printed paths) = paths := by
  induction paths with
  | nil => rfl
  | cons path paths ih =>
    obtain ⟨hne, hzero⟩ := h path List.mem_cons_self
    have htext : printed (path :: paths) = path ++ 0 :: printed paths := by
      simp [printed]
    have hrest := ih fun path' hin => h path' (List.mem_cons_of_mem _ hin)
    unfold entries at hrest ⊢
    rw [htext, List.splitOn_append_cons_self, List.splitOn_eq_singleton hzero, List.singleton_append,
      List.filter_cons_of_pos (by simpa using hne), hrest]

theorem okOr_ok {α : Type} {value : Option α} {message : Error} {a : α} :
    okOr value message = .ok a ↔ value = some a := by
  cases value with
  | none => exact ⟨fun h => (nomatch h), fun h => (nomatch h)⟩
  | some b =>
    show Except.ok b = _ ↔ _
    simp

theorem map_of_mapM {α β ε : Type} {f : α → Except ε β} {g : β → α}
    (hinv : ∀ a b, f a = .ok b → g b = a) {as : List α} {bs : List β}
    (h : as.mapM f = .ok bs) : bs.map g = as := by
  induction as generalizing bs with
  | nil =>
    cases h
    rfl
  | cons a as ih =>
    rw [List.mapM_cons] at h
    obtain ⟨b, hb, hrest⟩ := bind_ok.1 h
    obtain ⟨bs', hbs, hpure⟩ := bind_ok.1 hrest
    cases hpure
    rw [List.map_cons, hinv a b hb, ih hbs]

/-- **The program gets the paths that git lists.** -/
theorem gitListing_printed {git : Git} {nonUtf8 : Error} {args : List String} {files : List String}
    {paths : List Path} (hpaths : ∀ path ∈ paths, path ≠ [] ∧ 0 ∉ path)
    (hgit : ∀ output, git args = .ok output → output.success = true →
      output.stdout = printed paths)
    (h : gitListing git nonUtf8 args = .ok files) : files.map utf8 = paths := by
  obtain ⟨output, houtput, hrest⟩ := bind_ok.1 h
  obtain ⟨_, hsuccess, hfiles⟩ := bind_ok.1 hrest
  rw [FlowConfig.bailIf_ok, Bool.not_eq_false'] at hsuccess
  rw [hgit output (context_ok.1 houtput) hsuccess, entries_printed hpaths] at hfiles
  exact map_of_mapM (fun entry file hfile => utf8_of_fromUtf8 (okOr_ok.1 hfile)) hfiles

end Flow

end ArcAdmin

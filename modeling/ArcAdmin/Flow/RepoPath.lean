import ArcAdmin.FileTree.Walk
import ArcAdmin.Flow.Project
import ArcAdmin.StdPath

/-!
# Repository paths

`resolve_repo_path` of `project.rs`, on a tree of files with symbolic links. An absolute path is the
list of what stands between its slashes.
-/

namespace ArcAdmin

namespace Flow

open FileTree StdPath

abbrev Segments := List Name

def parentName : Name := ['.', '.']

structure FileSystem (C : Type) where
  tree : FileTree.Tree Name C (FileTree.Target Name)
  /-- how many links the resolution of a path may follow -/
  limit : Nat
  named : ∀ path, tree.node path ≠ none →
    ∀ name ∈ path, isVoid name = false ∧ name ≠ parentName ∧ '/' ∉ name

/-- The text as it is printed. -/
def display (path : Segments) : String := String.ofList ('/' :: ['/'].intercalate path)

/-- What the kernel makes of a segment. -/
def step (segment : Name) : Step Name :=
  if isVoid segment then .here else if segment = parentName then .up else .down segment

namespace FileSystem

variable {C : Type} (fs : FileSystem C)

/-- `fs::symlink_metadata`; the place of what it describes. -/
def symlinkMetadata (path : Segments) : Option (List Name) :=
  locate fs.tree .entry fs.limit (path.map step)

/-- `Path::canonicalize`. -/
def canonicalize (path : Segments) : Option (List Name) :=
  locate fs.tree .target fs.limit (path.map step)

/-- `Path::parent`: the last component is taken off, and what is void at the end. -/
def parent (path : Segments) : Option Segments :=
  match path.reverse.dropWhile isVoid with
  | [] => none
  | _ :: rest => some (rest.dropWhile isVoid).reverse

/-- The loop over the ancestors of a path. -/
def existingAncestor : Nat → Segments → Option Segments
  | 0, _ => none
  | fuel + 1, ancestor =>
    if (fs.symlinkMetadata ancestor).isSome then some ancestor
    else
      match parent ancestor with
      | none => none
      | some ancestor => existingAncestor fuel ancestor

def resolveRepoPath (root : Segments) (path : Text) (label : String) (mustExist : Bool) :
    Except String Segments :=
  if path = [] ∨ isAbsolute path = true then
    .error s!"{label} must be a non-empty repository-relative path"
  else if .parentDir ∈ components path ∨ .rootDir ∈ components path then
    .error s!"{label} may not escape the repository: {String.ofList path}"
  else
    let candidate := root ++ segments path
    if (fs.symlinkMetadata candidate).isSome then
      match fs.canonicalize candidate with
      | none => .error s!"resolve {label} {display candidate}"
      | some resolved =>
        if root <+: resolved then .ok resolved
        else .error s!"{label} escapes the repository: {display candidate}"
    else if mustExist then .error s!"{label} is missing: {display candidate}"
    else
      match fs.existingAncestor (candidate.length + 1) candidate with
      | none => .error s!"cannot resolve {label}: {display candidate}"
      | some ancestor =>
        match fs.canonicalize ancestor with
        | none => .error s!"resolve {label} parent {display ancestor}"
        | some resolvedAncestor =>
          if root <+: resolvedAncestor then .ok candidate
          else .error s!"{label} escapes the repository: {display candidate}"

end FileSystem

end Flow

end ArcAdmin

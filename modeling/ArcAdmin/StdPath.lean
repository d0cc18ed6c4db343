import Mathlib.Data.List.Basic

/-!
# Paths as texts

`std::path` on Unix: a path is a text, and its components are what stands between the slashes.
-/

namespace StdPath

abbrev Name := List Char

inductive Component where
  | rootDir
  | curDir
  | parentDir
  | normal (name : Name)
  deriving DecidableEq

/-- What stands between the slashes. -/
def segments (path : List Char) : List Name := path.splitOn '/'

/-- `Path::is_absolute`. -/
def isAbsolute (path : List Char) : Bool := path.head? == some '/'

def component (segment : Name) : Component :=
  if segment = ['.', '.'] then .parentDir else .normal segment

/-- The segments that `Path::components` passes over, unless the path begins with one. -/
def isVoid (segment : Name) : Bool := segment == [] || segment == ['.']

/-- `Path::components`. -/
def components (path : List Char) : List Component :=
  (if isAbsolute path then [.rootDir]
    else if (segments path).head? = some ['.'] then [.curDir] else []) ++
    ((segments path).filter (!isVoid ·)).map component

/-- `Path::file_name`. -/
def fileName (path : List Char) : Option Name :=
  match (components path).getLast? with
  | some (.normal name) => some name
  | _ => none

/-- `Path::extension` of a file name. -/
def extension (name : Name) : Option Name :=
  match (name.splitOn '.').getLast?, (name.splitOn '.').dropLast with
  | some after, before :: more => if before = [] ∧ more = [] then none else some after
  | _, _ => none

end StdPath

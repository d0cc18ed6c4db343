import ArcAdmin.Upgrade.Rules

/-!
# A small framework

Releases with three files or a few more, a project that was made from one of them, and programs that
read the texts in them.
-/

namespace ArcAdmin

namespace Upgrade

namespace Sample

open FileTree (File Tree)

/-- The bytes of a text. -/
def ascii (text : String) : Bytes := text.toByteArray.data.toList

def manifestText (root : String) : String :=
  "\x7b\"schemaVersion\":1,\"framework\":\"arc-admin\",\"managedRoots\":[\"" ++ root ++
    "\"],\"managedFiles\":[\"FRAMEWORK_VERSION\"]\x7d\n"

def manifestOf (root : String) : Manifest := ⟨[root], ["FRAMEWORK_VERSION"]⟩

def manifest : Manifest := manifestOf "framework"

def member (key value : String) : String := ",\"" ++ key ++ "\":\"" ++ value ++ "\""

/-- The file with the metadata of a project. -/
def projectText (data : Metadata) : String :=
  "\x7b\"schemaVersion\":" ++ toString data.schemaVersion ++ ",\"framework\":\x7b\"name\":\"" ++
    data.name ++ "\"" ++ member "version" data.version ++
    (data.initializedVersion.elim "" (member "initializedVersion")) ++
    (data.upgradedAt.elim "" (member "upgradedAt")) ++ "\x7d\x7d\n"

def today : String := "2026-08-08T08:00:00.000Z"

def metadata (version : String) : Metadata := ⟨1, "arc-admin", version, none, none, ""⟩

/-- The metadata of a project that was upgraded from the first release. -/
def upgradedTo (version : String) : Metadata :=
  ⟨2, "arc-admin", version, some "v1.0.0", some today, ""⟩

/-- The metadata that occur. -/
def known : List Metadata := [metadata "v1.0.0", upgradedTo "v1.1.0", upgradedTo "v1.2.0"]

def host : Host where
  freshMode := 0o644
  seen _ _ := .absent
  regular _ _ := false
  act _ _ := none

/-- The content of a file both sides of which are the same, and no other merge. -/
def mergeFile (content base incoming : Bytes) : Except String (Option Bytes) :=
  if content = base then .ok (some incoming)
  else if base = incoming ∨ content = incoming then .ok (some content)
  else .ok none

def env : Env where
  host := host
  decode bytes := String.ofList (bytes.map fun byte => Char.ofNat byte.toNat)
  parseManifest bytes :=
    (["framework", "docs"].find? fun root => bytes == ascii (manifestText root)).map fun root =>
      ⟨1, "arc-admin", [root], ["FRAMEWORK_VERSION"]⟩
  parseProject bytes := known.find? fun data => bytes == ascii (projectText data)
  stringify data := ascii (projectText data)
  mergeFile _ := mergeFile
  status _ := ""
  now := today
  verification _ := none

def plain (text : String) : Entry := ⟨true, "100644", ascii text⟩

/-- The records of a release: its version, its manifest and these files. -/
def recordsOf (root version : String) (files : List (Path × Entry)) : List (Path × Entry) :=
  (frameworkVersionFile, plain (version ++ "\n")) :: (manifestFile, plain (manifestText root)) ::
    files

def records (version : String) (files : List (Path × Entry)) : List (Path × Entry) :=
  recordsOf "framework" version files

/-- Whether these are the records of a tree. -/
def isTree (records : List (Path × Entry)) : Bool :=
  decide (records.map Prod.fst).Nodup &&
    records.all fun a => !a.1.isEmpty &&
      (a.1.all fun name => decide (name ∉ ["", ".", "..", ".git"] ∧ '/' ∉ name.toList)) &&
      records.all fun b => !decide (FileTree.Above a.1 b.1)

theorem isTree_iff {records : List (Path × Entry)} (h : isTree records = true) :
    (records.map Prod.fst).Nodup ∧
      (∀ path ∈ records.map Prod.fst, path ≠ [] ∧
        ∀ name ∈ path, name ∉ ["", ".", "..", ".git"] ∧ '/' ∉ name.toList) ∧
      ∀ a ∈ records.map Prod.fst, ∀ b ∈ records.map Prod.fst, ¬ FileTree.Above a b := by
  unfold isTree at h
  rw [Bool.and_eq_true, decide_eq_true_eq, List.all_eq_true] at h
  obtain ⟨hnodup, hall⟩ := h
  refine ⟨hnodup, ?_, ?_⟩
  · intro path hpath
    obtain ⟨a, ha, rfl⟩ := List.mem_map.1 hpath
    have hone := hall a ha
    rw [Bool.and_eq_true, Bool.and_eq_true, Bool.not_eq_true', List.isEmpty_eq_false_iff,
      List.all_eq_true] at hone
    exact ⟨hone.1.1, fun name hname => of_decide_eq_true (hone.1.2 name hname)⟩
  · intro path hpath path' hpath'
    obtain ⟨a, ha, rfl⟩ := List.mem_map.1 hpath
    obtain ⟨b, hb, rfl⟩ := List.mem_map.1 hpath'
    have hone := hall a ha
    rw [Bool.and_eq_true, List.all_eq_true] at hone
    have hnot := hone.2 b hb
    rw [Bool.not_eq_true', decide_eq_false_iff_not] at hnot
    exact hnot

def release (records : List (Path × Entry)) (h : isTree records = true) : Release where
  records := records
  nodup := (isTree_iff h).1
  named := (isTree_iff h).2.1
  prefixFree := (isTree_iff h).2.2

theorem eq_ok {α : Type} {x : Except String α} {a : α} (h : x.toOption = some a) : x = .ok a := by
  cases x with
  | error message => cases h
  | ok b =>
    cases h
    rfl

/-- The files of a project at this version, with others. -/
def projectFiles (version : String) (files : List (Path × String)) :
    List (Path × File Bytes) :=
  (([".git", "HEAD"], "ref: refs/heads/main\n") :: (projectFile, projectText (metadata version)) ::
    (frameworkVersionFile, version ++ "\n") :: (manifestFile, manifestText "framework") :: files).map
      fun (path, text) => (path, ⟨0o644, ascii text⟩)

def upgradeOptions : Options := ⟨false, true, [], true⟩

end Sample

end Upgrade

end ArcAdmin

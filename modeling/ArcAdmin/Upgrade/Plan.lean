import ArcAdmin.FileTree.Run
import Mathlib.Data.List.Sort

/-!
# The framework upgrade

`scripts/upgrade-framework.mjs` merges a release of the framework into a project. It plans first, from
the tree of the release that the project has, the tree of the new release and the files of the
project, and then deletes and writes files one by one.
-/

namespace ArcAdmin

namespace Upgrade

abbrev Bytes := List UInt8

/-- The names on a path. -/
abbrev Path := List String

/-- The files of a project. A link has the text it points to. -/
abbrev Project := FileTree.Tree String Bytes String

abbrev Host := FileTree.Host String Bytes String

/-- The path as git prints it. -/
def pathText (path : Path) : String := "/".intercalate path

def fail {α : Type} (message : String) : Except String α := .error message

def failIf (condition : Bool) (message : String) : Except String Unit :=
  if condition then fail message else .ok ()

def projectFile : Path := [".arc-project.json"]

def manifestFile : Path := [".arc-framework", "manifest.json"]

def frameworkVersionFile : Path := ["FRAMEWORK_VERSION"]

def requiredUpdatePaths : List Path := [frameworkVersionFile, manifestFile]

/-! ## Releases

What the script reads of the two releases and of the project, once git has been asked and the
texts have been parsed.
-/

/-- A record of `git ls-tree -r`. An object is known by its content. -/
structure Entry where
  /-- `blob`, and not the commit of a submodule -/
  blob : Bool
  mode : String
  content : Bytes
deriving DecidableEq

/-- The tree that a tag names. -/
structure Release where
  records : List (Path × Entry)
  nodup : (records.map Prod.fst).Nodup
  /-- names as git admits them -/
  named : ∀ path ∈ records.map Prod.fst, path ≠ [] ∧
    ∀ name ∈ path, name ∉ ["", ".", "..", ".git"] ∧ '/' ∉ name.toList
  /-- a name is a file or a directory -/
  prefixFree : ∀ a ∈ records.map Prod.fst, ∀ b ∈ records.map Prod.fst, ¬ FileTree.Above a b

/-- What `JSON.parse` gives of the manifest. -/
structure RawManifest where
  schemaVersion : Nat
  framework : String
  managedRoots : List String
  managedFiles : List String
deriving DecidableEq

structure Manifest where
  roots : List String
  files : List String
deriving DecidableEq

/-- What `JSON.parse` gives of `.arc-project.json`. -/
structure Metadata where
  /-- `Number(metadata.schemaVersion) || 1` -/
  schemaVersion : Nat
  name : String
  /-- empty where it is missing -/
  version : String
  initializedVersion : Option String
  upgradedAt : Option String
  /-- the other keys -/
  rest : String
deriving DecidableEq

/-- What the script gets from its surroundings. -/
structure Env where
  host : Host
  /-- `toString("utf8")` -/
  decode : Bytes → String
  parseManifest : Bytes → Option RawManifest
  parseProject : Bytes → Option Metadata
  /-- `JSON.stringify` and a newline -/
  stringify : Metadata → Bytes
  /-- `git merge-file` of a path: the local, the base and the incoming content -/
  mergeFile : String → Bytes → Bytes → Bytes → Except String (Option Bytes)
  /-- `git status --porcelain --untracked-files=all` -/
  status : Project → String
  /-- `now().toISOString()` -/
  now : String
  /-- the message of the verification that failed -/
  verification : Project → Option String

/-- The repository of the framework. -/
structure Template where
  /-- `FRAMEWORK_VERSION` of the working tree -/
  version : Bytes
  head : String
  /-- the commit and the tree of the tag of a version -/
  tag : String → Option (String × Release)

/-! ## Text

The string functions of JavaScript that decide about paths and versions. Sorting compares code
units.
-/

/-- What `trim()` strips. -/
def isSpace (c : Char) : Bool :=
  let n := c.toNat
  (9 ≤ n && n ≤ 13) || n == 0x20 || n == 0xA0 || n == 0x1680 || (0x2000 ≤ n && n ≤ 0x200A) ||
    n == 0x2028 || n == 0x2029 || n == 0x202F || n == 0x205F || n == 0x3000 || n == 0xFEFF

/-- `trim()`. -/
def trim (text : String) : String :=
  String.ofList ((text.toList.dropWhile isSpace).reverse.dropWhile isSpace).reverse

/-- What `.` of a regular expression does not match. -/
def isLineTerminator (c : Char) : Bool :=
  c.toNat == 0x0A || c.toNat == 0x0D || c.toNat == 0x2028 || c.toNat == 0x2029

/-- The code units that `sort()` compares. -/
def codeUnits (text : String) : List Nat :=
  text.toList.flatMap fun c =>
    if c.toNat < 0x10000 then [c.toNat]
    else [0xD800 + (c.toNat - 0x10000) / 0x400, 0xDC00 + (c.toNat - 0x10000) % 0x400]

def sortsBefore (a b : Path) : Bool := !decide (codeUnits (pathText b) < codeUnits (pathText a))

/-- One part of a path on top of those that `posix.normalize` keeps; the last part comes first. -/
def normalizeStep (absolute : Bool) (kept : List String) (part : String) : List String :=
  if part = "" ∨ part = "." then kept
  else if part = ".." then
    match kept with
    | [] => if absolute then [] else [".."]
    | last :: rest => if last = ".." then ".." :: kept else rest
  else part :: kept

/-- `posix.normalize`. -/
def posixNormalize (value : String) : String :=
  let chars := value.toList
  let absolute := chars.head? == some '/'
  let trailing := chars.getLast? == some '/'
  let parts := (chars.splitOn '/').map String.ofList
  let body := "/".intercalate (parts.foldl (normalizeStep absolute) []).reverse
  if value = "" then "."
  else if body = "" then
    if absolute then "/" else if trailing then "./" else "."
  else (if absolute then "/" else "") ++ body ++ (if trailing then "/" else "")

def normalizeRelativePath (value label : String) : Except String String := do
  failIf (trim value == "") s!"{label}不能为空"
  let normalized := posixNormalize value
  failIf (normalized != value || normalized.toList.head? == some '/' || normalized == ".." ||
      "../".toList.isPrefixOf normalized.toList || normalized.toList.contains '\\')
    s!"{label}必须是安全的仓库相对路径: {value}"
  return normalized

/-- The value of decimal digits, of which there is at least one. -/
def number (digits : List Char) : Option Nat :=
  if !digits.isEmpty && digits.all Char.isDigit then some (Nat.ofDigitChars 10 digits 0) else none

/-- `/^v(\d+)\.(\d+)\.(\d+)$/`. -/
def releaseVersion (value : String) : Option (Nat × Nat × Nat) :=
  match value.toList with
  | 'v' :: rest =>
    match rest.splitOn '.' with
    | [major, minor, patch] =>
      match number major, number minor, number patch with
      | some x, some y, some z => some (x, y, z)
      | _, _, _ => none
    | _ => none
  | _ => none

def parseVersion (value label : String) : Except String (Nat × Nat × Nat) :=
  match releaseVersion value with
  | some version => .ok version
  | none =>
    let actual := if value = "" then "(空)" else value
    fail s!"{label}必须是正式版本 vX.Y.Z，实际为 {actual}"

def compareVersions (left right : Nat × Nat × Nat) : Int :=
  if left.1 ≠ right.1 then (left.1 : Int) - right.1
  else if left.2.1 ≠ right.2.1 then (left.2.1 : Int) - right.2.1
  else (left.2.2 : Int) - right.2.2

/-! ## The two trees

A framework tree is the part of a release that its manifest covers. A record that the regular
expression does not match is dropped without a word.
-/

/-- The content of a path in a release. -/
def showFile (release : Release) (path : Path) : Except String Bytes :=
  match release.records.lookup path with
  | some entry => .ok entry.content
  | none => fail s!"git show {pathText path} 执行失败"

def readManifestAt (env : Env) (release : Release) (ref : String) : Except String Manifest := do
  match (showFile release manifestFile).toOption.bind env.parseManifest with
  | none =>
    fail s!"{ref} 缺少有效的 {pathText manifestFile}；v1.1.0 是首个可自动升级基线"
  | some manifest =>
    failIf (manifest.schemaVersion != 1 || manifest.framework != "arc-admin") s!"{ref} 的框架升级清单无效"
    let roots ← manifest.managedRoots.mapM fun path => normalizeRelativePath path "路径"
    let files ← manifest.managedFiles.mapM fun path => normalizeRelativePath path "路径"
    return ⟨roots, files⟩

/-- The record matches `/^(\d+)\s+(\w+)\s+([0-9a-f]+)\t(.+)$/`. -/
def matchesRecord (path : Path) : Bool := (pathText path).toList.all fun c => !isLineTerminator c

def readTree (release : Release) : List (Path × Entry) :=
  release.records.filter fun record => matchesRecord record.1 && record.2.blob

structure FrameworkTree where
  entries : List (Path × Entry)
  managedPaths : List Path
deriving DecidableEq

/-- `entries.get(path)`. -/
def FrameworkTree.entry (tree : FrameworkTree) (path : Path) : Option Entry := tree.entries.lookup path

/-- The path is one of the files of the manifest or lies under one of its roots. -/
def Manifest.covers (manifest : Manifest) (path : Path) : Bool :=
  manifest.files.contains (pathText path) ||
    manifest.roots.any fun root =>
      pathText path == root || (root ++ "/").toList.isPrefixOf (pathText path).toList

def frameworkTree (env : Env) (release : Release) (ref : String) : Except String FrameworkTree := do
  let manifest ← readManifestAt env release ref
  let entries := readTree release
  return ⟨entries, (entries.map Prod.fst).filter manifest.covers⟩

/-! ## The plan

A path is looked at once, with the entries of both releases and the file of the project. The loop
collects writes, deletions and conflicts.
-/

def isText (buffer : Bytes) : Bool :=
  !buffer.contains 0 && (ByteArray.mk buffer.toArray).validateUTF8

def fileMode (entry : Entry) : Except String Nat :=
  if entry.mode = "100755" then .ok 0o755
  else if entry.mode ≠ "100644" then fail s!"不支持的 Git 文件模式 {entry.mode}"
  else .ok 0o644

/-- `existsSync`. -/
def existsSync (env : Env) (project : Project) (path : Path) : Bool :=
  match env.host.look project path with
  | .absent => false
  | _ => true

/-- `readFileSync`; `none` when it fails. -/
def readFileSync (env : Env) (project : Project) (path : Path) : Option Bytes :=
  match env.host.look project path with
  | .file content => some content
  | _ => none

inductive LocalFile where
  | null
  | unsupported
  | content (content : Bytes)
deriving DecidableEq

def localFile (env : Env) (project : Project) (path : Path) : Except String LocalFile :=
  if !existsSync env project path then .ok .null
  else if !env.host.isRegular project path then .ok .unsupported
  else
    match readFileSync env project path with
    | some content => .ok (.content content)
    | none => fail s!"EISDIR: {pathText path}"

structure Plan where
  writes : List (FileTree.Store String Bytes)
  deletes : List Path
  conflicts : List String
  accepted : List String
  merged : Nat
deriving DecidableEq

/-- What the loop of `planUpgrade` does at a path. -/
inductive Decision where
  | skip
  | write (content : Bytes) (mode : Nat)
  | merge (content : Bytes) (mode : Nat)
  | delete
  | conflict (reason : String)
deriving DecidableEq

def Plan.add (plan : Plan) (path : Path) : Decision → Plan
  | .skip => plan
  | .write content mode => { plan with writes := ⟨path, content, mode⟩ :: plan.writes }
  | .merge content mode =>
    { plan with writes := ⟨path, content, mode⟩ :: plan.writes, merged := plan.merged + 1 }
  | .delete => { plan with deletes := path :: plan.deletes }
  | .conflict reason =>
    { plan with conflicts := s!"{pathText path}（{reason}）" :: plan.conflicts }

def isChanged (old new : FrameworkTree) (path : Path) : Bool :=
  if old.managedPaths.contains path && !new.managedPaths.contains path && (new.entry path).isSome then
    false
  else
    match old.entry path, new.entry path with
    | some oldEntry, some newEntry =>
      oldEntry.content != newEntry.content || oldEntry.mode != newEntry.mode
    | _, _ => true

/-- A path that both trees have. -/
def decideBoth (env : Env) (path : Path) (file : Option Bytes) (base : Bytes) (newEntry : Entry) :
    Except String Decision :=
  let incoming := newEntry.content
  match file with
  | none => .ok (.conflict "框架已更新，但业务仓库删除了该文件")
  | some content =>
    if content = incoming then return .write content (← fileMode newEntry)
    else if content = base then return .write incoming (← fileMode newEntry)
    else if base = incoming then return .write content (← fileMode newEntry)
    else if isText content && isText base && isText incoming then do
      match ← env.mergeFile (pathText path) content base incoming with
      | some merged => return .merge merged (← fileMode newEntry)
      | none => return .conflict "框架与业务修改冲突"
    else .ok (.conflict "框架与业务修改冲突")

/-- A path with the content of the regular file that the project has there, if it has one. -/
def decideFile (env : Env) (path : Path) (file : Option Bytes) :
    Option Entry → Option Entry → Except String Decision
  | none, some newEntry =>
    let incoming := newEntry.content
    match file with
    | none => return .write incoming (← fileMode newEntry)
    | some content =>
      if content = incoming then return .write content (← fileMode newEntry)
      else return .conflict "业务仓库已存在同名文件"
  | some oldEntry, none =>
    match file with
    | none => return .skip
    | some content =>
      if content = oldEntry.content then return .delete
      else return .conflict "框架已删除，但业务仓库修改过"
  | some oldEntry, some newEntry => decideBoth env path file oldEntry.content newEntry
  -- `git show` of a path that the release has not
  | none, none => fail s!"git show {pathText path} 执行失败"

/-- The body of the loop of `planUpgrade`. -/
def decidePath (env : Env) (old new : FrameworkTree) (project : Project) (accepted : List String)
    (path : Path) : Except String Decision := do
  if !isChanged old new path || accepted.contains (pathText path) then return .skip
  else
    match ← localFile env project path with
    | .unsupported => return .conflict "业务仓库中不是普通文件"
    | .null => decideFile env path none (old.entry path) (new.entry path)
    | .content content => decideFile env path (some content) (old.entry path) (new.entry path)

/-- The loop of `planUpgrade`. -/
def planPaths (env : Env) (old new : FrameworkTree) (project : Project) (accepted : List String) :
    List Path → Except String Plan
  | [] => .ok ⟨[], [], [], accepted, 0⟩
  | path :: paths => do
    let decision ← decidePath env old new project accepted path
    let plan ← planPaths env old new project accepted paths
    return plan.add path decision

/-- `[...new Set([...oldTree.managedPaths, ...newTree.managedPaths])].sort()`. -/
def planned (old new : FrameworkTree) : List Path :=
  (old.managedPaths ++ new.managedPaths.filter fun path =>
    !old.managedPaths.contains path).insertionSort fun a b => sortsBefore a b = true

/-- The check of one `--accept`. -/
def checkAccepted (changed : List Path) (path : String) : Except String Unit := do
  failIf (!(changed.map pathText).contains path) s!"--accept 指定的文件没有框架变更: {path}"
  failIf ((requiredUpdatePaths.map pathText).contains path) s!"不能跳过升级机制关键文件: {path}"

def planUpgrade (env : Env) (project : Project) (oldRelease newRelease : Release)
    (fromRef toRef : String) (acceptPaths : List String) : Except String Plan := do
  let old ← frameworkTree env oldRelease fromRef
  let new ← frameworkTree env newRelease toRef
  let paths := planned old new
  let accepted := acceptPaths.eraseDups
  accepted.forM (checkAccepted (paths.filter (isChanged old new)))
  planPaths env old new project accepted paths

/-! ## The upgrade

All checks come before the first write. After that the calls are made one by one, and the first
that fails ends the script with what has been done so far.
-/

structure Options where
  checkOnly : Bool
  skipVerify : Bool
  acceptPaths : List String
  requireReleaseTag : Bool
deriving DecidableEq

structure Report where
  fromVersion : String
  toVersion : String
  current : Bool
  writes : Nat
  deletes : Nat
  merged : Nat
  accepted : List String
deriving DecidableEq

inductive Failure where
  /-- before anything is written -/
  | refused (message : String)
  /-- a call of `applyPlan` -/
  | applying
  /-- after everything is written -/
  | verifying (message : String)
deriving DecidableEq

/-- What is to be done once all checks have passed. -/
inductive Prepared where
  | current (fromVersion toVersion : String)
  | ready (metadata : Metadata) (fromVersion toVersion : String) (plan : Plan)
deriving DecidableEq

def assertCleanTarget (env : Env) (project : Project) : Except String Unit := do
  failIf (!existsSync env project [".git"]) "目标目录不是 Git 仓库"
  failIf (trim (env.status project) != "") "业务仓库必须保持干净；请先提交或处理现有变更"

/-- The metadata of the project, with its checks. -/
def readMetadata (env : Env) (project : Project) : Except String Metadata := do
  failIf (!existsSync env project projectFile) s!"目标仓库缺少 {pathText projectFile}，请先执行项目初始化"
  match (readFileSync env project projectFile).bind env.parseProject with
  | none => fail s!"{pathText projectFile} 无法解析"
  | some metadata =>
    failIf (metadata.name != "arc-admin" || metadata.version == "")
      s!"{pathText projectFile} 缺少有效的 arc-admin 框架版本"
    return metadata

/-- The tree of the tag. The reference itself is `refs/tags/` and the version. -/
def resolveReleaseRef (template : Template) (version : String) (requireReleaseTag : Bool) :
    Except String Release :=
  match template.tag version with
  | none => fail s!"git rev-parse --verify refs/tags/{version} 执行失败"
  | some (commit, release) => do
    failIf (requireReleaseTag && template.head != commit) s!"模板仓库必须检出目标标签 {version}"
    return release

/-- `upgradeProject` up to the first write. -/
def prepare (env : Env) (template : Template) (project : Project) (options : Options) :
    Except String Prepared := do
  assertCleanTarget env project
  let metadata ← readMetadata env project
  let toVersion := trim (env.decode template.version)
  let fromVersion := metadata.version
  let fromParsed ← parseVersion fromVersion "业务仓库框架版本"
  let toParsed ← parseVersion toVersion "模板仓库框架版本"
  let comparison := compareVersions fromParsed toParsed
  failIf (0 < comparison) s!"拒绝从 {fromVersion} 降级到 {toVersion}"
  if comparison = 0 then return .current fromVersion toVersion
  else
    let oldRelease ← resolveReleaseRef template fromVersion false
    let newRelease ← resolveReleaseRef template toVersion options.requireReleaseTag
    let taggedVersion ← showFile newRelease frameworkVersionFile
    failIf (trim (env.decode taggedVersion) != toVersion)
      s!"{toVersion} 标签中的 FRAMEWORK_VERSION 不一致"
    let plan ← planUpgrade env project oldRelease newRelease
      s!"refs/tags/{fromVersion}" s!"refs/tags/{toVersion}" options.acceptPaths
    let conflicts := "\n- ".intercalate plan.conflicts
    failIf (!plan.conflicts.isEmpty) <|
      s!"检测到 {plan.conflicts.length} 个升级冲突，未写入任何文件:\n- {conflicts}\n" ++
        "人工合并并提交后，可用 --accept <相对路径> 显式保留该文件。"
    return .ready metadata fromVersion toVersion plan

/-- The metadata after the upgrade. -/
def Metadata.upgraded (metadata : Metadata) (toVersion now : String) : Metadata :=
  { metadata with
    schemaVersion := max metadata.schemaVersion 2
    initializedVersion := some (metadata.initializedVersion.getD metadata.version)
    version := toVersion
    upgradedAt := some now }

/-- The calls of `applyPlan`. -/
def applyPlan (env : Env) (plan : Plan) (metadata : Metadata) (toVersion : String) :
    List (FileTree.Op String Bytes) :=
  plan.deletes.map .unlink ++ plan.writes.flatMap FileTree.Store.ops ++
    [.write projectFile (env.stringify (metadata.upgraded toVersion env.now))]

def Prepared.report : Prepared → Report
  | .current fromVersion toVersion => ⟨fromVersion, toVersion, true, 0, 0, 0, []⟩
  | .ready _ fromVersion toVersion plan =>
    ⟨fromVersion, toVersion, false, plan.writes.length, plan.deletes.length, plan.merged,
      plan.accepted⟩

/-- `upgradeProject`: the files of the project afterwards, and how it ended. -/
def upgradeProject (env : Env) (template : Template) (project : Project) (options : Options) :
    Project × Except Failure Report :=
  match prepare env template project options with
  | .error message => (project, .error (.refused message))
  | .ok (.current fromVersion toVersion) =>
    (project, .ok (Prepared.current fromVersion toVersion).report)
  | .ok (.ready metadata fromVersion toVersion plan) =>
    let report := (Prepared.ready metadata fromVersion toVersion plan).report
    if options.checkOnly then (project, .ok report)
    else
      match env.host.run (applyPlan env plan metadata toVersion) project with
      | (project', false) => (project', .error .applying)
      | (project', true) =>
        match if options.skipVerify then none else env.verification project' with
        | some message => (project', .error (.verifying message))
        | none => (project', .ok report)

end Upgrade

end ArcAdmin

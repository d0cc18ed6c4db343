import ArcAdmin.Flow.Git
import ArcAdmin.Flow.Process

/-!
# The secret scan

`secrets::scan`: which files are read, and how. What a rule of the configuration matches is a
parameter, and so are the commands and files outside the program.
-/

namespace ArcAdmin

namespace Flow

inductive ReadError where
  | notFound
  | other (error : Error)

/-- `project.secrets_config`, relative to the root of the project. -/
inductive ConfigPath where
  | outside
  | nonUtf8
  | relative (path : String)

/-- The project, the outside, and the scanner that a configuration stands for. -/
structure SecretScan (Scanner : Type) where
  git : Git
  readFile : String → Except ReadError (List UInt8)
  writeReport : String → List String → Except Error Unit
  secretsConfig : ConfigPath
  /-- `SecretScanner::load` of the configuration in the working tree -/
  load : Except Error Scanner
  /-- `SecretScanner::from_source` -/
  fromSource : String → Except Error Scanner
  isMatch : Scanner → List UInt8 → Bool

namespace SecretScan

variable {Scanner : Type} (project : SecretScan Scanner)

def stagedFileBytes (file : String) : Except Error (Option (List UInt8)) := do
  let output ← context s!"read staged file {file}" (project.git ["show", ":" ++ file])
  return if output.success then some output.stdout else none

def scannerForMode : SecretMode → Except Error Scanner
  | .workingTree => project.load
  | .staged =>
    match project.secretsConfig with
    | .outside => .error "secret scan configuration must stay inside the project"
    | .nonUtf8 => .error "secret scan configuration path must be UTF-8"
    | .relative path => do
      let staged ← project.stagedFileBytes path
      let bytes ← okOr staged s!"staged secret scan configuration is missing: {path}"
      let source ← okOr (fromUtf8 bytes) "staged secret scan configuration must be UTF-8"
      context s!"parse staged secret scan configuration {path}" (project.fromSource source)

/-- The arguments of the git command that lists the files. -/
def listArgs : SecretMode → List String
  | .workingTree => ["ls-files", "--cached", "--others", "--exclude-standard", "-z"]
  | .staged => ["diff", "--cached", "--diff-filter=ACMR", "--name-only", "-z"]

/-- The bytes of a listed file, if it is there. -/
def fileBytes (mode : SecretMode) (file : String) : Except Error (Option (List UInt8)) :=
  match mode with
  | .workingTree =>
    match project.readFile file with
    | .ok bytes => .ok (some bytes)
    | .error .notFound => .ok none
    | .error (.other error) => .error s!"read {file}: {error}"
  | .staged => project.stagedFileBytes file

/-- The loop of `scan`. -/
def scanFiles (mode : SecretMode) (patterns : Scanner) : List String → Except Error (List String)
  | [] => .ok []
  | file :: rest => do
    let bytes ← project.fileBytes mode file
    let findings ← scanFiles mode patterns rest
    return if bytes.any (project.isMatch patterns) then file :: findings else findings

def modeLabel : SecretMode → String
  | .workingTree => "working-tree"
  | .staged => "staged"

def scan (mode : SecretMode) : Except Error (List String) := do
  let files ← gitFiles project.git (listArgs mode)
  let patterns ← project.scannerForMode mode
  let findings ← project.scanFiles mode patterns files
  project.writeReport (modeLabel mode) findings
  return findings

variable {project : SecretScan Scanner} {mode : SecretMode}

theorem scanFiles_ok {patterns : Scanner} {files findings : List String}
    (h : project.scanFiles mode patterns files = .ok findings) :
    (∀ file ∈ files, ∃ bytes, project.fileBytes mode file = .ok bytes) ∧
      ∀ file, file ∈ findings ↔ file ∈ files ∧ ∃ bytes,
        project.fileBytes mode file = .ok (some bytes) ∧ project.isMatch patterns bytes = true := by
  induction files generalizing findings with
  | nil =>
    cases h
    simp
  | cons file files ih =>
    obtain ⟨bytes, hbytes, hrest⟩ := bind_ok.1 h
    obtain ⟨found, hfound, hpure⟩ := bind_ok.1 hrest
    obtain ⟨hread, hmem⟩ := ih hfound
    refine ⟨?_, fun name => ?_⟩
    · intro name hname
      rcases List.mem_cons.1 hname with rfl | hname
      · exact ⟨bytes, hbytes⟩
      · exact hread name hname
    · have hfindings : findings =
          if bytes.any (project.isMatch patterns) then file :: found else found := by
        cases hpure
        rfl
      have hhead : bytes.any (project.isMatch patterns) = true ↔ ∃ b,
          project.fileBytes mode file = .ok (some b) ∧ project.isMatch patterns b = true := by
        rw [hbytes]
        cases bytes <;> simp
      rw [hfindings]
      by_cases hmatch : bytes.any (project.isMatch patterns) = true
      · rw [if_pos hmatch, List.mem_cons, List.mem_cons, hmem]
        grind
      · rw [if_neg hmatch, List.mem_cons, hmem]
        grind

/-- **What the findings are**: the listed files that were read and match. -/
theorem scan_ok {findings : List String} (h : project.scan mode = .ok findings) :
    ∃ files patterns, gitFiles project.git (listArgs mode) = .ok files ∧
      project.scannerForMode mode = .ok patterns ∧
      (∀ file ∈ files, ∃ bytes, project.fileBytes mode file = .ok bytes) ∧
      ∀ file, file ∈ findings ↔ file ∈ files ∧ ∃ bytes,
        project.fileBytes mode file = .ok (some bytes) ∧ project.isMatch patterns bytes = true := by
  obtain ⟨files, hfiles, hrest⟩ := bind_ok.1 h
  obtain ⟨patterns, hpatterns, hrest⟩ := bind_ok.1 hrest
  obtain ⟨found, hfound, hrest⟩ := bind_ok.1 hrest
  obtain ⟨_, -, hpure⟩ := bind_ok.1 hrest
  cases hpure
  exact ⟨files, patterns, hfiles, hpatterns, scanFiles_ok hfound⟩

end SecretScan

end Flow

end ArcAdmin

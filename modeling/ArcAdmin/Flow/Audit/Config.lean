import ArcAdmin.StdPath
import ArcAdmin.Utf8
import ArcAdmin.Flow.Project

/-!
# The configuration of the audit

The data of `.codex/audit.toml` and `validate_audit_config`. What the file system, `regex` and
`ignore` do is a `Checkout`.
-/

namespace ArcAdmin

namespace Flow

namespace Audit

/-- A match: where it starts and where it ends, in bytes. -/
abbrev Match := Nat × Nat

/-- A compiled pattern. -/
structure Regex where
  /-- the end of the match that starts at the offset, which the alternatives and quantifiers prefer -/
  matchAt : Text → Nat → Option Nat
  start_le {text : Text} {start stop : Nat} : matchAt text start = some stop → start ≤ stop
  stop_le {text : Text} {start stop : Nat} : matchAt text start = some stop → stop ≤ Utf8.size text

namespace Regex

/-- The offsets of a text, in order. -/
def offsets (text : Text) : List Nat := List.range (Utf8.size text + 1)

/-- `Regex::is_match`. -/
def isMatch (regex : Regex) (text : Text) : Bool :=
  (offsets text).any fun start => (regex.matchAt text start).isSome

/-- Whether a match may follow one that ends at `last`: it does not overlap with it, and it is not
the empty match at its end. -/
def mayFollow (last : Option Nat) (found : Match) : Bool :=
  match last with
  | none => true
  | some last => decide (last ≤ found.1) && !decide (found = (last, last))

/-- The successive matches that start at the offsets, which are in order. -/
def findFrom (regex : Regex) (text : Text) : List Nat → Option Nat → List Match
  | [], _ => []
  | start :: rest, last =>
    match regex.matchAt text start with
    | none => regex.findFrom text rest last
    | some stop =>
      if mayFollow last (start, stop) then (start, stop) :: regex.findFrom text rest (some stop)
      else regex.findFrom text rest last

/-- `Regex::find_iter`: the successive matches that do not overlap. -/
def findIter (regex : Regex) (text : Text) : List Match := regex.findFrom text (offsets text) none

end Regex

/-! ## Data

The configuration as it has been deserialized.
-/

structure BlockCommentSyntax where
  start : Text
  stop : Text
  nested : Bool
  deriving DecidableEq

structure StringSyntax where
  start : Text
  stop : Text
  escape : Option Text
  deriving DecidableEq

structure CommentSyntax where
  line : List Text
  block : List BlockCommentSyntax
  strings : List StringSyntax
  deriving DecidableEq

structure EngineConfig where
  ignoreFilename : Text
  jsonReportFilename : Text
  markdownReportFilename : Text
  markdownMaxBytes : Nat
  markdownOccurrencesPerRule : Nat
  commentSyntax : List (Text × CommentSyntax)

inductive AllowlistEntry where
  | pathPrefix (path : Text)
  | regex (pattern : Text)
  deriving DecidableEq

structure HardRule where
  name : Text
  severity : Text
  paths : List Text
  extensions : List Text
  patterns : List Text
  excludePatterns : List Text
  allowlist : List AllowlistEntry
  deriving DecidableEq

structure ArchRule where
  name : Text
  layer : Text
  paths : List Text
  extensions : List Text
  forbiddenPatterns : List Text
  allowedPatterns : List Text
  suggestion : Text
  excludePatterns : List Text
  allowlist : List AllowlistEntry
  deriving DecidableEq

structure PathsConfig where
  exclude : List Text
  aliases : List (Text × Text)

structure Config where
  version : Nat
  engine : EngineConfig
  paths : PathsConfig
  hardRules : List HardRule
  archRules : List ArchRule

def auditConfigVersion : Nat := 2

/-! ## The checkout

What the audit reads of the file system, as functions that it asks.
-/

/-- An absolute path: the names on the way from the root of the file system. -/
abbrev AbsolutePath := List Text

/-- What the walk over a tree yields. -/
structure Entry where
  path : AbsolutePath
  isDir : Bool
  /-- `fs::read_to_string` -/
  content : Except Error Text

structure Checkout where
  projectRoot : AbsolutePath
  /-- `resolve_repo_path` with its path, its label and `must_exist` -/
  resolveRepoPath : Text → String → Bool → Except Error AbsolutePath
  /-- `RegexBuilder::new(..).multi_line(..).build()` -/
  newRegex : Bool → Text → Except Error Regex
  /-- the walk over the paths that the ignore files with the given name leave -/
  walk : Text → List AbsolutePath → Except Error (List Entry)

/-- A text as it is printed by `{:?}`. -/
def quoted (text : Text) : String := reprStr (String.ofList text)

namespace Checkout

variable (checkout : Checkout)

def compileRegexes (patterns : List Text) : Except Error (List Regex) :=
  patterns.mapM fun pattern =>
    context ("invalid audit regex " ++ quoted pattern) (checkout.newRegex true pattern)

def resolveRuleRoots (entries : List Text) (aliases : List (Text × Text)) (ruleName : Text) :
    Except Error (List AbsolutePath) := do
  bailIf entries.isEmpty ("audit rule " ++ quoted ruleName ++ " requires at least one path")
  entries.mapM fun entry =>
    checkout.resolveRepoPath ((aliases.lookup entry).getD entry)
      ("audit rule " ++ quoted ruleName ++ " path") true

def resolveExcludes (entries : List Text) : Except Error (List AbsolutePath) :=
  entries.mapM fun entry => checkout.resolveRepoPath entry "audit excluded path" false

/-! ## Validation

The checks in the order of the source. They relate the rules to the files on disk as well: the
root of a rule has to exist.
-/

/-- `trim().is_empty()`. -/
def isBlank (value : Text) : Bool := value.all isWhitespace

def validateFilename (value : Text) (field : String) : Except Error Unit :=
  bailIf
    (isBlank value || (StdPath.components value).length != 1 || (StdPath.fileName value).isNone)
    ("audit engine " ++ field ++ " must be a filename without directory components")

/-- The checks of one comment syntax in `validate_engine_config`. -/
def validateCommentSyntax (extension : Text) (commentSyntax : CommentSyntax) : Except Error Unit := do
  bailIf
    (isBlank extension || commentSyntax.line.any (·.isEmpty) ||
      commentSyntax.block.any (fun block => block.start.isEmpty || block.stop.isEmpty) ||
      commentSyntax.strings.any fun string => string.start.isEmpty || string.stop.isEmpty ||
        string.escape.any (·.isEmpty))
    ("audit engine comment syntax for " ++ quoted extension ++ " contains an empty token")
  bailIf (commentSyntax.block.any fun block => block.nested && block.start == block.stop)
    ("audit engine nested comment syntax for " ++ quoted extension ++ " requires distinct delimiters")

def validateEngineConfig (engine : EngineConfig) : Except Error Unit := do
  validateFilename engine.ignoreFilename "ignore_filename"
  validateFilename engine.jsonReportFilename "json_report_filename"
  validateFilename engine.markdownReportFilename "markdown_report_filename"
  bailIf (engine.jsonReportFilename == engine.markdownReportFilename)
    "audit engine report filenames must be distinct"
  bailIf (engine.markdownMaxBytes == 0 || engine.markdownOccurrencesPerRule == 0)
    "audit engine markdown limits must be positive"
  engine.commentSyntax.forM fun (extension, commentSyntax) => validateCommentSyntax extension commentSyntax

def validateRuleExtensions (engine : EngineConfig) (extensions : List Text) (ruleName : Text) :
    Except Error Unit :=
  extensions.forM fun extension => do
    bailIf (isBlank extension)
      ("audit rule " ++ quoted ruleName ++ " contains an empty extension")
    bailIf (!(engine.commentSyntax.map Prod.fst).contains extension)
      ("audit rule " ++ quoted ruleName ++ " uses extension " ++ quoted extension
        ++ " without `[engine.comment_syntax." ++ String.ofList extension
        ++ "]`; define its comments and string delimiters before scanning")

def validateAllowlist (allowlist : List AllowlistEntry) (ruleName : Text) : Except Error Unit :=
  allowlist.forM fun entry =>
    match entry with
    | .pathPrefix path => do
      let _ ← checkout.resolveRepoPath path
        ("audit rule " ++ quoted ruleName ++ " allowlist path") false
      pure ()
    | .regex pattern => do
      let _ ← context
        ("audit rule " ++ quoted ruleName ++ " has invalid allowlist regex " ++ quoted pattern)
        (checkout.newRegex false pattern)
      pure ()

/-- The name of a rule is not blank and new. -/
def checkName (names : List Text) (name : Text) : Except Error Unit :=
  bailIf (isBlank name || names.contains name)
    ("audit rule names must be non-empty and unique: " ++ quoted name)

def severities : List Text := ["blocker".toList, "error".toList, "warning".toList]

def validateHardRule (config : Config) (names : List Text) (rule : HardRule) :
    Except Error Unit := do
  checkName names rule.name
  bailIf (!severities.contains rule.severity)
    ("audit rule " ++ quoted rule.name ++ " has unsupported severity " ++ quoted rule.severity)
  bailIf (rule.extensions.isEmpty || rule.patterns.isEmpty)
    ("audit rule " ++ quoted rule.name ++ " requires extensions and patterns")
  validateRuleExtensions config.engine rule.extensions rule.name
  let _ ← checkout.resolveRuleRoots rule.paths config.paths.aliases rule.name
  let _ ← checkout.compileRegexes rule.patterns
  let _ ← checkout.compileRegexes rule.excludePatterns
  checkout.validateAllowlist rule.allowlist rule.name

def validateArchRule (config : Config) (names : List Text) (rule : ArchRule) :
    Except Error Unit := do
  checkName names rule.name
  bailIf
    (isBlank rule.layer || isBlank rule.suggestion || rule.extensions.isEmpty ||
      rule.forbiddenPatterns.isEmpty)
    ("architecture rule " ++ quoted rule.name
      ++ " requires layer, suggestion, extensions, and forbidden_patterns")
  validateRuleExtensions config.engine rule.extensions rule.name
  let _ ← checkout.resolveRuleRoots rule.paths config.paths.aliases rule.name
  let _ ← checkout.compileRegexes rule.forbiddenPatterns
  let _ ← checkout.compileRegexes rule.allowedPatterns
  let _ ← checkout.compileRegexes rule.excludePatterns
  checkout.validateAllowlist rule.allowlist rule.name

/-- A loop over rules with the names of those before. -/
def validateRules {Rule : Type} (name : Rule → Text)
    (validate : List Text → Rule → Except Error Unit) :
    List Text → List Rule → Except Error (List Text)
  | names, [] => .ok names
  | names, rule :: rules => do
    validate names rule
    validateRules name validate (names ++ [name rule]) rules

def validateAuditConfig (config : Config) : Except Error (List AbsolutePath) := do
  bailIf (config.version != auditConfigVersion)
    ("unsupported audit config schema version " ++ toString config.version ++ "; expected "
      ++ toString auditConfigVersion)
  validateEngineConfig config.engine
  config.paths.aliases.forM fun (name, path) => do
    let _ ← checkout.resolveRepoPath path ("audit path alias " ++ quoted name) false
    pure ()
  let excludeDirs ← checkout.resolveExcludes config.paths.exclude
  let names ← validateRules HardRule.name (checkout.validateHardRule config) [] config.hardRules
  let _ ← validateRules ArchRule.name (checkout.validateArchRule config) names config.archRules
  pure excludeDirs

end Checkout

end Audit

end Flow

end ArcAdmin

import ArcAdmin.Flow.Audit.Comments

/-!
# The scan of the sources

`scan_files` and `scan_arch_rules`: the files of a rule, the matches of its patterns in each of them,
and the violations that are left of these.
-/

namespace ArcAdmin

namespace Flow

namespace Audit

/-- `Violation` and `ArchViolation`. -/
structure Violation where
  file : List Text
  line : Nat
  content : Text
  ruleName : Text
  deriving DecidableEq

/-! ## Lines

The line of an offset is found by bisection among the starts of the lines. The checked variant
makes the panics of slicing explicit.
-/

def sourceLineStarts (content : Text) : List Nat :=
  let bytes := Utf8.encode content
  0 :: ((List.range bytes.length).filter fun offset => bytes[offset]? = some 10).map (· + 1)

/-- The characters between two offsets. -/
def slice (content : Text) (start stop : Nat) : Text :=
  match content with
  | [] => []
  | c :: rest =>
    if 0 < start then slice rest (start - c.utf8Size) (stop - c.utf8Size)
    else if 0 < stop then c :: slice rest 0 (stop - c.utf8Size) else []

def sourceLineAt (content : Text) (lineStarts : List Nat) (matchStart : Nat) : Nat × Text × Nat :=
  let lineIndex :=
    PartitionPoint.partitionPoint (fun start => decide (start ≤ matchStart)) lineStarts - 1
  let lineStart := lineStarts[lineIndex]?.getD 0
  let rest := slice content lineStart (Utf8.size content)
  (lineIndex + 1, rest.takeWhile (· != '\n'), matchStart - lineStart)

/-- `str::is_char_boundary`. -/
def isCharBoundary (content : Text) (index : Nat) : Bool :=
  index == 0 || index == Utf8.size content ||
    ((Utf8.encode content)[index]?).any fun byte => decide (byte < 128 ∨ 192 ≤ byte)

/-- `&content[start..stop]`, which panics outside the text and inside a character. -/
def strSlice (content : Text) (start stop : Nat) : Option Text :=
  if start ≤ stop ∧ stop ≤ Utf8.size content ∧ isCharBoundary content start = true ∧
      isCharBoundary content stop = true then some (slice content start stop) else none

/-- `str::find('\n')`. -/
def findNewline (text : Text) : Option Nat :=
  if text.contains '\n' then some (Utf8.size (text.takeWhile (· != '\n'))) else none

/-- `sourceLineAt` with the index and the two slices that Rust checks; `none` is a panic. -/
def sourceLineAtChecked (content : Text) (lineStarts : List Nat) (matchStart : Nat) :
    Option (Nat × Text × Nat) := do
  let lineIndex :=
    PartitionPoint.partitionPoint (fun start => decide (start ≤ matchStart)) lineStarts - 1
  let lineStart ← lineStarts[lineIndex]?
  let rest ← strSlice content lineStart (Utf8.size content)
  let lineEnd := ((findNewline rest).map fun offset => lineStart + offset).getD (Utf8.size content)
  let line ← strSlice content lineStart lineEnd
  pure (lineIndex + 1, line, matchStart - lineStart)

/-- `str::trim`. -/
def trimmed (text : Text) : Text :=
  ((text.dropWhile isWhitespace).reverse.dropWhile isWhitespace).reverse

/-! ## Files

A file is read, its comments are found, and each match that starts outside of them is reported,
once for each line, unless an exception of the rule matches the line.
-/

/-- `Path::extension`. -/
def extensionOf (path : AbsolutePath) : Option Text := path.getLast?.bind StdPath.extension

namespace Checkout

variable (checkout : Checkout)

/-- `path.strip_prefix(project_root).unwrap_or(path)`. -/
def relative (path : AbsolutePath) : List Text :=
  if checkout.projectRoot <+: path then path.drop checkout.projectRoot.length else path

/-- A path as a text. -/
def relativeText (path : AbsolutePath) : Text :=
  ['/'].intercalate (checkout.relative path)

def isAllowlisted (path : AbsolutePath) (allowlist : List AllowlistEntry) : Bool :=
  allowlist.any fun entry =>
    match entry with
    | .pathPrefix listed =>
      (StdPath.components listed).isPrefixOf ((checkout.relative path).map .normal)
    | .regex pattern =>
      match checkout.newRegex false pattern with
      | .ok regex => regex.isMatch (checkout.relativeText path)
      | .error _ => false

/-- The entries of the walk that the rule is about. -/
def isSelected (extensions : List Text) (excludeDirs : List AbsolutePath)
    (excludeRegexes : List Regex) (allowlist : List AllowlistEntry) (entry : Entry) : Bool :=
  !entry.isDir && (extensionOf entry.path).any extensions.contains &&
    !excludeDirs.any (·.isPrefixOf entry.path) &&
    !excludeRegexes.any (·.isMatch (checkout.relativeText entry.path)) &&
    !checkout.isAllowlisted entry.path allowlist

/-- The comments of a source; a syntax that has been validated always has some. -/
def commentsOf (engine : EngineConfig) (path : AbsolutePath) (content : Text) : List Range :=
  (((extensionOf path).bind fun extension => engine.commentSyntax.lookup extension).bind
    (commentRanges content)).getD []

/-- A pattern of a rule: what it looks for, and the name under which it is reported. -/
structure Pattern where
  regex : Regex
  ruleName : Text

/-- The locals of the loops over the matches of a file. -/
structure Findings where
  violations : List Violation
  reportedLines : List Nat

/-- The body of the loops over the matches of a file. -/
def report (content : Text) (file : List Text) (comments : List Range) (allowed : List Regex)
    (ruleName : Text) (findings : Findings) (found : Match) : Findings :=
  let (lineNumber, line, _) := sourceLineAt content (sourceLineStarts content) found.1
  if isCommentOffset comments found.1 || allowed.any (·.isMatch line) ||
      findings.reportedLines.contains lineNumber then findings
  else
    { violations := findings.violations ++ [⟨file, lineNumber, trimmed line, ruleName⟩]
      reportedLines := lineNumber :: findings.reportedLines }

/-- The violations of a file in the order in which they are found. -/
def findings (content : Text) (file : List Text) (comments : List Range) (allowed : List Regex)
    (patterns : List Pattern) : Findings :=
  patterns.foldl (fun findings pattern =>
    (pattern.regex.findIter content).foldl
      (report content file comments allowed pattern.ruleName) findings) ⟨[], []⟩

/-- The violations of a file, sorted by their lines. -/
def scanSource (engine : EngineConfig) (allowed : List Regex) (patterns : List Pattern)
    (entry : Entry) : Except Error (List Violation) := do
  let content ← context ("read audit source " ++ quoted (['/'].intercalate entry.path)) entry.content
  pure ((findings content (checkout.relative entry.path) (commentsOf engine entry.path content)
    allowed patterns).violations.mergeSort fun a b => decide (a.line ≤ b.line))

def scanFiles (rootPaths excludeDirs : List AbsolutePath) (rule : HardRule)
    (engine : EngineConfig) : Except Error (List Violation) := do
  if rootPaths.isEmpty || rule.patterns.isEmpty then pure []
  else
    let regexes ← checkout.compileRegexes rule.patterns
    let excludeRegexes ← checkout.compileRegexes rule.excludePatterns
    let entries ← checkout.walk engine.ignoreFilename rootPaths
    let patterns := (regexes.zip rule.patterns).map fun (regex, pattern) =>
      (⟨regex, rule.name ++ ':' :: pattern⟩ : Pattern)
    let violations ← (entries.filter
      (checkout.isSelected rule.extensions excludeDirs excludeRegexes rule.allowlist)).mapM
        (checkout.scanSource engine [] patterns)
    pure violations.flatten

def scanArchRule (config : Config) (excludeDirs : List AbsolutePath) (rule : ArchRule) :
    Except Error (List Violation) := do
  let rootPaths ← checkout.resolveRuleRoots rule.paths config.paths.aliases rule.name
  if rule.forbiddenPatterns.isEmpty then pure []
  else
    let regexes ← checkout.compileRegexes rule.forbiddenPatterns
    let allowedRegexes ← checkout.compileRegexes rule.allowedPatterns
    let excludeRegexes ← checkout.compileRegexes rule.excludePatterns
    let entries ← checkout.walk config.engine.ignoreFilename rootPaths
    let patterns := regexes.map fun regex => (⟨regex, rule.name⟩ : Pattern)
    let violations ← (entries.filter
      (checkout.isSelected rule.extensions excludeDirs excludeRegexes rule.allowlist)).mapM
        (checkout.scanSource config.engine allowedRegexes patterns)
    pure violations.flatten

def scanArchRules (config : Config) (excludeDirs : List AbsolutePath) :
    Except Error (List Violation) := do
  let violations ← config.archRules.mapM (checkout.scanArchRule config excludeDirs)
  pure violations.flatten

/-- A hard rule in the loop of `run`. -/
def scanHardRule (config : Config) (excludeDirs : List AbsolutePath) (rule : HardRule) :
    Except Error (List Violation) := do
  let rootPaths ← checkout.resolveRuleRoots rule.paths config.paths.aliases rule.name
  checkout.scanFiles rootPaths excludeDirs rule config.engine

/-- The loop of `run` over the hard rules. -/
def scanHardRules (config : Config) (excludeDirs : List AbsolutePath) :
    Except Error (List Violation) := do
  let violations ← config.hardRules.mapM (checkout.scanHardRule config excludeDirs)
  pure violations.flatten

end Checkout

end Audit

end Flow

end ArcAdmin

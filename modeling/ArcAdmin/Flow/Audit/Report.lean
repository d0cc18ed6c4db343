import ArcAdmin.Flow.Audit.Scan

/-!
# The report of the audit

`generate_report` without its time stamp: the violations of each rule and their totals.
-/

namespace ArcAdmin

namespace Flow

namespace Audit

structure JsonOccurrence where
  file : Text
  line : Nat
  content : Text
  deriving DecidableEq

structure JsonViolation where
  rule : Text
  severity : Text
  count : Nat
  occurrences : List JsonOccurrence
  deriving DecidableEq

structure JsonArchViolation where
  rule : Text
  layer : Text
  count : Nat
  suggestion : Text
  occurrences : List JsonOccurrence
  deriving DecidableEq

structure JsonSummary where
  totalViolations : Nat
  blockerCount : Nat
  errorCount : Nat
  warningCount : Nat
  deriving DecidableEq

structure JsonReport where
  hardViolations : List JsonViolation
  archViolations : List JsonArchViolation
  summary : JsonSummary
  deriving DecidableEq

def occurrence (violation : Violation) : JsonOccurrence where
  file := ['/'].intercalate violation.file
  line := violation.line
  content := violation.content

/-- The violations that `generate_report` counts under a hard rule. -/
def hardOf (rule : HardRule) (violations : List Violation) : List Violation :=
  violations.filter fun v => rule.name.isPrefixOf v.ruleName

/-- The violations that `generate_report` counts under an architecture rule. -/
def archOf (rule : ArchRule) (violations : List Violation) : List Violation :=
  violations.filter fun v => v.ruleName == rule.name

def hardJson (violations : List Violation) (rule : HardRule) : JsonViolation where
  rule := rule.name
  severity := rule.severity
  count := ((hardOf rule violations).map occurrence).length
  occurrences := (hardOf rule violations).map occurrence

def archJson (violations : List Violation) (rule : ArchRule) : JsonArchViolation where
  rule := rule.name
  layer := rule.layer
  count := ((archOf rule violations).map occurrence).length
  suggestion := rule.suggestion
  occurrences := (archOf rule violations).map occurrence

/-- The violations of the hard rules of a severity. -/
def severityCount (severity : String) (hard : List JsonViolation) : Nat :=
  ((hard.filter fun v => v.severity == severity.toList).map (·.count)).sum

def generateReport (config : Config) (hardViolations archViolations : List Violation) :
    JsonReport :=
  let hard := config.hardRules.map (hardJson hardViolations)
  let arch := config.archRules.map (archJson archViolations)
  { hardViolations := hard
    archViolations := arch
    summary :=
      { totalViolations := (hard.map (·.count)).sum + (arch.map (·.count)).sum
        blockerCount := severityCount "blocker" hard
        errorCount := severityCount "error" hard
        warningCount := severityCount "warning" hard } }

end Audit

end Flow

end ArcAdmin

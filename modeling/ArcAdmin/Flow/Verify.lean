import ArcAdmin.Flow.Process

/-!
# The verification

`verify.rs` of arc-flow: the secret scan, the audit and the configured steps, and the report that
puts their results together.
-/

namespace ArcAdmin

namespace Flow

open Dialogue (attempt)

/-! ## Parsers

A parser reads numbers out of a log and decides by them whether a command that succeeded has done
what it should.
-/

/-- The pattern of the ANSI colour sequences, which are removed from a log before it is parsed. -/
def ansiPattern : String := "\\x1b\\[[0-?]*[ -/]*[@-~]"

/-- The sum of the numbers that one pattern captures; `usize` wraps. -/
def captured (regex : Regex) (capture : Nat) (normalized : String) : List Nat :=
  (regex.capturesIter normalized).filterMap fun captures =>
    (captures capture).bind fun text => parseUsize text.toList

/-- The loop over the patterns. -/
def countResults (engine : RegexEngine) (capture : Nat) (normalized : String) :
    List String → Nat → Except Error Nat
  | [], count => pure count
  | pattern :: rest, count => do
    let regex ← engine pattern
    countResults engine capture normalized rest
      ((count + (captured regex capture normalized).sum % 2 ^ 64) % 2 ^ 64)

/-- `parse_result_count`. -/
def parseResultCount (engine : RegexEngine) (content : String) :
    ParserConfig → Except Error (Nat × Nat)
  | .regex patterns capture minimum => do
    let ansi ← engine ansiPattern
    let normalized := ansi.replaceAll content ""
    let count ← countResults engine capture normalized patterns 0
    pure (count, minimum)

/-! ## Steps

The loop over the selected steps. A step without its services fails without being run; a step
whose command cannot be run ends the loop.
-/

/-- `log`. -/
def log (project : Project) (name : String) : String :=
  join (join project.reports "logs") name

/-- `configured_task`. -/
def configuredTask (project : Project) (step : StepConfig) (serviceEnv : List (String × String)) :
    Task := {
  label := step.label
  program := step.program
  args := step.args.map project.expand
  cwd := project.expand step.cwd
  env := serviceEnv
  envRemove := step.removeEnv
  timeout := step.timeoutSecs
  log := log project step.log }

/-- What a parser makes of the result of a command that succeeded and of its log. -/
def judge (engine : RegexEngine) (parser : ParserConfig) (result : TaskResult) (content : String) :
    Except Error TaskResult := do
  let (count, minimum) ← parseResultCount engine content parser
  if count < minimum then
    pure { result with
      passed := false
      detail := some s!"parsed {count} result(s), expected at least {minimum}" }
  else pure { result with detail := some s!"{count} result(s)" }

/-- The result of a command, with what its parser makes of it. -/
def parsed (engine : RegexEngine) (parser : Option ParserConfig) (result : TaskResult) :
    Flow TaskResult :=
  match result.passed, parser with
  | true, some parser => do
    let content : String ← ask (.readLog result.log)
    Dialogue.lift (judge engine parser result content)
  | _, _ => pure result

/-- `execute`, with the result instead of the list that it is added to. -/
def execute (engine : RegexEngine) (task : Task) (parser : Option ParserConfig) :
    Flow TaskResult := do
  let result ← task.run
  let result ← parsed engine parser result
  if result.cancelled then bail "verification cancelled" else pure result

/-- The loop over the services of a step: their environment, or the first that failed. -/
def serviceEnvironment (config : FlowConfig) :
    List String → ServiceManager → List (String × String) →
      Flow (Except (String × Error) (List (String × String)) × ServiceManager)
  | [], services, serviceEnv => pure (.ok serviceEnv, services)
  | service :: rest, services, serviceEnv => do
    match ← services.environment config service with
    | (.ok environment, services) =>
      serviceEnvironment config rest services (serviceEnv ++ [environment])
    | (.error error, services) => pure (.error (service, error), services)

/-- The result of a step one of whose services failed. -/
def setupFailed (step : StepConfig) (service : String) (error : Error) : TaskResult := {
  label := s!"{step.label}: service {service} setup"
  passed := false
  timedOut := false
  cancelled := false
  durationMs := 0
  log := ""
  detail := some error }

/-- The body of the loop of `run_configured_steps`. -/
def runStep (engine : RegexEngine) (project : Project) (services : ServiceManager)
    (step : StepConfig) : Flow (TaskResult × ServiceManager) := do
  let cancelled : Bool ← ask .cancelled
  if cancelled then bail "verification cancelled" else
  match ← serviceEnvironment project.config step.services services [] with
  | (.error (service, error), services) => pure (setupFailed step service error, services)
  | (.ok serviceEnv, services) => do
    let parser := step.parser.bind project.config.parser
    let result ← execute engine (configuredTask project step serviceEnv) parser
    pure (result, services)

/-- The loop of `run_configured_steps`. -/
def runSteps (engine : RegexEngine) (project : Project) :
    List StepConfig → ServiceManager → List TaskResult → Flow (List TaskResult)
  | [], _, results => pure results
  | step :: rest, services, results => do
    let (result, services) ← runStep engine project services step
    runSteps engine project rest services (results ++ [result])

/-- The steps that the scope and the profile, or the single step that was asked for, select. -/
def selected (config : FlowConfig) (scope : ScopeResult) (profile : String)
    (onlyStep : Option String) : List StepConfig :=
  config.steps.filter fun step =>
    scope.components.contains step.component &&
      match onlyStep with
      | some id => step.id == id
      | none => step.profiles.contains profile

/-- `run_configured_steps`. -/
def runConfiguredSteps (engine : RegexEngine) (project : Project) (scope : ScopeResult)
    (profile : String) (onlyStep : Option String) (results : List TaskResult) :
    Flow (List TaskResult) :=
  runSteps engine project (selected project.config scope profile onlyStep) ServiceManager.new
    results

/-! ## The report

The secret scan comes first, then the audit, then the steps. A scan or an audit that fails keeps
the steps from running.
-/

def secretMode (staged : Bool) : SecretMode := if staged then .staged else .workingTree

/-- The secret scan and its result. -/
def secretScan (project : Project) (staged : Bool) : Flow TaskResult := do
  let secretStarted : Nat ← ask .instant
  let findings : List String ← attempt (.scan (secretMode staged)) id
  let secretPassed := findings.isEmpty
  let now : Nat ← ask .instant
  pure {
    label := "secret scan"
    passed := secretPassed
    timedOut := false
    cancelled := false
    durationMs := now - secretStarted
    log := join project.reports "secret_scan.json"
    detail := if secretPassed then none else some s!"{findings.length} file(s) require review" }

/-- The architecture audit and its result. -/
def architectureAudit : Flow TaskResult := do
  let auditStarted : Nat ← ask .instant
  let outcome : AuditOutcome ← attempt .audit id
  let auditPassed := outcome.totalViolations == 0
  let now : Nat ← ask .instant
  pure {
    label := "architecture audit"
    passed := auditPassed
    timedOut := false
    cancelled := false
    durationMs := now - auditStarted
    log := outcome.reportFile
    detail := some (s!"{outcome.totalViolations} violation(s), {outcome.blockerCount} blocker(s), "
      ++ s!"{outcome.errorCount} error(s), {outcome.warningCount} warning(s)") }

/-- The results of the scan and of the audit, which only a clean scan lets run. -/
def gates (project : Project) (staged : Bool) : Flow (List TaskResult) := do
  let secretResult ← secretScan project staged
  if secretResult.passed then
    let auditResult ← architectureAudit
    pure [secretResult, auditResult]
  else pure [secretResult]

/-- The configured steps run only when the scan and the audit have passed. -/
def unlessFailed (steps : List TaskResult) (run : Flow (List TaskResult)) :
    Flow (List TaskResult) :=
  if steps.all (·.passed) then run else pure steps

/-- `run_selected`. -/
def runSelected (engine : RegexEngine) (project : Project) (scope : ScopeResult) (profile : String)
    (staged : Bool) (onlyStep : Option String) : Flow VerificationReport := do
  attempt (.writeScope scope) id
  let steps ← gates project staged
  let cancelled : Bool ← ask .cancelled
  if cancelled then bail "verification cancelled" else
  let steps ← unlessFailed steps
    (runConfiguredSteps engine project scope profile onlyStep steps)
  let passed := steps.all (·.passed)
  let timestamp : String ← ask .utcNow
  let report : VerificationReport := {
    timestamp := timestamp
    profile := (onlyStep.map fun id => s!"step:{id}").getD profile
    scope := scope
    steps := steps
    passed := passed }
  attempt (.writeReport report) id
  pure report

/-- `run`. -/
def run (engine : RegexEngine) (project : Project) (scope : ScopeResult) (profile : String)
    (staged : Bool) : Flow VerificationReport := do
  if !project.config.steps.any fun step => step.profiles.contains profile then
    bail s!"unknown or empty verification profile {repr profile}"
  runSelected engine project scope profile staged none

/-- `explicit_scope`. -/
def explicitScope (components : List String) : ScopeResult := {
  mode := "components"
  changedFiles := []
  components := components
  unmatchedFiles := [] }

/-- `run_step`. -/
def runOnly (engine : RegexEngine) (project : Project) (id : String) :
    Flow VerificationReport := do
  let some step := project.config.step id | bail s!"unknown verification step {repr id}"
  runSelected engine project (explicitScope [step.component]) project.config.defaultProfile false
    (some id)

end Flow

end ArcAdmin

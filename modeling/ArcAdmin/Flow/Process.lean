import ArcAdmin.Dialogue
import ArcAdmin.Flow.Config

/-!
# Commands and services

`process.rs`, `service.rs` and the parts of `project.rs` and `scope.rs` that the verification uses.
What runs outside the program (commands, containers, the secret scan, the audit, files, the clock,
signals) answers its questions, and can answer them in every way. What is printed is left out.
-/

namespace ArcAdmin

namespace Flow

open Dialogue (attempt)

/-! ## Data

Tasks and their results, as the report shows them.
-/

structure ScopeResult where
  mode : String
  changedFiles : List String
  components : List String
  unmatchedFiles : List String
  deriving DecidableEq

structure Task where
  label : String
  program : String
  args : List String
  cwd : String
  env : List (String × String)
  envRemove : List String
  timeout : Nat
  log : String
  deriving DecidableEq

structure TaskResult where
  label : String
  passed : Bool
  timedOut : Bool
  cancelled : Bool
  durationMs : Nat
  log : String
  detail : Option String
  deriving DecidableEq

structure VerificationReport where
  timestamp : String
  profile : String
  scope : ScopeResult
  steps : List TaskResult
  passed : Bool
  deriving DecidableEq

structure AuditOutcome where
  totalViolations : Nat
  blockerCount : Nat
  errorCount : Nat
  warningCount : Nat
  reportFile : String
  deriving DecidableEq

inductive SecretMode where
  | staged
  | workingTree
  deriving DecidableEq

/-- An exit status: the code, unless a signal ended the process. -/
structure ExitStatus where
  code : Option Int
  deriving DecidableEq

def ExitStatus.success (status : ExitStatus) : Bool := status.code == some 0

/-- How the loop of `Task::run` is left: the child ended, or it was terminated because the
verification was cancelled or its time was over. -/
inductive Ended where
  | exited (status : ExitStatus)
  | cancelled (status : ExitStatus)
  | timedOut (status : ExitStatus)
  deriving DecidableEq

/-! ## The outside

Each question has its own type of answers. A command may not be found, may end in any way, and may
be ended by a signal or its timeout.
-/

/-- The questions to the outside. -/
inductive Call where
  /-- `Instant::now`, in milliseconds -/
  | instant
  /-- `Utc::now().to_rfc3339()` -/
  | utcNow
  /-- `process::cancelled` -/
  | cancelled
  /-- `ScopeResult::write_reports` -/
  | writeScope (scope : ScopeResult)
  /-- `secrets::scan` -/
  | scan (mode : SecretMode)
  /-- `audit::run` -/
  | audit
  /-- `RunningService::start`: the variable that the service injects and its value -/
  | startService (id : String) (config : ServiceConfig)
  /-- the directory of a log and the log are created -/
  | createLog (log : String)
  /-- `Command::spawn` -/
  | spawn (task : Task)
  /-- the loop that waits for the child -/
  | wait (task : Task)
  /-- `fs::read_to_string(..).unwrap_or_default()` -/
  | readLog (log : String)
  /-- `VerificationReport::write` -/
  | writeReport (report : VerificationReport)
  deriving DecidableEq

/-- What the outside answers. -/
@[reducible] def Call.Answer : Call → Type
  | .instant => Nat
  | .utcNow => String
  | .cancelled => Bool
  | .writeScope _ => Except Error Unit
  | .scan _ => Except Error (List String)
  | .audit => Except Error AuditOutcome
  | .startService _ _ => Except Error (String × String)
  | .createLog _ => Except Error Unit
  | .spawn _ => Except Error Unit
  | .wait _ => Except Error Ended
  | .readLog _ => String
  | .writeReport _ => Except Error Unit

abbrev Flow := Dialogue Call Call.Answer Error

abbrev Exchange := Dialogue.Exchange Call.Answer

def ask (call : Call) : Flow call.Answer := Dialogue.query call

def bail {α : Type} (message : Error) : Flow α := .throw message

/-! ## Commands

A task is spawned, waited for, and its outcome put into a result. A command that cannot be started
is an error, which ends the run; one that fails has a result.
-/

/-- The result of a task whose loop was left with `ended`. -/
def Task.result (task : Task) (ended : Ended) (durationMs : Nat) : TaskResult :=
  let (status, timedOut, wasCancelled) : ExitStatus × Bool × Bool :=
    match ended with
    | .exited status => (status, false, false)
    | .cancelled status => (status, false, true)
    | .timedOut status => (status, true, false)
  { label := task.label
    passed := status.success && !timedOut && !wasCancelled
    timedOut := timedOut
    cancelled := wasCancelled
    durationMs := durationMs
    log := task.log
    detail :=
      if wasCancelled then some "cancelled"
      else if timedOut then some "timed out"
      else if status.success then none
      else status.code.map fun code => s!"exit code {code}" }

/-- `Task::run`. -/
def Task.run (task : Task) : Flow TaskResult := do
  attempt (.createLog task.log) id
  let started : Nat ← ask .instant
  attempt (.spawn task) (context s!"start {task.program}")
  let ended : Ended ← attempt (.wait task) id
  let now : Nat ← ask .instant
  pure (task.result ended (now - started))

/-! ## Services

A service is started once, when the first step needs it. Its failure is remembered as well.
-/

/-- `ServiceManager`: the services that have been started and those that could not be. -/
structure ServiceManager where
  running : List (String × (String × String))
  failures : List (String × Error)

namespace ServiceManager

def new : ServiceManager := { running := [], failures := [] }

/-- What the manager learns from starting a service. -/
def note (services : ServiceManager) (id : String) :
    Except Error (String × String) → ServiceManager
  | .ok service => { services with running := (id, service) :: services.running }
  | .error detail => { services with failures := (id, detail) :: services.failures }

/-- `ServiceManager::environment`. The manager keeps what it has learned also when the result is
an error. -/
def environment (services : ServiceManager) (config : FlowConfig) (id : String) :
    Flow (Except Error (String × String) × ServiceManager) :=
  match services.failures.lookup id, services.running.lookup id, config.service id with
  | some error, _, _ => pure (.error s!"service {repr id} previously failed: {error}", services)
  | none, some service, _ => pure (.ok service, services)
  | none, none, none => pure (.error s!"unknown service {repr id}", services)
  | none, none, some serviceConfig => do
    let started : Except Error (String × String) ← ask (.startService id serviceConfig)
    pure (started, services.note id started)

end ServiceManager

/-! ## The project

Paths and templates, as far as tasks need them.
-/

/-- The part of `Project` that the verification uses. -/
structure Project where
  config : FlowConfig
  reports : String
  /-- the values of `{audit_config}`, `{secrets_config}`, `{reports}` and `{root}`, in this order -/
  reserved : List (String × String)
  aliases : List (String × String)

/-- `PathBuf::join` with a file name. -/
def join (directory name : String) : String := directory ++ "/" ++ name

/-- `Project::expand`: each alias and then each reserved name is replaced by its path. -/
def Project.expand (project : Project) (value : String) : String :=
  (project.aliases ++ project.reserved).foldl
    (fun (resolved : String) (name, path) => resolved.replace ("\x7b" ++ name ++ "\x7d") path) value

end Flow

end ArcAdmin

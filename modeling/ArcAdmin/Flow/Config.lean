import ArcAdmin.Results
import ArcAdmin.Text

/-!
# The configuration of the verification workflow

What `config.rs` of arc-flow says of services, parsers and steps, with the checks that relate them
to each other. The checks that look at one text alone (identifiers, programs, paths, environment
names, templates) are not modelled.
-/

namespace ArcAdmin

namespace Flow

/-- The text `{error:#}` of an error: its contexts and its cause. -/
abbrev Error := String

/-- `Context::with_context`. -/
def context {α : Type} (message : String) : Except Error α → Except Error α :=
  Except.mapError fun error => message ++ ": " ++ error

/-! ## Results

When a chain of checks succeeds.
-/

theorem context_ok {α : Type} {message : String} {x : Except Error α} {a : α} :
    context message x = .ok a ↔ x = .ok a := by
  cases x with
  | error e => exact ⟨fun h => (nomatch h), fun h => (nomatch h)⟩
  | ok b => exact Iff.rfl

/-! ## Regular expressions

The crate `regex` is a parameter: whether a pattern compiles, and what the compiled one captures.
-/

/-- A compiled pattern of the `regex` crate. -/
structure Regex where
  /-- the number of its capture groups, of which group 0 is the whole match -/
  capturesLen : Nat
  /-- `captures_iter`: for each match the text of each group that took part in it -/
  capturesIter : String → List (Nat → Option String)
  replaceAll : String → String → String

/-- `Regex::new`. -/
abbrev RegexEngine := String → Except Error Regex

/-! ## Data

The configuration as it has been deserialized, with the lookups by identifier.
-/

inductive ExternalValuePolicy where
  | none
  | isolatedPostgres
  deriving DecidableEq

inductive ServiceConfig where
  | docker (image : String) (imageEnv externalEnv : Option String) (injectEnv : String)
      (externalValuePolicy : ExternalValuePolicy) (startupTimeoutSecs : Nat)
      (timeoutEnv : Option String) (containerPort : Nat) (environment : List (String × String))
      (healthcheck : List String) (connection : String)
  | environment (sourceEnv injectEnv : String)
  deriving DecidableEq

def ServiceConfig.injectEnv : ServiceConfig → String
  | .docker _ _ _ injectEnv .. => injectEnv
  | .environment _ injectEnv => injectEnv

inductive ParserConfig where
  | regex (patterns : List String) (capture minimum : Nat)
  deriving DecidableEq

structure StepConfig where
  id : String
  label : String
  component : String
  profiles : List String
  program : String
  args : List String
  cwd : String
  log : String
  timeoutSecs : Nat
  timeoutEnv : Option String
  parser : Option String
  services : List String
  removeEnv : List String
  deriving DecidableEq

structure FlowConfig where
  defaultProfile : String
  hookProfile : String
  requiredSteps : List String
  services : List (String × ServiceConfig)
  parsers : List (String × ParserConfig)
  steps : List StepConfig

namespace FlowConfig

def step (config : FlowConfig) (id : String) : Option StepConfig :=
  config.steps.find? fun step => step.id == id

def parser (config : FlowConfig) (id : String) : Option ParserConfig :=
  config.parsers.lookup id

def service (config : FlowConfig) (id : String) : Option ServiceConfig :=
  config.services.lookup id

/-! ## Validation

The checks in the order of the source; the first that fails is the error. What the verification
relies on is that each step names services and parsers that exist.
-/

/-- `if condition { bail!(..) }`. -/
def bailIf (condition : Bool) (message : Error) : Except Error Unit :=
  if condition then .error message else .ok ()

theorem bailIf_ok {condition : Bool} {message : Error} :
    bailIf condition message = .ok () ↔ condition = false := by
  cases condition with
  | true => exact ⟨fun h => (nomatch h), fun h => (nomatch h)⟩
  | false => exact ⟨fun _ => rfl, fun _ => rfl⟩

/-- The check of one pattern of a parser. -/
def validatePattern (engine : RegexEngine) (id : String) (capture : Nat) (pattern : String) :
    Except Error Unit := do
  let regex ← context s!"parser {repr id} has invalid regex" (engine pattern)
  bailIf (regex.capturesLen ≤ capture) s!"parser {repr id} regex has no capture group {capture}"

/-- The body of the loop of `validate_parsers`. -/
def validateParser (engine : RegexEngine) : String × ParserConfig → Except Error Unit
  | (id, .regex patterns capture minimum) => do
    bailIf (patterns.isEmpty || minimum == 0)
      s!"parser {repr id} requires patterns and minimum greater than zero"
    patterns.forM (validatePattern engine id capture)

/-- `config.validate_parsers()`. -/
def validateParsers (config : FlowConfig) (engine : RegexEngine) : Except Error Unit :=
  config.parsers.forM (validateParser engine)

/-- The services of a step: each is configured, none is named twice, and no two inject one
variable or a variable that the step removes. -/
def validateStepServices (config : FlowConfig) (step : StepConfig) :
    List String → List String → List String → Except Error Unit
  | [], _, _ => .ok ()
  | service :: rest, stepServices, serviceEnvs => do
    bailIf (stepServices.contains service)
      s!"step {repr step.id} contains duplicate service {repr service}"
    match config.service service with
    | none => .error s!"step {repr step.id} references unknown service {repr service}"
    | some serviceConfig => do
      let injectEnv := serviceConfig.injectEnv
      bailIf (serviceEnvs.contains injectEnv)
        s!"step {repr step.id} has multiple services injecting {injectEnv}"
      bailIf (step.removeEnv.contains injectEnv)
        s!"step {repr step.id} may not remove service injection variable {injectEnv}"
      validateStepServices config step rest (service :: stepServices) (injectEnv :: serviceEnvs)

/-- `validate_step`. -/
def validateStep (config : FlowConfig) (step : StepConfig) : Except Error Unit := do
  bailIf (isEmpty (trim step.label) || step.profiles.isEmpty)
    s!"step {repr step.id} requires a label and at least one profile"
  bailIf (step.timeoutSecs == 0 || 3600 < step.timeoutSecs)
    s!"step {repr step.id} timeout_secs must be between 1 and 3600"
  let parser := step.parser.getD ""
  bailIf (step.parser.any fun parser => (config.parser parser).isNone)
    s!"step {repr step.id} references unknown parser {repr parser}"
  validateStepServices config step step.services [] []

/-- The loop of `validate_steps` over the steps. -/
def validateEachStep (config : FlowConfig) : List StepConfig → List String → Except Error Unit
  | [], _ => .ok ()
  | step :: rest, ids => do
    bailIf (ids.contains step.id) s!"duplicate verification step id {repr step.id}"
    validateStep config step
    validateEachStep config rest (step.id :: ids)

/-- The loop of `validate_steps` over the profiles of the project. -/
def validateProfile (config : FlowConfig) (profile : String) : Except Error Unit :=
  bailIf (!config.steps.any fun step => step.profiles.contains profile)
    s!"configured profile {repr profile} is not used by any step"

/-- The loop of `validate_steps` over the policy. -/
def validateRequired (config : FlowConfig) : List String → List String → Except Error Unit
  | [], _ => .ok ()
  | id :: rest, required => do
    bailIf (required.contains id) s!"duplicate policy.required_steps entry {repr id}"
    bailIf (config.step id).isNone s!"policy requires missing verification step {repr id}"
    validateRequired config rest (id :: required)

/-- `config.validate_steps()`. -/
def validateSteps (config : FlowConfig) : Except Error Unit := do
  bailIf config.steps.isEmpty "steps must not be empty"
  validateEachStep config config.steps []
  [config.defaultProfile, config.hookProfile].forM (validateProfile config)
  validateRequired config config.requiredSteps []

/-- `config.validate()`. -/
def validate (config : FlowConfig) (engine : RegexEngine) : Except Error Unit := do
  validateParsers config engine
  validateSteps config

end FlowConfig

end Flow

end ArcAdmin

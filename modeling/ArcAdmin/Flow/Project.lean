import ArcAdmin.Flow.Config
import ArcAdmin.Replacement

/-!
# The paths of a project

`project.rs`, and the parts of `config.rs` that look at templates. A text is the list of its
characters. A project has been discovered: its paths have been resolved, and are absolute.
-/

namespace ArcAdmin

namespace Flow

open Replacement

abbrev Text := List Char

/-! ## Names

Reserved names and aliases, and how a placeholder is written.
-/

def rootName : Text := "root".toList

def reportsName : Text := "reports".toList

def auditConfigName : Text := "audit_config".toList

def secretsConfigName : Text := "secrets_config".toList

def hostPortName : Text := "host_port".toList

/-- `validate_id`: a lowercase identifier. -/
def isId (value : Text) : Bool :=
  !value.isEmpty &&
    value.all fun c => isAsciiLowercase c || isAsciiDigit c || ".-_".toList.contains c

/-- The names that a path alias may not have. -/
def isReserved (name : Text) : Bool :=
  [rootName, reportsName, auditConfigName, secretsConfigName, hostPortName].contains name

/-- The placeholder of a name. -/
def placeholder (name : Text) : Text := '\x7b' :: (name ++ ['\x7d'])

/-! ## The project

`expand` replaces one name after the other, in every place; `validate_template` has made sure
before that each placeholder is one of them.
-/

structure ProjectPaths where
  root : Text
  reports : Text
  auditConfig : Text
  secretsConfig : Text
  /-- the path aliases in the order in which they are stored, resolved -/
  aliases : List (Text × Text)
  aliases_nodup : (aliases.map Prod.fst).Nodup
  aliases_valid : ∀ name ∈ aliases.map Prod.fst, isId name = true ∧ isReserved name = false
  /-- what `resolve_repo_path` returns is absolute -/
  absolute : ∀ path ∈ root :: reports :: auditConfig :: secretsConfig :: aliases.map Prod.snd,
    path.head? = some '/'

namespace ProjectPaths

variable (project : ProjectPaths)

def path (name : Text) : Option Text :=
  if name = rootName then some project.root
  else if name = reportsName then some project.reports
  else if name = auditConfigName then some project.auditConfig
  else if name = secretsConfigName then some project.secretsConfig
  else project.aliases.lookup name

/-- One turn of the loops of `expand`. -/
def replaceName (resolved name : Text) : Text :=
  match project.path name with
  | some path => replaceAll (placeholder name) path resolved
  | none => resolved

/-- The names in the order in which `expand` replaces them. -/
def names : List Text :=
  project.aliases.map Prod.fst ++ [auditConfigName, secretsConfigName, reportsName, rootName]

def expand (value : Text) : Text := project.names.foldl project.replaceName value

def allowedPlaceholder (name : Text) : Bool :=
  [rootName, reportsName, auditConfigName, secretsConfigName].contains name ||
    (project.aliases.map Prod.fst).contains name

/-- The loop of `validate_template`; every turn takes a placeholder off the text. -/
def validatePlaceholders (owner : String) (value : Text) : Nat → Text → Except Error Unit
  | 0, _ => .ok ()
  | fuel + 1, rest =>
    match rest.dropWhile (· != '\x7b') with
    | [] => .ok ()
    | _ :: tail =>
      match tail.dropWhile (· != '\x7d') with
      | [] =>
        let text := String.ofList value
        .error s!"{repr owner} contains an unterminated placeholder in {repr text}"
      | _ :: rest => do
        let name := String.ofList (tail.takeWhile (· != '\x7d'))
        FlowConfig.bailIf (!project.allowedPlaceholder (tail.takeWhile (· != '\x7d')))
          s!"{repr owner} contains unsupported placeholder \x7b{name}\x7d"
        validatePlaceholders owner value fuel rest

def validateTemplate (owner : String) (value : Text) : Except Error Unit := do
  FlowConfig.bailIf (value.contains '\x00') s!"{repr owner} contains a NUL value"
  project.validatePlaceholders owner value (value.length + 1) value

end ProjectPaths

end Flow

end ArcAdmin

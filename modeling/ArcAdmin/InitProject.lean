import ArcAdmin.Lines
import ArcAdmin.Upgrade.Plan

/-!
# Project initialization

The options of `scripts/init-project.mjs`, and the environment files that it writes from the example
files: each key's line is replaced by `String.replace` with a regular expression, in one growing text.
-/

namespace ArcAdmin.InitProject

open Lines
open Upgrade (isSpace isLineTerminator codeUnits)

abbrev Text := List Char

def fail {α : Type} (message : String) : Except String α := .error message

/-- What the script uses of `URL`. A serialized address is printable ASCII. -/
structure UrlApi where
  Url : Type
  parse : Text → Option Url
  protocol : Url → Text
  username : Url → Text
  password : Url → Text
  search : Url → Text
  hash : Url → Text
  setPathname : Url → Text → Url
  serialize : Url → Text
  printable : ∀ url, ∀ c ∈ serialize url, 0x20 ≤ c.toNat ∧ c.toNat ≤ 0x7E

/-! ## Strings

The parts of JavaScript that the script relies on. A text is a list of characters; `JSON.parse`
yields code units, since an escape may stand for half of a surrogate pair.
-/

/-- `trim()`. -/
def trim (text : Text) : Text :=
  ((text.dropWhile isSpace).reverse.dropWhile isSpace).reverse

def hexDigit (n : Nat) : Char := if n < 10 then Char.ofNat (0x30 + n) else Char.ofNat (0x57 + n)

/-- How `JSON.stringify` writes one character of a string. -/
def escapeChar (c : Char) : Text :=
  if c = '"' then ['\\', '"']
  else if c = '\\' then ['\\', '\\']
  else if c.toNat = 0x08 then ['\\', 'b']
  else if c.toNat = 0x09 then ['\\', 't']
  else if c.toNat = 0x0A then ['\\', 'n']
  else if c.toNat = 0x0C then ['\\', 'f']
  else if c.toNat = 0x0D then ['\\', 'r']
  else if c.toNat < 0x20 then ['\\', 'u', '0', '0', hexDigit (c.toNat / 16), hexDigit (c.toNat % 16)]
  else [c]

/-- `JSON.stringify` of a string. -/
def stringify (text : Text) : Text := '"' :: (text.flatMap escapeChar ++ ['"'])

def hexValue (c : Char) : Option Nat :=
  let n := c.toNat
  if 0x30 ≤ n ∧ n ≤ 0x39 then some (n - 0x30)
  else if 0x61 ≤ n ∧ n ≤ 0x66 then some (n - 0x57)
  else if 0x41 ≤ n ∧ n ≤ 0x46 then some (n - 0x37)
  else none

/-- The code unit that `\` and a letter stand for. -/
def shortEscape (c : Char) : Option Nat :=
  if c = '"' then some 0x22
  else if c = '\\' then some 0x5C
  else if c = '/' then some 0x2F
  else if c = 'b' then some 0x08
  else if c = 'f' then some 0x0C
  else if c = 'n' then some 0x0A
  else if c = 'r' then some 0x0D
  else if c = 't' then some 0x09
  else none

/-- `JSON.parse` of a string behind its first quotation mark: the code units. -/
def parseChars : Text → Option (List Nat)
  | [] => none
  | '"' :: rest => if rest = [] then some [] else none
  | '\\' :: 'u' :: a :: b :: c :: d :: rest => do
    let a ← hexValue a
    let b ← hexValue b
    let c ← hexValue c
    let d ← hexValue d
    let units ← parseChars rest
    return (((a * 16 + b) * 16 + c) * 16 + d) :: units
  | '\\' :: c :: rest => do
    let unit ← shortEscape c
    let units ← parseChars rest
    return unit :: units
  | c :: rest => do
    if c = '\\' ∨ c.toNat < 0x20 then none
    let units ← parseChars rest
    return codeUnits (String.ofList [c]) ++ units

def parseString : Text → Option (List Nat)
  | '"' :: rest => parseChars rest
  | _ => none

/-- What a replacement refers to with `$`. -/
structure Match where
  matched : Text
  before : Text
  capture : Text
  behind : Text

/-- The replacement text of `String.replace` (`GetSubstitution`, for one group and no named ones). -/
def getSubstitution (m : Match) : Text → Text
  | '$' :: '$' :: rest => '$' :: getSubstitution m rest
  | '$' :: '&' :: rest => m.matched ++ getSubstitution m rest
  | '$' :: '`' :: rest => m.before ++ getSubstitution m rest
  | '$' :: '\'' :: rest => m.behind ++ getSubstitution m rest
  | '$' :: '1' :: rest => m.capture ++ getSubstitution m rest
  | '$' :: '0' :: '1' :: rest => m.capture ++ getSubstitution m rest
  | c :: rest => c :: getSubstitution m rest
  | [] => []

/-! ## Options

Options come in pairs of a name and a value. The regular expressions are written as recursions
that accept the same texts.
-/

inductive OptionKey where
  | slug | title | database | permissionPrefix | shortName | apiBaseUrl
  deriving DecidableEq

def optionKey (option : Text) : Option OptionKey :=
  if option = "--slug".toList then some .slug
  else if option = "--title".toList then some .title
  else if option = "--database".toList then some .database
  else if option = "--permission-prefix".toList then some .permissionPrefix
  else if option = "--short-name".toList then some .shortName
  else if option = "--api-base-url".toList then some .apiBaseUrl
  else none

structure Options where
  slug : Text
  title : Text
  shortName : Text
  database : Text
  permissionPrefix : Text
  apiBaseUrl : Text
  deriving DecidableEq

inductive Parsed where
  | help
  | options (options : Options)
  deriving DecidableEq

def normalizedText (value : Option Text) (option : String) (maximumLength : Nat) :
    Except String Text := do
  let normalized := trim (value.getD [])
  if normalized = [] then fail s!"{option} 不能为空"
  if '\n' ∈ normalized ∨ '\r' ∈ normalized then fail s!"{option} 不能包含换行符"
  if maximumLength < normalized.length then
    fail s!"{option} 最多允许 {maximumLength} 个字符"
  return normalized

def isLower (c : Char) : Bool := 'a' ≤ c && c ≤ 'z'

def isDigit (c : Char) : Bool := '0' ≤ c && c ≤ '9'

/-- `[a-z0-9]*(?:-[a-z0-9]+)*$`; `fresh` directly behind a hyphen. -/
def slugRest : Bool → Text → Bool
  | fresh, [] => ! fresh
  | fresh, c :: rest =>
    if c == '-' then ! fresh && slugRest true rest
    else (isLower c || isDigit c) && slugRest false rest

/-- `/^[a-z][a-z0-9]*(?:-[a-z0-9]+)*$/`. -/
def isSlug : Text → Bool
  | [] => false
  | c :: rest => isLower c && slugRest false rest

/-- `/^[a-z][a-z0-9_]*$/`. -/
def isIdentifier : Text → Bool
  | [] => false
  | c :: rest => isLower c && rest.all fun c => isLower c || isDigit c || c == '_'

def normalizeApiBaseUrl (api : UrlApi) (value : Text) : Except String Text := do
  let text ← normalizedText (some value) "--api-base-url" 200
  let normalized := (text.reverse.dropWhile (· == '/')).reverse
  if normalized = [] then return ['/']
  if ['/'] <+: normalized then
    if ['/', '/'] <+: normalized ∨
        normalized.any (fun c => isSpace c || c == '\\' || c == '?' || c == '#') then
      fail "--api-base-url 必须以单斜杠开头，且不能包含空白、反斜杠、查询参数或片段"
    return normalized
  match api.parse normalized with
  | none => fail "--api-base-url 必须是以 / 开头的路径或有效的 HTTP(S) URL"
  | some parsed =>
    if api.protocol parsed ≠ "http:".toList ∧ api.protocol parsed ≠ "https:".toList then
      fail "--api-base-url 仅支持 HTTP(S) URL"
    if api.username parsed ≠ [] ∨ api.password parsed ≠ [] ∨ api.search parsed ≠ [] ∨
        api.hash parsed ≠ [] then
      fail "--api-base-url 不能包含凭据、查询参数或片段"
    return normalized

/-- The loop of `parseArguments` over pairs of arguments. -/
def readOptions (values : OptionKey → Option Text) :
    List Text → Except String (OptionKey → Option Text)
  | [] => .ok values
  | [option] =>
    match optionKey option with
    | none => fail s!"未知参数: {String.ofList option}"
    | some _ => fail s!"{String.ofList option} 缺少参数值"
  | option :: value :: rest =>
    match optionKey option with
    | none => fail s!"未知参数: {String.ofList option}"
    | some key =>
      if "--".toList <+: value then fail s!"{String.ofList option} 缺少参数值"
      else if (values key).isSome then fail s!"{String.ofList option} 不能重复指定"
      else readOptions (fun k => if k = key then some value else values k) rest

def parseArguments (api : UrlApi) (argv : List Text) : Except String Parsed := do
  if "-h".toList ∈ argv ∨ "--help".toList ∈ argv then return .help
  let values ← readOptions (fun _ => none) argv
  let slug ← normalizedText (values .slug) "--slug" 63
  if ! isSlug slug then
    fail "--slug 必须以小写字母开头，并且只能包含小写字母、数字和单个连字符"
  let database ← normalizedText (values .database) "--database" 63
  if ! isIdentifier database then
    fail "--database 必须以小写字母开头，并且只能包含小写字母、数字和下划线"
  let permissionPrefix ← normalizedText (values .permissionPrefix) "--permission-prefix" 32
  if ! isIdentifier permissionPrefix then
    fail "--permission-prefix 必须以小写字母开头，并且只能包含小写字母、数字和下划线"
  let title ← normalizedText (values .title) "--title" 80
  let shortName ← normalizedText (some ((values .shortName).getD title)) "--short-name" 24
  let apiBaseUrl ← normalizeApiBaseUrl api ((values .apiBaseUrl).getD "/api/v1".toList)
  return .options { slug, title, shortName, database, permissionPrefix, apiBaseUrl }

/-! ## Environment files

The values are put into the text one after the other, so what one step has put in is in the text
that the next one searches.
-/

/-- `/^v\d+\.\d+\.\d+$/`, which `FRAMEWORK_VERSION` has to match. -/
def isReleaseVersion (version : Text) : Bool :=
  match version with
  | 'v' :: rest =>
    let (major, rest) := rest.span isDigit
    match rest with
    | '.' :: rest =>
      let (minor, rest) := rest.span isDigit
      match rest with
      | '.' :: patch => major ≠ [] && minor ≠ [] && patch ≠ [] && patch.all isDigit
      | _ => false
    | _ => false
  | _ => false

def keyText (key : String) : Text := key.toList ++ ['=']

def replaceEnvValue (contents : Text) (key : String) (replacement : Text → Except String Text)
    (fileLabel : String) : Except String Text :=
  match search isLineTerminator (keyText key) true contents with
  | none => fail s!"{fileLabel} 缺少 {key}"
  | some (before, capture, behind) => do
    let value ← replacement (trim capture)
    let m : Match := { matched := keyText key ++ capture, before, capture, behind }
    return before ++ getSubstitution m (keyText key ++ value) ++ behind

def unquote (value : Text) : Text :=
  if 2 ≤ value.length ∧ ((['"'] <+: value ∧ ['"'] <:+ value) ∨ (['\''] <+: value ∧ ['\''] <:+ value)) then
    (value.drop 1).dropLast
  else value

/-- The new value of `DATABASE_URL`. -/
def databaseUrl (api : UrlApi) (database value : Text) : Except String Text :=
  match api.parse (unquote value) with
  | none => fail "backend/.env.example 中的 DATABASE_URL 无效"
  | some url => return stringify (api.serialize (api.setPathname url ('/' :: database)))

def backendName (options : Options) : Text := options.slug ++ "-backend".toList

def buildEnvironment (api : UrlApi) (contents : Text) (options : Options) : Except String Text := do
  let withDatabase ← replaceEnvValue contents "DATABASE_URL" (databaseUrl api options.database) "环境文件"
  let withServiceName ← replaceEnvValue withDatabase "SERVICE_NAME"
    (fun _ => .ok (backendName options)) "环境文件"
  replaceEnvValue withServiceName "WEBAUTHN_RP_NAME" (fun _ => .ok (stringify options.title)) "环境文件"

def replaceAll (fileLabel : String) (contents : Text) (replacements : List (String × Text)) :
    Except String Text :=
  replacements.foldlM (fun environment entry =>
    replaceEnvValue environment entry.1 (fun _ => .ok entry.2) fileLabel) contents

def observabilityValues (options : Options) (grafanaPassword : Text) : List (String × Text) :=
  [("COMPOSE_PROJECT_NAME", options.slug ++ "-observability".toList),
    ("MONITORING_NETWORK", options.slug ++ "-monitoring".toList),
    ("GRAFANA_ADMIN_PASSWORD", grafanaPassword)]

def buildObservabilityEnvironment (contents : Text) (options : Options) (grafanaPassword : Text) :
    Except String Text :=
  replaceAll "observability/.env.example" contents (observabilityValues options grafanaPassword)

def productionValues (options : Options) (frameworkVersion : Text) : List (String × Text) :=
  [("COMPOSE_PROJECT_NAME", options.slug),
    ("POSTGRES_DB", options.database),
    ("POSTGRES_USER", options.database),
    ("WEBAUTHN_RP_NAME", stringify options.title),
    ("SERVICE_NAME", options.slug ++ "-backend".toList),
    ("BACKEND_IMAGE", options.slug ++ "-backend:".toList ++ frameworkVersion),
    ("FRONTEND_IMAGE", options.slug ++ "-frontend:".toList ++ frameworkVersion),
    ("MONITORING_NETWORK", options.slug ++ "-monitoring".toList)]

def buildProductionEnvironment (contents : Text) (options : Options) (frameworkVersion : Text) :
    Except String Text :=
  replaceAll "deployment/.env.production.example" contents (productionValues options frameworkVersion)

end ArcAdmin.InitProject

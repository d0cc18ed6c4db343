import ArcAdmin.Flow.Config
import ArcAdmin.Net.Address
import ArcAdmin.Utf8

/-!
# The test database

`validate_isolated_postgres_url` of `service.rs`, and what a client connects to. `Url::parse` is a
parameter; a URL is what it makes of a text.
-/

namespace ArcAdmin

namespace Flow

open Net

/-- `url::Host`. -/
inductive UrlHost where
  | domain (name : List Char)
  | ipv4 (address : Ipv4Addr)
  | ipv6 (address : Ipv6Addr)
  deriving DecidableEq

/-- `Url`; `query` are its `query_pairs`. -/
structure Url where
  scheme : List Char
  host : Option UrlHost
  port : Option Nat
  path : List Char
  query : List (List Char × List Char)
  deriving DecidableEq

/-- `path_segments`. -/
def Url.pathSegments (url : Url) : Option (List (List Char)) :=
  match url.path with
  | '/' :: rest => some (rest.splitOn '/')
  | _ => none

structure PostgresTarget where
  host : List Char
  port : Nat
  database : List Char
  loopback : Bool

/-- `str::to_ascii_lowercase`. -/
def asciiLowercase (text : List Char) : List Char := text.map Char.toLower

/-- `IpAddr::is_loopback`. -/
def isLoopback : IpAddr → Bool
  | .v4 address => address.a == 127
  | .v6 address => address.segments == [0, 0, 0, 0, 0, 0, 0, 1]

/-- The names and addresses of the loopback interface. -/
def isLoopbackName (host : List Char) : Bool :=
  asciiLowercase host == "localhost".toList || (IpAddr.parse host).any isLoopback

/-- The host as it is compared, and whether it is a loopback host. -/
def UrlHost.target : UrlHost → List Char × Bool
  | .domain host => (asciiLowercase host, isLoopbackName host)
  | .ipv4 address => (address.chars, isLoopback (.v4 address))
  | .ipv6 address => (address.chars, isLoopback (.v6 address))

section Validator

variable (parse : List Char → Option Url)

/-- `parse_postgres_target` behind `Url::parse`. -/
def targetOf (url : Url) : Except Error PostgresTarget := do
  bailIf (!(url.scheme == "postgres".toList || url.scheme == "postgresql".toList))
    "test database URL must use the postgres or postgresql scheme"
  match url.host with
  | none => .error "test database URL must include a host"
  | some host =>
    match url.pathSegments with
    | none => .error "test database URL must include a database name"
    | some segments =>
      match segments.head?.filter (! ·.isEmpty) with
      | none => .error "test database URL must include a database name"
      | some database =>
        bailIf (segments.tail.any (! ·.isEmpty))
          "test database URL must contain exactly one database name"
        pure
          { host := host.target.1
            port := url.port.getD 5432
            database := asciiLowercase database
            loopback := host.target.2 }

/-- `same_host` and what is compared with it. -/
def PostgresTarget.same (target production : PostgresTarget) : Bool :=
  (target.host == production.host || target.loopback && production.loopback) &&
    target.port == production.port && target.database == production.database

end Validator

/-! ## The client

The other side: what a client connects to, given the same URL. It decodes the parts and lets query
parameters take their place, which the validator does not.
-/

/-- The bytes of a percent-encoded text. -/
def percentBytes : List Char → List UInt8
  | '%' :: a :: b :: rest =>
    match toDigit 16 a, toDigit 16 b with
    | some high, some low => UInt8.ofNat (high * 16 + low) :: percentBytes rest
    | _, _ => 37 :: percentBytes (a :: b :: rest)
  | c :: rest => String.utf8EncodeChar c ++ percentBytes rest
  | [] => []

/-- Percent-decoding, where it gives a text. -/
def percentDecode (text : List Char) : Option (List Char) := Utf8.decode (percentBytes text)

/-- `str::parse::<u16>`. -/
def parsePort (text : List Char) : Option Nat :=
  parseWith (readNumber 10 none true 65536) (if text.head? = some '+' then text.tail else text)

/-- What a client connects to where a URL names no host or no database. -/
structure ClientDefaults where
  host : List Char
  database : Url → List Char

structure ClientTarget where
  host : List Char
  port : Nat
  database : List Char
  deriving DecidableEq

/-- The last query parameter with the name. -/
def Url.parameter (url : Url) (name : String) : Option (List Char) :=
  ((url.query.filter (·.1 == name.toList)).getLast?).map Prod.snd

def UrlHost.decoded : UrlHost → Option (List Char)
  | .domain name => percentDecode name
  | .ipv4 address => some address.chars
  | .ipv6 address => some address.chars

/-- **What the client connects to**: the parts of the URL percent-decoded, unless there are parameters
in their place. -/
def clientTarget (defaults : ClientDefaults) (url : Url) : Option ClientTarget := do
  let host ← (url.host.map UrlHost.decoded).getD (some defaults.host)
  let path := url.path.dropWhile (· == '/')
  let database ← if path.isEmpty then some (defaults.database url) else percentDecode path
  let port ← ((url.parameter "port").map parsePort).getD (some (url.port.getD 5432))
  pure
    { host := (url.parameter "host").getD host
      port := port
      database := (url.parameter "dbname").getD database }

/-- The same database, where the loopback hosts are one. -/
def ClientTarget.same (target production : ClientTarget) : Prop :=
  (target.host = production.host ∨
      isLoopbackName target.host = true ∧ isLoopbackName production.host = true) ∧
    target.port = production.port ∧ target.database = production.database

end Flow

end ArcAdmin

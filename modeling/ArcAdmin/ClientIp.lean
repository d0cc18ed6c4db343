import ArcAdmin.Net.Address
import ArcAdmin.Text

/-!
# The address of a client

`resolve_client_ip` of `auth.rs`. The values of the field `X-Forwarded-For` are a list in the order
of the header lines; how a value becomes a text and which addresses a network contains are up to the
crates `http` and `ipnet`.
-/

namespace ArcAdmin

open Net

/-- What the code uses of the crates `http` and `ipnet`. -/
structure Network where
  HeaderValue : Type
  IpNet : Type
  toStr : HeaderValue → Option String
  contains : IpNet → IpAddr → Bool

def maxForwardedForLength : Nat := 1024

def maxForwardedForHops : Nat := 16

def canonicalIp : IpAddr → IpAddr
  | .v6 ipv6 =>
    match ipv6.toIpv4Mapped with
    | some ipv4 => .v4 ipv4
    | none => .v6 ipv6
  | .v4 ipv4 => .v4 ipv4

def parseForwardedIp (value : List Char) : Option IpAddr :=
  let value := (trim (String.ofList value)).toList
  ((IpAddr.parse value).or (parseSocketIp value)).map canonicalIp

/-- The addresses of one value of the field. -/
def parseForwardedFor (value : String) : Option (List IpAddr) :=
  (value.toList.splitOn ',').mapM parseForwardedIp

namespace Network

variable (net : Network)

def isTrustedProxy (ip : IpAddr) (trustedProxyCidrs : List net.IpNet) : Bool :=
  trustedProxyCidrs.any fun network => net.contains network ip

/-- The loop of `resolve_client_ip` over the reversed list. -/
def nearest (trustedProxyCidrs : List net.IpNet) (candidate : IpAddr) : List IpAddr → IpAddr
  | [] => candidate
  | forwardedIp :: rest =>
    if !net.isTrustedProxy candidate trustedProxyCidrs then candidate
    else nearest trustedProxyCidrs forwardedIp rest

/-- `HeaderMap::get`: the first value of the field. -/
def get (headers : List net.HeaderValue) : Option net.HeaderValue := headers.head?

def resolveClientIp (peerIp : IpAddr) (headers : List net.HeaderValue)
    (trustedProxyCidrs : List net.IpNet) : IpAddr :=
  let peerIp := canonicalIp peerIp
  if !net.isTrustedProxy peerIp trustedProxyCidrs then peerIp
  else
    match ((net.get headers).bind net.toStr).filter (byteLen · ≤ maxForwardedForLength) with
    | none => peerIp
    | some forwardedFor =>
      let forwarded := (parseForwardedFor forwardedFor).filter fun values =>
        !values.isEmpty && values.length ≤ maxForwardedForHops
      match forwarded with
      | none => peerIp
      | some forwarded => net.nearest trustedProxyCidrs peerIp forwarded.reverse

end Network

end ArcAdmin

import Simulcast.Url.Basic
/-!
# Servers that help to find a path

A server is written as a URL without slashes: `stun:HOST`, `turn:HOST`, or `stuns` and
`turns` over an encrypted transport, each with a port if need be.  A `turn` server may
name its transport as `?transport=udp` or `?transport=tcp`; a `stun` server has no query,
and one behind its plain name is ignored.

A `turn` server asks for credentials.  The relay holds none, so such a server is refused
even if its URL is in order.
-/

namespace Simulcast

namespace IceServer

/-- Why a server cannot be used. -/
inductive Fault where
  /-- The text has slashes like an ordinary URL. -/
  | slashes
  /-- The scheme is missing or is none of the four. -/
  | scheme
  | url (fault : Url.Fault)
  | noHost
  | stunQuery
  | turnQuery
  | transport
  | noCredentials
  deriving DecidableEq, Repr

/-- The text of a fault. -/
def Fault.message : Fault → String
  | slashes => "invalid url"
  | scheme => "unknown scheme type"
  | url fault => fault.message
  | noHost => "invalid hostname"
  | stunQuery => "queries not supported in stun address"
  | turnQuery => "invalid query"
  | transport => "invalid transport protocol type"
  | noCredentials => "turn server credentials required"

/-- Whether two slashes stand together. -/
def hasDoubleSlash : List Char → Bool
  | '/' :: '/' :: _ => true
  | _ :: rest => hasDoubleSlash rest
  | [] => false

/-- The part of a server's text that counts. -/
def relevant (text : List Char) : List Char :=
  if "stun".toList.isPrefixOf text then text.takeWhile (· ≠ '?') else text

/-- Puts slashes behind the scheme, if there is one. -/
def withSlashes (text : List Char) : Option (List Char) :=
  match text.dropWhile (· ≠ ':') with
  | _ :: rest => some (text.takeWhile (· ≠ ':') ++ ':' :: '/' :: '/' :: rest)
  | [] => none

/-- What is wrong with the query of a `turn` server, or else that it wants credentials. -/
def turnFault (query : List (List UInt8 × List UInt8)) : Fault :=
  match query with
  | [] => .noCredentials
  | [(name, value)] =>
    if name ≠ Utf8.encode "transport" then .turnQuery
    else if value ∈ [Utf8.encode "udp", Utf8.encode "tcp"] then .noCredentials
    else .transport
  | _ => .turnQuery

/-- What is wrong with a server's URL, if anything. -/
def urlFault (url : Url) : Option Fault :=
  if url.host.isNone then some .noHost
  else if url.scheme ∈ ["stun", "stuns"] then
    if url.queryPairs.isEmpty then none else some .stunQuery
  else if url.scheme ∈ ["turn", "turns"] then some (turnFault url.queryPairs)
  else some .scheme

/-- What is wrong with a server, if anything. -/
def fault (server : String) : Option Fault :=
  let text := relevant server.toList
  if hasDoubleSlash text then some .slashes
  else
    match withSlashes text with
    | none => some .scheme
    | some url =>
      match Url.ofText (String.ofList url) with
      | .ok url => urlFault url
      | .error fault => some (.url fault)

end IceServer

end Simulcast

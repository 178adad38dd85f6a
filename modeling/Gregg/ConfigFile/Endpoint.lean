import Gregg.Fleet.Config
import Gregg.Lib.Search

/-!
# Endpoints as they are typed

The readers of `gregg add` and `gregg remove`, which share one parser of `host:port` texts. URLs are
taken apart by the `url` crate, which stays a parameter, as does the standard library's reading and
printing of IP addresses.
-/

namespace Gregg.ConfigFile

open Fleet (IpSyntax normalizeHost containsText toAsciiLowercase)

/-- Default port for greggd endpoints. -/
def DEFAULT_PORT : UInt16 := 11310

inductive EndpointError where
  | emptyInput
  | hasScheme (input : List Char)
  | unsupportedScheme (scheme input : List Char)
  | malformedUrl (input : List Char)
  | hasPath (input : List Char)
  | hasCredentials (input : List Char)
  | portZero
  | portOverflow (input : List Char)
  | portNotANumber (input : List Char)
  | malformedBrackets (input : List Char)
  | emptyHost
  | invalidName (reason : String)
  | explicitPortRequired
  | ambiguousName (input : List Char)
  | multipleAtSeparators (input : List Char)
  deriving DecidableEq

/-- What an endpoint text names. -/
structure EndpointSpec where
  host : List Char
  /-- May be the default. -/
  port : UInt16
  portWasExplicit : Bool
  deriving DecidableEq

/-- A port within a text, which the errors show whole. -/
def parsePort (portText fullInput : List Char) : Except EndpointError UInt16 :=
  let trimmed := Text.trim portText
  if trimmed.isEmpty then .error (.malformedBrackets fullInput)
  else
    match Text.parseUsize trimmed with
    | none => .error (.portNotANumber fullInput)
    | some port =>
        if port = 0 then .error .portZero
        else if port > 65535 then .error (.portOverflow fullInput)
        else .ok (UInt16.ofNat port)

def isIpv6WithZoneId (ip : IpSyntax) (host : List Char) : Bool :=
  match Text.splitOnce '%' host with
  | none => false
  | some (address, zone) =>
      -- As in `normalizeHost`, a leading `25` belongs to an encoded separator.
      let zone :=
        if containsText ['%', '2', '5'] host && ['2', '5'].isPrefixOf zone then zone.drop 2
        else zone
      !zone.isEmpty && !zone.contains ':' && ip.isIpv6 address

/-- The text before and after the last colon. -/
def rsplitOnceColon (text : List Char) : Option (List Char × List Char) :=
  (Text.splitOnce ':' text.reverse).map fun (after, before) => (before.reverse, after.reverse)

/-- Whether a bare address may also be an address and a port. -/
def isAmbiguousBareIpv6WithPort (ip : IpSyntax) (input : List Char) : Bool :=
  match rsplitOnceColon input with
  | none => false
  | some (hostPart, portPart) =>
      if hostPart.getLast? = some ':' || hostPart.contains '%' then false
      else
        match Text.parseUsize portPart with
        | none => false
        | some port => 0 < port && port ≤ 65535 && (ip.reprint hostPart).isSome

namespace EndpointSpec

variable (ip : IpSyntax)

/-- A host without a port. -/
def ofHost (host : List Char) : Except EndpointError EndpointSpec :=
  match normalizeHost ip host with
  | none => .error .emptyHost
  | some host => .ok ⟨host, DEFAULT_PORT, false⟩

/-- A host and its port, of a text that the errors show whole. -/
def ofParts (hostPart portPart input : List Char) : Except EndpointError EndpointSpec := do
  let port ← parsePort portPart input
  match normalizeHost ip hostPart with
  | none => .error .emptyHost
  | some host => .ok ⟨host, port, true⟩

def parseBracketedIpv6 (input : List Char) : Except EndpointError EndpointSpec :=
  match Text.splitOnce ']' input with
  | none => .error (.malformedBrackets input)
  | some (before, rest) =>
      let address := before.drop 1
      if address.isEmpty then .error .emptyHost
      else
        match rest with
        | ':' :: portText =>
            if portText.any (['/', '?', '#'].contains ·) then .error (.hasPath input)
            else do
              let port ← parsePort portText input
              if !ip.isIpv6 address && !isIpv6WithZoneId ip address then
                .error (.malformedBrackets input)
              else
                match normalizeHost ip address with
                | none => .error (.malformedBrackets input)
                | some host => .ok ⟨host, port, true⟩
        | _ => .error (.malformedBrackets input)

/-- Parse a `host:port` text. -/
def parse (input : List Char) : Except EndpointError EndpointSpec :=
  let text := Text.trim input
  if text.isEmpty then .error .emptyInput
  else if containsText [':', '/', '/'] text then .error (.hasScheme text)
  else if text.head? ≠ some '[' ∧ '/' ∈ text then .error (.hasPath text)
  else if '@' ∈ text then .error (.hasCredentials text)
  else if text.head? = some '[' then parseBracketedIpv6 ip text
  else
    match text.count ':' with
    | 0 => ofHost ip text
    | 1 =>
        match rsplitOnceColon text with
        | none => .error (.malformedBrackets text)
        | some (hostPart, portPart) => ofParts ip hostPart portPart text
    | _ =>
        if (ip.reprint text).isSome || isIpv6WithZoneId ip text then
          if isAmbiguousBareIpv6WithPort ip text then .error (.malformedBrackets text)
          else ofHost ip text
        else
          match rsplitOnceColon text with
          | none => .error (.malformedBrackets text)
          | some (hostPart, portPart) =>
              if '%' ∈ text ∧ isIpv6WithZoneId ip hostPart = false then
                .error (.malformedBrackets text)
              else ofParts ip hostPart portPart text

/-- Parse a text that may name a host on its own, also one that reads as an address and a port. -/
def parseHostOnly (input : List Char) : Except EndpointError EndpointSpec :=
  let text := Text.trim input
  if (ip.reprint text).isSome || isIpv6WithZoneId ip text then ofHost ip text
  else parse ip text

end EndpointSpec

/-- What the `url` crate reports of a URL. -/
structure Url where
  scheme : List Char
  username : List Char
  hasPassword : Bool
  host : Option (List Char)
  /-- Omitted where it is the default of the scheme. -/
  port : Option UInt16

/-- `Url::parse`. -/
abbrev UrlSyntax := List Char → Option Url

def rawAuthorityHost (authority : List Char) : Option (List Char) :=
  match authority with
  | '[' :: rest => (Text.splitOnce ']' rest).map Prod.fst
  | _ =>
      match rsplitOnceColon authority with
      | some (host, _) => if ':' ∈ host then some authority else some host
      | none => some authority

def rawAuthorityPort (authority : List Char) : Option (List Char) :=
  match Text.splitOnce ']' authority with
  | some (_, rest) =>
      match rest with
      | ':' :: port => some port
      | _ => none
  | none =>
      match rsplitOnceColon authority with
      | some (host, port) => if ':' ∈ host then none else some port
      | none => none

def unbracketedHost (host : List Char) : List Char :=
  ((Search.stripPrefix ['['] host).bind (Search.stripSuffix [']'])).getD host

/-- The `host:port` text of a URL. -/
def urlEndpoint (url : Url) (text : List Char) : Except EndpointError (List Char) :=
  if toAsciiLowercase url.scheme ≠ "http".toList then
    .error (.unsupportedScheme url.scheme text)
  else
    let authority := ((Search.splitOnce "://".toList text).map fun (_, rest) =>
      rest.takeWhile fun character => !(['/', '?', '#'].contains character)).getD []
    if '@' ∈ authority ∨ url.username ≠ [] ∨ url.hasPassword = true then
      .error (.hasCredentials text)
    else
      match url.host with
      | none => .error .emptyHost
      | some parsedHost =>
          -- The raw authority keeps the separator of a zone as it was written.
          let host := unbracketedHost
            (((rawAuthorityHost authority).filter (·.contains '%')).getD parsedHost)
          let authorityHost := if ':' ∈ host then '[' :: host ++ [']'] else host
          let port := (url.port.map fun port => (toString port).toList).or
            (rawAuthorityPort authority)
          match port with
          | some port => .ok (authorityHost ++ ':' :: port)
          | none => .ok authorityHost

/-- Parse the endpoint input accepted by `gregg add`. -/
def EndpointSpec.parseAddInput (ip : IpSyntax) (urls : UrlSyntax) (input : List Char) :
    Except EndpointError EndpointSpec :=
  let text := Text.trim input
  if containsText [':', '/', '/'] text then
    match urls text with
    | none => .error (.malformedUrl text)
    | some url => do parse ip (← urlEndpoint url text)
  else parse ip text

/-- Validate a display name. -/
def validateName (name : List Char) : Except EndpointError Unit :=
  let trimmed := Text.trim name
  if trimmed.isEmpty then .error (.invalidName "name is empty")
  else if name ≠ trimmed then .error (.invalidName "name has surrounding whitespace")
  else if trimmed.any Text.isControl then
    .error (.invalidName "name contains control characters")
  else if trimmed.any (['@', ':', '/'].contains ·) then
    .error (.invalidName "name contains '@', ':', or '/'")
  else if (String.ofList trimmed).utf8ByteSize > Fleet.MAX_ENDPOINT_NAME_LEN then
    .error (.invalidName (s!"name is {(String.ofList trimmed).utf8ByteSize} bytes, " ++
      s!"exceeds maximum of {Fleet.MAX_ENDPOINT_NAME_LEN}"))
  else .ok ()

/-- The name and the endpoint of `gregg add`. -/
structure AddTarget where
  name : Option (List Char)
  endpoint : EndpointSpec

def looksLikeHttpUrl (input : List Char) : Bool :=
  let lower := toAsciiLowercase input
  "http://".toList.isPrefixOf lower || "https://".toList.isPrefixOf lower

/-- Parse the input accepted by `gregg add`. -/
def parseAddTarget (ip : IpSyntax) (urls : UrlSyntax) (input : List Char) :
    Except EndpointError AddTarget :=
  let trimmed := Text.trim input
  let unnamed := (EndpointSpec.parseAddInput ip urls trimmed).map fun spec =>
    (⟨none, spec⟩ : AddTarget)
  -- The credentials of a URL are never taken for a name.
  if looksLikeHttpUrl trimmed then unnamed
  else
    match Text.splitOnce '@' trimmed with
    | none => unnamed
    | some (nick, rest) =>
        if '@' ∈ rest then .error (.multipleAtSeparators trimmed)
        else
          let nick := Text.trim nick
          if nick.isEmpty then .error (.invalidName "nickname prefix is empty")
          else do
            validateName nick
            let spec ← EndpointSpec.parseAddInput ip urls rest
            return ⟨some nick, spec⟩

/-- Canonical display address for a host and port. -/
def displayAddress (ip : IpSyntax) (host : List Char) (port : UInt16) : List Char :=
  match normalizeHost ip (unbracketedHost host) with
  | none => "<invalid>:".toList ++ (toString port).toList
  | some normalized =>
      if ':' ∈ normalized then '[' :: normalized ++ ']' :: ':' :: (toString port).toList
      else normalized ++ ':' :: (toString port).toList

end Gregg.ConfigFile

import Gregg.ConfigFile.Endpoint

/-!
# The EggPool endpoint as it is typed

The parser of `gregg eggpool`, stricter than the one of `gregg add`: more than one colon is never a
host and a port.
-/

namespace Gregg.ConfigFile

open Fleet (IpSyntax containsText toAsciiLowercase)

def DEFAULT_EGGPOOL_PORT : UInt16 := 11300

inductive EggpoolEndpointError where
  | emptyInput
  | hasScheme
  | hasPath
  | hasCredentials
  | malformedBrackets
  | emptyHost
  | invalidPort
  deriving DecidableEq

/-- The `normalize_host` of EggPool endpoints, which lowers the case of a name. -/
def eggpoolNormalizeHost (ip : IpSyntax) (host : List Char) :
    Except EggpoolEndpointError (List Char) :=
  let host := Text.trim host
  if host.isEmpty then .error .emptyHost
  else
    let address := (ip.reprint host).getD (toAsciiLowercase host)
    match Text.splitOnce '%' host with
    | some (before, zone) =>
        if ip.isIpv6 before && !zone.contains ':' then
          let zone :=
            if containsText ['%', '2', '5'] host && ['2', '5'].isPrefixOf zone then zone.drop 2
            else zone
          if zone.isEmpty then .error .emptyHost else .ok (before ++ ['%', '2', '5'] ++ zone)
        else .ok address
    | none => .ok address

/-- The `parse_port` of EggPool endpoints, where no space may stand around the number. -/
def eggpoolParsePort (port : List Char) : Except EggpoolEndpointError UInt16 :=
  match Text.parseUsize port with
  | none => .error .invalidPort
  | some port => if port = 0 ∨ port > 65535 then .error .invalidPort else .ok (UInt16.ofNat port)

/-- What an EggPool endpoint text names. -/
structure EggpoolEndpointSpec where
  host : List Char
  port : UInt16
  portWasExplicit : Bool
  deriving DecidableEq

namespace EggpoolEndpointSpec

variable (ip : IpSyntax)

def ofHost (host : List Char) : Except EggpoolEndpointError EggpoolEndpointSpec := do
  return ⟨← eggpoolNormalizeHost ip host, DEFAULT_EGGPOOL_PORT, false⟩

def parseBracketed (input : List Char) : Except EggpoolEndpointError EggpoolEndpointSpec :=
  match Text.splitOnce ']' input with
  | none => .error .malformedBrackets
  | some (before, rest) =>
      let host := before.drop 1
      match rest with
      | ':' :: portText =>
          if host.isEmpty then .error .malformedBrackets
          else if (ip.reprint host).isNone && !isIpv6WithZoneId ip host then
            .error .malformedBrackets
          else do
            let port ← eggpoolParsePort portText
            return ⟨← eggpoolNormalizeHost ip host, port, true⟩
      | _ => .error .malformedBrackets

/-- Parse `HOST`, `HOST:PORT`, `[IPv6]:PORT`, or bare IPv6. -/
def parse (input : List Char) : Except EggpoolEndpointError EggpoolEndpointSpec :=
  let text := Text.trim input
  if text.isEmpty then .error .emptyInput
  else if containsText [':', '/', '/'] text then .error .hasScheme
  else if text.any (['/', '?', '#'].contains ·) then .error .hasPath
  else if '@' ∈ text then .error .hasCredentials
  else if text.head? = some '[' then parseBracketed ip text
  else if (ip.reprint text).isSome || isIpv6WithZoneId ip text then
    if isAmbiguousBareIpv6WithPort ip text then .error .malformedBrackets else ofHost ip text
  else if text.count ':' > 1 then .error .malformedBrackets
  else
    match Text.splitOnce ':' text with
    | some (host, port) => do
        let host ← eggpoolNormalizeHost ip host
        return ⟨host, ← eggpoolParsePort port, true⟩
    | none => ofHost ip text

end EggpoolEndpointSpec

end Gregg.ConfigFile

import Gregg.ConfigFile.EggpoolEndpoint
import Gregg.Fleet.State

/-!
# The stored client configuration

What a configuration file may hold and the commands that change it. A file is read by the `toml`
crate, then its hosts are normalized and all of it is validated; a change is validated before it is
written.
-/

namespace Gregg.ConfigFile

open Clientd (SystemEntry)
open Fleet (IpSyntax CronConfig normalizeHost eqIgnoreAsciiCase)

def MIN_REFRESH_SECONDS : ℕ := 1
def MAX_REFRESH_SECONDS : ℕ := 3600
def MIN_REQUEST_TIMEOUT_MS : ℕ := 100
def MAX_REQUEST_TIMEOUT_MS : ℕ := 60000
def MAX_CONCURRENT_REQUESTS : ℕ := 64
def SUPPORTED_CONFIG_VERSION : ℕ := 1
def MAX_EGGPOOL_NAME_LEN : ℕ := 128
def MAX_ENV_NAME_LEN : ℕ := 128

inductive EggpoolScheme where
  | http
  | https
  deriving DecidableEq

structure EggpoolEntry where
  id : String
  host : List Char
  port : UInt16
  scheme : EggpoolScheme
  name : Option String
  apiKeyEnv : Option String
  deriving DecidableEq

structure Config where
  configVersion : ℕ
  refreshSeconds : ℕ
  requestTimeoutMs : ℕ
  maxConcurrentRequests : ℕ
  defaultPort : UInt16
  systems : List SystemEntry
  eggpool : Option EggpoolEntry
  cron : CronConfig
  deriving DecidableEq

def Config.default : Config :=
  ⟨SUPPORTED_CONFIG_VERSION, 5, 1500, 16, DEFAULT_PORT, [], none, CronConfig.default⟩

inductive ConfigViolation where
  | unsupportedConfigVersion (found : ℕ)
  | invalidRefreshSeconds (found : ℕ)
  | invalidRequestTimeout (found : ℕ)
  | invalidMaxConcurrentRequests (found : ℕ)
  | invalidPort (found : UInt16)
  /-- A violation of a system or of the cron depths. -/
  | fleet (violation : Fleet.ConfigViolation)
  | invalidEggpoolHost (host : List Char)
  | invalidEggpoolPort (port : UInt16)
  | invalidEggpoolName (reason : String)
  | eggpoolAlreadyConfigured
  | invalidEggpoolApiKeyEnv (value reason : String)
  deriving DecidableEq

def validateEggpoolName (name : String) : List ConfigViolation :=
  let trimmed := Text.trim name.toList
  if trimmed.isEmpty then [.invalidEggpoolName "name is empty"]
  else if trimmed ≠ name.toList then
    [.invalidEggpoolName "name must not have surrounding whitespace"]
  else if name.utf8ByteSize > MAX_EGGPOOL_NAME_LEN then
    [.invalidEggpoolName s!"name exceeds maximum length of {MAX_EGGPOOL_NAME_LEN}"]
  else []

def envNameValid (value : String) : Bool :=
  !value.toList.isEmpty && value.utf8ByteSize ≤ MAX_ENV_NAME_LEN &&
    value.toList.head?.any (fun first => first.isAlpha || first == '_') &&
    value.toList.all fun character => character.isAlphanum || character == '_'

/-- The check of a stored variable name, as the file's reader words it. -/
def validateEggpoolEnv (value : String) : List ConfigViolation :=
  if envNameValid value then []
  else
    [.invalidEggpoolApiKeyEnv value
      (if value.toList.isEmpty then "name is empty"
        else if value.utf8ByteSize > MAX_ENV_NAME_LEN then
          s!"name exceeds maximum length of {MAX_ENV_NAME_LEN}"
        else "name must match [A-Za-z_][A-Za-z0-9_]*")]

def validateEggpool (entry : EggpoolEntry) : List ConfigViolation :=
  let host := Text.trim entry.host
  (if host.isEmpty || Fleet.unusableHost host then [.invalidEggpoolHost entry.host] else []) ++
    (if entry.port = 0 then [.invalidEggpoolPort entry.port] else []) ++
    entry.name.elim [] validateEggpoolName ++ entry.apiKeyEnv.elim [] validateEggpoolEnv

/-- Every violation of a configuration. -/
def Config.validate (ip : IpSyntax) (config : Config) : List ConfigViolation :=
  (if config.configVersion ≠ SUPPORTED_CONFIG_VERSION then
      [.unsupportedConfigVersion config.configVersion] else []) ++
  (if config.refreshSeconds < MIN_REFRESH_SECONDS ∨ config.refreshSeconds > MAX_REFRESH_SECONDS
    then [.invalidRefreshSeconds config.refreshSeconds] else []) ++
  (if config.requestTimeoutMs < MIN_REQUEST_TIMEOUT_MS ∨
      config.requestTimeoutMs > MAX_REQUEST_TIMEOUT_MS
    then [.invalidRequestTimeout config.requestTimeoutMs] else []) ++
  (if config.maxConcurrentRequests = 0 ∨ config.maxConcurrentRequests > MAX_CONCURRENT_REQUESTS
    then [.invalidMaxConcurrentRequests config.maxConcurrentRequests] else []) ++
  (if config.defaultPort = 0 then [.invalidPort config.defaultPort] else []) ++
  (Fleet.validateSystemsFrom ip [] [] config.systems).map .fleet ++
  config.eggpool.elim [] validateEggpool ++ config.cron.validate.map .fleet

inductive ConfigError where
  | parse
  | validation (violations : List ConfigViolation)
  deriving DecidableEq

/-- A system with its host normalized. -/
def normalizeSystem (ip : IpSyntax) (system : SystemEntry) : Except ConfigError SystemEntry :=
  match normalizeHost ip system.host.toList with
  | some host => .ok { system with host := String.ofList host }
  | none =>
      .error (.validation [.fleet (.invalidHost system.id system.host)])

def normalizeEggpool (ip : IpSyntax) (entry : EggpoolEntry) : Except ConfigError EggpoolEntry :=
  match normalizeHost ip entry.host with
  | some host => .ok { entry with host }
  | none => .error (.validation [.invalidEggpoolHost entry.host])

/-- `Config::parse`, after the file was deserialized. -/
def Config.accept (ip : IpSyntax) (config : Config) : Except ConfigError Config := do
  let systems ← config.systems.mapM (normalizeSystem ip)
  let eggpool ← config.eggpool.mapM (normalizeEggpool ip)
  let config := { config with systems, eggpool }
  let violations := config.validate ip
  if violations.isEmpty then .ok config else .error (.validation violations)

/-- Every integer is within what a TOML document can hold. -/
def Config.IntegersFit (config : Config) : Prop :=
  ∀ value ∈ [config.configVersion, config.refreshSeconds, config.requestTimeoutMs,
    config.maxConcurrentRequests, config.cron.displayHistory, config.cron.cacheHistory],
    value < 2 ^ 63

/-- The `toml` crate's serializer and parser, inverse on configurations. -/
structure TomlCodec where
  serialize : Config → Option (List Char)
  deserialize : List Char → Option Config
  serializes : ∀ config : Config, config.IntegersFit → (serialize config).isSome = true
  inverse : ∀ config text, serialize config = some text → deserialize text = some config

/-- `Config::parse`. -/
def Config.parse (ip : IpSyntax) (codec : TomlCodec) (content : List Char) :
    Except ConfigError Config :=
  match codec.deserialize content with
  | none => .error .parse
  | some config => config.accept ip

section Commands

variable (ip : IpSyntax) (urls : UrlSyntax)

inductive CommandError where
  | endpoint (error : EndpointError)
  | eggpoolEndpoint (error : EggpoolEndpointError)
  | config (error : ConfigError)

/-- The change `gregg add` makes: a new entry, or with `--replace` the entry of the same address. -/
def addSystem (host : List Char) (port : UInt16) (name : Option String) (replace : Bool)
    (newId : String) (config : Config) : Except ConfigError Config :=
  match config.systems.findIdx? fun system =>
      system.port = port && eqIgnoreAsciiCase system.host.toList host with
  | some index =>
      if replace then
        .ok { config with
              systems := config.systems.modify index fun existing =>
                ⟨existing.id, String.ofList host, port, name⟩ }
      else .error (.validation [.fleet (.duplicateAddress (displayAddress ip host port))])
  | none =>
      .ok { config with
            systems := config.systems ++ [⟨newId, String.ofList host, port, name⟩] }

/-- `cmd_add`, up to the write. -/
def cmdAdd (input : List Char) (name : Option (List Char)) (replace : Bool) (newId : String)
    (config : Config) : Except CommandError Config := do
  let target ← (parseAddTarget ip urls input).mapError .endpoint
  if target.name.isSome && name.isSome then .error (.endpoint (.ambiguousName input))
  else if !target.endpoint.portWasExplicit then .error (.endpoint .explicitPortRequired)
  else
    let finalName := target.name.or name
    (finalName.elim (.ok ()) validateName).mapError .endpoint
    (addSystem ip target.endpoint.host target.endpoint.port (finalName.map String.ofList) replace
      newId config).mapError .config

/-- Whether `gregg remove` removes a system. -/
def removes (spec : EndpointSpec) (system : SystemEntry) : Bool :=
  eqIgnoreAsciiCase system.host.toList spec.host &&
    (!spec.portWasExplicit || system.port == spec.port)

/-- `cmd_remove`, up to the write. -/
def cmdRemove (input : List Char) (config : Config) : Except CommandError Config := do
  let spec ← (EndpointSpec.parseHostOnly ip input).mapError .endpoint
  return { config with systems := config.systems.filter (!removes spec ·) }

/-- `cmd_refresh`, up to the write. -/
def cmdRefresh (seconds : ℕ) (config : Config) : Except CommandError Config :=
  .ok { config with refreshSeconds := seconds }

/-- The check of a display name that `gregg eggpool add` makes, which reports it as the file's. -/
def checkEggpoolName (name : String) : Except ConfigError Unit :=
  let violations := validateEggpoolName name
  if violations.isEmpty then .ok () else .error (.validation violations)

/-- The check of a variable name that `gregg eggpool add` makes. -/
def checkEggpoolEnv (value : String) : Except ConfigError Unit :=
  if envNameValid value then .ok ()
  else
    .error (.validation [.invalidEggpoolApiKeyEnv value
      "name must match [A-Za-z_][A-Za-z0-9_]* and be at most 128 bytes"])

/-- `cmd_eggpool_add`, up to the write. -/
def cmdEggpoolAdd (input : List Char) (name : Option String) (https : Bool)
    (apiKeyEnv : Option String) (replace : Bool) (newId : String) (config : Config) :
    Except CommandError Config := do
  let spec ← (EggpoolEndpointSpec.parse ip input).mapError .eggpoolEndpoint
  (name.elim (.ok ()) checkEggpoolName).mapError .config
  (apiKeyEnv.elim (.ok ()) checkEggpoolEnv).mapError .config
  let entry : EggpoolEntry :=
    ⟨newId, spec.host, spec.port, if https then .https else .http, name, apiKeyEnv⟩
  match config.eggpool with
  | none => .ok { config with eggpool := some entry }
  | some existing =>
      if replace then .ok { config with eggpool := some { entry with id := existing.id } }
      else .error (.config (.validation [.eggpoolAlreadyConfigured]))

/-- `cmd_eggpool_remove`, up to the write. -/
def cmdEggpoolRemove (input : List Char) (config : Config) : Except CommandError Config := do
  let spec ← (EggpoolEndpointSpec.parse ip input).mapError .eggpoolEndpoint
  return { config with
    eggpool := config.eggpool.filter fun entry =>
      !(eqIgnoreAsciiCase entry.host spec.host &&
        (!spec.portWasExplicit || entry.port == spec.port)) }

/-- A command that changes the configuration. -/
inductive Change where
  | add (input : List Char) (name : Option (List Char)) (replace : Bool) (newId : String)
  | remove (input : List Char)
  | refresh (seconds : ℕ)
  | eggpoolAdd (input : List Char) (name : Option String) (https : Bool)
      (apiKeyEnv : Option String) (replace : Bool) (newId : String)
  | eggpoolRemove (input : List Char)

def Change.apply : Change → Config → Except CommandError Config
  | .add input name replace newId => cmdAdd ip urls input name replace newId
  | .remove input => cmdRemove ip input
  | .refresh seconds => cmdRefresh seconds
  | .eggpoolAdd input name https apiKeyEnv replace newId =>
      cmdEggpoolAdd ip input name https apiKeyEnv replace newId
  | .eggpoolRemove input => cmdEggpoolRemove ip input

end Commands

end Gregg.ConfigFile

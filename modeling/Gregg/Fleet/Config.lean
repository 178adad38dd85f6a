import Mathlib.Data.List.DropRight
import Gregg.RustStd
import Gregg.Clientd.PollPlane
import Gregg.Fleet.Cron

/-!
# The client configuration

The settings the daemon builds its fleet from and what an accepted configuration promises: system
ids are unique and hosts normalize to text without control characters. Parsing and printing of IP
addresses is the standard library's and stays a parameter.
-/

namespace Gregg.Fleet

open Clientd (SystemEntry Endpoint)

/-- Default number of terminal records a frontend displays per job. -/
def DEFAULT_DISPLAY_HISTORY : ℕ := 5

/-- Hard maximum a frontend may display. -/
def MAX_DISPLAY_HISTORY : ℕ := 20

/-- Maximum length for an endpoint display name. -/
def MAX_ENDPOINT_NAME_LEN : ℕ := 128

/-- `Ipv6Addr::from_str(..).is_ok()`, and `IpAddr::from_str` followed by `to_string`. -/
structure IpSyntax where
  isIpv6 : List Char → Bool
  reprint : List Char → Option (List Char)
  reprint_printable : ∀ text printed, reprint text = some printed →
    ∀ character ∈ printed, Text.isControl character = false

/-- `str::contains` with a text. -/
def containsText (needle : List Char) (text : List Char) : Bool :=
  text.tails.any fun tail => needle.isPrefixOf tail

/-- `normalize_host`, `none` for an empty host or zone. -/
def normalizeHost (ip : IpSyntax) (host : List Char) : Option (List Char) :=
  let trimmed := Text.trim host
  if trimmed.isEmpty then none
  else
    let address :=
      match ip.reprint trimmed with
      | some printed => some printed
      | none => some trimmed
    match Text.splitOnce '%' trimmed with
    | some (before, zone) =>
        if ip.isIpv6 before && !zone.contains ':' then
          -- A zone that begins with `25` is stripped only where the separator is encoded.
          let zone :=
            if containsText ['%', '2', '5'] trimmed && ['2', '5'].isPrefixOf zone then zone.drop 2
            else zone
          if zone.isEmpty then none else some (before ++ ['%', '2', '5'] ++ zone)
        else address
    | none => address

/-- `str::to_ascii_lowercase`. -/
def toAsciiLowercase (text : List Char) : List Char :=
  text.map Char.toLower

structure CronConfig where
  /-- Terminal records shown for the selected job. -/
  displayHistory : ℕ
  /-- Terminal records retained per job in the client daemon's memory. -/
  cacheHistory : ℕ
  deriving DecidableEq

namespace CronConfig

def default : CronConfig where
  displayHistory := DEFAULT_DISPLAY_HISTORY
  cacheHistory := DEFAULT_CACHE_HISTORY

/-- The display depth, clamped to its hard maximum. -/
def display (config : CronConfig) : ℕ :=
  clamp config.displayHistory 1 MAX_DISPLAY_HISTORY

/-- The cache depth per job, clamped to its hard maximum. -/
def cache (config : CronConfig) : ℕ :=
  clamp config.cacheHistory 1 MAX_CACHE_HISTORY

end CronConfig

structure Config (Entry : Type) where
  systems : List SystemEntry
  eggpool : Option Entry
  cron : CronConfig

inductive ConfigViolation where
  | duplicateEndpointId (id : String)
  | duplicateAddress (address : List Char)
  | emptyHost (id : String)
  | invalidHost (id host : String)
  | invalidEndpointPort (id : String) (port : UInt16)
  | emptyName (id : String)
  | invalidName (id reason : String)
  | nameTooLong (id : String) (length max : ℕ)
  | invalidCronDisplayHistory (found : ℕ)
  | invalidCronCacheHistory (found : ℕ)
  | cronCacheShallowerThanDisplay (cache display : ℕ)
  deriving DecidableEq

/-- Whether a trimmed host contains what no dial target may contain. -/
def unusableHost (host : List Char) : Bool :=
  containsText [':', '/', '/'] host || host.any (['/', '?', '#', '@', '[', ']'].contains ·) ||
    host.any Text.isWhitespace || host.any Text.isControl

/-- `validate_system_host`: the normalized host, or the violation. -/
def validateSystemHost (ip : IpSyntax) (system : SystemEntry) :
    Except ConfigViolation (List Char) :=
  let host := Text.trim system.host.toList
  if host.isEmpty then .error (.emptyHost system.id)
  else
    let invalid := ConfigViolation.invalidHost system.id (String.ofList host)
    if unusableHost host then .error invalid
    else
      match normalizeHost ip host with
      | some normalized => .ok normalized
      | none => .error invalid

def validateSystemName (system : SystemEntry) : List ConfigViolation :=
  match system.name with
  | none => []
  | some name =>
      let trimmed := Text.trim name.toList
      if trimmed.isEmpty then [.emptyName system.id]
      else if name.toList ≠ trimmed then
        [.invalidName system.id "name must not have surrounding whitespace"]
      else if trimmed.any Text.isControl then
        [.invalidName system.id "name contains control characters"]
      else if trimmed.any (['@', ':', '/'].contains ·) then
        [.invalidName system.id "name contains '@', ':', or '/'"]
      else if name.utf8ByteSize > MAX_ENDPOINT_NAME_LEN then
        [.nameTooLong system.id name.utf8ByteSize MAX_ENDPOINT_NAME_LEN]
      else []

/-- The loop over the systems, given the ids and the addresses seen before. -/
def validateSystemsFrom (ip : IpSyntax) (seenIds : List String) (seenAddresses : List (List Char)) :
    List SystemEntry → List ConfigViolation
  | [] => []
  | system :: rest =>
      let (hostViolations, addresses) : List ConfigViolation × List (List Char) :=
        match validateSystemHost ip system with
        | .error violation => ([violation], seenAddresses)
        | .ok normalized =>
            let address :=
              toAsciiLowercase normalized ++ [':'] ++ (toString system.port).toList
            (if seenAddresses.contains address then [.duplicateAddress address] else [],
              seenAddresses ++ [address])
      let idViolations : List ConfigViolation :=
        if seenIds.contains system.id then [.duplicateEndpointId system.id] else []
      let portViolations : List ConfigViolation :=
        if system.port = 0 then [.invalidEndpointPort system.id system.port] else []
      idViolations ++ hostViolations ++ portViolations ++ validateSystemName system ++
        validateSystemsFrom ip (seenIds ++ [system.id]) addresses rest

def CronConfig.validate (config : CronConfig) : List ConfigViolation :=
  (if config.displayHistory = 0 || config.displayHistory > MAX_DISPLAY_HISTORY then
    [.invalidCronDisplayHistory config.displayHistory] else []) ++
  (if config.cacheHistory = 0 || config.cacheHistory > MAX_CACHE_HISTORY then
    [.invalidCronCacheHistory config.cacheHistory] else []) ++
  (if config.displayHistory ≤ MAX_DISPLAY_HISTORY && config.cacheHistory ≤ MAX_CACHE_HISTORY &&
      config.cacheHistory < config.displayHistory then
    [.cronCacheShallowerThanDisplay config.cacheHistory config.displayHistory] else [])

/-- `Config::validate`, of the settings kept here. -/
def Config.validate {Entry : Type} (ip : IpSyntax) (config : Config Entry) :
    List ConfigViolation :=
  validateSystemsFrom ip [] [] config.systems ++ config.cron.validate

section Accepted

variable {ip : IpSyntax} {host normalized : List Char}

theorem trim_eq_rdropWhile (text : List Char) :
    Text.trim text = (text.dropWhile Text.isWhitespace).rdropWhile Text.isWhitespace := rfl

/-- What trimming leaves begins and ends with other characters. -/
theorem trim_trim (text : List Char) : Text.trim (Text.trim text) = Text.trim text := by
  have atFront : (Text.trim text).dropWhile Text.isWhitespace = Text.trim text := by
    rw [List.dropWhile_eq_self_iff]
    intro nonempty
    have isPrefix : Text.trim text <+: text.dropWhile Text.isWhitespace := by
      rw [trim_eq_rdropWhile]
      exact List.rdropWhile_prefix _ _
    have inLonger : 0 < (text.dropWhile Text.isWhitespace).length :=
      nonempty.trans_le isPrefix.length_le
    rw [isPrefix.getElem nonempty]
    have notSpace := List.head_dropWhile_not Text.isWhitespace (List.length_pos_iff.mp inLonger)
    rw [List.head_eq_getElem] at notSpace
    simpa using notSpace
  rw [trim_eq_rdropWhile (Text.trim text), atFront, trim_eq_rdropWhile]
  exact List.rdropWhile_idempotent _ _

theorem mem_of_mem_trim {text : List Char} {character : Char}
    (member : character ∈ Text.trim text) :
    character ∈ text := by
  simp only [Text.trim, List.mem_reverse] at member
  have inReverse := (List.dropWhile_sublist _).subset member
  exact (List.dropWhile_sublist _).subset (List.mem_reverse.mp inReverse)

theorem normalizeHost_trim (ip : IpSyntax) (host : List Char) :
    normalizeHost ip (Text.trim host) = normalizeHost ip host := by
  simp only [normalizeHost, trim_trim]

theorem eq_of_splitOnce {separator : Char} {text before after : List Char}
    (split : Text.splitOnce separator text = some (before, after)) :
    text = before ++ separator :: after := by
  induction text generalizing before with
  | nil => cases split
  | cons character rest ih =>
      rw [Text.splitOnce] at split
      split at split
      · rename_i isSeparator
        cases split
        rw [isSeparator, List.nil_append]
      · rcases Option.map_eq_some_iff.mp split with ⟨⟨front, back⟩, splitRest, ⟨⟩⟩
        rw [ih splitRest, List.cons_append]

/-- Normalizing brings in no control character. -/
theorem printable_normalizeHost (printable : host.any Text.isControl = false)
    (normalizes : normalizeHost ip host = some normalized) :
    ∀ character ∈ normalized, Text.isControl character = false := by
  have trimmedPrintable : ∀ character ∈ Text.trim host, Text.isControl character = false := by
    intro character member
    exact Bool.eq_false_of_not_eq_true
      (List.any_eq_false.mp printable character (mem_of_mem_trim member))
  have address : ∀ printed, (match ip.reprint (Text.trim host) with
      | some printed => some printed
      | none => some (Text.trim host)) = some printed →
      ∀ character ∈ printed, Text.isControl character = false := by
    intro printed isPrinted
    split at isPrinted
    · rename_i reprinted
      cases isPrinted
      exact ip.reprint_printable _ _ reprinted
    · cases isPrinted
      exact trimmedPrintable
  simp only [normalizeHost] at normalizes
  split at normalizes
  · cases normalizes
  · split at normalizes
    · rename_i before zone split
      split at normalizes
      · have parts := eq_of_splitOnce split
        have separatorPrintable : ∀ character ∈ ['%', '2', '5'],
            Text.isControl character = false := by
          simp only [List.forall_mem_cons, List.not_mem_nil, false_implies, implies_true]
          decide
        have zonePrintable : ∀ character ∈ (if containsText ['%', '2', '5'] (Text.trim host) &&
            ['2', '5'].isPrefixOf zone then zone.drop 2 else zone),
            Text.isControl character = false := by
          intro character member
          apply trimmedPrintable
          have inZone : character ∈ zone := by
            split at member
            · exact List.mem_of_mem_drop member
            · exact member
          simp [parts, inZone]
        generalize (if containsText ['%', '2', '5'] (Text.trim host) &&
          ['2', '5'].isPrefixOf zone then zone.drop 2 else zone) = shortened
          at normalizes zonePrintable
        split at normalizes
        · cases normalizes
        · cases normalizes
          intro character member
          rcases List.mem_append.mp member with member | inZone
          · rcases List.mem_append.mp member with inBefore | inSeparator
            · apply trimmedPrintable
              simp [parts, inBefore]
            · exact separatorPrintable character inSeparator
          · exact zonePrintable character inZone
      · exact address normalized normalizes
    · exact address normalized normalizes

/-- An accepted host normalizes to text without control characters. -/
theorem normalizeHost_of_validateSystemHost {system : SystemEntry}
    (valid : validateSystemHost ip system = .ok normalized) :
    normalizeHost ip system.host.toList = some normalized ∧
      ∀ character ∈ normalized, Text.isControl character = false := by
  simp only [validateSystemHost] at valid
  split at valid
  · cases valid
  · split at valid
    · cases valid
    · rename_i usable
      split at valid
      · rename_i normalizes
        cases valid
        have printable : (Text.trim system.host.toList).any Text.isControl = false := by
          simp only [unusableHost, Bool.or_eq_true, not_or, Bool.not_eq_true] at usable
          exact usable.2
        refine ⟨?_, printable_normalizeHost printable normalizes⟩
        rwa [normalizeHost_trim] at normalizes
      · cases valid

theorem validateSystemsFrom_eq_nil {seenIds : List String} {seenAddresses : List (List Char)}
    {systems : List SystemEntry}
    (valid : validateSystemsFrom ip seenIds seenAddresses systems = []) :
    (systems.map (·.id)).Nodup ∧ (∀ system ∈ systems, system.id ∉ seenIds) ∧
      ∀ system ∈ systems, ∃ normalized, normalizeHost ip system.host.toList = some normalized ∧
        ∀ character ∈ normalized, Text.isControl character = false := by
  induction systems generalizing seenIds seenAddresses with
  | nil => simp
  | cons system rest ih =>
      simp only [validateSystemsFrom, List.append_eq_nil_iff] at valid
      rcases valid with ⟨⟨⟨⟨newId, host⟩, -⟩, -⟩, restValid⟩
      rcases ih restValid with ⟨restNodup, restNew, restHosts⟩
      have notSeen : system.id ∉ seenIds := by
        intro seen
        rw [if_pos (List.contains_iff_mem.mpr seen)] at newId
        cases newId
      refine ⟨?_, ?_, ?_⟩
      · rw [List.map_cons, List.nodup_cons]
        refine ⟨?_, restNodup⟩
        intro repeated
        rcases List.mem_map.mp repeated with ⟨other, otherMem, sameId⟩
        exact restNew other otherMem (by simp [sameId])
      · intro other otherMem
        rcases List.mem_cons.mp otherMem with rfl | later
        · exact notSeen
        · intro seen
          exact restNew other later (by simp [seen])
      · intro other otherMem
        rcases List.mem_cons.mp otherMem with rfl | later
        · cases normalized : validateSystemHost ip other with
          | error violation => simp [normalized] at host
          | ok text => exact ⟨text, normalizeHost_of_validateSystemHost normalized⟩
        · exact restHosts other later

/-- What an accepted configuration promises the fleet. -/
structure Config.Accepted {Entry : Type} (ip : IpSyntax) (config : Config Entry) : Prop where
  idsNodup : (config.systems.map (·.id)).Nodup
  hosts : ∀ system ∈ config.systems, ∃ normalized,
    normalizeHost ip system.host.toList = some normalized ∧
      ∀ character ∈ normalized, Text.isControl character = false
  display : config.cron.display = config.cron.displayHistory
  cache : config.cron.cache = config.cron.cacheHistory

theorem clamp_eq_self {value low high : ℕ} (atLeast : low ≤ value) (atMost : value ≤ high) :
    clamp value low high = value := by
  rw [clamp, Nat.min_eq_left atMost, Nat.max_eq_right atLeast]

theorem Config.accepted_of_validate {Entry : Type} {config : Config Entry}
    (valid : config.validate ip = []) : config.Accepted ip := by
  simp only [validate, List.append_eq_nil_iff, CronConfig.validate] at valid
  rcases valid with ⟨systems, ⟨display, cache⟩, -⟩
  rcases validateSystemsFrom_eq_nil systems with ⟨nodup, -, hosts⟩
  simp only [ite_eq_right_iff, List.cons_ne_nil, imp_false, Bool.or_eq_true, decide_eq_true_eq,
    not_or] at display cache
  refine ⟨nodup, hosts, ?_, ?_⟩
  · apply clamp_eq_self <;> omega
  · apply clamp_eq_self <;> omega

end Accepted

end Gregg.Fleet

import Gregg.ConfigFile.RemoveAdded
import Gregg.Fleet.Reload

/-!
# What a host names

An IP address has many spellings. A plain one is stored as the standard library prints it, and every
spelling is stored alike. Of an address with a zone only the zone is rewritten, so that two
spellings of the address are two hosts.
-/

namespace Gregg.ConfigFile

open Clientd (SystemEntry)
open Fleet (IpSyntax normalizeHost containsText toAsciiLowercase eqIgnoreAsciiCase
  equivalentEndpointHost FleetState)

/-- The interface that a host names: an address as it is printed, and a zone. -/
structure HostIdentity where
  address : List Char
  zone : Option (List Char)
  deriving DecidableEq

/-- A zone without the rest of an encoded separator. -/
def decodeZone (host zone : List Char) : List Char :=
  if containsText ['%', '2', '5'] host && ['2', '5'].isPrefixOf zone then zone.drop 2 else zone

/-- What a spelling of an IP address names. -/
def hostIdentity (ip : IpSyntax) (host : List Char) : Option HostIdentity :=
  match Text.splitOnce '%' (Text.trim host) with
  | none => (ip.reprint (Text.trim host)).map (⟨·, none⟩)
  | some (address, zone) =>
      if ip.isIpv6 address = true ∧ ':' ∉ zone ∧ decodeZone (Text.trim host) zone ≠ [] then
        (ip.reprint address).map (⟨·, some (decodeZone (Text.trim host) zone)⟩)
      else none

/-- The address of a host as it is spelled, without its zone. -/
def spelledAddress (host : List Char) : List Char :=
  match Text.splitOnce '%' (Text.trim host) with
  | none => Text.trim host
  | some (address, _) => address

section Normalized

variable (ip : IpText) {host first second : List Char} {identity : HostIdentity}

/-- The stored form keeps the spelling of an address that has a zone. -/
theorem normalizeHost_of_hostIdentity (names : hostIdentity ip.toIpSyntax host = some identity) :
    normalizeHost ip.toIpSyntax host =
      some (identity.zone.elim identity.address (zonedHost (spelledAddress host))) := by
  rw [normalizeHost_eq]
  rw [hostIdentity] at names
  rw [spelledAddress, namesZone, encodeZone]
  cases isSplit : Text.splitOnce '%' (Text.trim host) with
  | none =>
      rw [isSplit] at names
      rcases Option.map_eq_some_iff.mp names with ⟨printed, reprints, rfl⟩
      have nonempty : (Text.trim host).isEmpty = false := by
        rw [List.isEmpty_eq_false_iff]
        exact ip.ne_nil (by rw [reprints]; rfl)
      simp [nonempty, reprints]
  | some parts =>
      rcases parts with ⟨address, zone⟩
      rw [isSplit] at names
      dsimp only at names
      split at names
      · rename_i zoned
        rcases zoned with ⟨isIpv6, noColon, nonempty⟩
        rcases Option.map_eq_some_iff.mp names with ⟨printed, -, rfl⟩
        have hostNonempty : (Text.trim host).isEmpty = false := by
          rw [List.isEmpty_eq_false_iff, Fleet.eq_of_splitOnce isSplit]
          simp
        have isZoned : (ip.isIpv6 address && !zone.contains ':') = true := by
          simp [isIpv6, noColon]
        have decoded : (decodeZone (Text.trim host) zone).isEmpty = false :=
          List.isEmpty_eq_false_iff.mpr nonempty
        rw [decodeZone] at decoded
        simp only [hostNonempty, isZoned, Option.bind_some, decoded, Bool.false_eq_true, if_false,
          if_true]
        rfl
      · cases names

theorem zonedHost_inj {address other zone : List Char} :
    zonedHost address zone = zonedHost other zone ↔ address = other := by
  rw [zonedHost, zonedHost, List.append_assoc, List.append_assoc, List.append_left_inj]

theorem toAsciiLowercase_zonedHost_inj {address other zone : List Char} :
    toAsciiLowercase (zonedHost address zone) = toAsciiLowercase (zonedHost other zone) ↔
      toAsciiLowercase address = toAsciiLowercase other := by
  simp only [toAsciiLowercase, zonedHost, List.map_append, List.append_assoc, List.append_left_inj]

/-- Two spellings of an address are stored alike when it has no zone, or else when they are the
same. -/
theorem normalizeHost_eq_iff (names : hostIdentity ip.toIpSyntax first = some identity)
    (alsoNames : hostIdentity ip.toIpSyntax second = some identity) :
    normalizeHost ip.toIpSyntax first = normalizeHost ip.toIpSyntax second ↔
      identity.zone = none ∨ spelledAddress first = spelledAddress second := by
  rw [normalizeHost_of_hostIdentity ip names, normalizeHost_of_hostIdentity ip alsoNames,
    Option.some_inj]
  cases identity.zone with
  | none => simp
  | some zone => simp [zonedHost_inj]

theorem equivalentEndpointHost_iff (names : hostIdentity ip.toIpSyntax first = some identity)
    (alsoNames : hostIdentity ip.toIpSyntax second = some identity) :
    equivalentEndpointHost ip.toIpSyntax (String.ofList first) (String.ofList second) = true ↔
      identity.zone = none ∨
        toAsciiLowercase (spelledAddress first) = toAsciiLowercase (spelledAddress second) := by
  rw [equivalentEndpointHost, String.toList_ofList, String.toList_ofList,
    normalizeHost_of_hostIdentity ip names, normalizeHost_of_hostIdentity ip alsoNames]
  dsimp only
  rw [eqIgnoreAsciiCase, beq_iff_eq]
  cases identity.zone with
  | none => simp
  | some zone => simp [toAsciiLowercase_zonedHost_inj]

end Normalized

/-- Any two entries of a configuration with these hosts and one port are rejected. -/
def RejectsBoth (ip : IpSyntax) (first second : List Char) : Prop :=
  ∀ (config : Config) (entry other : SystemEntry), [entry, other].Sublist config.systems →
    entry.host.toList = first → other.host.toList = second → entry.port = other.port →
    config.validate ip ≠ []

/-- A reload that spells the host of a system the other way keeps the system and its cron state. -/
def KeepsState (ip : IpSyntax) (first second : List Char) : Prop :=
  ∀ {Snapshot Reason Entry Summary Health : Type}
    (fleet : FleetState Snapshot Reason Entry Summary Health) (config : Fleet.Config Entry),
    fleet.WellFormed → config.validate ip = [] →
    ∀ old ∈ fleet.systems, ∀ entry ∈ config.systems, old.id = entry.id →
      old.endpoint.host.toList = first → entry.host.toList = second →
      old.endpoint.port = entry.port →
      { old with endpoint := entry.toEndpoint, configuredName := entry.name } ∈
          (fleet.reloadConfig ip (.ok config)).1.systems ∧
        (fleet.reloadConfig ip (.ok config)).1.cron.system entry.id = fleet.cron.system entry.id

section Rejected

variable {ip : IpSyntax} {first second : List Char}

/-- Whether the check of a host refuses it for what it contains. -/
def Unusable (host : List Char) : Prop :=
  Fleet.unusableHost (Text.trim host) = true

theorem validateSystemHost_eq_ok {system : SystemEntry} {normalized : List Char}
    (usable : ¬Unusable system.host.toList)
    (normalizes : normalizeHost ip system.host.toList = some normalized) :
    Fleet.validateSystemHost ip system = .ok normalized := by
  have nonempty : ¬(Text.trim system.host.toList).isEmpty = true := by
    intro empty
    rw [normalizeHost_eq, if_pos empty] at normalizes
    cases normalizes
  rw [Unusable] at usable
  rw [Fleet.validateSystemHost]
  simp only [nonempty, usable, Fleet.normalizeHost_trim, normalizes, Bool.false_eq_true, if_false]

/-- Two systems are checked one after the other. -/
theorem lowercase_ne_of_validate_pair {entry other : SystemEntry}
    {normalized otherNormalized : List Char} (samePort : entry.port = other.port)
    (checked : Fleet.validateSystemHost ip entry = .ok normalized)
    (otherChecked : Fleet.validateSystemHost ip other = .ok otherNormalized)
    (valid : Fleet.validateSystemsFrom ip [] [] [entry, other] = []) :
    toAsciiLowercase normalized ≠ toAsciiLowercase otherNormalized := by
  intro same
  simp [Fleet.validateSystemsFrom, checked, otherChecked, same, samePort] at valid

theorem not_unusable_of_validate {systems : List SystemEntry} {system : SystemEntry}
    (valid : Fleet.validateSystemsFrom ip [] [] systems = []) (member : system ∈ systems) :
    ¬Unusable system.host.toList := by
  intro unusable
  rcases (system_of_validateSystemsFrom valid member).1 with ⟨normalized, checked⟩
  rw [Unusable] at unusable
  rw [Fleet.validateSystemHost] at checked
  simp only [unusable] at checked
  split at checked <;> cases checked

theorem rejectsBoth_of_unusable (unusable : Unusable first ∨ Unusable second) :
    RejectsBoth ip first second := by
  intro config entry other sublist isFirst isSecond samePort valid
  simp only [Config.validate, List.append_eq_nil_iff, List.map_eq_nil_iff] at valid
  have usable : ∀ system ∈ [entry, other], ¬Unusable system.host.toList := fun system member =>
    not_unusable_of_validate valid.1.1.2 (sublist.subset member)
  rcases unusable with unusable | unusable
  · exact usable entry (by simp) (isFirst ▸ unusable)
  · exact usable other (by simp) (isSecond ▸ unusable)

theorem rejectsBoth_of_equivalent {normalized otherNormalized : List Char}
    (normalizes : normalizeHost ip first = some normalized)
    (otherNormalizes : normalizeHost ip second = some otherNormalized)
    (same : toAsciiLowercase normalized = toAsciiLowercase otherNormalized) :
    RejectsBoth ip first second := by
  intro config entry other sublist isFirst isSecond samePort valid
  by_cases unusable : Unusable first ∨ Unusable second
  · exact rejectsBoth_of_unusable unusable config entry other sublist isFirst isSecond samePort
      valid
  rw [not_or] at unusable
  subst isFirst isSecond
  simp only [Config.validate, List.append_eq_nil_iff, List.map_eq_nil_iff] at valid
  have pair := validateSystemsFrom_sublist sublist (List.Subset.refl []) (List.Subset.refl [])
    valid.1.1.2
  exact lowercase_ne_of_validate_pair samePort (validateSystemHost_eq_ok unusable.1 normalizes)
    (validateSystemHost_eq_ok unusable.2 otherNormalizes) pair same

/-- Two systems with these hosts, and nothing else configured. -/
def twoSystems (first second : List Char) : Config :=
  { Config.default with
    systems := [⟨"a", String.ofList first, 1, none⟩, ⟨"b", String.ofList second, 1, none⟩] }

/-- Usable hosts that are stored as different ones are accepted together. -/
theorem validate_twoSystems {normalized otherNormalized : List Char}
    (usable : ¬Unusable first) (otherUsable : ¬Unusable second)
    (normalizes : normalizeHost ip first = some normalized)
    (otherNormalizes : normalizeHost ip second = some otherNormalized)
    (differ : toAsciiLowercase normalized ≠ toAsciiLowercase otherNormalized) :
    (twoSystems first second).validate ip = [] := by
  have checked : Fleet.validateSystemHost ip ⟨"a", String.ofList first, 1, none⟩ =
      .ok normalized :=
    validateSystemHost_eq_ok (by simpa using usable) (by simpa using normalizes)
  have otherChecked : Fleet.validateSystemHost ip ⟨"b", String.ofList second, 1, none⟩ =
      .ok otherNormalized :=
    validateSystemHost_eq_ok (by simpa using otherUsable) (by simpa using otherNormalizes)
  have systems : Fleet.validateSystemsFrom ip [] [] (twoSystems first second).systems = [] := by
    simp [twoSystems, Fleet.validateSystemsFrom, checked, otherChecked, Fleet.validateSystemName,
      Ne.symm differ]
  rw [Config.validate, systems]
  rfl

theorem rejectsBoth_iff {normalized otherNormalized : List Char}
    (normalizes : normalizeHost ip first = some normalized)
    (otherNormalizes : normalizeHost ip second = some otherNormalized) :
    RejectsBoth ip first second ↔ Unusable first ∨ Unusable second ∨
      toAsciiLowercase normalized = toAsciiLowercase otherNormalized := by
  constructor
  · intro rejects
    by_contra accepted
    rw [not_or, not_or] at accepted
    exact rejects (twoSystems first second) _ _ (List.Sublist.refl _) String.toList_ofList
      String.toList_ofList rfl
      (validate_twoSystems accepted.1 accepted.2.1 normalizes otherNormalizes accepted.2.2)
  · rintro (unusable | unusable | same)
    · exact rejectsBoth_of_unusable (.inl unusable)
    · exact rejectsBoth_of_unusable (.inr unusable)
    · exact rejectsBoth_of_equivalent normalizes otherNormalizes same

end Rejected

section Kept

variable {ip : IpSyntax} {first second : List Char}

/-- A system whose host is spelled another way keeps its state. -/
theorem keepsState_of_equivalent
    (same : equivalentEndpointHost ip (String.ofList first) (String.ofList second) = true) :
    KeepsState ip first second := by
  intro Snapshot Reason Entry Summary Health fleet config wellFormed valid old oldMem entry
    entryMem sameId isFirst isSecond samePort
  subst isFirst isSecond
  have accepted := Fleet.Config.accepted_of_validate valid
  have found : fleet.oldById.find? entry.id = some old :=
    sameId ▸ FleetState.find?_oldById_of_mem wellFormed oldMem
  have sameTarget : Fleet.sameTarget ip old.endpoint entry.toEndpoint = true := by
    rw [String.ofList_toList, String.ofList_toList] at same
    simp [Fleet.sameTarget, SystemEntry.toEndpoint, same, samePort]
  have reconciled : (Fleet.reconcileEntry ip fleet.oldById entry).1 =
      { old with endpoint := entry.toEndpoint, configuredName := entry.name } ∧
      (Fleet.reconcileEntry ip fleet.oldById entry).2.2 = false := by
    simp only [Fleet.reconcileEntry, found, sameTarget, if_true, and_self]
  constructor
  · rw [(FleetState.reloadConfig_ok accepted wellFormed).1, ← reconciled.1]
    exact List.mem_map_of_mem entryMem
  · rw [FleetState.cron_reloadConfig accepted wellFormed entryMem, reconciled.2]
    rfl

/-- A system that answered. -/
def onlineSystem (host : List Char) : Fleet.SystemState Unit Unit :=
  { Fleet.systemFromEntry ⟨"a", String.ofList host, 1, none⟩ with reachability := .online }

/-- A configuration of one system. -/
def lonelySystem (host : List Char) : Fleet.Config Unit where
  systems := [⟨"a", String.ofList host, 1, none⟩]
  eggpool := none
  cron := Fleet.CronConfig.default

def onlineFleet (host : List Char) : FleetState Unit Unit Unit Unit Unit :=
  let fleet : FleetState Unit Unit Unit Unit Unit := .fromConfig (lonelySystem host)
  { fleet with systems := [onlineSystem host] }

theorem wellFormed_onlineFleet (host : List Char) : (onlineFleet host).WellFormed where
  idsNodup := List.nodup_singleton "a"
  cronListed := fun _ found => nomatch found

theorem validate_lonelySystem {normalized : List Char} (usable : ¬Unusable second)
    (normalizes : normalizeHost ip second = some normalized) :
    (lonelySystem second).validate ip = [] := by
  have checked : Fleet.validateSystemHost ip ⟨"a", String.ofList second, 1, none⟩ =
      .ok normalized :=
    validateSystemHost_eq_ok (by simpa using usable) (by simpa using normalizes)
  have systems : Fleet.validateSystemsFrom ip [] [] (lonelySystem second).systems = [] := by
    simp [lonelySystem, Fleet.validateSystemsFrom, checked, Fleet.validateSystemName]
  rw [Fleet.Config.validate, systems]
  rfl

/-- A system under a host that is not equivalent is a new one, which has not answered. -/
theorem reachability_respelled (valid : (lonelySystem second).validate ip = [])
    (differ : equivalentEndpointHost ip (String.ofList first) (String.ofList second) = false) :
    ((onlineFleet first).reloadConfig ip (.ok (lonelySystem second))).1.systems.map
      (·.reachability) = [.pending] := by
  have accepted := Fleet.Config.accepted_of_validate valid
  have found : (onlineFleet first).oldById.find? "a" = some (onlineSystem first) :=
    FleetState.find?_oldById_of_mem (wellFormed_onlineFleet first) (List.mem_singleton_self _)
  have otherTarget : Fleet.sameTarget ip (onlineSystem first).endpoint
      (SystemEntry.toEndpoint ⟨"a", String.ofList second, 1, none⟩) = false := by
    simp [Fleet.sameTarget, SystemEntry.toEndpoint, onlineSystem, Fleet.systemFromEntry, differ]
  rw [(FleetState.reloadConfig_ok accepted (wellFormed_onlineFleet first)).1]
  simp only [lonelySystem, List.map_cons, List.map_nil, Fleet.reconcileEntry, found, otherTarget]
  rfl

theorem keepsState_iff {normalized : List Char}
    (normalizes : normalizeHost ip second = some normalized) :
    KeepsState ip first second ↔ Unusable second ∨
      equivalentEndpointHost ip (String.ofList first) (String.ofList second) = true := by
  constructor
  · intro keeps
    by_contra moved
    rw [not_or] at moved
    have valid := validate_lonelySystem moved.1 normalizes
    have kept := (keeps (onlineFleet first) (lonelySystem second) (wellFormed_onlineFleet first)
      valid (onlineSystem first) (List.mem_singleton_self _) _ (List.mem_singleton_self _) rfl
      String.toList_ofList String.toList_ofList rfl).1
    have reachabilities := reachability_respelled valid (Bool.eq_false_of_not_eq_true moved.2)
    have online : Clientd.Reachability.online ∈ ((onlineFleet first).reloadConfig ip
        (.ok (lonelySystem second))).1.systems.map (·.reachability) :=
      List.mem_map.mpr ⟨_, kept, rfl⟩
    rw [reachabilities] at online
    cases List.mem_singleton.mp online
  · rintro (unusable | same)
    · intro Snapshot Reason Entry Summary Health fleet config _ valid old _ entry entryMem _ _
        isSecond
      exfalso
      simp only [Fleet.Config.validate, List.append_eq_nil_iff] at valid
      exact not_unusable_of_validate valid.1 entryMem (isSecond ▸ unusable)
    · exact keepsState_of_equivalent same

end Kept

/-- Two hosts are one wherever hosts are compared. -/
structure OneHost (ip : IpSyntax) (first second : List Char) : Prop where
  stored : normalizeHost ip first = normalizeHost ip second
  rejected : RejectsBoth ip first second
  kept : KeepsState ip first second

section Spellings

variable (ip : IpText) {first second : List Char} {identity : HostIdentity}

/-- Spellings up to the case of an address that has a zone. -/
def SpelledAlike (identity : HostIdentity) (first second : List Char) : Prop :=
  identity.zone = none ∨
    toAsciiLowercase (spelledAddress first) = toAsciiLowercase (spelledAddress second)

/-- Two spellings of one address are one host exactly when it has no zone or they spell it the same;
configurations and reloads look past the case of the spelling. -/
theorem oneHost_iff (names : hostIdentity ip.toIpSyntax first = some identity)
    (alsoNames : hostIdentity ip.toIpSyntax second = some identity) :
    (OneHost ip.toIpSyntax first second ↔
      identity.zone = none ∨ spelledAddress first = spelledAddress second) ∧
      (RejectsBoth ip.toIpSyntax first second ↔
        Unusable first ∨ Unusable second ∨ SpelledAlike identity first second) ∧
      (KeepsState ip.toIpSyntax first second ↔
        Unusable second ∨ SpelledAlike identity first second) ∧
      ∀ host normalized, normalizeHost ip.toIpSyntax host = some normalized →
        normalizeHost ip.toIpSyntax normalized = some normalized := by
  have normalizes := normalizeHost_of_hostIdentity ip names
  have alsoNormalizes := normalizeHost_of_hostIdentity ip alsoNames
  have equivalent := equivalentEndpointHost_iff ip names alsoNames
  have stored := normalizeHost_eq_iff ip names alsoNames
  have kept := @keepsState_iff ip.toIpSyntax first second _ alsoNormalizes
  have rejected := rejectsBoth_iff normalizes alsoNormalizes
  have lowercase : toAsciiLowercase (identity.zone.elim identity.address
      (zonedHost (spelledAddress first))) = toAsciiLowercase (identity.zone.elim identity.address
      (zonedHost (spelledAddress second))) ↔ SpelledAlike identity first second := by
    rw [SpelledAlike]
    cases identity.zone with
    | none => simp
    | some zone => simp [toAsciiLowercase_zonedHost_inj]
  rw [equivalent] at kept
  rw [lowercase] at rejected
  refine ⟨⟨fun one => stored.mp one.stored, fun same => ?_⟩, rejected, kept,
    fun _ _ => normalizeHost_idempotent ip⟩
  have alike : SpelledAlike identity first second := same.imp_right (congrArg toAsciiLowercase)
  exact ⟨stored.mpr same, rejected.mpr (.inr (.inr alike)), kept.mpr (.inr alike)⟩

end Spellings

section Loopback

/-- A text without letters has one case. -/
theorem toAsciiLowercase_eq_iff {text fixed : List Char}
    (noLetter : ∀ symbol ∈ fixed, symbol.isAlpha = false) :
    toAsciiLowercase text = fixed ↔ text = fixed := by
  induction fixed generalizing text with
  | nil => exact List.map_eq_nil_iff
  | cons symbol fixed ih =>
      rw [List.forall_mem_cons] at noLetter
      rcases text with _ | ⟨first, text⟩
      · exact Iff.rfl
      · change first.toLower :: toAsciiLowercase text = symbol :: fixed ↔ _
        rw [List.cons.injEq, List.cons.injEq, toLower_eq_iff noLetter.1, ih noLetter.2]

/-- A reader of addresses that knows `::1`, and `0::1` as another spelling of it. -/
def readLoopbackSpelling (text : List Char) : Option (List Char) :=
  if text = "::1".toList ∨ text = "0::1".toList then some "::1".toList else none

theorem readLoopbackSpelling_eq_some_iff {text printed : List Char} :
    readLoopbackSpelling text = some printed ↔
      (text = "::1".toList ∨ text = "0::1".toList) ∧ printed = "::1".toList := by
  rw [readLoopbackSpelling]
  split
  · rename_i known
    rw [Option.some_inj, and_iff_right known, eq_comm]
  · rename_i other
    exact ⟨(fun reads => nomatch reads), fun both => absurd both.1 other⟩

theorem isSome_readLoopbackSpelling_iff {text : List Char} :
    (readLoopbackSpelling text).isSome = true ↔
      text = "::1".toList ∨ text = "0::1".toList := by
  rw [Option.isSome_iff_exists]
  simp only [readLoopbackSpelling_eq_some_iff, exists_and_left, exists_eq, and_true]

def IpText.loopbackSpellings : IpText where
  isIpv6 text := decide (text = "::1".toList ∨ text = "0::1".toList)
  reprint := readLoopbackSpelling
  reprint_printable := by
    intro text printed reprinted
    rw [(readLoopbackSpelling_eq_some_iff.mp reprinted).2]
    exact List.all_iff_forall_prop.mp (by decide)
  reprint_nil := rfl
  reprint_reprint := by
    intro text printed reprinted
    rw [(readLoopbackSpelling_eq_some_iff.mp reprinted).2]
    rfl
  alphabet := by
    intro text isAddress
    rcases isSome_readLoopbackSpelling_iff.mp isAddress with rfl | rfl
    · exact List.all_iff_forall_prop.mp (by decide)
    · exact List.all_iff_forall_prop.mp (by decide)
  two_le_count_colon := by
    intro text isAddress _
    rcases isSome_readLoopbackSpelling_iff.mp isAddress with rfl | rfl
    · decide
    · decide
  isIpv6_iff := by
    intro text
    rw [isSome_readLoopbackSpelling_iff, decide_eq_true_eq]
    constructor
    · rintro (rfl | rfl)
      · exact ⟨.inl rfl, by decide⟩
      · exact ⟨.inr rfl, by decide⟩
    · exact And.left
  reprint_lowercase := by
    intro text
    have short := @toAsciiLowercase_eq_iff text "::1".toList
      (List.all_iff_forall_prop.mp (by decide))
    have long := @toAsciiLowercase_eq_iff text "0::1".toList
      (List.all_iff_forall_prop.mp (by decide))
    rw [readLoopbackSpelling, readLoopbackSpelling]
    simp only [short, long]

theorem oneHost_iff_loopback :
    hostIdentity IpText.loopbackSpellings.toIpSyntax "::1".toList =
        some ⟨"::1".toList, none⟩ ∧
      hostIdentity IpText.loopbackSpellings.toIpSyntax " 0::1".toList =
        some ⟨"::1".toList, none⟩ ∧
      OneHost IpText.loopbackSpellings.toIpSyntax "::1".toList " 0::1".toList := by
  have short : hostIdentity IpText.loopbackSpellings.toIpSyntax "::1".toList =
      some ⟨"::1".toList, none⟩ := by decide
  have long : hostIdentity IpText.loopbackSpellings.toIpSyntax " 0::1".toList =
      some ⟨"::1".toList, none⟩ := by decide
  exact ⟨short, long, (oneHost_iff IpText.loopbackSpellings short long).1.mpr (.inl rfl)⟩

/-- With a zone the two spellings are two hosts, in a configuration and for a reload. -/
theorem respelled_zone :
    hostIdentity IpText.loopbackSpellings.toIpSyntax "::1%eth0".toList =
        some ⟨"::1".toList, some "eth0".toList⟩ ∧
      hostIdentity IpText.loopbackSpellings.toIpSyntax "0::1%eth0".toList =
        some ⟨"::1".toList, some "eth0".toList⟩ ∧
      normalizeHost IpText.loopbackSpellings.toIpSyntax "::1%eth0".toList =
        some "::1%25eth0".toList ∧
      normalizeHost IpText.loopbackSpellings.toIpSyntax "0::1%eth0".toList =
        some "0::1%25eth0".toList ∧
      (twoSystems "::1%eth0".toList "0::1%eth0".toList).validate
        IpText.loopbackSpellings.toIpSyntax = [] ∧
      ((onlineFleet "::1%eth0".toList).reloadConfig IpText.loopbackSpellings.toIpSyntax
        (.ok (lonelySystem "0::1%eth0".toList))).1.systems.map (·.reachability) = [.pending] := by
  have short : normalizeHost IpText.loopbackSpellings.toIpSyntax "::1%eth0".toList =
      some "::1%25eth0".toList := by decide
  have long : normalizeHost IpText.loopbackSpellings.toIpSyntax "0::1%eth0".toList =
      some "0::1%25eth0".toList := by decide
  have usable : ¬Unusable "::1%eth0".toList := by
    rw [Unusable]
    decide
  have alsoUsable : ¬Unusable "0::1%eth0".toList := by
    rw [Unusable]
    decide
  exact ⟨by decide, by decide, short, long,
    validate_twoSystems usable alsoUsable short long (by decide),
    reachability_respelled (validate_lonelySystem alsoUsable long) (by decide)⟩

end Loopback

end Gregg.ConfigFile

import Gregg.Fleet.Normalized
import Gregg.Fleet.Reload

/-!
# Poll batches

A round of polling ends in a batch of outcomes, which the fleet takes in one of two ways: from a
borrowed batch, or from one it is given. Either looks a result's system up by position first, and
after the first miss in an index by id.
-/

namespace Gregg.Poller

/-- Stable category of a failed poll. -/
inductive OfflineKind where
  | timeout
  | dns
  | refused
  | network
  | http
  | tooLarge
  | invalid
  | unsupported
  | cancelled
  deriving DecidableEq

structure OfflineReason where
  kind : OfflineKind
  detail : Option (List Char)
  deriving DecidableEq

namespace OfflineReason

def new (kind : OfflineKind) : OfflineReason where
  kind := kind
  detail := none

/-- A reason with a detail on one line, of at most 120 characters. -/
def withDetail (kind : OfflineKind) (detail : List Char) : OfflineReason where
  kind := kind
  detail :=
    let flat := Text.trim ((detail.filter fun c => !Text.isControl c).take 120)
    if flat.isEmpty then none else some flat

end OfflineReason

inductive PollOutcome where
  | online (snapshot : Protocol.StatusSnapshot)
  | onlineV2 (snapshot : Protocol.StatusPayloadV2)
  | timeout
  | connectionRefused
  | dnsFailure
  | networkError
  | httpStatus (status : UInt16)
  | bodyTooLarge
  | decodeError
  | unsupportedSchema
  | invalidSnapshot
  | cancelled

/-- Normalize a poll outcome into offline provenance, `none` for a success. -/
def PollOutcome.offlineReason : PollOutcome → Option OfflineReason
  | .online _ | .onlineV2 _ => none
  | .timeout => some (.new .timeout)
  | .dnsFailure => some (.new .dns)
  | .connectionRefused => some (.new .refused)
  | .networkError => some (.new .network)
  | .httpStatus status => some (.withDetail .http ("HTTP " ++ toString status.toNat).toList)
  | .bodyTooLarge => some (.new .tooLarge)
  | .decodeError | .invalidSnapshot => some (.new .invalid)
  | .unsupportedSchema => some (.new .unsupported)
  | .cancelled => some (.new .cancelled)

structure PollResult where
  systemId : String
  endpoint : Clientd.Endpoint
  latency : ℕ
  outcome : PollOutcome

/-- A completed batch of poll results for a single generation. -/
structure PollBatch where
  generation : ℕ
  completedAt : ℕ
  results : List PollResult

end Gregg.Poller

namespace Gregg.Fleet

open Poller (OfflineReason)

abbrev PolledSystem := SystemState NormalizedSnapshot OfflineReason

/-- What both reducers write on a success. -/
def PolledSystem.goOnline (system : PolledSystem) (completedAt latency : ℕ)
    (normalized : NormalizedSnapshot) : PolledSystem :=
  { system with
    reachability := .online
    latest := some normalized
    lastSuccessAt := some completedAt
    lastAttemptAt := some completedAt
    latency := some latency
    offlineReason := none }

/-- What both reducers write on a failure. -/
def PolledSystem.goOffline (system : PolledSystem) (completedAt : ℕ)
    (reason : Option OfflineReason) : PolledSystem :=
  { system with
    reachability := .offline
    lastAttemptAt := some completedAt
    offlineReason := reason }

/-- The borrowed reducer on one result: the system, and whether anything visible changed. -/
def PolledSystem.take (ip : IpSyntax) (completedAt : ℕ) (result : Poller.PollResult)
    (system : PolledSystem) : PolledSystem × Bool :=
  if !equivalentEndpointHost ip system.endpoint.host result.endpoint.host ||
      system.endpoint.port != result.endpoint.port then
    (system, false)
  else
    match result.outcome with
    | .online snapshot =>
        let normalized := NormalizedSnapshot.fromV1 snapshot
        (system.goOnline completedAt result.latency normalized,
          system.reachability != .online || system.latest != some normalized ||
            system.offlineReason.isSome)
    | .onlineV2 snapshot =>
        let normalized := NormalizedSnapshot.fromV2Payload snapshot
        (system.goOnline completedAt result.latency normalized,
          system.reachability != .online || system.latest != some normalized ||
            system.offlineReason.isSome)
    | outcome =>
        let reason := outcome.offlineReason
        (system.goOffline completedAt reason,
          system.reachability != .offline || system.offlineReason != reason)

/-- The owned reducer on one result. -/
def PolledSystem.takeOwned (ip : IpSyntax) (completedAt : ℕ) (result : Poller.PollResult)
    (system : PolledSystem) : PolledSystem × Bool :=
  let beforeReachability := system.reachability
  let beforeReason := system.offlineReason
  if !equivalentEndpointHost ip system.endpoint.host result.endpoint.host ||
      system.endpoint.port != result.endpoint.port then
    (system, false)
  else
    match result.outcome with
    | .online snapshot =>
        let normalized := NormalizedSnapshot.fromV1Owned snapshot
        let latestSame := system.latest == some normalized
        (system.goOnline completedAt result.latency normalized,
          beforeReachability != .online || !latestSame || beforeReason.isSome)
    | .onlineV2 snapshot =>
        let normalized := NormalizedSnapshot.fromV2PayloadOwned snapshot
        let latestSame := system.latest == some normalized
        (system.goOnline completedAt result.latency normalized,
          beforeReachability != .online || !latestSame || beforeReason.isSome)
    | outcome =>
        let reason := outcome.offlineReason
        (system.goOffline completedAt reason,
          beforeReachability != .offline || beforeReason != reason)

/-- The one-per-batch index by id. -/
def buildResultIndexMap (systems : List PolledSystem) : SortedMap String ℕ :=
  systems.zipIdx.foldl (fun map entry => map.upsert entry.1.id fun _ => entry.2) .empty

/-- Positional match, else the index if it was built, else a search. -/
def resolveResultIndexWithMap (systems : List PolledSystem) (resultIndex : ℕ) (systemId : String)
    (map : Option (SortedMap String ℕ)) : Option ℕ :=
  if systems[resultIndex]?.any (·.id == systemId) then some resultIndex
  else
    match map with
    | some map => map.find? systemId
    | none => systems.findIdx? (·.id == systemId)

/-- What a reducer carries from result to result. -/
structure BatchPass where
  systems : List PolledSystem
  idMap : Option (SortedMap String ℕ)
  visibleChanged : Bool

namespace BatchPass

/-- Whether the index is not built yet and the result is not at its system's position. -/
def misses (pass : BatchPass) (resultIndex : ℕ) (systemId : String) : Bool :=
  pass.idMap.isNone && pass.systems[resultIndex]?.all (·.id != systemId)

/-- Change the system at a position, which is one of the fleet. -/
def changeAt (pass : BatchPass) (position : ℕ) (change : PolledSystem → PolledSystem × Bool) :
    BatchPass :=
  match pass.systems[position]? with
  | none => pass
  | some system =>
      let (changed, visible) := change system
      { pass with
        systems := pass.systems.set position changed
        visibleChanged := pass.visibleChanged || visible }

def takeResult (ip : IpSyntax) (completedAt : ℕ) (pass : BatchPass) (resultIndex : ℕ)
    (result : Poller.PollResult) : BatchPass :=
  match resolveResultIndexWithMap pass.systems resultIndex result.systemId pass.idMap with
  | none => pass
  | some position =>
      let idMap :=
        if pass.misses resultIndex result.systemId then some (buildResultIndexMap pass.systems)
        else pass.idMap
      { pass with idMap }.changeAt position (·.take ip completedAt result)

def takeResultOwned (ip : IpSyntax) (completedAt : ℕ) (pass : BatchPass) (resultIndex : ℕ)
    (result : Poller.PollResult) : BatchPass :=
  let idMap :=
    if pass.misses resultIndex result.systemId then some (buildResultIndexMap pass.systems)
    else pass.idMap
  match resolveResultIndexWithMap pass.systems resultIndex result.systemId idMap with
  | none => { pass with idMap }
  | some position => { pass with idMap }.changeAt position (·.takeOwned ip completedAt result)

/-- A loop over the results, from the given index on. -/
def each (turn : BatchPass → ℕ → Poller.PollResult → BatchPass) (pass : BatchPass) :
    ℕ → List Poller.PollResult → BatchPass
  | _, [] => pass
  | resultIndex, result :: results =>
      each turn (turn pass resultIndex result) (resultIndex + 1) results

end BatchPass

namespace FleetState

variable {Entry Summary Health : Type}

/-- Borrowed batch application, and whether anything visible changed. -/
def applyBatchChanged (fleet : FleetState NormalizedSnapshot OfflineReason Entry Summary Health)
    (ip : IpSyntax) (batch : Poller.PollBatch) :
    FleetState NormalizedSnapshot OfflineReason Entry Summary Health × Bool :=
  if !fleet.acceptBatchGeneration batch.generation then (fleet, false)
  else
    let pass := BatchPass.each (BatchPass.takeResult ip batch.completedAt)
      ⟨fleet.systems, none, false⟩ 0 batch.results
    ({ fleet with
        systems := pass.systems
        lastAppliedGeneration := batch.generation }, pass.visibleChanged)

/-- Owned batch application. -/
def applyBatchOwnedChanged
    (fleet : FleetState NormalizedSnapshot OfflineReason Entry Summary Health) (ip : IpSyntax)
    (batch : Poller.PollBatch) :
    FleetState NormalizedSnapshot OfflineReason Entry Summary Health × Bool :=
  if !fleet.acceptBatchGeneration batch.generation then (fleet, false)
  else
    let pass := BatchPass.each (BatchPass.takeResultOwned ip batch.completedAt)
      ⟨fleet.systems, none, false⟩ 0 batch.results
    ({ fleet with
        systems := pass.systems
        lastAppliedGeneration := batch.generation }, pass.visibleChanged)

end FleetState

namespace PolledSystem

variable {ip : IpSyntax} {completedAt : ℕ} {result : Poller.PollResult} {system : PolledSystem}

/-- The two conversions agree, and so do the two reducers. -/
theorem takeOwned_eq (ip : IpSyntax) (completedAt : ℕ) (result : Poller.PollResult)
    (system : PolledSystem) : system.takeOwned ip completedAt result =
      system.take ip completedAt result := by
  rw [takeOwned, take]
  split
  · rfl
  · cases result.outcome with
    | online snapshot =>
        simp only [NormalizedSnapshot.fromV1Owned_eq]
        rfl
    | onlineV2 snapshot =>
        simp only [NormalizedSnapshot.fromV2PayloadOwned_eq]
        rfl
    | _ => rfl

/-- What a frontend sees of a system's poll. -/
def visible (system : PolledSystem) :
    Clientd.Reachability × Option NormalizedSnapshot × Option OfflineReason :=
  (system.reachability, system.latest, system.offlineReason)

theorem take_id : (system.take ip completedAt result).1.id = system.id := by
  rw [take]
  split
  · rfl
  · split <;> rfl

/-- Where nothing is reported nothing visible has changed. -/
theorem visible_take (silent : (system.take ip completedAt result).2 = false) :
    (system.take ip completedAt result).1.visible = system.visible := by
  rw [take] at silent ⊢
  split
  · rfl
  · rename_i accepted
    rw [if_neg accepted] at silent
    have online : ∀ normalized : NormalizedSnapshot,
        (system.reachability != .online || system.latest != some normalized ||
          system.offlineReason.isSome) = false →
        (system.goOnline completedAt result.latency normalized).visible = system.visible := by
      intro normalized unchanged
      simp only [Bool.or_eq_false_iff, bne_eq_false_iff_eq, Option.isSome_eq_false_iff,
        Option.isNone_iff_eq_none] at unchanged
      rcases unchanged with ⟨⟨reachable, latest⟩, noReason⟩
      have sameLatest : system.latest = some normalized :=
        soundEq_snapshot.option _ _ (by simpa [bne] using latest)
      rw [visible, visible, reachable, sameLatest, noReason]
      rfl
    cases outcome : result.outcome with
    | online snapshot =>
        rw [outcome] at silent
        exact online _ silent
    | onlineV2 snapshot =>
        rw [outcome] at silent
        exact online _ silent
    | _ =>
        rw [outcome] at silent
        simp only [Bool.or_eq_false_iff, bne_eq_false_iff_eq] at silent
        rw [visible, visible, silent.1, silent.2]
        rfl

end PolledSystem

theorem map_set_of_same {Item Value : Type*} {items : List Item} {view : Item → Value} {index : ℕ}
    {item changed : Item} (found : items[index]? = some item) (same : view changed = view item) :
    (items.set index changed).map view = items.map view := by
  rw [List.map_set, same]
  apply List.ext_getElem?
  intro position
  rw [List.getElem?_set, List.getElem?_map]
  split
  · rename_i isIndex
    subst isIndex
    have inRange : index < (items.map view).length := by
      rw [List.length_map]
      exact (List.getElem?_eq_some_iff.mp found).1
    rw [if_pos inRange, found]
    rfl
  · rfl

theorem modify_eq_set_of_found {Item : Type*} {items : List Item} {change : Item → Item}
    {index : ℕ} {item : Item} (found : items[index]? = some item) :
    items.modify index change = items.set index (change item) := by
  apply List.ext_getElem?
  intro position
  rw [List.getElem?_modify, List.getElem?_set]
  rcases List.getElem?_eq_some_iff.mp found with ⟨inRange, rfl⟩
  split
  · rename_i same
    subst same
    simp [inRange]
  · simp

section Lookup

variable {systems : List PolledSystem} {systemId : String} {resultIndex : ℕ}

theorem find?_foldl_upsert (nodup : (systems.map (·.id)).Nodup) (start : ℕ)
    (map : SortedMap String ℕ) :
    ((systems.zipIdx start).foldl (fun map entry => map.upsert entry.1.id fun _ => entry.2)
      map).find? systemId =
        ((systems.findIdx? (·.id == systemId)).map (· + start)).or (map.find? systemId) := by
  induction systems generalizing start map with
  | nil => simp
  | cons system rest ih =>
      rw [List.map_cons, List.nodup_cons] at nodup
      rw [List.zipIdx_cons, List.foldl_cons, ih nodup.2, List.findIdx?_cons,
        SortedMap.find?_upsert]
      by_cases isSystem : system.id = systemId
      · have notLater : rest.findIdx? (·.id == systemId) = none := by
          rw [List.findIdx?_eq_none_iff]
          intro other otherMem
          rw [beq_eq_false_iff_ne]
          intro same
          exact nodup.1 (isSystem.trans same.symm ▸ List.mem_map_of_mem otherMem)
        simp [isSystem, notLater]
      · rw [if_neg (Ne.symm isSystem)]
        cases rest.findIdx? (·.id == systemId) with
        | none => simp [isSystem]
        | some position =>
            simp [isSystem]
            omega

theorem find?_buildResultIndexMap (nodup : (systems.map (·.id)).Nodup) :
    (buildResultIndexMap systems).find? systemId = systems.findIdx? (·.id == systemId) := by
  rw [buildResultIndexMap, find?_foldl_upsert nodup]
  simp

/-- The index, if it was built, is right. -/
def Indexed (systems : List PolledSystem) (map : Option (SortedMap String ℕ)) : Prop :=
  ∀ built ∈ map, ∀ systemId, built.find? systemId = systems.findIdx? (·.id == systemId)

theorem resolve_of_indexed {map : Option (SortedMap String ℕ)} (indexed : Indexed systems map) :
    resolveResultIndexWithMap systems resultIndex systemId map =
      resolveResultIndexWithMap systems resultIndex systemId none := by
  cases map with
  | none => rfl
  | some built => simp only [resolveResultIndexWithMap, indexed built rfl systemId]

theorem findIdx?_congr {others : List PolledSystem}
    (sameIds : systems.map (·.id) = others.map (·.id)) :
    systems.findIdx? (·.id == systemId) = others.findIdx? (·.id == systemId) := by
  have mapped : ∀ fleet : List PolledSystem, fleet.findIdx? (·.id == systemId) =
      (fleet.map (·.id)).findIdx? (· == systemId) := by
    intro fleet
    rw [List.findIdx?_map]
    rfl
  rw [mapped, mapped, sameIds]

theorem Indexed.congr {others : List PolledSystem} {map : Option (SortedMap String ℕ)}
    (indexed : Indexed systems map) (sameIds : systems.map (·.id) = others.map (·.id)) :
    Indexed others map := by
  intro built isBuilt systemId
  rw [indexed built isBuilt, findIdx?_congr sameIds]

end Lookup

namespace BatchPass

variable {ip : IpSyntax} {completedAt : ℕ} {pass owned : BatchPass} {resultIndex : ℕ}
  {result : Poller.PollResult}

theorem ids_changeAt {position : ℕ} :
    (pass.changeAt position (·.take ip completedAt result)).systems.map (·.id) =
      pass.systems.map (·.id) := by
  rw [changeAt]
  split
  · rfl
  · rename_i system found
    exact map_set_of_same found PolledSystem.take_id

/-- What is true of the two passes after the same results. -/
structure Agrees (pass owned : BatchPass) : Prop where
  systems : owned.systems = pass.systems
  visibleChanged : owned.visibleChanged = pass.visibleChanged
  unique : (pass.systems.map (·.id)).Nodup
  indexed : Indexed pass.systems pass.idMap
  ownedIndexed : Indexed pass.systems owned.idMap

theorem indexed_ifMissed {systems : List PolledSystem} {map : Option (SortedMap String ℕ)}
    (missed : Bool) (unique : (systems.map (·.id)).Nodup) (indexed : Indexed systems map) :
    Indexed systems (if missed then some (buildResultIndexMap systems) else map) := by
  split
  · rintro built ⟨⟩ systemId
    exact find?_buildResultIndexMap unique
  · exact indexed

theorem Agrees.step (agrees : Agrees pass owned) :
    Agrees (pass.takeResult ip completedAt resultIndex result)
      (owned.takeResultOwned ip completedAt resultIndex result) := by
  rcases pass with ⟨systems, map, visible⟩
  rcases owned with ⟨ownedSystems, ownedMap, ownedVisible⟩
  rcases agrees with ⟨rfl, rfl, unique, indexed, ownedIndexed⟩
  rw [takeResult, takeResultOwned]
  dsimp only at *
  have passIndexed := indexed_ifMissed (BatchPass.misses ⟨ownedSystems, map, ownedVisible⟩
    resultIndex result.systemId) unique indexed
  have laterIndexed := indexed_ifMissed (BatchPass.misses ⟨ownedSystems, ownedMap, ownedVisible⟩
    resultIndex result.systemId) unique ownedIndexed
  rw [resolve_of_indexed indexed, resolve_of_indexed laterIndexed]
  cases resolveResultIndexWithMap ownedSystems resultIndex result.systemId none with
  | none => exact ⟨rfl, rfl, unique, indexed, laterIndexed⟩
  | some position =>
      have sameIds :=
        @ids_changeAt ip completedAt ⟨ownedSystems, none, ownedVisible⟩ result position
      simp only [PolledSystem.takeOwned_eq]
      rw [changeAt] at sameIds
      rw [changeAt, changeAt]
      dsimp only at *
      cases found : ownedSystems[position]? with
      | none => exact ⟨rfl, rfl, unique, passIndexed, laterIndexed⟩
      | some system =>
          rw [found] at sameIds
          exact ⟨rfl, rfl, sameIds ▸ unique, passIndexed.congr sameIds.symm,
            laterIndexed.congr sameIds.symm⟩

theorem Agrees.each {results : List Poller.PollResult} (agrees : Agrees pass owned) :
    Agrees (pass.each (takeResult ip completedAt) resultIndex results)
      (owned.each (takeResultOwned ip completedAt) resultIndex results) := by
  induction results generalizing pass owned resultIndex with
  | nil => exact agrees
  | cons result results ih => exact ih agrees.step

/-- A turn that leaves the flag off found it off and leaves everything visible. -/
theorem visible_takeResult
    (silent : (pass.takeResult ip completedAt resultIndex result).visibleChanged = false) :
    pass.visibleChanged = false ∧
      (pass.takeResult ip completedAt resultIndex result).systems.map PolledSystem.visible =
        pass.systems.map PolledSystem.visible := by
  rw [takeResult] at silent ⊢
  split at silent
  · exact ⟨silent, rfl⟩
  · rename_i position _
    rw [changeAt] at silent ⊢
    dsimp only at silent ⊢
    cases found : pass.systems[position]? with
    | none =>
        rw [found] at silent
        exact ⟨silent, rfl⟩
    | some system =>
        rw [found] at silent
        rw [Bool.or_eq_false_iff] at silent
        exact ⟨silent.1, map_set_of_same found (PolledSystem.visible_take silent.2)⟩

theorem visible_each {results : List Poller.PollResult}
    (silent : (pass.each (takeResult ip completedAt) resultIndex results).visibleChanged =
      false) :
    pass.visibleChanged = false ∧
      (pass.each (takeResult ip completedAt) resultIndex results).systems.map
        PolledSystem.visible = pass.systems.map PolledSystem.visible := by
  induction results generalizing pass resultIndex with
  | nil => exact ⟨silent, rfl⟩
  | cons result results ih =>
      rcases ih silent with ⟨turnSilent, rest⟩
      rcases visible_takeResult turnSilent with ⟨passSilent, turn⟩
      exact ⟨passSilent, rest.trans turn⟩

end BatchPass

/-- A system's reachability, snapshot or offline reason differs, snapshots compared as the source
compares them. -/
def VisiblyDiffers (before after : PolledSystem) : Prop :=
  before.reachability ≠ after.reachability ∨ (before.latest != after.latest) = true ∨
    before.offlineReason ≠ after.offlineReason

theorem not_visiblyDiffers {before after : PolledSystem} (same : before.visible = after.visible)
    (finite : ∀ latest ∈ before.latest, latest.Finite) : ¬VisiblyDiffers before after := by
  simp only [PolledSystem.visible, Prod.mk.injEq] at same
  have reflexive : (before.latest == before.latest) = true :=
    beq_self_option fun latest held => (finite latest held).beq_self
  rw [VisiblyDiffers, ← same.1, ← same.2.1, ← same.2.2, bne, reflexive]
  simp

namespace FleetState

variable {Entry Summary Health : Type}
  {fleet : FleetState NormalizedSnapshot OfflineReason Entry Summary Health} {ip : IpSyntax}
  {batch : Poller.PollBatch}

theorem acceptBatchGeneration_eq_false_iff : fleet.acceptBatchGeneration batch.generation = false ↔
    batch.generation ≤ fleet.lastAppliedGeneration ∧
      ¬(fleet.lastAppliedGeneration = u64Max ∧ batch.generation = 1) := by
  simp [acceptBatchGeneration]

/-- From a fleet with unique ids both reducers leave the same fleet and report the same, for every
batch: a batch that is not newer changes nothing, and any visible difference is reported. -/
theorem applyBatchOwnedChanged_agrees (unique : (fleet.systems.map (·.id)).Nodup) :
    fleet.applyBatchOwnedChanged ip batch = fleet.applyBatchChanged ip batch ∧
      (batch.generation ≤ fleet.lastAppliedGeneration →
        ¬(fleet.lastAppliedGeneration = u64Max ∧ batch.generation = 1) →
        fleet.applyBatchChanged ip batch = (fleet, false)) ∧
      ((∀ system ∈ fleet.systems, ∀ latest ∈ system.latest, latest.Finite) →
        ∀ (index : ℕ) (before after : PolledSystem), fleet.systems[index]? = some before →
          (fleet.applyBatchChanged ip batch).1.systems[index]? = some after →
          VisiblyDiffers before after → (fleet.applyBatchChanged ip batch).2 = true) := by
  have agrees : BatchPass.Agrees ⟨fleet.systems, none, false⟩ ⟨fleet.systems, none, false⟩ :=
    ⟨rfl, rfl, unique, (fun _ isBuilt => nomatch isBuilt), fun _ isBuilt => nomatch isBuilt⟩
  refine ⟨?_, ?_, ?_⟩
  · rw [applyBatchOwnedChanged, applyBatchChanged]
    split
    · rfl
    · have whole := @BatchPass.Agrees.each ip batch.completedAt _ _ 0 batch.results agrees
      simp only [whole.systems, whole.visibleChanged]
  · intro notNewer notWrapped
    rw [applyBatchChanged, acceptBatchGeneration_eq_false_iff.mpr ⟨notNewer, notWrapped⟩]
    rfl
  · intro finite index before after foundBefore foundAfter differs
    rw [applyBatchChanged] at foundAfter ⊢
    split at foundAfter
    · rw [foundBefore] at foundAfter
      cases foundAfter
      exact absurd differs (not_visiblyDiffers rfl
        (finite before (List.mem_of_getElem? foundBefore)))
    · rename_i accepted
      rw [if_neg accepted]
      by_contra silent
      have visible := (BatchPass.visible_each (Bool.eq_false_of_not_eq_true silent)).2
      have sameVisible : before.visible = after.visible := by
        have here := congrArg (·[index]?) visible
        simp only [List.getElem?_map, foundBefore] at here foundAfter
        rw [foundAfter] at here
        exact (Option.some.inj here).symm
      exact absurd differs (not_visiblyDiffers sameVisible
        (finite before (List.mem_of_getElem? foundBefore)))

/-- The system times out, in a batch that also has a result of no system. -/
def timedOut : Poller.PollBatch where
  generation := 1
  completedAt := 5
  results := [⟨"gone", ⟨"gone", "box", 1, none⟩, 0, .timeout⟩,
    ⟨"sys-a", ⟨"sys-a", "BOX", 11310, none⟩, 0, .timeout⟩]

theorem applyBatchOwnedChanged_agrees_timedOut :
    let fleet : FleetState NormalizedSnapshot OfflineReason Unit Unit Unit := fromConfig oneBox
    (fleet.systems.map (·.id)).Nodup ∧
      fleet.applyBatchOwnedChanged dnsNames timedOut = fleet.applyBatchChanged dnsNames timedOut ∧
      (fleet.applyBatchChanged dnsNames timedOut).2 = true :=
  ⟨by decide, (applyBatchOwnedChanged_agrees (by decide)).1, by decide +kernel⟩

end FleetState

section Reduced

/-- What a fleet makes of an outcome. -/
def reduceOutcome : Poller.PollOutcome → PollOutcome NormalizedSnapshot OfflineReason
  | .online snapshot => .online (.fromV1 snapshot)
  | .onlineV2 snapshot => .online (.fromV2Payload snapshot)
  | outcome => .offline outcome.offlineReason

def reduceResult (result : Poller.PollResult) : PollResult NormalizedSnapshot OfflineReason where
  systemId := result.systemId
  endpoint := result.endpoint
  latency := result.latency
  outcome := reduceOutcome result.outcome

def reduceBatch (batch : Poller.PollBatch) : PollBatch NormalizedSnapshot OfflineReason where
  generation := batch.generation
  completedAt := batch.completedAt
  results := batch.results.map reduceResult

variable {ip : IpSyntax} {completedAt resultIndex : ℕ} {systems : List PolledSystem}
  {systemId : String}

theorem fst_take (result : Poller.PollResult) (system : PolledSystem) :
    (system.take ip completedAt result).1 =
      system.applyResult ip completedAt (reduceResult result) := by
  rw [PolledSystem.take, SystemState.applyResult, sameTarget, bne]
  change _ = if (equivalentEndpointHost ip system.endpoint.host result.endpoint.host &&
    system.endpoint.port == result.endpoint.port) = true then _ else _
  cases equivalentEndpointHost ip system.endpoint.host result.endpoint.host with
  | false => rfl
  | true =>
      cases system.endpoint.port == result.endpoint.port with
      | false => rfl
      | true =>
          simp only [Bool.not_true, Bool.or_self, Bool.false_eq_true, ↓reduceIte, reduceResult,
            Bool.and_self]
          cases result.outcome <;> rfl

theorem find?_eq_some_of_unique {Item : Type*} {items : List Item} {found : Item}
    {isFound : Item → Bool} (foundMem : found ∈ items) (holds : isFound found = true)
    (only : ∀ item ∈ items, isFound item = true → item = found) :
    items.find? isFound = some found := by
  cases search : items.find? isFound with
  | none => exact absurd holds (List.find?_eq_none.mp search found foundMem)
  | some item =>
      rw [only item (List.mem_of_find?_eq_some search) (List.find?_some search)]

/-- With unique ids the last system of an id is the first one. -/
theorem resolveResultIndex_eq (unique : (systems.map (·.id)).Nodup) :
    resolveResultIndex systems resultIndex systemId =
      resolveResultIndexWithMap systems resultIndex systemId none := by
  rw [resolveResultIndex]
  simp only [resolveResultIndexWithMap]
  split
  · rfl
  · cases search : systems.findIdx? (·.id == systemId) with
    | none =>
        rw [List.find?_eq_none]
        intro index _ isSystem
        cases found : systems[index]? with
        | none => simp [found] at isSystem
        | some system =>
            rw [found, Option.any_some] at isSystem
            rw [List.findIdx?_eq_none_iff] at search
            rw [search system (List.mem_of_getElem? found)] at isSystem
            cases isSystem
    | some position =>
        rcases List.findIdx?_eq_some_iff_getElem.mp search with ⟨inRange, named, -⟩
        apply find?_eq_some_of_unique
        · simpa using inRange
        · simpa [inRange] using named
        · intro index indexMem isSystem
          have indexInRange : index < systems.length := by simpa using indexMem
          rw [List.getElem?_eq_getElem indexInRange, Option.any_some] at isSystem
          rw [beq_iff_eq] at named isSystem
          have indexMapped : index < (systems.map (·.id)).length := by simpa using indexInRange
          have positionMapped : position < (systems.map (·.id)).length := by simpa using inRange
          have sameId : (systems.map (·.id))[index] = (systems.map (·.id))[position] := by
            simp [named, isSystem]
          exact unique.getElem_inj_iff.mp sameId

theorem systems_takeResult {pass : BatchPass} {result : Poller.PollResult}
    (unique : (pass.systems.map (·.id)).Nodup) (indexed : Indexed pass.systems pass.idMap) :
    (pass.takeResult ip completedAt resultIndex result).systems =
      match resolveResultIndex pass.systems resultIndex result.systemId with
      | some position =>
          pass.systems.modify position (·.applyResult ip completedAt (reduceResult result))
      | none => pass.systems := by
  rw [BatchPass.takeResult, resolve_of_indexed indexed, resolveResultIndex_eq unique]
  cases resolveResultIndexWithMap pass.systems resultIndex result.systemId none with
  | none => rfl
  | some position =>
      simp only [BatchPass.changeAt]
      cases found : pass.systems[position]? with
      | none =>
          rw [List.modify_eq_self (List.getElem?_eq_none_iff.mp found)]
      | some system =>
          rw [modify_eq_set_of_found found, ← fst_take]

/-- The fleet after a batch is the one the reduced batch leaves. -/
theorem systems_each {pass owned : BatchPass} {results : List Poller.PollResult}
    (agrees : BatchPass.Agrees pass owned) :
    (pass.each (BatchPass.takeResult ip completedAt) resultIndex results).systems =
      applyResults ip completedAt pass.systems resultIndex (results.map reduceResult) := by
  induction results generalizing pass owned resultIndex with
  | nil => rfl
  | cons result results ih =>
      rw [BatchPass.each, ih agrees.step, List.map_cons, applyResults,
        systems_takeResult agrees.unique agrees.indexed]
      rfl

theorem FleetState.fst_applyBatchChanged {Entry Summary Health : Type}
    {fleet : FleetState NormalizedSnapshot OfflineReason Entry Summary Health}
    {batch : Poller.PollBatch} (unique : (fleet.systems.map (·.id)).Nodup) :
    (fleet.applyBatchChanged ip batch).1 = fleet.applyBatch ip (reduceBatch batch) := by
  have agrees : BatchPass.Agrees ⟨fleet.systems, none, false⟩ ⟨fleet.systems, none, false⟩ :=
    ⟨rfl, rfl, unique, (fun _ isBuilt => nomatch isBuilt), fun _ isBuilt => nomatch isBuilt⟩
  rw [applyBatchChanged, applyBatch, reduceBatch]
  cases fleet.acceptBatchGeneration batch.generation with
  | false => rfl
  | true =>
      have systems := @systems_each ip batch.completedAt 0 _ _ batch.results agrees
      simp only [Bool.not_true, Bool.false_eq_true, ↓reduceIte, systems]

theorem FleetState.fst_applyBatchOwnedChanged {Entry Summary Health : Type}
    {fleet : FleetState NormalizedSnapshot OfflineReason Entry Summary Health}
    {batch : Poller.PollBatch} (unique : (fleet.systems.map (·.id)).Nodup) :
    (fleet.applyBatchOwnedChanged ip batch).1 = fleet.applyBatch ip (reduceBatch batch) := by
  have agrees : BatchPass.Agrees ⟨fleet.systems, none, false⟩ ⟨fleet.systems, none, false⟩ :=
    ⟨rfl, rfl, unique, (fun _ isBuilt => nomatch isBuilt), fun _ isBuilt => nomatch isBuilt⟩
  have whole := @BatchPass.Agrees.each ip batch.completedAt _ _ 0 batch.results agrees
  rw [← fst_applyBatchChanged unique, applyBatchOwnedChanged, applyBatchChanged]
  cases fleet.acceptBatchGeneration batch.generation with
  | false => rfl
  | true => simp only [Bool.not_true, Bool.false_eq_true, ↓reduceIte, whole.systems]

end Reduced

end Gregg.Fleet

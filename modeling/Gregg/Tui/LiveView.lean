import Gregg.Tui.Presentation
import Gregg.Tui.SelectionRepair
import Mathlib.Data.List.Nodup

/-!
# A host that fails in view

The display order puts live hosts first, so a host that fails moves down in it. The selection and
the top of the window are moved to a live host in its place, and the window is adjusted no further
up or down than to a host between the two. So both stay on live hosts as long as there is one.
-/

namespace Gregg.Tui

open Gregg.Clientd

namespace AppState

variable {env : Surroundings} {state before after : AppState} {id : String}
  {document : FrontendSnapshot} {system : SystemState}

/-- The id names a live system. -/
def OnlineAt (state : AppState) (id : String) : Prop :=
  ∃ system ∈ state.systems, system.id = id ∧ system.reachability = .online

def SomeOnline (state : AppState) : Prop :=
  ∃ system ∈ state.systems, system.reachability = .online

/-- What tells whether documents were applied, and whether one of them was polled. -/
structure SameAge (before after : AppState) : Prop where
  lastSnapshotGeneration : after.lastSnapshotGeneration = before.lastSnapshotGeneration
  sawReachability : after.sawReachability = before.sawReachability

theorem Presents.sameAge (presents : Presents before after) : SameAge before after := by
  rw [presents]
  exact ⟨rfl, rfl⟩

section Order

/-- The system at a position of the display order. -/
def systemAt (state : AppState) (position : ℕ) : Option SystemState :=
  state.displayOrder[position]?.bind fun index => state.systems[index]?

theorem isLiveAt_iff {position : ℕ} : state.isLiveAt position = true ↔
    ∃ system, state.systemAt position = some system ∧ system.reachability = .online := by
  rw [isLiveAt, systemAt]
  split
  · rename_i system isSystem
    simp [isSystem]
  · rename_i noSystem
    simp [noSystem]

theorem mem_of_systemAt {position : ℕ} (isSystem : state.systemAt position = some system) :
    system ∈ state.systems := by
  rcases Option.bind_eq_some_iff.mp isSystem with ⟨index, -, isAt⟩
  exact List.mem_of_getElem? isAt

theorem idAt_of_systemAt {position : ℕ} (isSystem : state.systemAt position = some system) :
    state.displayOrder[position]?.bind state.idAt = some system.id := by
  rcases Option.bind_eq_some_iff.mp isSystem with ⟨index, isIndex, isAt⟩
  rw [isIndex, Option.bind_some, idAt, isAt]
  rfl

/-- Every system stands somewhere in the display order. -/
theorem exists_systemAt (isListed : system ∈ state.systems) :
    ∃ position < state.displayOrder.length, state.systemAt position = some system := by
  rcases List.getElem?_of_mem isListed with ⟨index, isAt⟩
  have inOrder : index ∈ state.displayOrder :=
    mem_displayOrderOf.mpr (List.getElem?_eq_some_iff.mp isAt).1
  rcases List.getElem?_of_mem inOrder with ⟨position, isIndex⟩
  refine ⟨position, (List.getElem?_eq_some_iff.mp isIndex).1, ?_⟩
  rw [systemAt, isIndex, Option.bind_some, isAt]

/-- The live hosts stand before all others. -/
theorem isLiveAt_of_le {lower upper : ℕ} (isLive : state.isLiveAt upper = true)
    (notBelow : lower ≤ upper) : state.isLiveAt lower = true := by
  obtain ⟨isOnline, isOrder, liveAt⟩ : ∃ isOnline : ℕ → Bool,
      state.displayOrder = (List.range state.systems.length).filter isOnline ++
        (List.range state.systems.length).filter (fun index => !isOnline index) ∧
      ∀ position, state.isLiveAt position =
        (state.displayOrder[position]?.map isOnline).getD false := by
    refine ⟨_, rfl, fun position => ?_⟩
    rw [isLiveAt]
    cases state.displayOrder[position]? with
    | none => rfl
    | some index => rfl
  rw [liveAt, isOrder] at isLive
  rw [liveAt, isOrder]
  have before : upper < ((List.range state.systems.length).filter isOnline).length := by
    by_contra after
    rw [List.getElem?_append_right (by omega)] at isLive
    cases isIndex : ((List.range state.systems.length).filter fun index =>
        !isOnline index)[upper -
          ((List.range state.systems.length).filter isOnline).length]? with
    | none =>
        rw [isIndex] at isLive
        cases isLive
    | some index =>
        have isDead := (List.mem_filter.mp (List.mem_of_getElem? isIndex)).2
        rw [isIndex, Option.map_some, Option.getD_some] at isLive
        rw [isLive] at isDead
        cases isDead
  have within : lower < ((List.range state.systems.length).filter isOnline).length :=
    Nat.lt_of_le_of_lt notBelow before
  rw [List.getElem?_append_left within, List.getElem?_eq_getElem within, Option.map_some,
    Option.getD_some]
  exact (List.mem_filter.mp (List.getElem_mem within)).2

theorem onlineAt_of_isLiveAt {position : ℕ} (isLive : state.isLiveAt position = true) :
    ∃ id, state.displayOrder[position]?.bind state.idAt = some id ∧ state.OnlineAt id := by
  rcases isLiveAt_iff.mp isLive with ⟨system, isSystem, isOnline⟩
  exact ⟨system.id, idAt_of_systemAt isSystem, system, mem_of_systemAt isSystem, rfl, isOnline⟩

variable (distinct : (state.systems.map (·.id)).Nodup)
include distinct

theorem systemAt_positionOf (isListed : system ∈ state.systems) :
    ∃ position, state.positionOf state.displayOrder system.id = some position ∧
      state.systemAt position = some system := by
  rcases exists_systemAt isListed with ⟨position, -, isSystem⟩
  rcases Option.bind_eq_some_iff.mp isSystem with ⟨index, isIndex, isAt⟩
  refine ⟨position, positionOf_idAt distinct isIndex ?_, isSystem⟩
  rw [idAt, isAt]
  rfl

theorem placementOf_system (isListed : system ∈ state.systems) :
    ∃ position, state.placementOf system.id = some
      { id := system.id
        reachability := system.reachability
        position
        host := system.endpoint.host
        port := system.endpoint.port } := by
  rcases systemAt_positionOf distinct isListed with ⟨position, isPosition, isSystem⟩
  refine ⟨position, ?_⟩
  rw [systemAt] at isSystem
  rw [placementOf, isPosition, Option.bind_some, isSystem]
  rfl

theorem find_system (isListed : system ∈ state.systems) :
    (state.systems.find? fun other => other.id = system.id) = some system := by
  cases found : state.systems.find? fun other => other.id = system.id with
  | none =>
      rw [List.find?_eq_none] at found
      exact absurd (decide_eq_true rfl) (found system isListed)
  | some other =>
      have sameId : other.id = system.id := by simpa using List.find?_some found
      rw [List.inj_on_of_nodup_map distinct (List.mem_of_find?_eq_some found) isListed sameId]

end Order

section Replacement

/-- A host in the place of one that failed is live, as long as any host is. -/
theorem onlineAt_liveReplacement {placement : SystemPlacement}
    (failed : state.hasFailed env placement = true) (someOnline : state.SomeOnline) :
    ∃ id, state.liveReplacement env placement = some id ∧ state.OnlineAt id := by
  rcases someOnline with ⟨system, isListed, isOnline⟩
  rcases exists_systemAt isListed with ⟨position, within, isSystem⟩
  have isLive : state.isLiveAt position = true := isLiveAt_iff.mpr ⟨system, isSystem, isOnline⟩
  have nonempty : state.displayOrder ≠ [] := by
    intro isEmpty
    rw [isEmpty] at within
    exact absurd within (Nat.not_lt_zero _)
  rw [liveReplacement]
  simp only
  rw [if_pos ⟨failed, nonempty⟩]
  generalize isLimit : min placement.position (state.displayOrder.length - 1) = limit
  generalize isAbove : (List.range (limit + 1)).reverse.find? state.isLiveAt = above
  generalize isBelow :
    (List.range' limit (state.displayOrder.length - limit)).find? state.isLiveAt = below
  have liveAbove : ∀ found, above = some found → state.isLiveAt found = true := by
    rintro found rfl
    exact List.find?_some isAbove
  have liveBelow : ∀ found, below = some found → state.isLiveAt found = true := by
    rintro found rfl
    exact List.find?_some isBelow
  have isFound : ∃ found, above.or below = some found ∧ state.isLiveAt found = true := by
    cases above with
    | some found => exact ⟨found, rfl, liveAbove found rfl⟩
    | none =>
        cases below with
        | some found => exact ⟨found, rfl, liveBelow found rfl⟩
        | none =>
            rw [List.find?_eq_none] at isAbove isBelow
            have notAbove : position ∉ (List.range (limit + 1)).reverse := fun inRange =>
              isAbove position inRange isLive
            have notBelow : position ∉ List.range' limit (state.displayOrder.length - limit) :=
              fun inRange => isBelow position inRange isLive
            rw [List.mem_reverse, List.mem_range] at notAbove
            rw [List.mem_range'_1] at notBelow
            omega
  rcases isFound with ⟨found, isFound, liveFound⟩
  rw [isFound, Option.getD_some]
  exact onlineAt_of_isLiveAt liveFound

/-- The top of the window stays on a live host while the selection is on one. -/
theorem onlineAt_viewportTop_ensureSelectedVisible {selected top : String}
    (distinct : (state.systems.map (·.id)).Nodup) (isSelected : state.selectedId = some selected)
    (isTop : state.viewportTopId = some top) (selectedOnline : state.OnlineAt selected)
    (topOnline : state.OnlineAt top) :
    ∃ id, (state.ensureSelectedVisible env).viewportTopId = some id ∧ state.OnlineAt id := by
  rcases selectedOnline with ⟨system, isListed, rfl, isOnline⟩
  rcases systemAt_positionOf distinct isListed with ⟨position, isPosition, isSystem⟩
  have isLive : state.isLiveAt position = true := isLiveAt_iff.mpr ⟨system, isSystem, isOnline⟩
  rw [ensureSelectedVisible, ensureSelectedVisibleWithOrder]
  split
  · exact ⟨top, isTop, topOnline⟩
  · rw [isSelected, Option.bind_some, isPosition]
    simp only
    split
    · exact ⟨top, isTop, topOnline⟩
    · split
      · exact onlineAt_of_isLiveAt isLive
      · exact onlineAt_of_isLiveAt (isLiveAt_of_le isLive scrollUp_spec.1)

end Replacement

section Adoption

/-- A document lists the host an id names at the same target, online or offline. -/
def StillListed (env : Surroundings) (state : AppState) (document : FrontendSnapshot)
    (id : String) : Prop :=
  ∃ system ∈ state.systems, ∃ dto ∈ document.systems, system.id = id ∧ dto.id = id ∧
    dto.endpoint.port = system.endpoint.port ∧
    equivalentEndpointHost env (env.clean dto.endpoint.host) system.endpoint.host = true ∧
    (dto.reachability = .online ∨ dto.reachability = .offline)

/-- A document lists a host as online. -/
def ListedOnline (document : FrontendSnapshot) (id : String) : Prop :=
  ∃ dto ∈ document.systems, dto.id = id ∧ dto.reachability = .online

/-- What an adopted document leaves of a view on `selected` from `top` on. -/
structure KeepsView (env : Surroundings) (document : FrontendSnapshot) (selected top : String)
    (adopted : AppState) : Prop where
  live : adopted.SomeOnline →
    (∃ id, adopted.selectedId = some id ∧ adopted.OnlineAt id) ∧
      ∃ id, adopted.viewportTopId = some id ∧ adopted.OnlineAt id
  selection : ListedOnline document selected → adopted.selectedId = some selected
  /-- The visible range is the one from the old top in the new order. -/
  window : ListedOnline document selected → ListedOnline document top →
    (∀ first position, adopted.positionOf adopted.displayOrder top = some first →
      adopted.positionOf adopted.displayOrder selected = some position →
      inRange (visibleRange env { adopted with viewportTopId := some top } adopted.displayOrder
        first adopted.usableHeight) position = true) →
    adopted.viewportTopId = some top

theorem viewportTopId_repairViewportAnchor {anchorBefore : Option SystemPlacement} :
    (state.repairViewportAnchor env anchorBefore).viewportTopId =
      (anchorBefore.bind (state.liveReplacement env)).or state.viewportTopId := by
  rw [repairViewportAnchor]
  split
  · rename_i replacement isReplacement
    rw [isReplacement]
    rfl
  · rename_i noReplacement
    rw [noReplacement]
    rfl

theorem repairIds_of_listed {selected top : String} (isSelected : state.selectedId = some selected)
    (isTop : state.viewportTopId = some top) (selectedListed : state.hasSystem selected = true)
    (topListed : state.hasSystem top = true) : state.repairIds = state := by
  have nonempty : state.systems.isEmpty = false := by
    cases systems : state.systems with
    | nil =>
        rw [hasSystem, systems] at selectedListed
        cases selectedListed
    | cons system rest => rfl
  have keepsSelected : (state.selectedId.filter state.hasSystem).or state.firstId =
      state.selectedId := by
    rw [isSelected, Option.filter_some, if_pos selectedListed]
    rfl
  have keepsTop : (state.viewportTopId.filter state.hasSystem).or state.selectedId =
      state.viewportTopId := by
    rw [isTop, Option.filter_some, if_pos topListed]
    rfl
  rw [repairIds]
  simp only [nonempty, keepsSelected, keepsTop]
  rfl

theorem hasSystem_replaceFleet (listed : StillListed env state document id) :
    (state.replaceFleet env document).hasSystem id = true := by
  rcases listed with ⟨-, -, dto, isListed, -, isId, -⟩
  rw [hasSystem, List.any_eq_true]
  exact ⟨cleanSystem env.clean dto, List.mem_map_of_mem isListed, decide_eq_true isId⟩

section Repaired

variable (distinct : (state.systems.map (·.id)).Nodup)
  (distinctAfter : ((state.replaceFleet env document).systems.map (·.id)).Nodup)
  (wasOnline : state.OnlineAt id) (listed : StillListed env state document id)
include distinct distinctAfter wasOnline listed

/-- A host that was live and is listed at the same target has failed or is live. -/
theorem failed_or_online :
    ∃ placement, state.placementOf id = some placement ∧
      ((state.replaceFleet env document).hasFailed env placement = true ∧
          ¬ListedOnline document id ∨
        (state.replaceFleet env document).liveReplacement env placement = none ∧
          (state.replaceFleet env document).OnlineAt id) := by
  rcases wasOnline with ⟨system, isListed, rfl, isOnline⟩
  rcases listed with ⟨other, otherListed, dto, isAfter, sameOther, isId, samePort, sameHost, isAny⟩
  cases List.inj_on_of_nodup_map distinct otherListed isListed sameOther
  rcases placementOf_system distinct isListed with ⟨position, isPlacement⟩
  refine ⟨_, isPlacement, ?_⟩
  have isClean : cleanSystem env.clean dto ∈ (state.replaceFleet env document).systems :=
    List.mem_map_of_mem isAfter
  have found := find_system distinctAfter isClean
  rw [show (cleanSystem env.clean dto).id = system.id from isId] at found
  have isFailed : ∀ placement : SystemPlacement, placement.id = system.id →
      placement.reachability = .online → placement.port = system.endpoint.port →
      placement.host = system.endpoint.host →
      (state.replaceFleet env document).hasFailed env placement =
        decide (dto.reachability = .offline) := by
    intro placement sameId wasLive isPort isHost
    rw [hasFailed, sameId, found, wasLive, isPort, isHost]
    have cleanHost : equivalentEndpointHost env (cleanSystem env.clean dto).endpoint.host
        system.endpoint.host = true := sameHost
    have cleanPort : (cleanSystem env.clean dto).endpoint.port = system.endpoint.port := samePort
    simp only [cleanHost, cleanPort, decide_true, Bool.true_and, Bool.and_true]
    rfl
  have failed := isFailed ⟨system.id, system.reachability, position, system.endpoint.host,
    system.endpoint.port⟩ rfl isOnline rfl rfl
  rcases isAny with online | offline
  · right
    refine ⟨?_, _, isClean, isId, online⟩
    rw [online] at failed
    rw [liveReplacement]
    simp only [failed]
    rfl
  · left
    rw [offline] at failed
    refine ⟨failed, ?_⟩
    rintro ⟨again, againListed, sameId, online⟩
    have isDto : cleanSystem env.clean again = cleanSystem env.clean dto :=
      List.inj_on_of_nodup_map distinctAfter (List.mem_map_of_mem againListed) isClean
        (sameId.trans isId.symm)
    have sameReachability : again.reachability = dto.reachability :=
      congrArg SystemState.reachability isDto
    rw [online, offline] at sameReachability
    cases sameReachability

/-- The selection or the top of the window after its repair. -/
theorem online_repaired :
    ((state.replaceFleet env document).SomeOnline → ∃ after,
      (((state.placementOf id).bind
        ((state.replaceFleet env document).liveReplacement env)).or (some id)) = some after ∧
        (state.replaceFleet env document).OnlineAt after) ∧
    (ListedOnline document id →
      (((state.placementOf id).bind
        ((state.replaceFleet env document).liveReplacement env)).or (some id)) = some id) := by
  rcases failed_or_online distinct distinctAfter wasOnline listed with
    ⟨placement, isPlacement, ⟨failed, notOnline⟩ | ⟨noReplacement, isOnline⟩⟩
  · refine ⟨?_, fun online => absurd online notOnline⟩
    intro someOnline
    rcases onlineAt_liveReplacement failed someOnline with ⟨after, isAfter, afterOnline⟩
    refine ⟨after, ?_, afterOnline⟩
    rw [isPlacement, Option.bind_some, isAfter, Option.some_or]
  · rw [isPlacement, Option.bind_some, noReplacement, Option.none_or]
    exact ⟨fun _ => ⟨id, rfl, isOnline⟩, fun _ => rfl⟩

end Repaired

/-- The selection and the top of the window before the window is adjusted. -/
theorem repaired_of_listed {selected top : String} (applied : 0 < state.lastSnapshotGeneration)
    (isSelected : state.selectedId = some selected) (isTop : state.viewportTopId = some top)
    (selectedListed : StillListed env state document selected)
    (topListed : StillListed env state document top) :
    (state.repaired env document).selectedId =
        (((state.placementOf selected).bind
          ((state.replaceFleet env document).liveReplacement env)).or (some selected)) ∧
      (state.repaired env document).viewportTopId =
        (((state.placementOf top).bind
          ((state.replaceFleet env document).liveReplacement env)).or (some top)) := by
  have keepsIds : (state.replaceFleet env document).repairIds = state.replaceFleet env document :=
    repairIds_of_listed isSelected isTop (hasSystem_replaceFleet selectedListed)
      (hasSystem_replaceFleet topListed)
  rw [repaired]
  simp only [if_neg (Nat.ne_of_gt applied), keepsIds, isSelected, isTop, Option.bind_some]
  have afterSelection : ∀ selection, SameFleet (state.replaceFleet env document)
      ((state.replaceFleet env document).repairSelection env selection) := fun selection =>
    sameFleet_repairSelection
  constructor
  · rw [sameSelection_repairViewportAnchor.selectedId]
    exact selectedId_repairSelection.trans (congrArg _ isSelected)
  · have sameReplacement :
        ((state.replaceFleet env document).repairSelection env
          (state.placementOf selected)).repairCronSelection.liveReplacement env =
            (state.replaceFleet env document).liveReplacement env := by
      funext placement
      exact liveReplacement_of_systems (afterSelection _).systems
    have sameTop : ((state.replaceFleet env document).repairSelection env
        (state.placementOf selected)).repairCronSelection.viewportTopId = some top := by
      rw [repairSelection]
      split <;> exact isTop
    rw [viewportTopId_repairViewportAnchor, sameReplacement, sameTop]

theorem onlineAt_of_systems (same : after.systems = before.systems) :
    after.OnlineAt id ↔ before.OnlineAt id := by
  rw [OnlineAt, OnlineAt, same]

theorem ensureSelectedVisible_of_inRange {first position : ℕ}
    (isTop : (state.viewportTopId.bind (state.positionOf state.displayOrder)).getD 0 = first)
    (isSelected : state.selectedId.bind (state.positionOf state.displayOrder) = some position)
    (visible : inRange (visibleRange env state state.displayOrder first state.usableHeight)
      position = true) : state.ensureSelectedVisible env = state := by
  rw [ensureSelectedVisible, ensureSelectedVisibleWithOrder]
  split
  · rfl
  · rw [isTop, isSelected]
    simp only
    rw [usableHeight] at visible
    rw [if_pos visible]

theorem keepsView_adoptSnapshotInner {selected top : String}
    (seen : state.sawReachability = true) (applied : 0 < state.lastSnapshotGeneration)
    (distinct : (state.systems.map (·.id)).Nodup)
    (distinctAfter : (document.systems.map (·.id)).Nodup)
    (isSelected : state.selectedId = some selected) (isTop : state.viewportTopId = some top)
    (selectedOnline : state.OnlineAt selected) (topOnline : state.OnlineAt top)
    (selectedListed : StillListed env state document selected)
    (topListed : StillListed env state document top) :
    KeepsView env document selected top (state.adoptSnapshotInner env document) := by
  have distinctFleet : ((state.replaceFleet env document).systems.map (·.id)).Nodup := by
    have sameIds : (state.replaceFleet env document).systems.map (·.id) =
        document.systems.map (·.id) := by
      rw [replaceFleet, List.map_map]
      rfl
    rw [sameIds]
    exact distinctAfter
  have isAdopted : state.adoptSnapshotInner env document =
      (state.repaired env document).ensureSelectedVisible env := by
    rw [adoptSnapshotInner_eq, seen, Bool.not_true, Bool.false_and, if_neg Bool.false_ne_true]
  have systems : (state.repaired env document).systems =
      (state.replaceFleet env document).systems := repaired_repaired.systems
  have same : SameSelection (state.repaired env document)
      ((state.repaired env document).ensureSelectedVisible env) :=
    sameSelection_ensureSelectedVisible
  have distinctRepaired : ((state.repaired env document).systems.map (·.id)).Nodup := by
    rw [systems]
    exact distinctFleet
  rcases repaired_of_listed applied isSelected isTop selectedListed topListed with
    ⟨selectedAfter, topAfter⟩
  rcases online_repaired distinct distinctFleet selectedOnline selectedListed with
    ⟨selectedLive, selectedKept⟩
  rcases online_repaired distinct distinctFleet topOnline topListed with ⟨topLive, topKept⟩
  rw [isAdopted]
  refine ⟨?_, ?_, ?_⟩
  · intro someOnline
    rw [SomeOnline, same.systems, systems] at someOnline
    rcases selectedLive someOnline with ⟨newSelected, isNewSelected, newSelectedOnline⟩
    rcases topLive someOnline with ⟨newTop, isNewTop, newTopOnline⟩
    have onlineSelected := (onlineAt_of_systems systems).mpr newSelectedOnline
    rcases onlineAt_viewportTop_ensureSelectedVisible distinctRepaired
      (selectedAfter.trans isNewSelected) (topAfter.trans isNewTop) onlineSelected
      ((onlineAt_of_systems systems).mpr newTopOnline) with ⟨last, isLast, lastOnline⟩
    constructor
    · refine ⟨newSelected, ?_, (onlineAt_of_systems same.systems).mpr onlineSelected⟩
      rw [same.selectedId, selectedAfter, isNewSelected]
    · exact ⟨last, isLast, (onlineAt_of_systems same.systems).mpr lastOnline⟩
  · intro staysOnline
    rw [same.selectedId, selectedAfter, selectedKept staysOnline]
  · intro selectedStays topStays visible
    have oldSelected := selectedAfter.trans (selectedKept selectedStays)
    have oldTop := topAfter.trans (topKept topStays)
    have placed : ∀ id, ListedOnline document id → ∃ position,
        (state.repaired env document).positionOf (state.repaired env document).displayOrder id =
          some position := by
      rintro id ⟨dto, isListed, rfl, -⟩
      have isClean : cleanSystem env.clean dto ∈ (state.repaired env document).systems := by
        rw [systems]
        exact List.mem_map_of_mem isListed
      rcases systemAt_positionOf distinctRepaired isClean with ⟨position, isPosition, -⟩
      exact ⟨position, isPosition⟩
    rcases placed selected selectedStays with ⟨position, isPosition⟩
    rcases placed top topStays with ⟨first, isFirst⟩
    have inView : inRange (visibleRange env (state.repaired env document)
        (state.repaired env document).displayOrder first
        (state.repaired env document).usableHeight) position = true := by
      generalize state.repaired env document = settled at visible oldTop isFirst isPosition ⊢
      rcases @exists_top_ensureSelectedVisibleWithOrder env settled settled.displayOrder with
        ⟨last, isLast⟩
      rw [ensureSelectedVisible, isLast] at visible
      have isSettled : { settled with viewportTopId := some top } = settled := by
        rw [← oldTop]
      have seen := visible first position isFirst isPosition
      rw [isSettled] at seen
      exact seen
    rw [ensureSelectedVisible_of_inRange _ _ inView, oldTop]
    · rw [oldTop, Option.bind_some, isFirst, Option.getD_some]
    · rw [oldSelected, Option.bind_some, isPosition]

end Adoption

end AppState

namespace Frontend

variable {env : Surroundings} {frontend next : Frontend} {event : FrontendEvent}
  {events : List FrontendEvent} {terminalSize : Option (ℕ × ℕ)}

/-- What the daemon promises of a document: it names every system once, and it has a number. -/
def IsPublished (event : FrontendEvent) : Prop :=
  DistinctIds event ∧
    ∀ document sink, event = .document document sink → 0 < document.generation

/-- A document that carries polled reachability was applied in a run. -/
def AppliedPolled (env : Surroundings) (terminalSize : Option (ℕ × ℕ))
    (events : List FrontendEvent) : Prop :=
  ∃ before document sink after frontend, events = before ++ .document document sink :: after ∧
    Machine.run (step env) (start env terminalSize) before = some frontend ∧
    document.isNewerThan frontend.app.lastSnapshotGeneration = true ∧
    document.pollInitialized = true

/-- A polled document was applied, and applied documents are told from none. -/
structure SawPolled (state : AppState) : Prop where
  sawReachability : state.sawReachability = true
  applied : 0 < state.lastSnapshotGeneration

theorem SawPolled.of_sameAge {before after : AppState} (saw : SawPolled before)
    (same : AppState.SameAge before after) : SawPolled after where
  sawReachability := same.sawReachability.trans saw.sawReachability
  applied := by
    rw [same.lastSnapshotGeneration]
    exact saw.applied

theorem SawPolled.of_shows {state after : AppState} (saw : SawPolled state)
    (published : IsPublished event) (shown : Shows env state event after) : SawPolled after := by
  cases shown with
  | action action sink => exact saw.of_sameAge AppState.presents_applyAction.sameAge
  | stale document sink isStale => exact saw
  | document document sink isNewer =>
      have replaced : SawPolled (state.replaceFleet env document) := by
        refine ⟨?_, published.2 document sink rfl⟩
        rw [AppState.replaceFleet, saw.sawReachability, Bool.true_or]
      exact replaced.of_sameAge AppState.presents_adoptSnapshotInner.sameAge
  | highlightExpired => exact saw.of_sameAge AppState.presents_applyAction.sameAge

theorem distinct_of_shows {state after : AppState} (distinct : (state.systems.map (·.id)).Nodup)
    (published : IsPublished event) (shown : Shows env state event after) :
    (after.systems.map (·.id)).Nodup := by
  cases shown with
  | action action sink =>
      rw [AppState.acts_applyAction.systems]
      exact distinct
  | stale document sink isStale => exact distinct
  | document document sink isNewer =>
      rw [AppState.ids_adoptSnapshotInner]
      exact published.1
  | highlightExpired =>
      rw [AppState.acts_applyAction.systems]
      exact distinct

/-- What every step keeps holds after a run of what the daemon publishes. -/
theorem holds_of_run {holds : AppState → Prop} {first : Frontend}
    (preserved : ∀ {state after : AppState} {event : FrontendEvent}, holds state →
      IsPublished event → Shows env state event after → holds after)
    (published : ∀ event ∈ events, IsPublished event) (initially : holds first.app)
    (ran : Machine.run (step env) first events = some frontend) : holds frontend.app := by
  have everyStep : Machine.EveryStep (step env) first events fun _ event => IsPublished event := by
    intro before event after state split _
    apply published
    rw [split]
    simp
  have everyState : Machine.EveryState (step env) first events fun frontend =>
      holds frontend.app := by
    refine everyStep.invariant initially ?_
    intro before event after held isPublished stepped
    exact preserved held isPublished (shows_of_step stepped)
  exact everyState events [] frontend (List.append_nil _).symm ran

theorem sawPolled_of_run (published : ∀ event ∈ events, IsPublished event)
    (polled : AppliedPolled env terminalSize events)
    (ran : Machine.run (step env) (start env terminalSize) events = some frontend) :
    SawPolled frontend.app := by
  rcases polled with ⟨before, document, sink, after, earlier, rfl, ranBefore, isNewer, isPolled⟩
  rw [Machine.run_append, ranBefore, Option.bind_some, Machine.run] at ran
  rcases Option.bind_eq_some_iff.mp ran with ⟨adopted, stepped, ranAfter⟩
  refine holds_of_run SawPolled.of_shows (fun event isLater => published event ?_) ?_ ranAfter
  · exact List.mem_append_right _ (List.mem_cons_of_mem _ isLater)
  · have shown := shows_of_step stepped
    have isPublished := published (.document document sink)
      (List.mem_append_right _ List.mem_cons_self)
    generalize adopted.app = state at shown
    cases shown with
    | stale document sink isStale =>
        rw [isStale] at isNewer
        cases isNewer
    | document document sink isNewer =>
        have replaced : SawPolled (earlier.app.replaceFleet env document) := by
          refine ⟨?_, isPublished.2 document sink rfl⟩
          rw [AppState.replaceFleet, isPolled, Bool.or_true]
        exact replaced.of_sameAge AppState.presents_adoptSnapshotInner.sameAge

theorem start_systems : (start env terminalSize).app.systems = [] := by
  cases terminalSize with
  | none => rfl
  | some size => exact AppState.sameSelection_ensureSelectedVisible.systems

/-- A host that fails does not take the view with it. -/
theorem keepsView_document {document : FrontendSnapshot} {sink : Sink} {selected top : String}
    (ran : Machine.run (step env) (start env terminalSize) events = some frontend)
    (published : ∀ event ∈ events, IsPublished event)
    (polled : AppliedPolled env terminalSize events)
    (isSelected : frontend.app.selectedId = some selected)
    (isTop : frontend.app.viewportTopId = some top)
    (selectedOnline : frontend.app.OnlineAt selected) (topOnline : frontend.app.OnlineAt top)
    (isPublished : IsPublished (.document document sink))
    (selectedListed : AppState.StillListed env frontend.app document selected)
    (topListed : AppState.StillListed env frontend.app document top)
    (stepped : step env frontend (.document document sink) = some next) :
    AppState.KeepsView env document selected top next.app := by
  have saw := sawPolled_of_run published polled ran
  have distinct : (frontend.app.systems.map (·.id)).Nodup := by
    refine holds_of_run distinct_of_shows published ?_ ran
    rw [start_systems]
    exact List.nodup_nil
  have shown := shows_of_step stepped
  generalize next.app = adopted at shown
  cases shown with
  | stale document sink isStale =>
      refine ⟨fun _ => ⟨?_, ?_⟩, fun _ => isSelected, fun _ _ _ => isTop⟩
      · exact ⟨selected, isSelected, selectedOnline⟩
      · exact ⟨top, isTop, topOnline⟩
  | document document sink isNewer =>
      exact AppState.keepsView_adoptSnapshotInner saw.sawReachability saw.applied distinct
        isPublished.1 isSelected isTop selectedOnline topOnline selectedListed topListed

section Example

/-- The second document of the fleet, in which the first host has failed. -/
def failedDocument : FrontendSnapshot :=
  { twoHostDocument "backup" "backup" with
    generation := 2
    systems := (twoHostDocument "backup" "backup").systems.map fun dto =>
      if dto.id = "a" then { dto with reachability := .offline } else dto }

def watching : List FrontendEvent :=
  [.document (twoHostDocument "backup" "backup") .ready]

theorem published_watching : ∀ event ∈ watching, IsPublished event := by
  intro event isMember
  cases List.mem_singleton.mp isMember
  have distinct : ["a", "b"].Nodup := by decide
  refine ⟨distinct, ?_⟩
  rintro document sink ⟨⟩
  exact Nat.one_pos

theorem appliedPolled_watching : AppliedPolled noRecords (some (80, 24)) watching :=
  ⟨[], _, _, [], _, rfl, rfl, rfl, rfl⟩

/-- The other host is selected and stands at the top in place of the failed one. -/
theorem keepsView_failedDocument : ∃ frontend next,
    Machine.run (step noRecords) (start noRecords (some (80, 24))) watching = some frontend ∧
      step noRecords frontend (.document failedDocument .ready) = some next ∧
      next.app.SomeOnline ∧ next.app.selectedId = some "b" ∧
      AppState.KeepsView noRecords failedDocument "a" "a" next.app := by
  let watched := (start noRecords (some (80, 24))).applyDocument noRecords
    (twoHostDocument "backup" "backup") .ready
  let failed := watched.applyDocument noRecords failedDocument .ready
  have systems : watched.app.systems =
      (twoHostDocument "backup" "backup").systems.map (cleanSystem id) := by
    decide +kernel
  have selectedOnline : watched.app.OnlineAt "a" := by
    rw [AppState.OnlineAt, systems]
    decide
  have stillListed : AppState.StillListed noRecords watched.app failedDocument "a" := by
    rw [AppState.StillListed, systems]
    decide +kernel
  have distinct : ["a", "b"].Nodup := by decide
  have isPublished : IsPublished (.document failedDocument .ready) := by
    refine ⟨distinct, ?_⟩
    rintro document sink ⟨⟩
    exact Nat.two_pos
  refine ⟨watched, failed, rfl, rfl, ?_, ?_, ?_⟩
  · have systemsAfter : failed.app.systems = failedDocument.systems.map (cleanSystem id) := by
      decide +kernel
    rw [AppState.SomeOnline, systemsAfter]
    decide +kernel
  · decide +kernel
  · exact @keepsView_document noRecords watched failed watching (some (80, 24)) failedDocument
      .ready "a" "a" rfl published_watching appliedPolled_watching (by decide +kernel)
      (by decide +kernel) selectedOnline selectedOnline isPublished stillListed stillListed rfl

end Example

end Frontend

end Gregg.Tui

import Mathlib.Data.Prod.Lex
import Gregg.Greggd.GateRows

/-!
# Which occurrence a tick launches, defers and expires

The occurrences a tick chooses from are the pending ones once the due times have been collected.
The tick expires those the reading blocks that have waited their full time, launches the oldest
one that is eligible if the slot is free, and defers the older ones that are blocked.
-/

namespace Gregg

/-- The occurrence of a job that is pending once its due time has been collected. -/
def JobState.duePending (input : TickInput) (state : JobState) : Option PendingOccurrence :=
  if state.nextDue ≤ input.wallNow then
    match state.pending with
    | some pending => some { pending with coalesced := true }
    | none =>
        some
          { occurrence := state.made
            since := input.now
            sinceUnixMs := input.unixNow
            scheduled := state.nextDue
            retryAt := input.now
            retryAtUnixMs := input.unixNow
            coalesced := false
            waitingLogged := false }
  else state.pending

theorem JobState.Marked.duePending_eq {zone : LocalZone} {input : TickInput}
    {state marked : JobState} (due : state.Marked zone input marked) :
    marked.pending = state.duePending input := by
  cases due with
  | notDue later => simp [duePending, Int.not_le.mpr later]
  | coalesced isDue waiting _ => simp [duePending, isDue, waiting]
  | made isDue idle _ => simp [duePending, isDue, idle]

/-- The job is due, and no due time can be computed after this one. -/
def JobState.DueLast (zone : LocalZone) (input : TickInput) (state : JobState) : Prop :=
  state.nextDue ≤ input.wallNow ∧
    ∃ error, state.schedule.nextAfter zone input.wallNow = .error error

theorem JobState.markDue_eq_error_iff {zone : LocalZone} {input : TickInput}
    {config : ScheduledJobConfig} {state : JobState} :
    (∃ error, state.markDue zone input config = .error error) ↔ state.DueLast zone input := by
  unfold markDue DueLast
  by_cases isDue : state.nextDue ≤ input.wallNow
  · simp only [isDue, if_true, true_and]
    cases state.schedule.nextAfter zone input.wallNow with
    | ok nextDue => simp
    | error error => simp
  · simp [isDue]

namespace Engine

variable {configs : List ScheduledJobConfig} {zone : LocalZone}
  {engine collected ticked : Engine configs} {input : TickInput}
  {expiredUnixMs : Fin configs.length → ℕ} {index : Fin configs.length}
  {pending : PendingOccurrence}

/-- The job's pending occurrence may be launched: its retry instant has passed and its gate is
open. -/
structure Eligible (engine : Engine configs) (input : TickInput) (index : Fin configs.length)
    (pending : PendingOccurrence) : Prop where
  waiting : (engine.states index).duePending input = some pending
  retried : pending.retryAt ≤ input.now
  admitted : loadBlocked (configs.get index) input.load = false

/-- The reading blocks the job's pending occurrence, which has waited its full time. -/
structure Expires (engine : Engine configs) (input : TickInput) (index : Fin configs.length)
    (pending : PendingOccurrence) : Prop where
  waiting : (engine.states index).duePending input = some pending
  blocked : loadBlocked (configs.get index) input.load = true
  waited : fromMillis (configs.get index).effectiveMaxWaitMs ≤ input.now - pending.since

/-- The age of an occurrence, and among occurrences of one age the place of its job. -/
def rank (key : Key configs) : Instant ×ₗ Fin configs.length :=
  toLex key

theorem keyLt_eq (left right : Key configs) :
    keyLt left right = decide (rank left < rank right) := by
  rw [Bool.eq_iff_iff]
  simp [keyLt, rank, Prod.Lex.toLex_lt_toLex]

section Selection

/-- The key of a job whose occurrence is eligible. -/
def candidate (engine : Engine configs) (input : TickInput) (index : Fin configs.length) :
    Option (Key configs) :=
  if (engine.states index).isEligible input (configs.get index) then
    (engine.states index).pending.map fun pending => (pending.since, index)
  else none

theorem select_eq_leastTurn (engine : Engine configs) (input : TickInput) :
    engine.select input = (List.finRange configs.length).foldl
      (Loop.leastTurn rank (engine.candidate input)) none := by
  have turn : engine.selectTurn input = Loop.leastTurn rank (engine.candidate input) := by
    funext selected index
    simp only [selectTurn, Loop.leastTurn, candidate]
    cases waiting : (engine.states index).pending with
    | none => simp only [Option.map_none, ite_self]
    | some pending =>
        simp only [keyLt_eq, Option.map_some]
        cases (engine.states index).isEligible input (configs.get index) with
        | false => rfl
        | true => rfl
  rw [select, turn]

theorem candidate_eq_some {key : Key configs} : engine.candidate input index = some key ↔
    ∃ pending, (engine.states index).pending = some pending ∧ pending.retryAt ≤ input.now ∧
      loadBlocked (configs.get index) input.load = false ∧ (pending.since, index) = key := by
  unfold candidate JobState.isEligible
  cases waiting : (engine.states index).pending with
  | none => simp
  | some pending => simp [and_assoc]

end Selection

section Collected

variable (completed : engine.collectDue zone input expiredUnixMs = .ok collected)

include completed

theorem pending_of_expires (expires : engine.Expires input index pending) :
    (collected.states index).pending = none := by
  rcases collectDue_eq_expiredState completed index with ⟨marked, due, collectedIs⟩
  have waiting := due.duePending_eq.trans expires.waiting
  rw [collectedIs, expiredState, JobState.isExpired_of_pending waiting, expires.blocked,
    decide_eq_true expires.waited]
  rfl

theorem pending_of_not_expires (kept : ∀ pending, ¬engine.Expires input index pending) :
    (collected.states index).pending = (engine.states index).duePending input := by
  rcases collectDue_eq_expiredState completed index with ⟨marked, due, collectedIs⟩
  rw [collectedIs, expiredState, ← due.duePending_eq]
  split
  · rename_i isExpired
    simp only [JobState.isExpired, Bool.and_eq_true, Option.any_eq_true,
      decide_eq_true_eq] at isExpired
    rcases isExpired with ⟨blocked, pending, waiting, waited⟩
    exact absurd ⟨due.duePending_eq.symm.trans waiting, blocked, waited⟩ (kept pending)
  · rfl

/-- What is still pending after the expiry loop was pending before it, and did not expire. -/
theorem duePending_of_pending (waiting : (collected.states index).pending = some pending) :
    (engine.states index).duePending input = some pending ∧
      ∀ other, ¬engine.Expires input index other := by
  have kept : ∀ other, ¬engine.Expires input index other := by
    intro other expires
    rw [pending_of_expires completed expires] at waiting
    cases waiting
  exact ⟨(pending_of_not_expires completed kept).symm.trans waiting, kept⟩

/-- The candidates of the selection are the eligible occurrences. -/
theorem candidate_collected {key : Key configs} : collected.candidate input index = some key ↔
    ∃ pending, engine.Eligible input index pending ∧ (pending.since, index) = key := by
  rw [candidate_eq_some]
  constructor
  · rintro ⟨pending, waiting, retried, admitted, isKey⟩
    exact ⟨pending, ⟨(duePending_of_pending completed waiting).1, retried, admitted⟩, isKey⟩
  · rintro ⟨pending, eligible, isKey⟩
    refine ⟨pending, ?_, eligible.retried, eligible.admitted, isKey⟩
    rw [pending_of_not_expires completed, eligible.waiting]
    intro other expires
    exact absurd eligible.admitted (by rw [expires.blocked]; decide)

theorem select_eq_none : collected.select input = none ↔
    ¬∃ index pending, engine.Eligible input index pending := by
  rw [select_eq_leastTurn, Loop.foldl_leastTurn_eq_none]
  constructor
  · rintro ⟨-, noCandidate⟩ ⟨index, pending, eligible⟩
    have isCandidate := (candidate_collected completed).mpr ⟨pending, eligible, rfl⟩
    rw [noCandidate index (List.mem_finRange index)] at isCandidate
    cases isCandidate
  · intro noEligible
    refine ⟨rfl, fun index _ => ?_⟩
    cases isCandidate : collected.candidate input index with
    | none => rfl
    | some key =>
        rcases (candidate_collected completed).mp isCandidate with ⟨pending, eligible, -⟩
        exact absurd ⟨index, pending, eligible⟩ noEligible

/-- The selection returns the eligible occurrence of least rank. -/
theorem eligible_of_select {winner : Key configs}
    (selected : collected.select input = some winner) :
    ∃ pending, engine.Eligible input winner.2 pending ∧ pending.since = winner.1 ∧
      ∀ index other, engine.Eligible input index other →
        rank winner ≤ rank (other.since, index) := by
  rw [select_eq_leastTurn] at selected
  rcases Loop.foldl_leastTurn_least _ selected with ⟨isFound, -, least⟩
  rcases isFound with isNone | ⟨index, -, isCandidate⟩
  · cases isNone
  · rcases (candidate_collected completed).mp isCandidate with ⟨pending, eligible, rfl⟩
    refine ⟨pending, eligible, rfl, fun other occurrence isOther => ?_⟩
    exact least other (List.mem_finRange other) _
      ((candidate_collected completed).mpr ⟨occurrence, isOther, rfl⟩)

end Collected

/-- The job's pending occurrence is blocked and due for a retry, it has not waited its full time,
and no occurrence that is launched comes before it. -/
structure Defers (engine : Engine configs) (input : TickInput) (slotAvailable : Bool)
    (launch : Option (Launch configs.length)) (index : Fin configs.length)
    (pending : PendingOccurrence) : Prop where
  slotFree : slotAvailable = true
  waiting : (engine.states index).duePending input = some pending
  retried : pending.retryAt ≤ input.now
  blocked : loadBlocked (configs.get index) input.load = true
  young : input.now - pending.since < fromMillis (configs.get index).effectiveMaxWaitMs
  older : ∀ chosen ∈ launch, ∀ winner,
    (engine.states chosen.index).duePending input = some winner →
      rank (pending.since, index) < rank (winner.since, chosen.index)

/-- An occurrence whose retry has been pushed out. -/
def deferredPending (input : TickInput) (config : ScheduledJobConfig)
    (pending : PendingOccurrence) : PendingOccurrence :=
  { pending with
    waitingLogged := true
    retryAt := input.now + fromMillis config.effectiveRetryIntervalMs
    retryAtUnixMs := satAdd input.unixNow config.effectiveRetryIntervalMs }

/-- A deferral keeps the instant an occurrence has waited from. -/
theorem since_of_deferredPending {config : ScheduledJobConfig} {other : PendingOccurrence}
    (isPending : deferredPending input config other = pending) : other.since = pending.since := by
  cases pending with
  | mk _ since _ _ _ _ _ _ =>
      simp only [deferredPending, PendingOccurrence.mk.injEq] at isPending
      exact isPending.2.1

/-- What a tick does to the pending occurrences: it launches the first eligible one, and of the
others it changes only those that expire or are deferred. -/
structure Chooses (engine : Engine configs) (input : TickInput) (slotAvailable : Bool)
    (launch : Option (Launch configs.length)) (ticked : Engine configs) : Prop where
  launches : launch.isSome = true ↔
    slotAvailable = true ∧ ∃ index pending, engine.Eligible input index pending
  launched : ∀ chosen ∈ launch, ∃ pending, engine.Eligible input chosen.index pending ∧
    chosen = launchOf input chosen.index pending ∧ (ticked.states chosen.index).pending = none ∧
      ∀ index other, engine.Eligible input index other →
        rank (pending.since, chosen.index) ≤ rank (other.since, index)
  expired : ∀ index pending, engine.Expires input index pending →
    (ticked.states index).pending = none
  deferred : ∀ index pending, engine.Defers input slotAvailable launch index pending →
    (ticked.states index).pending = some (deferredPending input (configs.get index) pending)
  kept : ∀ index, (∀ chosen ∈ launch, chosen.index ≠ index) →
    (∀ pending, ¬engine.Expires input index pending) →
    (∀ pending, ¬engine.Defers input slotAvailable launch index pending) →
    (ticked.states index).pending = (engine.states index).duePending input

section Ticks

theorem isBlockedBefore_iff {winner : Option (Key configs)} :
    engine.isBlockedBefore winner input index = true ↔ ∃ pending,
      (engine.states index).pending = some pending ∧ pending.retryAt ≤ input.now ∧
        (∀ key ∈ winner, rank (pending.since, index) < rank key) ∧
          loadBlocked (configs.get index) input.load = true := by
  simp only [isBlockedBefore, keyLt_eq, Option.any_eq_true, Bool.and_eq_true, Bool.not_or,
    Bool.not_eq_true', decide_eq_false_iff_not, not_lt, Option.any_eq_false, Bool.not_eq_false',
    decide_eq_true_eq, and_assoc, Option.mem_def]

theorem pending_deferBlockedBefore (winner : Option (Key configs)) :
    ((engine.deferBlockedBefore winner input).states index).pending =
      if engine.isBlockedBefore winner input index then
        (engine.states index).pending.map (deferredPending input (configs.get index))
      else (engine.states index).pending := by
  simp only [deferBlockedBefore]
  split <;> rfl

/-- Which occurrences are deferred, given whom the slot goes to. -/
theorem isBlockedBefore_collected
    (completed : engine.collectDue zone input expiredUnixMs = .ok collected)
    {launch : Option (Launch configs.length)} {winner : Option (Key configs)}
    (sameKey : ∀ pending : PendingOccurrence,
      (∀ key ∈ winner, rank (pending.since, index) < rank key) ↔
      ∀ chosen ∈ launch, ∀ other, (engine.states chosen.index).duePending input = some other →
        rank (pending.since, index) < rank (other.since, chosen.index)) :
    collected.isBlockedBefore winner input index = true ↔
      ∃ pending, engine.Defers input true launch index pending := by
  rw [isBlockedBefore_iff]
  constructor
  · rintro ⟨pending, waiting, retried, older, blocked⟩
    rcases duePending_of_pending completed waiting with ⟨due, kept⟩
    refine ⟨pending, rfl, due, retried, blocked, ?_, (sameKey pending).mp older⟩
    exact Nat.lt_of_not_ge fun waited => kept pending ⟨due, blocked, waited⟩
  · rintro ⟨pending, defers⟩
    refine ⟨pending, ?_, defers.retried, (sameKey pending).mpr defers.older, defers.blocked⟩
    rw [pending_of_not_expires completed, defers.waiting]
    intro other expires
    cases defers.waiting.symm.trans expires.waiting
    exact absurd expires.waited (Nat.not_le_of_lt defers.young)

/-- What the deferral leaves of every occurrence, given whom the slot goes to. -/
theorem pending_deferred
    (completed : engine.collectDue zone input expiredUnixMs = .ok collected)
    {launch : Option (Launch configs.length)} {winner : Option (Key configs)}
    (blockedIff : ∀ index, collected.isBlockedBefore winner input index = true ↔
      ∃ pending, engine.Defers input true launch index pending) :
    (∀ index pending, engine.Expires input index pending →
      ((collected.deferBlockedBefore winner input).states index).pending = none) ∧
    (∀ index pending, engine.Defers input true launch index pending →
      ((collected.deferBlockedBefore winner input).states index).pending =
        some (deferredPending input (configs.get index) pending)) ∧
    ∀ index, (∀ pending, ¬engine.Expires input index pending) →
      (∀ pending, ¬engine.Defers input true launch index pending) →
      ((collected.deferBlockedBefore winner input).states index).pending =
        (engine.states index).duePending input := by
  refine ⟨?_, ?_, ?_⟩
  · intro index pending expires
    rw [pending_deferBlockedBefore, pending_of_expires completed expires]
    simp
  · intro index pending defers
    have kept : ∀ other, ¬engine.Expires input index other := by
      intro other expires
      cases defers.waiting.symm.trans expires.waiting
      exact absurd expires.waited (Nat.not_le_of_lt defers.young)
    rw [pending_deferBlockedBefore, if_pos ((blockedIff index).mpr ⟨pending, defers⟩),
      pending_of_not_expires completed kept, defers.waiting]
    rfl
  · intro index kept notDeferred
    have notBlocked : ¬collected.isBlockedBefore winner input index = true := by
      rw [blockedIff]
      exact fun ⟨pending, defers⟩ => notDeferred pending defers
    rw [pending_deferBlockedBefore, if_neg notBlocked, pending_of_not_expires completed kept]

/-- A tick fails only over a job that has no next due time. -/
theorem tick_eq_error_iff {slotAvailable : Bool} :
    (∃ error, engine.tick zone input expiredUnixMs slotAvailable = .error error) ↔
      ∃ index, (engine.states index).DueLast zone input := by
  have collects : (∃ error, engine.tick zone input expiredUnixMs slotAvailable = .error error) ↔
      ∃ error, (Loop.collect fun index =>
        (engine.states index).markDue zone input (configs.get index)) = .error error := by
    unfold tick collectDue
    cases Loop.collect fun index =>
        (engine.states index).markDue zone input (configs.get index) with
    | error error => simp
    | ok states => simp
  rw [collects, Loop.collect_eq_error_iff]
  simp only [JobState.markDue_eq_error_iff]

/-- A tick that completes launches the first eligible occurrence, and changes no others than those
that expire or are deferred. -/
theorem chooses_of_ok {slotAvailable : Bool} {launch : Option (Launch configs.length)}
    (completed : engine.tick zone input expiredUnixMs slotAvailable = .ok (launch, ticked)) :
    engine.Chooses input slotAvailable launch ticked := by
  unfold tick at completed
  split at completed
  · cases completed
  · rename_i collected collectedOk
    cases slotAvailable with
    | false =>
        cases completed
        refine ⟨by simp, by simp, fun _ _ => pending_of_expires collectedOk, ?_, ?_⟩
        · exact fun _ _ defers => absurd defers.slotFree Bool.false_ne_true
        · exact fun _ _ kept _ => pending_of_not_expires collectedOk kept
    | true =>
        simp only [↓reduceIte, Except.ok.injEq] at completed
        cases selected : collected.select input with
        | none =>
            simp only [takeSlot, selected, Prod.mk.injEq] at completed
            rcases completed with ⟨rfl, rfl⟩
            have blockedIff : ∀ index, collected.isBlockedBefore none input index = true ↔
                ∃ pending, engine.Defers input true none index pending :=
              fun index => isBlockedBefore_collected collectedOk (by simp)
            rcases pending_deferred collectedOk blockedIff with ⟨expired, deferred, kept⟩
            refine ⟨?_, by simp, expired, deferred, fun index _ => kept index⟩
            simpa using (select_eq_none collectedOk).mp selected
        | some winner =>
            rcases eligible_of_select collectedOk selected with ⟨pending, eligible, isSince, least⟩
            have kept : ∀ other, ¬engine.Expires input winner.2 other :=
              fun other expires => absurd eligible.admitted (by rw [expires.blocked]; decide)
            have waiting : (collected.states winner.2).pending = some pending :=
              (pending_of_not_expires collectedOk kept).trans eligible.waiting
            simp only [takeSlot, selected, Engine.launch,
              deferBlockedBefore_states_of_admitted eligible.admitted, waiting,
              Prod.mk.injEq] at completed
            rcases completed with ⟨rfl, rfl⟩
            have isWinner : (pending.since, winner.2) = winner := by rw [isSince]
            have blockedIff : ∀ index, collected.isBlockedBefore (some winner) input index = true ↔
                ∃ other, engine.Defers input true (some (launchOf input winner.2 pending)) index
                  other := by
              refine fun index => isBlockedBefore_collected collectedOk fun other => ?_
              simp [launchOf, eligible.waiting, isWinner]
            rcases pending_deferred collectedOk blockedIff with ⟨expired, deferred, others⟩
            refine ⟨by simpa using ⟨winner.2, pending, eligible⟩, ?_, ?_, ?_, ?_⟩
            · intro chosen isChosen
              cases isChosen
              refine ⟨pending, eligible, rfl, ?_, ?_⟩
              · simp [launchOf, setState, launchedState]
              · intro index other isOther
                rw [show (launchOf input winner.2 pending).index = winner.2 from rfl, isWinner]
                exact least index other isOther
            · intro index other expires
              by_cases here : index = winner.2
              · subst here
                exact absurd expires (kept other)
              · simp only [setState, Function.update_of_ne here]
                exact expired index other expires
            · intro index other defers
              by_cases here : index = winner.2
              · subst here
                exact absurd eligible.admitted (by rw [defers.blocked]; decide)
              · simp only [setState, Function.update_of_ne here]
                exact deferred index other defers
            · intro index notChosen notExpired notDeferred
              have here : index ≠ winner.2 := fun same => notChosen _ rfl same.symm
              simp only [setState, Function.update_of_ne here]
              exact others index notExpired notDeferred

/-- From any state and for any readings, a tick chooses as it should or it fails, which it does
exactly when a due job has no next due time. -/
theorem chooses_of_tick (zone : LocalZone) (engine : Engine configs) (input : TickInput)
    (expiredUnixMs : Fin configs.length → ℕ) (slotAvailable : Bool) :
    (∀ launch ticked,
      engine.tick zone input expiredUnixMs slotAvailable = .ok (launch, ticked) →
        engine.Chooses input slotAvailable launch ticked) ∧
      ((∃ error, engine.tick zone input expiredUnixMs slotAvailable = .error error) ↔
        ∃ index, (engine.states index).DueLast zone input) :=
  ⟨fun _ _ completed => chooses_of_ok completed, tick_eq_error_iff⟩

end Ticks

section Records

/-- What the expiry loop records of the jobs it is run on. -/
theorem issued_foldl_takeExpired (indices : List (Fin configs.length)) (distinct : indices.Nodup)
    (engine : Engine configs) :
    ∃ records,
      (indices.foldl (takeExpired input expiredUnixMs) engine).observer.issued =
        engine.observer.issued ++ records ∧
      (∀ record ∈ records, record.outcome = .loadExpired) ∧
      List.Sublist (records.map (·.index)) indices ∧
      ∀ index occurrence,
        (∃ record ∈ records, record.index = index ∧ record.occurrence = occurrence) ↔
          index ∈ indices ∧ ∃ pending, (engine.states index).pending = some pending ∧
            (engine.states index).isExpired input (configs.get index) = true ∧
            pending.occurrence = occurrence := by
  induction indices generalizing engine with
  | nil => exact ⟨[], by simp⟩
  | cons head rest ih =>
      rw [List.nodup_cons] at distinct
      rcases ih distinct.2 (takeExpired input expiredUnixMs engine head) with
        ⟨records, issued, outcomes, order, exact⟩
      have same : ∀ index ∈ rest, (takeExpired input expiredUnixMs engine head).states index =
          engine.states index := fun index isRest =>
        takeExpired_states_of_ne (ne_of_mem_of_not_mem isRest distinct.1).symm engine
      have restExact : ∀ index occurrence,
          (∃ record ∈ records, record.index = index ∧ record.occurrence = occurrence) ↔
            index ∈ rest ∧ ∃ pending, (engine.states index).pending = some pending ∧
              (engine.states index).isExpired input (configs.get index) = true ∧
              pending.occurrence = occurrence := by
        intro index occurrence
        rw [exact]
        refine and_congr_right fun isRest => ?_
        rw [same index isRest]
      by_cases expires : ∃ pending, (engine.states head).pending = some pending ∧
          (engine.states head).isExpired input (configs.get head) = true
      · rcases expires with ⟨pending, waiting, isExpired⟩
        have turn : (takeExpired input expiredUnixMs engine head).observer.issued =
            engine.observer.issued ++
              [⟨head, pending.occurrence, engine.observer.nextSequence, .loadExpired⟩] := by
          simp only [takeExpired, waiting, isExpired, ↓reduceIte,
            SchedulerObserver.recordTerminal_issued, TerminalRecord.withoutChild]
        refine ⟨⟨head, pending.occurrence, engine.observer.nextSequence, .loadExpired⟩ :: records,
          ?_, ?_, order.cons_cons head, ?_⟩
        · rw [List.foldl_cons, issued, turn, List.append_assoc]
          rfl
        · rw [List.forall_mem_cons]
          exact ⟨rfl, outcomes⟩
        · intro index occurrence
          simp only [List.mem_cons, exists_eq_or_imp, restExact]
          rw [or_and_right]
          refine or_congr_left ⟨?_, ?_⟩
          · rintro ⟨rfl, rfl⟩
            exact ⟨rfl, pending, waiting, isExpired, rfl⟩
          · rintro ⟨rfl, other, isOther, _, rfl⟩
            cases waiting.symm.trans isOther
            exact ⟨rfl, rfl⟩
      · have turn : takeExpired input expiredUnixMs engine head = engine := by
          simp only [takeExpired]
          split
          · rfl
          · rename_i pending waiting
            exact if_neg fun isExpired => expires ⟨pending, waiting, isExpired⟩
        refine ⟨records, ?_, outcomes, order.cons head, ?_⟩
        · rw [List.foldl_cons, issued, turn]
        · intro index occurrence
          rw [restExact, List.mem_cons, or_and_right, or_iff_right]
          rintro ⟨rfl, pending, waiting, isExpired, _⟩
          exact expires ⟨pending, waiting, isExpired⟩

@[simp]
theorem takeSlot_observer (engine : Engine configs) (input : TickInput) :
    (engine.takeSlot input).2.observer = engine.observer := by
  unfold takeSlot
  split
  · rfl
  · simp only [launch]
    split <;> rfl

/-- A tick records an expiry of exactly the occurrences that the reading blocks and that have
waited their full time, and leaves none of them pending. -/
structure RecordsExpiries (engine : Engine configs) (input : TickInput)
    (launch : Option (Launch configs.length)) (ticked : Engine configs) : Prop where
  records : ∃ records, ticked.observer.issued = engine.observer.issued ++ records ∧
    (∀ record ∈ records, record.outcome = .loadExpired) ∧
    (records.map (·.index)).Nodup ∧
    ∀ index occurrence,
      (∃ record ∈ records, record.index = index ∧ record.occurrence = occurrence) ↔
        ∃ pending, engine.Expires input index pending ∧ pending.occurrence = occurrence
  nonePast : ∀ index pending, (ticked.states index).pending = some pending →
    loadBlocked (configs.get index) input.load = true →
      input.now - pending.since < fromMillis (configs.get index).effectiveMaxWaitMs
  admitted : ∀ index,
    (configs.get index).maxLoad = none ∨ loadBlocked (configs.get index) input.load = false →
    (∀ chosen ∈ launch, chosen.index ≠ index) →
      (ticked.states index).pending = (engine.states index).duePending input

theorem not_loadBlocked_of_time_only {config : ScheduledJobConfig} {load : LoadGateState}
    (timeOnly : config.maxLoad = none) : loadBlocked config load = false := by
  simp [loadBlocked, loadGate, timeOnly]

theorem isExpired_iff {state : JobState} {config : ScheduledJobConfig} :
    state.isExpired input config = true ↔ loadBlocked config input.load = true ∧
      ∃ pending, state.pending = some pending ∧
        fromMillis config.effectiveMaxWaitMs ≤ input.now - pending.since := by
  simp [JobState.isExpired, Option.any_eq_true]

theorem recordsExpiries_of_ok {slotAvailable : Bool} {launch : Option (Launch configs.length)}
    (completed : engine.tick zone input expiredUnixMs slotAvailable = .ok (launch, ticked)) :
    engine.RecordsExpiries input launch ticked := by
  have chooses := chooses_of_ok completed
  refine ⟨?_, ?_, ?_⟩
  · unfold tick at completed
    split at completed
    · cases completed
    · rename_i collected collectedOk
      have observer : ticked.observer = collected.observer := by
        cases slotAvailable with
        | false =>
            cases completed
            rfl
        | true =>
            simp only [↓reduceIte, Except.ok.injEq] at completed
            rw [← takeSlot_observer collected input, completed]
      unfold collectDue at collectedOk
      split at collectedOk
      · cases collectedOk
      · rename_i states statesOk
        cases collectedOk
        rcases issued_foldl_takeExpired (List.finRange configs.length)
          (List.nodup_finRange configs.length) { engine with states } with
          ⟨records, issued, outcomes, order, exact⟩
        refine ⟨records, by rw [observer, issued], outcomes,
          order.nodup (List.nodup_finRange configs.length), fun index occurrence => ?_⟩
        have due :=
          (JobState.marked_of_markDue (Loop.eq_ok_of_collect statesOk index)).duePending_eq
        rw [exact]
        constructor
        · rintro ⟨-, pending, waiting, isExpired, same⟩
          rcases isExpired_iff.mp isExpired with ⟨blocked, other, isOther, waited⟩
          cases waiting.symm.trans isOther
          exact ⟨pending, ⟨due.symm.trans waiting, blocked, waited⟩, same⟩
        · rintro ⟨pending, expires, same⟩
          have waiting := due.trans expires.waiting
          exact ⟨List.mem_finRange index, pending, waiting,
            isExpired_iff.mpr ⟨expires.blocked, pending, waiting, expires.waited⟩, same⟩
  · intro index pending waiting blocked
    have notLaunched : ∀ chosen ∈ launch, chosen.index ≠ index := by
      rintro chosen isChosen rfl
      rcases chooses.launched chosen isChosen with ⟨_, _, _, emptied, _⟩
      rw [emptied] at waiting
      cases waiting
    by_cases isDeferred : ∃ other, engine.Defers input slotAvailable launch index other
    · rcases isDeferred with ⟨other, defers⟩
      have isPending := Option.some.inj ((chooses.deferred index other defers).symm.trans waiting)
      rw [← since_of_deferredPending isPending]
      exact defers.young
    · have notExpired : ∀ other, ¬engine.Expires input index other := by
        intro other expires
        rw [chooses.expired index other expires] at waiting
        cases waiting
      have isDue := chooses.kept index notLaunched notExpired
        fun other defers => isDeferred ⟨other, defers⟩
      exact Nat.lt_of_not_ge fun waited =>
        notExpired pending ⟨isDue.symm.trans waiting, blocked, waited⟩
  · intro index gateOpen notLaunched
    have admitted : loadBlocked (configs.get index) input.load = false :=
      gateOpen.elim not_loadBlocked_of_time_only id
    refine chooses.kept index notLaunched ?_ ?_
    · exact fun _ expires => absurd admitted (by rw [expires.blocked]; decide)
    · exact fun _ defers => absurd admitted (by rw [defers.blocked]; decide)

/-- From any state and for any readings, a tick records the expiries it should or it fails, which it
does exactly when a due job has no next due time. -/
theorem recordsExpiries_of_tick (zone : LocalZone) (engine : Engine configs) (input : TickInput)
    (expiredUnixMs : Fin configs.length → ℕ) (slotAvailable : Bool) :
    (∀ launch ticked,
      engine.tick zone input expiredUnixMs slotAvailable = .ok (launch, ticked) →
        engine.RecordsExpiries input launch ticked) ∧
      ((∃ error, engine.tick zone input expiredUnixMs slotAvailable = .error error) ↔
        ∃ index, (engine.states index).DueLast zone input) :=
  ⟨fun _ _ completed => recordsExpiries_of_ok completed, tick_eq_error_iff⟩

end Records

section Runs

/-- The schedule `* * 1 1 *`. -/
def newYearsDay : LocalSchedule where
  minutes := 2 ^ 60 - 1
  hours := 2 ^ 24 - 1
  monthDays := 2
  months := 2
  weekDays := 2 ^ 7 - 1
  monthDayWildcard := false
  weekDayWildcard := true

/-- An occurrence that has been pending since the monotonic clock began. -/
def oldestPending : PendingOccurrence where
  occurrence := 0
  since := 0
  sinceUnixMs := 0
  scheduled := 0
  retryAt := 0
  retryAtUnixMs := 0
  coalesced := false
  waitingLogged := false

/-- An engine of one job, whose first occurrence is still pending. -/
def waitingJob (config : ScheduledJobConfig) (nextDue : DateTime) : Engine [config] where
  states := fun _ =>
    { schedule := newYearsDay
      nextDue
      pending := some oldestPending
      lastGate := none
      made := 1 }
  observer := .new (fun _ => config.name) 0 { startedAtUnixMs := 0, nonce := 0 }

def timeOnly : ScheduledJobConfig :=
  { ScheduledJobConfig.minutely "a" with schedule := "* * 1 1 *" }

def whenIdle : ScheduledJobConfig :=
  { ScheduledJobConfig.hourlyWhenIdle "a" with schedule := "* * 1 1 *" }

/-- A wake that has no load reading. -/
def unread (wallNow : DateTime) (now : Instant) : TickInput where
  wallNow := wallNow
  now := now
  load := { readiness := .failed, load := none }

/-- The last minute of the calendar. -/
def lastMinute : DateTime :=
  (MAX_DATE * 86400 + 86340) * 1000000000

/-- The default waiting time on the monotonic clock. -/
def fullWait : Instant := fromMillis DEFAULT_MAX_WAIT_MS

theorem tick_coalesces : ∃ ticked,
    (waitingJob timeOnly 0).tick .utc (unread 0 0) (fun _ => 0) false = .ok (none, ticked) ∧
      (ticked.states ⟨0, by decide⟩).pending = some { oldestPending with coalesced := true } := by
  have run : ((waitingJob timeOnly 0).tick .utc (unread 0 0) (fun _ => 0) false).toOption.map
      (fun result => (result.1, (result.2.states ⟨0, by decide⟩).pending)) =
        some (none, some { oldestPending with coalesced := true }) := by decide +kernel
  rcases Option.map_eq_some_iff.mp run with ⟨⟨launch, ticked⟩, completed, facts⟩
  simp only [Prod.mk.injEq] at facts
  exact ⟨ticked, by rw [Scheduler.eq_ok_of_toOption completed, facts.1], facts.2⟩

/-- At the end of the calendar no next due time can be computed. -/
theorem tick_fails (config : ScheduledJobConfig) (now : Instant) : ∃ error,
    (waitingJob config lastMinute).tick .utc (unread lastMinute now) (fun _ => 0) true =
      .error error := by
  have noNext : (newYearsDay.nextAfter .utc lastMinute).toOption.isNone = true := by
    decide +kernel
  cases next : newYearsDay.nextAfter .utc lastMinute with
  | error error =>
      refine ⟨.job config.name error, ?_⟩
      simp only [tick, collectDue, waitingJob, Loop.collect, JobState.markDue, unread, next]
      rfl
  | ok candidate =>
      rw [next] at noNext
      cases noNext

/-- A due time is folded into a pending occurrence that nothing blocks, and a tick that fails
launches nothing although an occurrence is eligible. -/
theorem tick_changes_others :
    (∃ ticked, (waitingJob timeOnly 0).tick .utc (unread 0 0) (fun _ => 0) false =
        .ok (none, ticked) ∧
      loadBlocked timeOnly (unread 0 0).load = false ∧
      (ticked.states ⟨0, by decide⟩).pending ≠ some oldestPending) ∧
    (∃ pending, (waitingJob timeOnly lastMinute).Eligible (unread lastMinute 0)
      ⟨0, by decide⟩ pending) ∧
    ∃ error, (waitingJob timeOnly lastMinute).tick .utc (unread lastMinute 0) (fun _ => 0) true =
      .error error := by
  refine ⟨?_, ⟨{ oldestPending with coalesced := true }, by decide, by decide, by decide⟩,
    tick_fails timeOnly 0⟩
  rcases tick_coalesces with ⟨ticked, completed, isPending⟩
  refine ⟨ticked, completed, by decide, ?_⟩
  rw [isPending]
  decide

/-- A tick that fails records no expiry although an occurrence has waited its full time. -/
theorem tick_keeps_expired :
    (∃ pending, (waitingJob whenIdle lastMinute).Expires (unread lastMinute fullWait)
      ⟨0, by decide⟩ pending) ∧
    ∃ error, (waitingJob whenIdle lastMinute).tick .utc (unread lastMinute fullWait)
      (fun _ => 0) true = .error error :=
  ⟨⟨{ oldestPending with coalesced := true }, by decide, by decide, by decide⟩,
    tick_fails whenIdle fullWait⟩

theorem tick_launches : ∃ chosen ticked,
    (waitingJob timeOnly 0).tick .utc (unread 0 0) (fun _ => 0) true =
      .ok (some chosen, ticked) := by
  have run : ((waitingJob timeOnly 0).tick .utc (unread 0 0) (fun _ => 0) true).toOption.map
      (fun result => result.1.isSome) = some true := by decide +kernel
  rcases Option.map_eq_some_iff.mp run with ⟨⟨launch, ticked⟩, completed, facts⟩
  rcases Option.isSome_iff_exists.mp facts with ⟨chosen, isChosen⟩
  refine ⟨chosen, ticked, ?_⟩
  rw [Scheduler.eq_ok_of_toOption completed, ← isChosen]

theorem chooses_waitingJob : ∃ chosen ticked,
    (waitingJob timeOnly 0).Chooses (unread 0 0) true (some chosen) ticked := by
  rcases tick_launches with ⟨chosen, ticked, completed⟩
  exact ⟨chosen, ticked, (chooses_of_tick ..).1 _ _ completed⟩

theorem tick_expires : ∃ ticked,
    (waitingJob whenIdle 0).tick .utc (unread 0 fullWait) (fun _ => 0) true =
      .ok (none, ticked) ∧ ticked.observer.issued.length = 1 := by
  have run : ((waitingJob whenIdle 0).tick .utc (unread 0 fullWait) (fun _ => 0) true).toOption.map
      (fun result => (result.1, result.2.observer.issued.length)) = some (none, 1) := by
    decide +kernel
  rcases Option.map_eq_some_iff.mp run with ⟨⟨launch, ticked⟩, completed, facts⟩
  simp only [Prod.mk.injEq] at facts
  exact ⟨ticked, by rw [Scheduler.eq_ok_of_toOption completed, facts.1], facts.2⟩

theorem recordsExpiries_waitingJob : ∃ ticked,
    (waitingJob whenIdle 0).RecordsExpiries (unread 0 fullWait) none ticked ∧
      ticked.observer.issued.length = 1 := by
  rcases tick_expires with ⟨ticked, completed, one⟩
  exact ⟨ticked, (recordsExpiries_of_tick ..).1 _ _ completed, one⟩

end Runs

end Engine

end Gregg

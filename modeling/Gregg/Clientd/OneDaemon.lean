import Gregg.Clientd.Bind
import Gregg.Lib.Machine

/-!
# One reachable daemon

As long as no daemon steps into the window of another one, the daemon that runs is the one that a
connect reaches. Two daemons that start over one leftover socket are enough to break it: the second
unlinks what the first has bound since.
-/

namespace Gregg.Clientd

namespace DaemonStage

variable {Path : Type}

/-- The path whose socket file the daemon has bound and not closed. -/
def held : DaemonStage Path → Option Path
  | binding attempt .listen => some attempt.path
  | running endpoint => some endpoint.path
  | _ => none

/-- The path that the daemon unlinks next, without another look at it. -/
def condemned : DaemonStage Path → Option Path
  | binding attempt .unlink => some attempt.path
  | closed endpoint => some endpoint.path
  | _ => none

/-- A daemon in this stage is neither on its way to an endpoint nor between its close and its
cleanup. -/
def Settled : DaemonStage Path → Prop
  | binding _ _ | closed _ => False
  | _ => True

instance : DecidablePred fun stage : DaemonStage Path => stage.Settled
  | binding _ _ | closed _ => .isFalse id
  | idle | running _ | deaf _ | exited | failed _ => .isTrue trivial

theorem held_eq_some {stage : DaemonStage Path} {path : Path} (held : stage.held = some path) :
    (∃ attempt, stage = .binding attempt .listen ∧ attempt.path = path) ∨
      ∃ endpoint, stage = .running endpoint ∧ endpoint.path = path := by
  unfold DaemonStage.held at held
  split at held
  · rename_i attempt
    cases held
    exact .inl ⟨attempt, rfl, rfl⟩
  · rename_i endpoint
    cases held
    exact .inr ⟨endpoint, rfl, rfl⟩
  · cases held

end DaemonStage

namespace EndpointWorld

variable {Path : Type} {world next : EndpointWorld Path} {who other : ℕ}
  {stage : DaemonStage Path} {attempt : Attempt Path} {path : Path} {rest : List Path}
  {primary : Bool} {last : Option TransportError} {point : BindPoint}

/-- A daemon that runs is the one that a connect reaches, so no other one runs. -/
structure OneReachable (world : EndpointWorld Path) : Prop where
  reachable : ∀ who endpoint, (world.stages who).endpoint = some endpoint →
    connect world.contents world.candidates = .ok (endpoint.path, who)
  onlyOne : ∀ who other endpoint otherEndpoint, (world.stages who).endpoint = some endpoint →
    (world.stages other).endpoint = some otherEndpoint → who = other

/-- Nobody is between its probe and its unlink of a path, or between its close and its cleanup
there, when another daemon binds it; nobody is about to bind it and would go on to a candidate where
that works; and nobody probes it between a bind and its listen. No accept loop ends early. -/
def Undisturbed (world : EndpointWorld Path) : EndpointEvent → Prop
  | .advance who => ∀ attempt point, world.stages who = .binding attempt point →
      match point with
      | .probe => ∀ other otherAttempt, world.stages other = .binding otherAttempt .listen →
          otherAttempt.path ≠ attempt.path
      | .bind => world.files attempt.path = .absent → world.creatable attempt.path →
          ∀ other, other ≠ who →
            (world.stages other).condemned ≠ some attempt.path ∧
              ∀ otherAttempt, world.stages other = .binding otherAttempt .bind →
                otherAttempt.path = attempt.path →
                  ∀ later ∈ otherAttempt.rest, ¬world.creatable later
      | _ => True
  | .acceptFailed _ => False
  | _ => True

/-- No step touches the file at the endpoint of another daemon that runs. -/
def SparesOthers [DecidableEq Path] (display : Path → String) (world : EndpointWorld Path)
    (event : EndpointEvent) : Prop :=
  ∀ next, world.step display event = some next → ∀ other endpoint, other ≠ event.who →
    (world.stages other).endpoint = some endpoint →
      next.files endpoint.path = world.files endpoint.path

/-- The loop of `bind` with candidates still to come: where one of them works, none before does. -/
def Passed (world : EndpointWorld Path) (rest : List Path) (primary : Bool) : Prop :=
  ∃ before, world.candidates = before ++ rest ∧ (primary = true ↔ before = []) ∧
    ((∃ later ∈ rest, world.creatable later) → ∀ earlier ∈ before, ¬world.creatable earlier)

/-- The steps of a daemon. -/
inductive Moves [DecidableEq Path] (display : Path → String) (world : EndpointWorld Path) :
    EndpointEvent → EndpointWorld Path → Prop where
  | start {who : ℕ} (idle : world.stages who = .idle) :
      Moves display world (.start who) (world.setStage who (.enter true none world.candidates))
  | advance {who : ℕ} {attempt : Attempt Path} {point : BindPoint}
      (binding : world.stages who = .binding attempt point) :
      Moves display world (.advance who) (world.advance display who attempt point)
  | encodeFailed {who : ℕ} {endpoint : BoundEndpoint Path}
      (running : world.stages who = .running endpoint) :
      Moves display world (.encodeFailed who) (world.setStage who .exited)
  | acceptFailed {who : ℕ} {endpoint : BoundEndpoint Path}
      (running : world.stages who = .running endpoint) :
      Moves display world (.acceptFailed who) (world.setStage who (.deaf endpoint))
  | close {who : ℕ} {endpoint : BoundEndpoint Path}
      (running : world.stages who = .running endpoint) :
      Moves display world (.close who) (world.setStage who (.closed endpoint))
  | cleanup {who : ℕ} {endpoint : BoundEndpoint Path}
      (releases : world.stages who = .running endpoint ∨ world.stages who = .deaf endpoint ∨
        world.stages who = .closed endpoint) :
      Moves display world (.cleanup who) (world.cleanup who endpoint)

theorem moves_of_step [DecidableEq Path] {display : Path → String} {event : EndpointEvent}
    (stepped : world.step display event = some next) : world.Moves display event next := by
  cases event with
  | cleanup who =>
      simp only [step] at stepped
      split at stepped
      · rename_i running
        cases stepped
        exact .cleanup (.inl running)
      · rename_i deaf
        cases stepped
        exact .cleanup (.inr (.inl deaf))
      · rename_i closed
        cases stepped
        exact .cleanup (.inr (.inr closed))
      · cases stepped
  | _ =>
      simp only [step] at stepped
      split at stepped
      · rename_i stands
        cases stepped
        constructor
        exact stands
      · cases stepped

/-- What the stage of a daemon comes with. -/
structure Fits (world : EndpointWorld Path) (who : ℕ) (stage : DaemonStage Path) : Prop where
  owns : ∀ path, stage.held = some path → world.files path = .socket (some who)
  spares : ∀ path, stage.condemned = some path → ∀ other, other ≠ who →
    (world.stages other).held ≠ some path
  isSafe : ∀ path, stage.held = some path → ∀ other, other ≠ who →
    (world.stages other).condemned ≠ some path
  finds : ∀ attempt, stage = .binding attempt .bind →
    (∃ later ∈ attempt.rest, world.creatable later) → world.creatable attempt.path →
      world.files attempt.path = .absent
  passed : ∀ attempt point, stage = .binding attempt point →
    world.Passed (attempt.path :: attempt.rest) attempt.primary
  settled : ∀ path, stage.held = some path → ∃ before after,
    world.candidates = before ++ path :: after ∧ ∀ earlier ∈ before, ¬world.creatable earlier
  hears : ∀ endpoint, stage ≠ .deaf endpoint

structure Good (world : EndpointWorld Path) : Prop where
  atMostTwo : world.candidates.length ≤ 2
  made : ∀ path who, world.files path = .socket (some who) → world.creatable path
  fits : ∀ who, world.Fits who (world.stages who)

section Stages

@[simp]
theorem stages_setStage :
    (world.setStage who stage).stages = Function.update world.stages who stage :=
  rfl

/-- Changing the stage of one daemon to one that fits keeps what all of them come with. -/
theorem Good.setStage (good : world.Good) (fits : world.Fits who stage) :
    (world.setStage who stage).Good := by
  refine ⟨good.atMostTwo, good.made, ?_⟩
  intro other
  rcases eq_or_ne other who with rfl | differs
  · simp only [stages_setStage, Function.update_self]
    refine ⟨fits.owns, ?_, ?_, fits.finds, fits.passed, fits.settled, fits.hears⟩
    · intro path condemned third isThird
      rw [stages_setStage, Function.update_of_ne isThird]
      exact fits.spares path condemned third isThird
    · intro path held third isThird
      rw [stages_setStage, Function.update_of_ne isThird]
      exact fits.isSafe path held third isThird
  · simp only [stages_setStage, Function.update_of_ne differs]
    have before := good.fits other
    refine ⟨before.owns, ?_, ?_, before.finds, before.passed, before.settled, before.hears⟩
    · intro path condemned third isThird
      rcases eq_or_ne third who with rfl | elsewhere
      · rw [stages_setStage, Function.update_self]
        intro held
        exact fits.isSafe path held other differs condemned
      · rw [stages_setStage, Function.update_of_ne elsewhere]
        exact before.spares path condemned third isThird
    · intro path held third isThird
      rcases eq_or_ne third who with rfl | elsewhere
      · rw [stages_setStage, Function.update_self]
        intro condemned
        exact fits.spares path condemned other differs held
      · rw [stages_setStage, Function.update_of_ne elsewhere]
        exact before.isSafe path held third isThird

theorem fits_out (out : stage = .exited ∨ ∃ error, stage = .failed error) :
    world.Fits who stage := by
  rcases out with rfl | ⟨error, rfl⟩ <;>
    exact {
      owns := by simp [DaemonStage.held]
      spares := by simp [DaemonStage.condemned]
      isSafe := by simp [DaemonStage.held]
      finds := by simp
      passed := by simp
      settled := by simp [DaemonStage.held]
      hears := by simp }

theorem fits_failed {error : TransportError} : world.Fits who (.failed error) :=
  fits_out (.inr ⟨error, rfl⟩)

theorem fits_looking (looking : point = .stat ∨ point = .probe)
    (passed : world.Passed (attempt.path :: attempt.rest) attempt.primary) :
    world.Fits who (.binding attempt point) := by
  rcases looking with rfl | rfl <;>
    exact {
      owns := by simp [DaemonStage.held]
      spares := by simp [DaemonStage.condemned]
      isSafe := by simp [DaemonStage.held]
      finds := by simp
      passed := by
        rintro _ _ ⟨⟩
        exact passed
      settled := by simp [DaemonStage.held]
      hears := by simp }

theorem fits_bind (nothing : world.files attempt.path = .absent)
    (passed : world.Passed (attempt.path :: attempt.rest) attempt.primary) :
    world.Fits who (.binding attempt .bind) where
  owns := by simp [DaemonStage.held]
  spares := by simp [DaemonStage.condemned]
  isSafe := by simp [DaemonStage.held]
  finds := by
    rintro _ ⟨⟩ _ _
    exact nothing
  passed := by
    rintro _ _ ⟨⟩
    exact passed
  settled := by simp [DaemonStage.held]
  hears := by simp

theorem fits_enter (passed : world.Passed rest primary) :
    world.Fits who (.enter primary last rest) := by
  cases rest with
  | nil => exact fits_failed
  | cons path rest => exact fits_looking (.inl rfl) passed

theorem Passed.goOn (passed : world.Passed (attempt.path :: attempt.rest) attempt.primary)
    (unusable : (∃ later ∈ attempt.rest, world.creatable later) → ¬world.creatable attempt.path)
    (error : TransportError) : world.Fits who (attempt.goOn error) := by
  apply fits_enter
  rcases passed with ⟨before, split, -, skipped⟩
  refine ⟨before ++ [attempt.path], ?_, ?_, ?_⟩
  · simp [split]
  · simp
  · rintro ⟨later, member, works⟩ earlier passedOver
    rcases List.mem_append.mp passedOver with long | now
    · exact skipped ⟨later, by simp [member], works⟩ earlier long
    · rw [List.mem_singleton.mp now]
      exact unusable ⟨later, member, works⟩

/-- With two candidates, a path that is taken ends the start at either of them. -/
theorem Passed.refuse (passed : world.Passed (attempt.path :: attempt.rest) attempt.primary)
    (atMostTwo : world.candidates.length ≤ 2) (error : TransportError) :
    world.Fits who (attempt.refuse error) := by
  rcases passed with ⟨before, split, isFirst, -⟩
  unfold Attempt.refuse
  split_ifs with first
  · exact fits_failed
  · have tail : attempt.rest = [] := by
      rw [split] at atMostTwo
      have skipped : 0 < before.length := by
        apply List.length_pos_of_ne_nil
        intro none
        exact first (isFirst.mpr none)
      simp only [List.length_append, List.length_cons] at atMostTwo
      apply List.eq_nil_of_length_eq_zero
      omega
    rw [Attempt.goOn, tail]
    exact fits_failed

end Stages

theorem Good.held_injective (good : world.Good) (held : (world.stages who).held = some path)
    (otherHeld : (world.stages other).held = some path) : who = other := by
  have mine := (good.fits who).owns path held
  rw [(good.fits other).owns path otherHeld] at mine
  cases mine
  rfl

section Files

variable [DecidableEq Path]

@[simp]
theorem stages_setFile {inode : Inode} : (world.setFile path inode).stages = world.stages :=
  rfl

theorem Good.unlink (good : world.Good) (free : ∀ other, (world.stages other).held ≠ some path) :
    (world.setFile path .absent).Good := by
  refine ⟨good.atMostTwo, ?_, ?_⟩
  · intro other who stands
    rcases eq_or_ne other path with rfl | elsewhere
    · simp [setFile] at stands
    · simp only [setFile, Function.update_of_ne elsewhere] at stands
      exact good.made other who stands
  · intro who
    have before := good.fits who
    refine ⟨?_, before.spares, before.isSafe, ?_, before.passed, before.settled, before.hears⟩
    · intro other held
      have elsewhere : other ≠ path := by
        rintro rfl
        exact free who held
      simp only [setFile, Function.update_of_ne elsewhere]
      exact before.owns other held
    · intro attempt binding later works
      rcases eq_or_ne attempt.path path with here | elsewhere
      · simp [setFile, here]
      · simp only [setFile, Function.update_of_ne elsewhere]
        exact before.finds attempt binding later works

theorem Good.bind (good : world.Good) (nothing : world.files path = .absent)
    (works : world.creatable path)
    (alone : ∀ other attempt, (world.stages other) = .binding attempt .bind →
      attempt.path = path → ∀ later ∈ attempt.rest, ¬world.creatable later) :
    (world.setFile path (.socket (some who))).Good := by
  refine ⟨good.atMostTwo, ?_, ?_⟩
  · intro other maker stands
    rcases eq_or_ne other path with rfl | elsewhere
    · exact works
    · simp only [setFile, Function.update_of_ne elsewhere] at stands
      exact good.made other maker stands
  · intro third
    have before := good.fits third
    refine ⟨?_, before.spares, before.isSafe, ?_, before.passed, before.settled, before.hears⟩
    · intro other held
      have stands := before.owns other held
      have elsewhere : other ≠ path := by
        rintro rfl
        rw [nothing] at stands
        cases stands
      simp only [setFile, Function.update_of_ne elsewhere]
      exact stands
    · rintro attempt binding ⟨later, member, couldGoOn⟩ here
      have elsewhere : attempt.path ≠ path := by
        intro same
        exact alone third attempt binding same later member couldGoOn
      simp only [setFile, Function.update_of_ne elsewhere]
      exact before.finds attempt binding ⟨later, member, couldGoOn⟩ here

end Files

theorem setStage_setStage {first second : DaemonStage Path} :
    (world.setStage who first).setStage who second = world.setStage who second := by
  simp [setStage]

theorem setFile_setStage [DecidableEq Path] {inode : Inode} :
    (world.setStage who stage).setFile path inode =
      (world.setFile path inode).setStage who stage :=
  rfl

theorem contents_of_running {endpoint : BoundEndpoint Path}
    (running : world.stages who = .running endpoint)
    (stands : world.files path = .socket (some who)) :
    world.contents path = .socket (some who) := by
  simp [contents, stands, Option.filter, running, DaemonStage.accepts]

theorem Good.close {endpoint : BoundEndpoint Path} (good : world.Good)
    (running : world.stages who = .running endpoint) :
    (world.setStage who (.closed endpoint)).Good := by
  have holds : (world.stages who).held = some endpoint.path := by
    rw [running]
    rfl
  have fits : world.Fits who (.closed endpoint) := {
    owns := by simp [DaemonStage.held]
    spares := by
      rintro _ ⟨⟩ other isOther held
      exact isOther (good.held_injective held holds)
    isSafe := by simp [DaemonStage.held]
    finds := by simp
    passed := by simp
    settled := by simp [DaemonStage.held]
    hears := by simp }
  exact good.setStage fits

theorem Good.running_of_endpoint {endpoint : BoundEndpoint Path} (good : world.Good)
    (runs : (world.stages who).endpoint = some endpoint) :
    world.stages who = .running endpoint := by
  unfold DaemonStage.endpoint at runs
  split at runs
  · rename_i running
    cases runs
    exact running
  · rename_i deaf
    exact absurd deaf ((good.fits who).hears _)
  · cases runs

theorem files_of_listens (listens : (world.contents path).listens) :
    ∃ who, world.files path = .socket (some who) := by
  unfold contents at listens
  split at listens
  · cases listens
  · cases listens
  · rename_i maker stands
    cases maker with
    | none => cases listens
    | some who => exact ⟨who, stands⟩

/-- The candidates before an endpoint do not work, so nobody listens there. -/
theorem Good.reachable {endpoint : BoundEndpoint Path} (good : world.Good)
    (runs : (world.stages who).endpoint = some endpoint) :
    connect world.contents world.candidates = .ok (endpoint.path, who) := by
  have running := good.running_of_endpoint runs
  have holds : (world.stages who).held = some endpoint.path := by
    rw [running]
    rfl
  have stands := contents_of_running running ((good.fits who).owns _ holds)
  rcases (good.fits who).settled _ holds with ⟨before, after, split, skipped⟩
  have silent : before.find? (fun path => (world.contents path).listens) = none := by
    apply List.find?_eq_none.mpr
    intro earlier member listens
    rcases files_of_listens listens with ⟨maker, made⟩
    exact skipped earlier member (good.made earlier maker made)
  apply connectFrom_eq_ok_iff.mpr
  refine ⟨?_, stands⟩
  rw [split, List.find?_append, silent, Option.none_or]
  apply List.find?_cons_of_pos
  rw [stands]
  rfl

theorem Good.oneReachable (good : world.Good) : world.OneReachable := by
  refine ⟨fun _ _ => good.reachable, ?_⟩
  intro who other endpoint otherEndpoint runs otherRuns
  have reached := good.reachable runs
  simp only [good.reachable otherRuns, Except.ok.injEq, Prod.mk.injEq] at reached
  exact reached.2.symm

/-- A step is disturbed by nobody when all the other daemons have settled. -/
theorem undisturbed_of_settled {event : EndpointEvent}
    (settled : ∀ other, other ≠ event.who → (world.stages other).Settled)
    (heard : ∀ who, event ≠ .acceptFailed who) : world.Undisturbed event := by
  cases event with
  | advance who =>
      intro attempt point binding
      have others : ∀ other, other ≠ who → (world.stages other).condemned = none ∧
          ∀ attempt point, world.stages other ≠ .binding attempt point := by
        intro other isOther
        have rests := settled other isOther
        cases stands : world.stages other with
        | binding | closed =>
            rw [stands] at rests
            cases rests
        | _ => simp [DaemonStage.condemned]
      cases point with
      | probe =>
          intro other otherAttempt listening
          rcases eq_or_ne other who with rfl | isOther
          · simp [binding] at listening
          · exact absurd listening ((others other isOther).2 _ _)
      | bind =>
          intro _ _ other isOther
          refine ⟨by simp [(others other isOther).1], ?_⟩
          intro otherAttempt binds
          exact absurd binds ((others other isOther).2 _ _)
      | _ => trivial
  | acceptFailed who => exact heard who rfl
  | _ => trivial

section Steps

variable [DecidableEq Path] {display : Path → String}

theorem Good.advance_stat (good : world.Good)
    (binding : world.stages who = .binding attempt .stat) :
    (world.advance display who attempt .stat).Good := by
  have passed := (good.fits who).passed attempt .stat binding
  simp only [advance]
  split_ifs with isDir
  · split
    · rename_i nothing
      exact good.setStage (fits_bind nothing passed)
    · exact good.setStage (passed.refuse good.atMostTwo _)
    · exact good.setStage (fits_looking (.inr rfl) passed)
  · apply good.setStage
    apply passed.goOn
    intro _ works
    exact isDir (Bool.and_eq_true_iff.mp works).1

/-- What does not answer a probe is held by nobody, as nobody is between a bind and its listen. -/
theorem Good.advance_probe (good : world.Good)
    (binding : world.stages who = .binding attempt .probe)
    (undisturbed : world.Undisturbed (.advance who)) :
    (world.advance display who attempt .probe).Good := by
  have passed := (good.fits who).passed attempt .probe binding
  have noListen := undisturbed attempt .probe binding
  simp only [advance]
  split_ifs with listens
  · exact good.setStage (passed.refuse good.atMostTwo _)
  · have fits : world.Fits who (.binding attempt .unlink) := {
      owns := by simp [DaemonStage.held]
      spares := by
        rintro _ ⟨⟩ other _ held
        rcases DaemonStage.held_eq_some held with ⟨listening, isListening, here⟩ | ⟨_, running, _⟩
        · exact noListen other listening isListening here
        · have stands := contents_of_running running ((good.fits other).owns _ held)
          apply listens
          rw [stands]
          rfl
      isSafe := by simp [DaemonStage.held]
      finds := by simp
      passed := by
        rintro _ _ ⟨⟩
        exact passed
      settled := by simp [DaemonStage.held]
      hears := by simp }
    exact good.setStage fits

theorem Good.advance_unlink (good : world.Good)
    (binding : world.stages who = .binding attempt .unlink) :
    (world.advance display who attempt .unlink).Good := by
  have passed := (good.fits who).passed attempt .unlink binding
  simp only [advance]
  split_ifs with nothing works
  · exact good.setStage (passed.refuse good.atMostTwo _)
  · have free : ∀ other, (world.stages other).held ≠ some attempt.path := by
      intro other
      rcases eq_or_ne other who with rfl | isOther
      · simp [binding, DaemonStage.held]
      · apply (good.fits who).spares attempt.path _ other isOther
        rw [binding]
        rfl
    have fits : (world.setFile attempt.path .absent).Fits who (.binding attempt .bind) :=
      fits_bind (by simp [setFile]) passed
    exact (good.unlink free).setStage fits
  · exact good.setStage (passed.refuse good.atMostTwo _)

theorem Good.advance_bind (good : world.Good)
    (binding : world.stages who = .binding attempt .bind)
    (undisturbed : world.Undisturbed (.advance who)) :
    (world.advance display who attempt .bind).Good := by
  have passed := (good.fits who).passed attempt .bind binding
  have noWindow := undisturbed attempt .bind binding
  simp only [advance]
  split_ifs with nothing works
  · have outOfTheWay : (world.setStage who .exited).Good := good.setStage (fits_out (.inl rfl))
    have alone : ∀ other otherAttempt,
        (world.setStage who .exited).stages other = .binding otherAttempt .bind →
          otherAttempt.path = attempt.path →
            ∀ later ∈ otherAttempt.rest, ¬(world.setStage who .exited).creatable later := by
      intro other otherAttempt otherBinding
      rcases eq_or_ne other who with rfl | isOther
      · simp at otherBinding
      · rw [stages_setStage, Function.update_of_ne isOther] at otherBinding
        exact (noWindow nothing works other isOther).2 otherAttempt otherBinding
    have bound : ((world.setStage who .exited).setFile attempt.path (.socket (some who))).Good :=
      outOfTheWay.bind nothing works alone
    have fits : ((world.setStage who .exited).setFile attempt.path (.socket (some who))).Fits who
        (.binding attempt .listen) := {
      owns := by
        rintro _ ⟨⟩
        simp [setFile]
      spares := by simp [DaemonStage.condemned]
      isSafe := by
        rintro _ ⟨⟩ other isOther
        simp only [stages_setFile, stages_setStage, Function.update_of_ne isOther]
        exact (noWindow nothing works other isOther).1
      finds := by simp
      passed := by
        rintro _ _ ⟨⟩
        exact passed
      settled := by
        rintro _ ⟨⟩
        rcases passed with ⟨before, split, -, skipped⟩
        exact ⟨before, attempt.rest, split, skipped ⟨attempt.path, by simp, works⟩⟩
      hears := by simp }
    have settled := bound.setStage fits
    rwa [setFile_setStage, setStage_setStage] at settled
  · apply good.setStage
    apply passed.goOn
    intro _ contradicted
    exact works contradicted
  · apply good.setStage
    apply passed.goOn
    intro later works
    exact nothing ((good.fits who).finds attempt binding later works)

theorem Good.advance_listen (good : world.Good)
    (binding : world.stages who = .binding attempt .listen) :
    (world.advance display who attempt .listen).Good := by
  have before := good.fits who
  rw [binding] at before
  have fits : world.Fits who (.running ⟨attempt.path, attempt.primary⟩) := {
    owns := before.owns
    spares := by simp [DaemonStage.condemned]
    isSafe := before.isSafe
    finds := by simp
    passed := by simp
    settled := before.settled
    hears := by simp }
  exact good.setStage fits

theorem Good.advance (good : world.Good) (binding : world.stages who = .binding attempt point)
    (undisturbed : world.Undisturbed (.advance who)) :
    (world.advance display who attempt point).Good := by
  cases point with
  | stat => exact good.advance_stat binding
  | probe => exact good.advance_probe binding undisturbed
  | unlink => exact good.advance_unlink binding
  | bind => exact good.advance_bind binding undisturbed
  | listen => exact good.advance_listen binding

/-- A daemon that cleans up unlinks its own file, or what nobody holds. -/
theorem Good.cleanup {endpoint : BoundEndpoint Path} (good : world.Good)
    (releases : world.stages who = .running endpoint ∨ world.stages who = .closed endpoint) :
    (world.cleanup who endpoint).Good := by
  have outOfTheWay : (world.setStage who .exited).Good := good.setStage (fits_out (.inl rfl))
  apply outOfTheWay.unlink
  intro other
  rcases eq_or_ne other who with rfl | isOther
  · simp [DaemonStage.held]
  · rw [stages_setStage, Function.update_of_ne isOther]
    rcases releases with running | closed
    · intro held
      apply isOther
      apply good.held_injective held
      rw [running]
      rfl
    · apply (good.fits who).spares endpoint.path _ other isOther
      rw [closed]
      rfl

theorem Good.step {event : EndpointEvent} (good : world.Good)
    (undisturbed : world.Undisturbed event) (stepped : world.step display event = some next) :
    next.Good := by
  cases moves_of_step stepped with
  | start idle =>
      apply good.setStage
      apply fits_enter
      exact ⟨[], rfl, by simp, by simp⟩
  | advance binding => exact good.advance binding undisturbed
  | encodeFailed running => exact good.setStage (fits_out (.inl rfl))
  | acceptFailed running => cases undisturbed
  | close running => exact good.close running
  | cleanup releases =>
      rcases releases with running | deaf | closed
      · exact good.cleanup (.inl running)
      · exact absurd deaf ((good.fits _).hears _)
      · exact good.cleanup (.inr closed)

theorem good_fresh {primary fallback : Option Path} {parentIsDir writable : Path → Bool}
    {leftover : Path → Inode} (unowned : ∀ path who, leftover path ≠ .socket (some who)) :
    (fresh primary fallback parentIsDir writable leftover).Good := by
  refine ⟨length_candidates_le primary fallback, ?_, ?_⟩
  · intro path who stands
    exact absurd stands (unowned path who)
  · intro who
    exact {
      owns := by simp [fresh, DaemonStage.held]
      spares := by simp [fresh, DaemonStage.condemned]
      isSafe := by simp [fresh, DaemonStage.held]
      finds := by simp [fresh]
      passed := by simp [fresh]
      settled := by simp [fresh, DaemonStage.held]
      hears := by simp [fresh] }

theorem files_advance (good : world.Good) (binding : world.stages who = .binding attempt point)
    (isOther : other ≠ who) (held : (world.stages other).held = some path) :
    (world.advance display who attempt point).files path = world.files path := by
  cases point with
  | stat =>
      simp only [advance]
      split_ifs
      · split <;> rfl
      · rfl
  | probe =>
      simp only [advance]
      split_ifs <;> rfl
  | unlink =>
      have elsewhere : path ≠ attempt.path := by
        rintro rfl
        apply (good.fits who).spares attempt.path _ other isOther held
        rw [binding]
        rfl
      simp only [advance]
      split_ifs
      · rfl
      · simp [setStage, setFile, elsewhere]
      · rfl
  | bind =>
      have stands := (good.fits other).owns path held
      simp only [advance]
      split_ifs with nothing works
      · have elsewhere : path ≠ attempt.path := by
          rintro rfl
          rw [nothing] at stands
          cases stands
        simp [setStage, setFile, elsewhere]
      · rfl
      · rfl
  | listen => rfl

theorem files_cleanup {endpoint : BoundEndpoint Path} (elsewhere : path ≠ endpoint.path) :
    (world.cleanup who endpoint).files path = world.files path := by
  simp [cleanup, setStage, setFile, elsewhere]

theorem Good.sparesOthers {event : EndpointEvent} (good : world.Good)
    (undisturbed : world.Undisturbed event) : world.SparesOthers display event := by
  intro next stepped other endpoint isOther runs
  have running := good.running_of_endpoint runs
  have holds : (world.stages other).held = some endpoint.path := by
    rw [running]
    rfl
  cases moves_of_step stepped with
  | advance binding => exact files_advance good binding isOther holds
  | acceptFailed _ => cases undisturbed
  | cleanup releases =>
      apply files_cleanup
      intro same
      rcases releases with own | deaf | closed
      · apply isOther
        apply good.held_injective holds
        simp [EndpointEvent.who, own, same, DaemonStage.held]
      · exact absurd deaf ((good.fits _).hears _)
      · apply (good.fits _).spares endpoint.path _ other isOther holds
        simp [EndpointEvent.who, closed, same, DaemonStage.condemned]
  | _ => rfl

/-- In a run whose steps are undisturbed, the daemon that runs is always the one that a connect
reaches, and no step takes its socket file away. -/
theorem one_reachable_daemon (display : Path → String) (primary fallback : Option Path)
    (parentIsDir writable : Path → Bool) (leftover : Path → Inode) (events : List EndpointEvent)
    (unowned : ∀ path who, leftover path ≠ .socket (some who))
    (undisturbed : Machine.EveryStep (EndpointWorld.step display)
      (fresh primary fallback parentIsDir writable leftover) events Undisturbed) :
    Machine.EveryState (EndpointWorld.step display)
        (fresh primary fallback parentIsDir writable leftover) events OneReachable ∧
      Machine.EveryStep (EndpointWorld.step display)
        (fresh primary fallback parentIsDir writable leftover) events (SparesOthers display) := by
  have good := undisturbed.invariant (good_fresh unowned) fun _ _ _ good allowed stepped =>
    good.step allowed stepped
  refine ⟨?_, ?_⟩
  · intro before after state split ran
    exact (good before after state split ran).oneReachable
  · intro before event after state split ran
    exact (good before (event :: after) state split ran).sparesOthers
      (undisturbed before event after state split ran)

theorem stages_advance (isOther : other ≠ who) :
    (world.advance display who attempt point).stages other = world.stages other := by
  cases point with
  | stat =>
      simp only [advance]
      split_ifs
      · split <;> simp [isOther]
      · simp [isOther]
  | listen => simp [advance, isOther]
  | _ =>
      simp only [advance]
      split_ifs <;> simp [isOther]

theorem stages_step {event : EndpointEvent} (stepped : world.step display event = some next)
    (isOther : other ≠ event.who) : next.stages other = world.stages other := by
  cases moves_of_step stepped with
  | advance binding => exact stages_advance isOther
  | _ => exact Function.update_of_ne isOther _ _

/-- Daemons that take turns do not disturb each other, however many there are and whoever else runs
in the meantime. -/
theorem everyStep_undisturbed_of_turns (bound : ℕ) {events : List EndpointEvent}
    (idle : ∀ other, bound ≤ other → world.stages other = .idle)
    (own : ∀ event ∈ events, event.who < bound)
    (heard : ∀ event ∈ events, ∀ who, event ≠ .acceptFailed who)
    (turns : Machine.EveryStep (EndpointWorld.step display) world events fun world event =>
      ∀ other < bound, other ≠ event.who → (world.stages other).Settled) :
    Machine.EveryStep (EndpointWorld.step display) world events Undisturbed := by
  intro before event after state split ran
  have ownBefore : ∀ event ∈ before, event.who < bound := by
    intro earlier member
    apply own
    simp [split, member]
  have runs : Machine.RunsTo (EndpointWorld.step display) (fun _ event => event.who < bound)
      world state := Machine.runsTo_of_run ran fun event member _ => ownBefore event member
  have outside : ∀ other, bound ≤ other → state.stages other = .idle := by
    apply runs.invariant (fun world => ∀ other, bound ≤ other → world.stages other = .idle) idle
    intro world event next others ownEvent stepped other isOutside
    rw [stages_step stepped (by omega)]
    exact others other isOutside
  apply undisturbed_of_settled _ (heard event (by simp [split]))
  intro other isOther
  rcases lt_or_ge other bound with inside | isOutside
  · exact turns before event after state split ran other inside isOther
  · rw [outside other isOutside]
    trivial

end Steps

/-- A leftover socket at the one location of a configuration. -/
def overLeftover : EndpointWorld String :=
  fresh (some "gregg-client-7.sock") none (fun _ => true) (fun _ => true) fun path =>
    if path = "gregg-client-7.sock" then .socket none else .absent

/-- A daemon starts over the leftover. While it runs, a second one starts, finds it listening and
gives up. When the first has stopped, a third one starts. -/
def handOver : List EndpointEvent :=
  [.start 1, .advance 1, .advance 1, .advance 1, .advance 1, .advance 1, .start 2, .advance 2,
    .advance 2, .close 1, .cleanup 1, .start 3, .advance 3, .advance 3, .advance 3]

/-- The stages of the three daemons after the first `count` steps. -/
def handOverStages (count : ℕ) : Option (List (DaemonStage String)) :=
  (Machine.run (EndpointWorld.step id) overLeftover (handOver.take count)).map fun world =>
    [1, 2, 3].map world.stages

theorem one_reachable_daemon_handOver :
    handOverStages 9 = some [.running ⟨"gregg-client-7.sock", true⟩,
        .failed (.io "a client daemon is already listening on gregg-client-7.sock"), .idle] ∧
      handOverStages 15 = some [.exited,
        .failed (.io "a client daemon is already listening on gregg-client-7.sock"),
        .running ⟨"gregg-client-7.sock", true⟩] ∧
      Machine.EveryState (EndpointWorld.step id) overLeftover handOver OneReachable ∧
      Machine.EveryStep (EndpointWorld.step id) overLeftover handOver (SparesOthers id) := by
  refine ⟨by decide +kernel, by decide +kernel, ?_⟩
  apply one_reachable_daemon
  · intro path who stands
    split at stands <;> cases stands
  · apply everyStep_undisturbed_of_turns 4
    · exact fun _ _ => rfl
    · decide
    · simp [handOver]
    · decide +kernel

/-- Two daemons start over the leftover, and both have probed it before either unlinks it. -/
def twoStarts : List EndpointEvent :=
  [.start 1, .start 2, .advance 1, .advance 2, .advance 1, .advance 2, .advance 1, .advance 1,
    .advance 1, .advance 2, .advance 2, .advance 2]

theorem stages_twoStarts :
    (Machine.run (EndpointWorld.step id) overLeftover twoStarts).map
        (fun world => ((world.stages 1).endpoint, (world.stages 2).endpoint)) =
      some (some ⟨"gregg-client-7.sock", true⟩, some ⟨"gregg-client-7.sock", true⟩) := by
  decide +kernel

/-- Both of them run in the end, and only one can be reached. -/
theorem not_oneReachable_twoStarts :
    ¬Machine.EveryState (EndpointWorld.step id) overLeftover twoStarts OneReachable := by
  intro everyState
  rcases Option.map_eq_some_iff.mp stages_twoStarts with ⟨world, ran, stages⟩
  simp only [Prod.mk.injEq] at stages
  have one := everyState twoStarts [] world (by simp) ran
  have same := one.onlyOne 1 2 _ _ stages.1 stages.2
  cases same

end EndpointWorld

end Gregg.Clientd

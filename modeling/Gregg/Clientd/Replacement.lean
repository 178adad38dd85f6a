import Gregg.Clientd.Launch

/-!
# An older daemon is not replaced

A daemon answers a handshake in another protocol version with a protocol error, which a launcher
takes for a foreign peer. So no launcher of another version gets past its first probe, nothing is
stopped, and nothing is spawned.
-/

namespace Gregg.Clientd

namespace LaunchWorld

variable {Snapshot : Type} {texts : DebugTexts Snapshot} {world next : LaunchWorld Snapshot}
  {daemon : DaemonProcess} {launcher : Launcher} {who : ℕ} {fault : Option Fault}

/-- Where a launcher stands that probed a daemon of some version, its own or another one. -/
def Settled (daemon : DaemonProcess) (launcher : Launcher) : Prop :=
  launcher.stage = .probing ∨
    (launcher.protocolVersion = daemon.protocolVersion ∧
      launcher.stage = .finished (.ok daemon.hello)) ∨
    ∃ message, launcher.stage = .finished (.error (.foreignPeer message))

/-- The daemon keeps the endpoint, and all that was ever done is to probe it. -/
structure Held (daemon : DaemonProcess) (world : LaunchWorld Snapshot) : Prop where
  identity : world.daemonId = daemon.daemonId
  served : world.served = some daemon
  notAsked : world.asked = false
  starting : world.starting = []
  stopRequests : world.stopRequests = []
  answers : ∀ answer ∈ world.answers, ∀ payload, answer.2 ≠ .versionMismatch payload
  launchers : ∀ who launcher, world.launchers who = some launcher → Settled daemon launcher

theorem held_servedBy (daemon : DaemonProcess) :
    Held daemon (servedBy daemon : LaunchWorld Snapshot) where
  identity := rfl
  served := rfl
  notAsked := rfl
  starting := rfl
  stopRequests := rfl
  answers := by simp [servedBy]
  launchers := by simp [servedBy]

theorem answer_of_same (held : Held daemon world)
    (same : launcher.protocolVersion = daemon.protocolVersion) :
    world.answer texts launcher = some (.hello daemon.hello) := by
  simp [answer, held.served, DaemonProcess.firstFrame, Connection.admitRequestAt, Connection.new,
    Connection.verifyDaemonId, same, held.identity]

theorem answer_of_ne (held : Held daemon world)
    (differs : launcher.protocolVersion ≠ daemon.protocolVersion) :
    world.answer texts launcher = some (.protocolError
      (TransportError.versionMismatch daemon.protocolVersion
        launcher.protocolVersion).display) := by
  rw [answer, held.served, Option.map_some, firstFrame_of_ne differs]

/-- A refused handshake is a foreign peer, and so is every fault on the way. -/
theorem probeOf_attach (texts : DebugTexts Snapshot) (launcher : Launcher) (fault : Option Fault)
    (held : Held daemon world) :
    (launcher.protocolVersion = daemon.protocolVersion ∧
        probeOf launcher.protocolVersion (world.attach texts launcher fault) =
          .ok (.ready daemon.hello)) ∨
      ∃ message, probeOf launcher.protocolVersion (world.attach texts launcher fault) =
        .error (.foreignPeer message) := by
  cases fault with
  | some fault =>
      right
      cases fault with
      | connect message => exact ⟨_, rfl⟩
      | timeout => exact ⟨_, rfl⟩
      | disconnected => exact ⟨_, rfl⟩
  | none =>
      by_cases same : launcher.protocolVersion = daemon.protocolVersion
      · left
        refine ⟨same, ?_⟩
        simp only [attach, answer_of_same held same]
        rfl
      · right
        simp only [attach, answer_of_ne held same]
        exact ⟨_, rfl⟩

theorem answers_answered (texts : DebugTexts Snapshot) (who : ℕ) (launcher : Launcher)
    (fault : Option Fault) (held : Held daemon world) :
    ∀ answer ∈ (world.answered texts who launcher fault).answers,
      ∀ payload, answer.2 ≠ .versionMismatch payload := by
  cases fault with
  | some fault => exact held.answers
  | none =>
      intro answer member
      rcases List.mem_append.mp member with earlier | new
      · exact held.answers answer earlier
      · intro payload
        by_cases same : launcher.protocolVersion = daemon.protocolVersion
        · rw [answer_of_same held same] at new
          rw [List.mem_singleton.mp new]
          simp
        · rw [answer_of_ne held same] at new
          rw [List.mem_singleton.mp new]
          simp

theorem Held.answered (held : Held daemon world) :
    Held daemon (world.answered texts who launcher fault) := by
  have answers := answers_answered texts who launcher fault held
  cases fault with
  | some fault => exact held
  | none =>
      exact ⟨held.identity, held.served, held.notAsked, held.starting, held.stopRequests, answers,
        held.launchers⟩

theorem Held.setStage (held : Held daemon world) {stage : LaunchStage}
    (settled : Settled daemon { launcher with stage }) :
    Held daemon (world.setStage who launcher stage) := by
  refine ⟨held.identity, held.served, held.notAsked, held.starting, held.stopRequests,
    held.answers, ?_⟩
  intro other found isFound
  by_cases isIt : other = who
  · rw [isIt] at isFound
    simp only [LaunchWorld.setStage, Function.update_self, Option.some.injEq] at isFound
    rw [← isFound]
    exact settled
  · simp only [LaunchWorld.setStage, Function.update_of_ne isIt] at isFound
    exact held.launchers other found isFound

theorem launchers_finish {result : Except EnsureError HelloPayload} :
    (world.finish who launcher result).launchers =
      Function.update world.launchers who (some { launcher with stage := .finished result }) := by
  unfold finish unlock
  split <;> rfl

theorem Held.finish (held : Held daemon world) {result : Except EnsureError HelloPayload}
    (settled : Settled daemon { launcher with stage := .finished result }) :
    Held daemon (world.finish who launcher result) := by
  have staged : Held daemon (world.setStage who launcher (.finished result)) :=
    held.setStage settled
  unfold LaunchWorld.finish LaunchWorld.unlock
  split
  · exact ⟨staged.identity, staged.served, staged.notAsked, staged.starting,
      staged.stopRequests, staged.answers, staged.launchers⟩
  · exact staged

theorem Held.launcherAt_eq_none (held : Held daemon world) (stage : LaunchStage)
    (past : stage ≠ .probing) (unfinished : ∀ result, stage ≠ .finished result) :
    world.launcherAt who stage = none := by
  rw [launcherAt, Option.filter_eq_none_iff]
  intro launcher isLauncher
  rw [decide_eq_true_eq]
  rintro rfl
  rcases held.launchers who launcher isLauncher with probing | ⟨-, finished⟩ | ⟨message, finished⟩
  · exact past probing
  · exact unfinished _ finished
  · exact unfinished _ finished

theorem Held.not_waiting (held : Held daemon world)
    (isLauncher : world.launchers who = some launcher)
    (last : Option AttachError) : launcher.stage ≠ .waiting last := by
  intro waiting
  rcases held.launchers who launcher isLauncher with probing | ⟨-, finished⟩ | ⟨message, finished⟩
  · rw [waiting] at probing
    cases probing
  · rw [waiting] at finished
    cases finished
  · rw [waiting] at finished
    cases finished

theorem finish_of_probe (held : Held daemon world)
    (stepped : world.step texts (.probe who fault) = some next) :
    ∃ launcher result, world.launcherAt who .probing = some launcher ∧
      next = (world.answered texts who launcher fault).finish who launcher result ∧
      ((launcher.protocolVersion = daemon.protocolVersion ∧ result = .ok daemon.hello) ∨
        ∃ message, result = .error (.foreignPeer message)) := by
  rcases Option.map_eq_some_iff.mp stepped with ⟨launcher, isProbing, rfl⟩
  rcases probeOf_attach texts launcher fault held with
    ⟨same, probed⟩ | ⟨message, probed⟩
  · refine ⟨launcher, _, isProbing, ?_, .inl ⟨same, rfl⟩⟩
    simp only [probed]
  · refine ⟨launcher, _, isProbing, ?_, .inr ⟨message, rfl⟩⟩
    simp only [probed]

theorem held_of_step (held : Held daemon world) {event : LaunchEvent}
    (stepped : world.step texts event = some next) : Held daemon next := by
  cases event with
  | launch who protocolVersion version =>
      simp only [step] at stepped
      split at stepped
      · cases stepped
        exact held.setStage (.inl rfl)
      · cases stepped
  | probe who fault =>
      rcases finish_of_probe held stepped with
        ⟨launcher, result, -, rfl, ⟨same, rfl⟩ | ⟨message, rfl⟩⟩
      · exact held.answered.finish (.inr (.inl ⟨same, rfl⟩))
      · exact held.answered.finish (.inr (.inr ⟨message, rfl⟩))
  | lock who failure =>
      simp [step, held.launcherAt_eq_none .locking (by simp) (by simp)] at stepped
  | reprobe who fault =>
      simp [step, held.launcherAt_eq_none .reprobing (by simp) (by simp)] at stepped
  | stop who fault refusal =>
      simp [step, held.launcherAt_eq_none .rotating (by simp) (by simp)] at stepped
  | waitGone who =>
      simp [step, held.launcherAt_eq_none .leaving (by simp) (by simp)] at stepped
  | reattach who fault =>
      simp [step, held.launcherAt_eq_none .reattaching (by simp) (by simp)] at stepped
  | spawn who failure =>
      simp [step, held.launcherAt_eq_none .spawning (by simp) (by simp)] at stepped
  | ready who fault =>
      rcases Option.bind_eq_some_iff.mp stepped with ⟨launcher, isLauncher, attempted⟩
      split at attempted
      · rename_i last waiting
        exact absurd waiting (held.not_waiting isLauncher last)
      · cases attempted
  | giveUp who =>
      rcases Option.bind_eq_some_iff.mp stepped with ⟨launcher, isLauncher, attempted⟩
      split at attempted
      · rename_i last waiting
        exact absurd waiting (held.not_waiting isLauncher last)
      · cases attempted
  | bind => simp [step, held.starting] at stepped
  | exit => simp [step, held.notAsked] at stepped

theorem held_of_runs (runs : Machine.RunsTo (step texts) Machine.anyEvent
    (servedBy daemon : LaunchWorld Snapshot) world) : Held daemon world :=
  runs.invariant (Held daemon) (held_servedBy daemon) fun _ _ _ held _ stepped =>
    held_of_step held stepped

/-- Whatever launchers do, and in whatever order, a launcher newer than the daemon never attaches to
one that speaks its version: its first probe ends it with a foreign peer, no frame reports a version
mismatch, and the daemon is neither asked to stop nor joined by another. -/
theorem older_daemon_never_replaced {older newer : ℕ} (upgraded : older < newer)
    (speaks : daemon.protocolVersion = older)
    (runs : Machine.RunsTo (step texts) Machine.anyEvent
      (servedBy daemon : LaunchWorld Snapshot) world) :
    world.served = some daemon ∧ world.starting = [] ∧ world.stopRequests = [] ∧
      (∀ answer ∈ world.answers, ∀ payload, answer.2 ≠ .versionMismatch payload) ∧
      ∀ who launcher, world.launchers who = some launcher → launcher.protocolVersion = newer →
        (∀ hello, launcher.stage ≠ .finished (.ok hello)) ∧
          ((∃ message, launcher.stage = .finished (.error (.foreignPeer message))) ∨
            (launcher.stage = .probing ∧
              ∀ fault next, world.step texts (.probe who fault) = some next →
                ∃ message, next.launchers who =
                  some { launcher with stage := .finished (.error (.foreignPeer message)) })) := by
  have held := held_of_runs runs
  refine ⟨held.served, held.starting, held.stopRequests, held.answers, ?_⟩
  intro who launcher isLauncher speaksNewer
  have differs : launcher.protocolVersion ≠ daemon.protocolVersion := by omega
  rcases held.launchers who launcher isLauncher with probing | ⟨same, -⟩ | ⟨message, finished⟩
  · refine ⟨by simp [probing], .inr ⟨probing, ?_⟩⟩
    intro fault next stepped
    rcases finish_of_probe held stepped with ⟨found, result, isFound, rfl, outcome⟩
    rw [launcherAt, isLauncher] at isFound
    rcases Option.filter_eq_some_iff.mp isFound with ⟨⟨⟩, -⟩
    rcases outcome with ⟨same, -⟩ | ⟨message, rfl⟩
    · exact absurd same differs
    · refine ⟨message, ?_⟩
      rw [launchers_finish, Function.update_self]
  · exact absurd same differs
  · exact ⟨by simp [finished], .inl ⟨message, finished⟩⟩

section Example

def plainTexts : DebugTexts Unit where
  request _ := ""
  frame _ := ""

def olderDaemon : DaemonProcess where
  protocolVersion := 1
  version := "0.1.0"
  daemonId := "00000000deadbeef"
  generation := 5

/-- A launcher of the next protocol version, up to its first probe and past it. -/
def upgradedLaunch : List LaunchEvent :=
  [.launch 7 2 "0.2.0", .probe 7 none]

theorem older_daemon_never_replaced_once :
    ∃ world : LaunchWorld Unit,
      Machine.run (step plainTexts) (servedBy olderDaemon) upgradedLaunch = some world ∧
        world.served = some olderDaemon ∧ world.starting = [] ∧ world.stopRequests = [] := by
  have runs_ : (Machine.run (step plainTexts) (servedBy olderDaemon) upgradedLaunch).isSome := by
    decide +kernel
  rcases Option.isSome_iff_exists.mp runs_ with ⟨world, ran⟩
  rcases older_daemon_never_replaced (Nat.lt_succ_self 1) rfl
    (Machine.runsTo_of_run ran fun _ _ _ => trivial) with ⟨served, starting, stopRequests, -⟩
  exact ⟨world, ran, served, starting, stopRequests⟩

/-- The upgraded launcher fails, and all that it was told is a protocol error. -/
theorem upgradedLaunch_refused :
    (Machine.run (step plainTexts) (servedBy olderDaemon) upgradedLaunch).map (fun world =>
        ((world.launchers 7).map fun launcher => launcher.stage, world.answers,
          world.served)) =
      some (some (.finished (.error (.foreignPeer ("the client daemon refused this frontend: " ++
          "client daemon speaks protocol 1, this frontend speaks 2")))),
        [(7, .protocolError "client daemon speaks protocol 1, this frontend speaks 2")],
        some olderDaemon) := by
  decide +kernel

end Example

end LaunchWorld

end Gregg.Clientd

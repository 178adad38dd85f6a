import Gregg.Protocol.Health
import Gregg.Startup.ServiceFiles
import Gregg.Update.Evidence

/-!
# The restart of a daemon

Who the installed service belongs to, whether the endpoint of a config answers as a daemon, and the
restart by the one who is responsible: the service manager where its unit names this executable,
and else the program itself, which stops the daemon and starts another once the endpoint is free.
How many probes come back before a deadline is a parameter.
-/

namespace Gregg.Update

open Script

section Ownership

def absoluteLexical (path : OsPath) : Program OsPath :=
  if isAbsolute path then pure (normalizeLexically path)
  else do
    match ← perform .currentDir with
    | .ok cwd => pure (normalizeLexically (join cwd path))
    | .error _ => pure (normalizeLexically path)

def resolved (path : OsPath) : Program OsPath := do
  match ← perform (.canonicalize path) with
  | .ok canonical => pure canonical
  | .error _ => absoluteLexical path

def pathsEquivalent (left right : OsPath) : Program Bool := do
  let left ← resolved left
  let right ← resolved right
  pure (left.samePath right)

def standardSystemdUnitPath : OsPath :=
  .ofText "/etc/systemd/system/greggd.service".toList

def systemdIsActive : Program Bool := do
  match ← perform (.systemctl ["is-active", "--quiet", "greggd"]) with
  | .ok output => pure output.success
  | .error _ => pure false

/-- The command of the unit: from its file, or else from the manager while the service runs. -/
def registeredCommand (unitExists active : Bool) : Program (Option (List Char)) := do
  if unitExists then
    match ← perform (.readToString standardSystemdUnitPath) with
    | .ok text => pure (some text)
    | .error _ => pure none
  else if active then
    match ← perform (.systemctl ["show", "greggd", "--property=ExecStart", "--value"]) with
    | .ok output =>
        pure (if output.success then some (Utf8.fromUtf8Lossy output.stdout) else none)
    | .error _ => pure none
  else pure none

/-- Who a service belongs to, whether it is active, and the config it was set up with. -/
structure Ownership where
  ownership : ArtifactOwnership
  active : Bool
  registeredConfig : Option OsPath

def unitActive (unitExists : Bool) : Program Bool := do
  if unitExists then systemdIsActive
  else if ← perform .isSystemdEnvironment then systemdIsActive
  else pure false

def systemdArtifactOwnership (exe : OsPath) : Program Ownership := do
  let unitExists ← perform (.pathExists standardSystemdUnitPath)
  let active ← unitActive unitExists
  match ← registeredCommand unitExists active with
  | none => pure ⟨if unitExists || active then .unknown else .absent, active, none⟩
  | some command =>
      match parseExecStartTarget command with
      | none => pure ⟨.unknown, active, none⟩
      | some (target, config) =>
          if ← pathsEquivalent target exe then pure ⟨.owned, active, config⟩
          else pure ⟨.foreign, active, config⟩

end Ownership

section Endpoint

def probeAddress : IpAddr → IpAddr
  | .v4 0 => .v4 0x7f000001
  | .v6 0 => .v6 1
  | address => address

def croncheckTarget (configured : SocketAddr) : SocketAddr :=
  { configured with ip := probeAddress configured.ip }

/-- The state that a response of an endpoint reports, if it is one of a daemon. `parseHealth` is
the parser of the body. -/
def classifyHealthResponse (parseHealth : List UInt8 → Option Protocol.ReadinessState)
    (response : List UInt8) : Option Protocol.ReadinessState :=
  (Search.splitOnce [13, 10, 13, 10] response).bind fun (headers, body) =>
    (headers.splitOn 10).head?.bind fun statusLine =>
      match statusLine.splitOnP fun byte => byte == 32 || byte == 13 with
      | version :: code :: _ =>
          ((Utf8.fromUtf8 code).toOption.bind parseU16).bind fun status =>
            if version ≠ Utf8.asciiBytes "HTTP/1.0".toList ∧
                version ≠ Utf8.asciiBytes "HTTP/1.1".toList then none
            else
              (parseHealth body).bind fun state =>
                match status, state with
                | 200, .ready => some .ready
                | 503, .warming => some .warming
                | 503, .failed => some .failed
                | _, _ => none
      | _ => none

inductive HealthProbe where
  | ready
  | warming
  | failed
  | unreachable
  | notGregg
  deriving DecidableEq

inductive CroncheckProbe where
  | running
  | absent
  | ambiguous
  deriving DecidableEq

variable (parseHealth : List UInt8 → Option Protocol.ReadinessState)

def FetchOutcome.health : FetchOutcome → HealthProbe
  | .refused | .failed => .unreachable
  | .responded bytes =>
      match classifyHealthResponse parseHealth bytes with
      | some .ready => .ready
      | some .warming => .warming
      | some .failed => .failed
      | none => .notGregg

def FetchOutcome.watchdog : FetchOutcome → CroncheckProbe
  | .refused => .absent
  | .failed => .ambiguous
  | .responded bytes =>
      if (classifyHealthResponse parseHealth bytes).isSome then .running else .ambiguous

def probeGreggd (target : SocketAddr) : Program CroncheckProbe := do
  let outcome ← perform (.fetchHealth target)
  pure (outcome.watchdog parseHealth)

end Endpoint

section Restart

/-- A part of a restart, which fails with a message. -/
abbrev Restart (Result : Type) : Type :=
  ExceptT String (Script Action Action.Answer) Result

inductive RestartRoute where
  | systemd
  | direct
  deriving DecidableEq

def managerRestartRoute (registration : Ownership) (selectedConfig : OsPath) :
    Restart RestartRoute :=
  match registration.ownership with
  | .owned => pure .systemd
  | .absent =>
      if registration.active then
        throw "systemd is active but its executable registration is absent; refusing restart"
      else pure .direct
  | .unknown => throw "cannot determine systemd executable ownership; refusing restart"
  | .foreign =>
      match registration.registeredConfig with
      | none => throw "foreign systemd registration has unknown config ownership; refusing restart"
      | some config => do
          if ← pathsEquivalent config selectedConfig then
            throw
              "foreign systemd registration owns the selected config; refusing direct restart"
          else pure .direct

def managerErrorIsPermission (message : String) : Bool :=
  let message := String.ofList (toAsciiLowercase message.toList)
  contains message "permission" || contains message "access denied" ||
    contains message "not authorized" || contains message "authentication"

/-- What a command of the manager came to. -/
def systemctlOutcome (arguments : List String) : Except IoError Output → Except IoError Unit
  | .error error => .error error
  | .ok output =>
      if output.success then .ok ()
      else
        let command := " ".intercalate arguments
        let stderr := String.ofList (Text.trim (Utf8.fromUtf8Lossy output.stderr))
        .error ⟨.other, s!"systemctl {command} failed with status " ++
          s!"{debugCode output.code}: {stderr}"⟩

def runSystemctl (arguments : List String) : Program (Except IoError Unit) := do
  let answer ← perform (.systemctl arguments)
  pure (systemctlOutcome arguments answer)

def restartSystemdError (exe : OsPath) (error : IoError) : String :=
  let denied := "permission denied: rerun as root: sudo systemctl restart greggd"
  if error.kind = .permissionDenied then s!"{denied} (original exe: {display exe})"
  else if managerErrorIsPermission error.message then s!"{denied} (exe: {display exe})"
  else s!"systemctl restart greggd: {error.message}"

def restartSystemd (exe : OsPath) : Restart Unit := do
  if !(← perform (.pathExists standardSystemdUnitPath)) then
    throw ("systemd unit not installed: run \x60sudo greggd startup install " ++
      "--method systemd\x60")
  else Script.mapErr (restartSystemdError exe) (runSystemctl RESTART_UNIT)

inductive RestartStopState where
  | stopped
  | notRunning
  | uncertain
  | controlError
  deriving DecidableEq

def restartSpawnAllowed (stopState : RestartStopState) (probe : CroncheckProbe) : Bool :=
  stopState ≠ .uncertain && probe == .absent

variable (parseHealth : List UInt8 → Option Protocol.ReadinessState)

/-- What a stop came to. After an error the endpoint must be free. -/
def settleStop (target : SocketAddr) : Except ControlError StopOutcome → Restart RestartStopState
  | .ok .stopped => pure .stopped
  | .ok .notRunning => pure .notRunning
  | .ok .uncertain => pure .uncertain
  | .error error => do
      if error.isDenied then throw s!"permission denied on stop: {error.display}"
      else
        match ← probeGreggd parseHealth target with
        | .absent => pure .controlError
        | _ =>
            throw ("restart refused after stop error: endpoint is not definitely absent " ++
              s!"({error.display})")

/-- Wait until nothing listens, for some more probes before the deadline and one after it. -/
def waitForEndpointAbsence (target : SocketAddr) : ℕ → Restart Unit
  | 0 => do
      match ← probeGreggd parseHealth target with
      | .absent => pure ()
      | .running => throw "restart refused: configured endpoint remained occupied"
      | .ambiguous => throw "restart refused: could not prove configured endpoint is absent"
  | rounds + 1 => do
      match ← probeGreggd parseHealth target with
      | .absent => pure ()
      | _ => waitForEndpointAbsence target rounds

/-- Wait until the daemon that was spawned answers, for some more probes before the deadline and
one after it, when it is killed. -/
def awaitReadiness (target : SocketAddr) : ℕ → Restart Unit
  | 0 => do
      match ← probeGreggd parseHealth target with
      | .running => pure ()
      | .ambiguous => do
          perform .killChild
          throw "greggd restart timed out with an ambiguous endpoint"
      | .absent => do
          perform .killChild
          throw "greggd restart timed out before health readiness"
  | rounds + 1 => do
      match ← probeGreggd parseHealth target with
      | .running => pure ()
      | _ =>
          match ← perform .childExited with
          | .error error => throw s!"greggd run: {error.message}"
          | .ok (some status) => throw s!"greggd restart child exited before readiness: {status}"
          | .ok none => awaitReadiness target rounds

/-- The probes that come back before each of the two deadlines. -/
structure Pace where
  absence : ℕ
  readiness : ℕ

def restartCronDirect (pace : Pace) (exe configPath : OsPath) (explicit : Bool) :
    Restart Unit := do
  let outcome ← perform (.sendStop configPath)
  let configured ← Script.mapErr (fun error => s!"failed to load restart config: {error}")
    (perform (.loadConfig configPath explicit))
  let target := croncheckTarget configured
  let stopState ← settleStop parseHealth target outcome
  if stopState = .uncertain then
    throw "restart refused: stop outcome was uncertain; daemon may still be running"
  else
    waitForEndpointAbsence parseHealth target pace.absence
    let probe ← probeGreggd parseHealth target
    if !restartSpawnAllowed stopState probe then
      throw "restart refused: endpoint is not definitely absent"
    else
      Script.mapErr
        (fun error =>
          if error.kind = .permissionDenied then
            s!"permission denied spawning greggd: {error.message}"
          else s!"greggd run: {error.message}")
        (perform (.spawnDaemon exe configPath explicit))
      awaitReadiness parseHealth target pace.readiness

/-- Which way a restart goes, by what is observed of the unit. -/
def restartRoute (exe configPath : OsPath) : Restart RestartRoute := do
  let registration ← systemdArtifactOwnership exe
  managerRestartRoute registration configPath

def executeRestart (pace : Pace) (route : RestartRoute) (exe configPath : OsPath)
    (explicit : Bool) : Restart Unit :=
  match route with
  | .systemd => restartSystemd exe
  | .direct => restartCronDirect parseHealth pace exe configPath explicit

def restartDaemon (pace : Pace) (exe configPath : OsPath) (explicit : Bool) : Restart Unit := do
  let route ← restartRoute exe configPath
  executeRestart parseHealth pace route exe configPath explicit

end Restart

section Observation

theorem does_resolved (path : OsPath) :
    (resolved path).Does Action.IsPlain fun _ _ => True := by
  rw [resolved, does_bind, perform, does_perform]
  refine ⟨trivial, ?_⟩
  intro canonical
  cases canonical with
  | ok canonical => exact does_pure.mpr trivial
  | error error =>
      dsimp only
      rw [absoluteLexical]
      split
      · exact does_pure.mpr trivial
      · rw [does_bind, perform, does_perform]
        refine ⟨trivial, ?_⟩
        intro cwd
        cases cwd with
        | ok cwd => exact does_pure.mpr trivial
        | error error => exact does_pure.mpr trivial

theorem does_pathsEquivalent (left right : OsPath) :
    (pathsEquivalent left right).Does Action.IsPlain fun _ _ => True := by
  rw [pathsEquivalent, does_bind]
  refine (does_resolved left).imp (fun _ isPlain => isPlain) ?_
  intro _ _ _
  rw [does_bind]
  refine (does_resolved right).imp (fun _ isPlain => isPlain) ?_
  intro _ _ _
  exact does_pure.mpr trivial

theorem does_systemdIsActive : systemdIsActive.Does Action.IsPlain fun _ _ => True := by
  rw [systemdIsActive, does_bind, perform, does_perform]
  refine ⟨by simp [Action.IsPlain, Action.IsQuiet, RESTART_UNIT], ?_⟩
  intro output
  cases output with
  | ok output => exact does_pure.mpr trivial
  | error error => exact does_pure.mpr trivial

theorem does_unitActive (unitExists : Bool) :
    (unitActive unitExists).Does Action.IsPlain fun _ _ => True := by
  rw [unitActive]
  split
  · exact does_systemdIsActive
  · rw [does_bind, perform, does_perform]
    refine ⟨trivial, ?_⟩
    intro isSystemd
    split
    · exact does_systemdIsActive
    · exact does_pure.mpr trivial

theorem does_registeredCommand (unitExists active : Bool) :
    (registeredCommand unitExists active).Does Action.IsPlain fun _ _ => True := by
  rw [registeredCommand]
  split
  · rw [does_bind, perform, does_perform]
    refine ⟨trivial, ?_⟩
    intro text
    cases text with
    | ok text => exact does_pure.mpr trivial
    | error error => exact does_pure.mpr trivial
  · split
    · rw [does_bind, perform, does_perform]
      refine ⟨by simp [Action.IsPlain, Action.IsQuiet, RESTART_UNIT], ?_⟩
      intro output
      cases output with
      | ok output => exact does_pure.mpr trivial
      | error error => exact does_pure.mpr trivial
    · exact does_pure.mpr trivial

theorem does_systemdArtifactOwnership (exe : OsPath) :
    (systemdArtifactOwnership exe).Does Action.IsPlain fun _ _ => True := by
  rw [systemdArtifactOwnership, does_bind, perform, does_perform]
  refine ⟨trivial, ?_⟩
  intro unitExists
  rw [does_bind]
  refine (does_unitActive unitExists).imp (fun _ isPlain => isPlain) ?_
  intro _ active _
  rw [does_bind]
  refine (does_registeredCommand unitExists active).imp (fun _ isPlain => isPlain) ?_
  intro _ command _
  cases command with
  | none => exact does_pure.mpr trivial
  | some command =>
      dsimp only
      split
      · exact does_pure.mpr trivial
      · rw [does_bind]
        refine (does_pathsEquivalent _ _).imp (fun _ isPlain => isPlain) ?_
        intro _ same _
        cases same with
        | true => exact does_pure.mpr trivial
        | false => exact does_pure.mpr trivial

/-- What was observed before a restart goes one way: the unit names this executable, or else there
is no unit and no service, or the unit is another's for another config. -/
inductive Routed (exe configPath : OsPath) : RestartRoute → List Entry → Prop where
  | owned {observing : List Entry} {registration : Ownership}
      (observed : (systemdArtifactOwnership exe).Runs observing registration)
      (isOwned : registration.ownership = .owned) : Routed exe configPath .systemd observing
  | absent {observing : List Entry} {registration : Ownership}
      (observed : (systemdArtifactOwnership exe).Runs observing registration)
      (isAbsent : registration.ownership = .absent) (inactive : registration.active = false) :
      Routed exe configPath .direct observing
  | foreign {observing comparing : List Entry} {registration : Ownership} {config : OsPath}
      (observed : (systemdArtifactOwnership exe).Runs observing registration)
      (isForeign : registration.ownership = .foreign)
      (registered : registration.registeredConfig = some config)
      (differs : (pathsEquivalent config configPath).Runs comparing false) :
      Routed exe configPath .direct (observing ++ comparing)

theorem tries_restartRoute (exe configPath : OsPath) :
    Tries Action.IsPlain (restartRoute exe configPath) (fun _ _ => True)
      fun trace route => Routed exe configPath route trace := by
  rw [restartRoute, tries_bind, tries_lift]
  refine (does_systemdArtifactOwnership exe).runs.imp (fun _ isPlain => isPlain) ?_
  rintro observing registration ⟨observed, -⟩
  cases belongs : registration.ownership with
  | owned =>
      simp only [managerRestartRoute, belongs]
      rw [tries_pure, List.append_nil]
      exact .owned observed belongs
  | absent =>
      simp only [managerRestartRoute, belongs]
      split
      · exact tries_throw.mpr trivial
      · rename_i inactive
        rw [tries_pure, List.append_nil]
        exact .absent observed belongs (Bool.eq_false_iff.mpr inactive)
  | unknown =>
      simp only [managerRestartRoute, belongs]
      exact tries_throw.mpr trivial
  | foreign =>
      cases registered : registration.registeredConfig with
      | none =>
          simp only [managerRestartRoute, belongs, registered]
          exact tries_throw.mpr trivial
      | some config =>
          simp only [managerRestartRoute, belongs, registered]
          rw [tries_bind, tries_lift]
          refine (does_pathsEquivalent _ _).runs.imp (fun _ isPlain => isPlain) ?_
          rintro comparing same ⟨compared, -⟩
          cases same with
          | true => exact tries_throw.mpr trivial
          | false =>
              simp only [Bool.false_eq_true, ↓reduceIte]
              rw [tries_pure, List.append_nil]
              exact .foreign observed belongs registered compared

variable {parseHealth : List UInt8 → Option Protocol.ReadinessState}

/-- Only an endpoint that refuses is free. -/
theorem watchdog_eq_absent_iff {outcome : FetchOutcome} :
    outcome.watchdog parseHealth = .absent ↔ outcome = .refused := by
  cases outcome with
  | refused => simp [FetchOutcome.watchdog]
  | failed => simp [FetchOutcome.watchdog]
  | responded bytes =>
      rw [FetchOutcome.watchdog]
      split
      · simp
      · simp

theorem meets_probeGreggd {target : SocketAddr} {history : List Entry}
    {allowed : List Entry → Action → Prop} {post : List Entry → CroncheckProbe → Prop} :
    (probeGreggd parseHealth target).Meets allowed post history ↔
      allowed history (.fetchHealth target) ∧
        ∀ outcome, post (history ++ [⟨.fetchHealth target, outcome⟩])
          (outcome.watchdog parseHealth) := by
  rw [probeGreggd, meets_bind]
  exact Iff.rfl

end Observation

section Safety

variable {parseHealth : List UInt8 → Option Protocol.ReadinessState} {exe configPath : OsPath}
  {explicit : Bool}

/-- The history of a direct restart up to the moment when a daemon is spawned: the stop was not
left open, and the last probe found nothing at the endpoint of the config. -/
inductive Vacated (exe configPath : OsPath) (explicit : Bool) : List Entry → Prop where
  | mk {routing waiting : List Entry} {stop : Except ControlError StopOutcome}
      {configured : SocketAddr}
      (routed : Routed exe configPath .direct routing)
      (certain : stop ≠ .ok .uncertain) (isQuiet : ∀ entry ∈ waiting, entry.1.IsQuiet) :
      Vacated exe configPath explicit (routing ++ ⟨.sendStop configPath, stop⟩ ::
        ⟨.loadConfig configPath explicit, .ok configured⟩ ::
          (waiting ++ [⟨.fetchHealth (croncheckTarget configured), .refused⟩]))

/-- What a restart may do, by what it did: the manager restarts its unit only when the unit was
just found to be of this executable; otherwise a daemon is stopped only when there is no such unit
or one of another config, and spawned only where nothing listens. -/
def RestartAllowed (exe configPath : OsPath) (explicit : Bool) (history : List Entry) :
    Action → Prop
  | .systemctl arguments =>
      arguments = RESTART_UNIT → ∃ routing,
        Routed exe configPath .systemd routing ∧
          history = routing ++ [⟨.pathExists standardSystemdUnitPath, true⟩]
  | .sendStop path =>
      path = configPath ∧ Routed exe configPath .direct history
  | .spawnDaemon program path isExplicit =>
      program = exe ∧ path = configPath ∧ isExplicit = explicit ∧
        Vacated exe configPath explicit history
  | .killChild => ⟨.spawnDaemon exe configPath explicit, .ok ()⟩ ∈ history
  | action => action.IsPlain

/-- What a restart has done when it reports. A daemon that was spawned and did not get ready is
over by then, or cannot be asked. -/
def RestartReported (parseHealth : List UInt8 → Option Protocol.ReadinessState)
    (exe configPath : OsPath) (explicit : Bool) (history : List Entry) :
    Except String Unit → Prop
  | .ok _ =>
      (∃ before output, history = before ++ [⟨.systemctl RESTART_UNIT, .ok output⟩] ∧
        output.success = true) ∨
      ∃ before configured outcome,
        history = before ++ [⟨.fetchHealth (croncheckTarget configured), outcome⟩] ∧
          ⟨.loadConfig configPath explicit, .ok configured⟩ ∈ before ∧
            ⟨.spawnDaemon exe configPath explicit, .ok ()⟩ ∈ before ∧
              outcome.watchdog parseHealth = .running
  | .error _ =>
      ⟨.spawnDaemon exe configPath explicit, .ok ()⟩ ∈ history →
        ∃ before, history = before ++ [⟨.killChild, ()⟩] ∨
          ∃ answer, answer ≠ .ok none ∧ history = before ++ [⟨.childExited, answer⟩]

theorem restartAllowed_of_isPlain {history : List Entry} {action : Action}
    (isPlain : action.IsPlain) : RestartAllowed exe configPath explicit history action := by
  cases action <;> first | exact isPlain | cases isPlain | exact fun same => absurd same isPlain

theorem meets_awaitReadiness {configured : SocketAddr} (rounds : ℕ) {history : List Entry}
    (loaded : ⟨.loadConfig configPath explicit, .ok configured⟩ ∈ history)
    (spawned : ⟨.spawnDaemon exe configPath explicit, .ok ()⟩ ∈ history) :
    (awaitReadiness parseHealth (croncheckTarget configured) rounds).run.Meets
      (RestartAllowed exe configPath explicit)
      (RestartReported parseHealth exe configPath explicit) history := by
  -- The child is killed after the deadline, and before it the loop ends only where the child did.
  induction rounds generalizing history with
  | zero =>
      rw [awaitReadiness, meets_run_bind, meets_run_lift, meets_probeGreggd]
      refine ⟨restartAllowed_of_isPlain trivial, ?_⟩
      intro outcome
      have stillSpawned : ⟨.spawnDaemon exe configPath explicit, .ok ()⟩ ∈
          history ++ [⟨.fetchHealth (croncheckTarget configured), outcome⟩] :=
        List.mem_append_left _ spawned
      dsimp only [Settled]
      split
      · rename_i isRunning
        exact .inr ⟨history, configured, outcome, rfl, loaded, spawned, isRunning⟩
      · rw [meets_run_bind, meets_run_lift]
        apply meets_perform.mpr
        exact ⟨stillSpawned, fun _ _ => ⟨_, .inl rfl⟩⟩
      · rw [meets_run_bind, meets_run_lift]
        apply meets_perform.mpr
        exact ⟨stillSpawned, fun _ _ => ⟨_, .inl rfl⟩⟩
  | succ rounds next =>
      rw [awaitReadiness, meets_run_bind, meets_run_lift, meets_probeGreggd]
      refine ⟨restartAllowed_of_isPlain trivial, ?_⟩
      intro outcome
      dsimp only [Settled]
      split
      · rename_i isRunning
        exact .inr ⟨history, configured, outcome, rfl, loaded, spawned, isRunning⟩
      · rw [meets_run_bind, meets_run_lift]
        apply meets_perform.mpr
        refine ⟨trivial, ?_⟩
        intro exited
        dsimp only [Settled]
        split
        · exact fun _ => ⟨_, .inr ⟨_, by simp, rfl⟩⟩
        · exact fun _ => ⟨_, .inr ⟨_, by simp, rfl⟩⟩
        · apply next
          · exact List.mem_append_left _ (List.mem_append_left _ loaded)
          · exact List.mem_append_left _ (List.mem_append_left _ spawned)

theorem tries_settleStop (target : SocketAddr) (outcome : Except ControlError StopOutcome) :
    Tries Action.IsPlain (settleStop parseHealth target outcome) (fun _ _ => True)
      fun _ stopState => stopState ≠ .uncertain → outcome ≠ .ok .uncertain := by
  unfold settleStop
  split
  · exact tries_pure.mpr (by simp)
  · exact tries_pure.mpr (by simp)
  · exact tries_pure.mpr (by simp)
  · split
    · exact tries_throw.mpr trivial
    · rw [tries_bind, tries_lift, probeGreggd, does_bind, perform, does_perform]
      refine ⟨trivial, ?_⟩
      intro outcome
      rw [does_pure]
      split
      · exact tries_pure.mpr (by simp)
      · exact tries_throw.mpr trivial

theorem tries_waitForEndpointAbsence (target : SocketAddr) (rounds : ℕ) :
    Tries Action.IsPlain (waitForEndpointAbsence parseHealth target rounds) (fun _ _ => True)
      fun _ _ => True := by
  induction rounds with
  | zero =>
      rw [waitForEndpointAbsence, tries_bind, tries_lift, probeGreggd, does_bind, perform,
        does_perform]
      refine ⟨trivial, ?_⟩
      intro outcome
      rw [does_pure]
      split
      · exact tries_pure.mpr trivial
      · exact tries_throw.mpr trivial
      · exact tries_throw.mpr trivial
  | succ rounds next =>
      rw [waitForEndpointAbsence, tries_bind, tries_lift, probeGreggd, does_bind, perform,
        does_perform]
      refine ⟨trivial, ?_⟩
      intro outcome
      rw [does_pure]
      split
      · exact tries_pure.mpr trivial
      · exact next

theorem reported_of_not_spawned {history : List Entry} {message : String}
    (notSpawned : ⟨.spawnDaemon exe configPath explicit, .ok ()⟩ ∉ history) :
    RestartReported parseHealth exe configPath explicit history (.error message) :=
  fun spawned => absurd spawned notSpawned

theorem not_spawned_of_isQuiet {trace : List Entry} (isQuiet : ∀ entry ∈ trace, entry.1.IsQuiet) :
    ⟨.spawnDaemon exe configPath explicit, .ok ()⟩ ∉ trace := by
  intro isMember
  exact isQuiet _ isMember

theorem meets_restartCronDirect (pace : Pace) {routing : List Entry}
    (routed : Routed exe configPath .direct routing)
    (isQuiet : ∀ entry ∈ routing, entry.1.IsQuiet) :
    (restartCronDirect parseHealth pace exe configPath explicit).run.Meets
      (RestartAllowed exe configPath explicit)
      (RestartReported parseHealth exe configPath explicit) routing := by
  rw [restartCronDirect, meets_run_bind, meets_run_lift]
  apply meets_perform.mpr
  refine ⟨⟨rfl, routed⟩, ?_⟩
  intro stop
  have stopping : ⟨.spawnDaemon exe configPath explicit, .ok ()⟩ ∉
      routing ++ [(⟨.sendStop configPath, stop⟩ : Entry)] :=
    List.not_mem_append (not_spawned_of_isQuiet isQuiet) (by simp)
  dsimp only [Settled]
  rw [meets_run_bind, meets_run_mapErr]
  apply meets_perform.mpr
  refine ⟨trivial, ?_⟩
  intro configured
  have loading : ⟨.spawnDaemon exe configPath explicit, .ok ()⟩ ∉
      routing ++ [(⟨.sendStop configPath, stop⟩ : Entry)] ++
        [(⟨.loadConfig configPath explicit, configured⟩ : Entry)] :=
    List.not_mem_append stopping (by simp)
  cases configured with
  | error error =>
      dsimp only [Settled]
      exact reported_of_not_spawned loading
  | ok configured =>
      dsimp only [Settled]
      rw [meets_run_bind]
      refine (tries_settleStop (croncheckTarget configured) stop).meets
        (fun _ _ isPlain => restartAllowed_of_isPlain isPlain) ?_ ?_
      · intro settling _ isPlain _
        dsimp only [Settled]
        exact reported_of_not_spawned (List.not_mem_append loading
          (not_spawned_of_isQuiet (isQuiet_of_isPlain isPlain)))
      intro settling stopState settlingIsPlain certain
      have settled : ⟨.spawnDaemon exe configPath explicit, .ok ()⟩ ∉
          routing ++ [(⟨.sendStop configPath, stop⟩ : Entry)] ++
            [(⟨.loadConfig configPath explicit, .ok configured⟩ : Entry)] ++ settling :=
        List.not_mem_append loading
          (not_spawned_of_isQuiet (isQuiet_of_isPlain settlingIsPlain))
      dsimp only [Settled]
      split
      · rw [meets_run_throw]
        exact reported_of_not_spawned settled
      rename_i isCertain
      rw [meets_run_bind]
      refine (tries_waitForEndpointAbsence (croncheckTarget configured) pace.absence).meets
        (fun _ _ isPlain => restartAllowed_of_isPlain isPlain) ?_ ?_
      · intro waiting _ isPlain _
        dsimp only [Settled]
        exact reported_of_not_spawned (List.not_mem_append settled
          (not_spawned_of_isQuiet (isQuiet_of_isPlain isPlain)))
      intro waiting _ waitingIsPlain _
      have waited : ⟨.spawnDaemon exe configPath explicit, .ok ()⟩ ∉
          routing ++ [(⟨.sendStop configPath, stop⟩ : Entry)] ++
            [(⟨.loadConfig configPath explicit, .ok configured⟩ : Entry)] ++ settling ++ waiting :=
        List.not_mem_append settled
          (not_spawned_of_isQuiet (isQuiet_of_isPlain waitingIsPlain))
      dsimp only [Settled]
      rw [meets_run_bind, meets_run_lift, meets_probeGreggd]
      refine ⟨restartAllowed_of_isPlain trivial, ?_⟩
      intro outcome
      have probed : ⟨.spawnDaemon exe configPath explicit, .ok ()⟩ ∉
          routing ++ [(⟨.sendStop configPath, stop⟩ : Entry)] ++
            [(⟨.loadConfig configPath explicit, .ok configured⟩ : Entry)] ++ settling ++ waiting ++
              [(⟨.fetchHealth (croncheckTarget configured), outcome⟩ : Entry)] :=
        List.not_mem_append waited (by simp)
      dsimp only [Settled]
      split
      · rw [meets_run_throw]
        exact reported_of_not_spawned probed
      rename_i isFree
      have refused : outcome = .refused := by
        rw [Bool.not_eq_true', Bool.not_eq_false, restartSpawnAllowed, Bool.and_eq_true,
          beq_iff_eq] at isFree
        exact watchdog_eq_absent_iff.mp isFree.2
      subst refused
      rw [meets_run_bind, meets_run_mapErr]
      apply meets_perform.mpr
      refine ⟨⟨rfl, rfl, rfl, ?_⟩, ?_⟩
      · have bothQuiet : ∀ entry ∈ settling ++ waiting, entry.1.IsQuiet := by
          intro entry isMember
          rcases List.mem_append.mp isMember with settles | waits
          · exact (settlingIsPlain entry settles).isQuiet
          · exact (waitingIsPlain entry waits).isQuiet
        have vacated := @Vacated.mk exe configPath explicit routing (settling ++ waiting) stop
          configured routed (certain isCertain) bothQuiet
        simpa only [List.append_assoc, List.cons_append, List.nil_append] using vacated
      · intro spawned
        cases spawned with
        | error error =>
            dsimp only [Settled]
            exact reported_of_not_spawned (List.not_mem_append probed (by simp))
        | ok spawned =>
            apply meets_awaitReadiness
            · simp
            · simp

theorem systemctlOutcome_cases (arguments : List String) (answer : Except IoError Output) :
    (∃ error, systemctlOutcome arguments answer = .error error) ∨
      ∃ output, answer = .ok output ∧ output.success = true ∧
        systemctlOutcome arguments answer = .ok () := by
  cases answer with
  | error error => exact .inl ⟨error, rfl⟩
  | ok output =>
      cases exits : output.success with
      | true => exact .inr ⟨output, rfl, exits, by simp [systemctlOutcome, exits]⟩
      | false => exact .inl ⟨_, by simp only [systemctlOutcome, exits]; rfl⟩

theorem meets_restartSystemd {routing : List Entry}
    (routed : Routed exe configPath .systemd routing)
    (isQuiet : ∀ entry ∈ routing, entry.1.IsQuiet) :
    (restartSystemd exe).run.Meets (RestartAllowed exe configPath explicit)
      (RestartReported parseHealth exe configPath explicit) routing := by
  have notSpawned : ⟨.spawnDaemon exe configPath explicit, .ok ()⟩ ∉ routing :=
    not_spawned_of_isQuiet isQuiet
  rw [restartSystemd, meets_run_bind, meets_run_lift]
  apply meets_perform.mpr
  refine ⟨trivial, ?_⟩
  intro isThere
  have looked : ⟨.spawnDaemon exe configPath explicit, .ok ()⟩ ∉
      routing ++ [(⟨.pathExists standardSystemdUnitPath, isThere⟩ : Entry)] :=
    List.not_mem_append notSpawned (by simp)
  cases isThere with
  | false =>
      simp only [Settled, Bool.not_false, ↓reduceIte]
      rw [meets_run_throw]
      exact reported_of_not_spawned looked
  | true =>
      simp only [Settled, Bool.not_true, Bool.false_eq_true, ↓reduceIte]
      rw [meets_run_mapErr, runSystemctl, meets_bind]
      apply meets_perform.mpr
      refine ⟨fun _ => ⟨routing, routed, rfl⟩, ?_⟩
      intro answer
      have restarted : ⟨.spawnDaemon exe configPath explicit, .ok ()⟩ ∉
          routing ++ [(⟨.pathExists standardSystemdUnitPath, true⟩ : Entry)] ++
            [(⟨.systemctl RESTART_UNIT, answer⟩ : Entry)] :=
        List.not_mem_append looked (by simp)
      rcases systemctlOutcome_cases RESTART_UNIT answer with
        ⟨error, fails⟩ | ⟨output, rfl, exits, works⟩
      · rw [fails]
        exact fun spawned => absurd spawned restarted
      · rw [works]
        exact .inl ⟨_, output, rfl, exits⟩

theorem meets_restartDaemon (pace : Pace) (exe configPath : OsPath) (explicit : Bool) :
    (restartDaemon parseHealth pace exe configPath explicit).run.Meets
      (RestartAllowed exe configPath explicit)
      (RestartReported parseHealth exe configPath explicit) [] := by
  rw [restartDaemon, meets_run_bind]
  refine (tries_restartRoute exe configPath).meets
    (fun _ _ isPlain => restartAllowed_of_isPlain isPlain) ?_ ?_
  · intro routing message isPlain _
    dsimp only [Settled]
    exact reported_of_not_spawned
      (not_spawned_of_isQuiet (isQuiet_of_isPlain isPlain))
  · intro routing route isPlain routed
    have isQuiet : ∀ entry ∈ routing, entry.1.IsQuiet :=
      isQuiet_of_isPlain isPlain
    cases route with
    | systemd => exact meets_restartSystemd routed isQuiet
    | direct => exact meets_restartCronDirect pace routed isQuiet

/-- Whatever happens in the world, a restart makes the manager restart only a unit that was just
found to name this executable, and starts a daemon of its own only after a stop that was answered,
when the last probe of the config's endpoint was refused. A daemon that it started and that does
not answer in time is killed. -/
theorem restart_of_run (pace : Pace) (exe configPath : OsPath) (explicit : Bool) :
    (∀ before action answer,
        (restartDaemon parseHealth pace exe configPath explicit).run.Reaches
          (before ++ [⟨action, answer⟩]) →
        RestartAllowed exe configPath explicit before action) ∧
      ∀ history outcome,
        (restartDaemon parseHealth pace exe configPath explicit).run.Runs history outcome →
          RestartReported parseHealth exe configPath explicit history outcome := by
  have meets := @meets_restartDaemon parseHealth pace exe configPath explicit
  exact meets.everyRun

end Safety

end Gregg.Update

import Gregg.Update.Evidence

/-!
# The update of a program

The program looks up the newest version, makes sure that it may write where it is installed, gets
a verified candidate, and replaces its own executable. At every moment of every run, also of one
that is cut short, the executable is replaced at most once and only by a candidate with complete
evidence.
-/

namespace Gregg.Update

open Script

section Executable

/-- Where a link leads that cannot be resolved. -/
def linkTarget (exe target : OsPath) : OsPath :=
  if isAbsolute target then target
  else
    match parent exe with
    | some directory => normalizeLexically (join directory target)
    | none => target

def currentExePath : Attempt OsPath := do
  let exe ← Script.mapErr (fun error => .currentExe s!"current_exe failed: {error.message}")
    (perform .currentExe)
  match ← perform (.canonicalize exe) with
  | .ok canonical => pure canonical
  | .error _ =>
      if ← perform (.isSymlink exe) then
        match ← perform (.readLink exe) with
        | .ok target => pure (linkTarget exe target)
        | .error _ => pure exe
      else pure exe

def probeName (stamp : ProbeStamp) (attempt : ℕ) : String :=
  s!".gregg-update-perm-{stamp.pid}-{stamp.nanos}-{stamp.seq}-{attempt}.tmp"

/-- The attempts to make a new file in a directory. Only a name that is taken leads to another. -/
def probeDirectory (directory originalExe : OsPath) (operation : String) : List ℕ → Attempt Unit
  | [] => throw (.io s!"permission probe collided for {display directory}")
  | attempt :: rest => do
      let stamp ← perform .probeStamp
      let probe := fileIn directory (probeName stamp attempt)
      match ← perform (.createNew probe) with
      | .ok _ => perform (.removeFile probe)
      | .error error =>
          match error.kind with
          | .alreadyExists => probeDirectory directory originalExe operation rest
          | .permissionDenied =>
              throw (.permissionDenied s!"permission denied writing to {display directory}"
                (elevatedRerunHint originalExe operation))
          | _ =>
              throw (.io s!"permission probe failed for {display directory}: {error.message}")

def checkWritePermissionFor (exePath originalExe : OsPath) (operation : String) : Attempt Unit :=
  match parent exePath with
  | none => throw (.io s!"executable has no parent directory: {display exePath}")
  | some directory => probeDirectory directory originalExe operation [0, 1, 2]

/-- The executable, once its directory is known to be writable. -/
def preflightExeWritable : Attempt OsPath := do
  let exePath ← currentExePath
  checkWritePermissionFor exePath exePath "update"
  pure exePath

def replaceCurrentExe (candidate : OsPath) (program : String) : Attempt Unit := do
  match ← perform (.selfReplace candidate) with
  | .ok _ => pure ()
  | .error error =>
      if error.kind = .permissionDenied then
        let exe ← perform .currentExe
        throw (.permissionDenied s!"permission denied replacing executable: {error.message}"
          (elevatedRerunHint (exe.toOption.getD (.ofText program.toList)) "update"))
      else throw (.replacement s!"self-replace failed: {error.message}")

end Executable

section Update

inductive UpdateOutcome where
  | alreadyCurrent (version : String)
  | updatedBinary (old new : String)
  | updatedFromCargo (old new : String)

/-- The outcome of an update that replaced the executable. -/
def UpdateOutcome.updated (fromCargo : Bool) (old new : String) : UpdateOutcome :=
  if fromCargo then .updatedFromCargo old new else .updatedBinary old new

def runSimpleUpdate (host : Host) (spec : UpdateSpec) : Attempt UpdateOutcome := do
  match ← resolvePlan host spec with
  | .alreadyCurrent version => pure (.alreadyCurrent version)
  | .available current latest target =>
      let _ ← preflightExeWritable
      let (fromCargo, staged) ← prepareCandidate host spec latest target
      Script.andThen (do
        replaceCurrentExe staged.path spec.programName
        pure (.updated fromCargo current latest)) (perform (.removeDir staged.tempDir))

end Update

section Evidence

/-- A new file was made next to the executable, and removed again. -/
inductive Writable (exe : OsPath) : List Entry → Prop where
  | mk {front : List Entry} {directory : OsPath} {stamp : ProbeStamp} {attempt : ℕ}
      (isParent : parent exe = some directory) :
      Writable exe (front ++
        [⟨.createNew (fileIn directory (probeName stamp attempt)), .ok ()⟩,
          ⟨.removeFile (fileIn directory (probeName stamp attempt)), ()⟩])

theorem tries_currentExePath :
    Tries Action.IsPlain currentExePath (fun _ _ => True) fun _ _ => True := by
  rw [currentExePath, tries_bind, tries_mapErr, perform, does_perform]
  refine ⟨trivial, ?_⟩
  intro exe
  cases exe with
  | error error => trivial
  | ok exe =>
      dsimp only [Settled]
      rw [tries_bind, tries_lift, perform, does_perform]
      refine ⟨trivial, ?_⟩
      intro canonical
      cases canonical with
      | ok canonical => exact tries_pure.mpr trivial
      | error error =>
          dsimp only
          rw [tries_bind, tries_lift, perform, does_perform]
          refine ⟨trivial, ?_⟩
          intro isLink
          split
          · rw [tries_bind, tries_lift, perform, does_perform]
            refine ⟨trivial, ?_⟩
            intro target
            cases target with
            | ok target => exact tries_pure.mpr trivial
            | error error => exact tries_pure.mpr trivial
          · exact tries_pure.mpr trivial

theorem tries_probeDirectory {exe directory originalExe : OsPath} {operation : String}
    (isParent : parent exe = some directory) (attempts : List ℕ) :
    Tries Action.IsPlain (probeDirectory directory originalExe operation attempts)
      (fun _ _ => True) fun trace _ => Writable exe trace := by
  induction attempts with
  | nil => exact tries_throw.mpr trivial
  | cons attempt attempts next =>
      rw [probeDirectory, tries_bind, tries_lift, perform, does_perform]
      refine ⟨trivial, ?_⟩
      intro stamp
      dsimp only
      rw [tries_bind, tries_lift, perform, does_perform]
      refine ⟨trivial, ?_⟩
      intro made
      cases made with
      | ok made =>
          dsimp only
          rw [tries_lift, perform, does_perform]
          refine ⟨trivial, ?_⟩
          intro removed
          exact .mk isParent
      | error error =>
          dsimp only
          split
          · refine next.imp (fun _ isPlain => isPlain) (fun _ _ _ _ => trivial) ?_
            rintro trace _ - writable
            cases writable with
            | mk same =>
                rw [← List.append_assoc, ← List.append_assoc]
                exact .mk same
          · exact tries_throw.mpr trivial
          · exact tries_throw.mpr trivial

theorem tries_preflightExeWritable :
    Tries Action.IsPlain preflightExeWritable (fun _ _ => True)
      fun trace exe => Writable exe trace := by
  rw [preflightExeWritable, tries_bind]
  refine tries_currentExePath.imp (fun _ isPlain => isPlain) (fun _ _ _ _ => trivial) ?_
  intro front exe _ _
  rw [tries_bind, checkWritePermissionFor]
  cases isParent : parent exe with
  | none => exact tries_throw.mpr trivial
  | some directory =>
      refine (tries_probeDirectory isParent _).imp (fun _ isPlain => isPlain)
        (fun _ _ _ _ => trivial) ?_
      rintro trace _ - writable
      rw [tries_pure, List.append_nil]
      cases writable with
      | mk same =>
          rw [← List.append_assoc]
          exact .mk same

/-- All that an update has done when it may replace the executable by a candidate. -/
inductive Replaceable (host : Host) (spec : UpdateSpec) (latest : String) :
    Bool → StagedCandidate → List Entry → Prop where
  | mk {exe : OsPath} {fromCargo : Bool} {staged : StagedCandidate}
      {lookup writing preparing : List Entry}
      (lookedUp : LookedUp host spec latest lookup)
      (newer : isUpdateAvailable spec.currentVersion.toList latest.toList = some true)
      (writable : Writable exe writing)
      (verified : Verified host spec.programName latest (detectTargetFor host.os host.arch)
        fromCargo staged preparing)
      (isQuiet : ∀ entry ∈ lookup ++ writing ++ preparing, entry.1.IsQuiet) :
      Replaceable host spec latest fromCargo staged (lookup ++ writing ++ preparing)

theorem Replaceable.precedes {host : Host} {spec : UpdateSpec} {latest : String} {fromCargo : Bool}
    {staged : StagedCandidate} {history : List Entry}
    (replaceable : Replaceable host spec latest fromCargo staged history) :
    Precedes spec.currentVersion.toList latest.toList := by
  cases replaceable with
  | mk lookedUp newer writable verified isQuiet => exact precedes_of_isUpdateAvailable newer

/-- An asset was asked for and is not published. -/
def Unpublished (program latest name : String) (history : List Entry) : Prop :=
  ∃ curl tempDir front absent rest,
    Absent curl (githubUrls program name latest).1 (fileIn tempDir (assetName program name))
        absent ∧
      history = front ++ absent ++ rest

/-- Where the host has a target, Cargo comes after its asset was not found. -/
theorem Replaceable.unpublished {host : Host} {spec : UpdateSpec} {latest name : String}
    {staged : StagedCandidate} {history : List Entry}
    (replaceable : Replaceable host spec latest true staged history)
    (detects : detectTargetFor host.os host.arch = some name) :
    Unpublished spec.programName latest name history := by
  have isTarget :
      (detectTargetFor host.os host.arch).filter isSupportedBinaryTarget = some name := by
    rw [detects, Option.filter_some, if_pos (isSupported_of_detectTargetFor detects)]
  cases replaceable with
  | @mk _ _ _ lookup writing _ lookedUp newer writable verified isQuiet =>
      cases verified with
      | unsupported supported =>
          rw [isTarget] at supported
          cases supported
      | @unpublished other curl tempDir _ front absent trace supported isAbsent =>
          cases isTarget.symm.trans supported
          refine ⟨curl, tempDir, lookup ++ writing ++ front, absent,
            trace ++ [⟨.removeDir tempDir, ()⟩], isAbsent, ?_⟩
          simp only [List.append_assoc]

/-- The executable is replaced by candidates that may, and nothing else is touched. -/
def Allowed (host : Host) (spec : UpdateSpec) (history : List Entry) : Action → Prop
  | .selfReplace candidate =>
      ∃ latest fromCargo staged, candidate = staged.path ∧
        Replaceable host spec latest fromCargo staged history
  | action => action.IsQuiet

/-- The whole history of an update that replaced the executable. -/
inductive Replaced (host : Host) (spec : UpdateSpec) (latest : String) (fromCargo : Bool) :
    List Entry → Prop where
  | mk {staged : StagedCandidate} {before : List Entry}
      (replaceable : Replaceable host spec latest fromCargo staged before) :
      Replaced host spec latest fromCargo
        (before ++ [⟨.selfReplace staged.path, .ok ()⟩, ⟨.removeDir staged.tempDir, ()⟩])

/-- What an update has done when it reports its outcome. -/
def Reported (host : Host) (spec : UpdateSpec) (history : List Entry) :
    Except UpdateError UpdateOutcome → Prop
  | .ok (.alreadyCurrent version) =>
      version = spec.currentVersion ∧ ∃ latest, LookedUp host spec latest history ∧
        isUpdateAvailable spec.currentVersion.toList latest.toList = some false
  | .ok (.updatedBinary old new) =>
      old = spec.currentVersion ∧ Replaced host spec new false history
  | .ok (.updatedFromCargo old new) =>
      old = spec.currentVersion ∧ Replaced host spec new true history
  | .error _ => ∀ candidate, ⟨.selfReplace candidate, .ok ()⟩ ∉ history

theorem allowed_of_isQuiet {host : Host} {spec : UpdateSpec} {history : List Entry}
    {action : Action} (isQuiet : action.IsQuiet) : Allowed host spec history action := by
  cases action <;> first | exact isQuiet | cases isQuiet

theorem not_replaced_of_isQuiet {trace : List Entry} (isQuiet : ∀ entry ∈ trace, entry.1.IsQuiet)
    (candidate : OsPath) : (⟨.selfReplace candidate, .ok ()⟩ : Entry) ∉ trace := by
  intro isMember
  exact isQuiet _ isMember

/-- The replacement itself: it happens at once, or nothing does. -/
theorem meets_replaceCurrentExe {candidate : OsPath} {program : String} {history : List Entry}
    {allowed : List Entry → Action → Prop} {post : List Entry → Except UpdateError Unit → Prop}
    (permitted : allowed history (.selfReplace candidate))
    (asks : ∀ later, allowed later .currentExe)
    (replaces : post (history ++ [⟨.selfReplace candidate, .ok ()⟩]) (.ok ()))
    (fails : ∀ trace failure, Leaves trace [] →
      (∀ other, ⟨.selfReplace other, .ok ()⟩ ∉ trace) → post (history ++ trace) (.error failure)) :
    (replaceCurrentExe candidate program).run.Meets allowed post history := by
  rw [replaceCurrentExe, meets_run_bind, meets_run_lift]
  apply meets_perform.mpr
  refine ⟨permitted, ?_⟩
  intro outcome
  cases outcome with
  | ok done => exact replaces
  | error error =>
      dsimp only [Settled]
      split
      · rw [meets_run_bind, meets_run_lift]
        apply meets_perform.mpr
        refine ⟨asks _, ?_⟩
        intro exe
        dsimp only [Settled]
        rw [List.append_assoc]
        exact fails [⟨.selfReplace candidate, .error error⟩, ⟨.currentExe, exe⟩] _ (.refl _)
          (by simp)
      · exact fails [⟨.selfReplace candidate, .error error⟩] _ (.refl _) (by simp)

theorem meets_runSimpleUpdate (host : Host) (spec : UpdateSpec) :
    (runSimpleUpdate host spec).run.Meets (Allowed host spec)
      (fun history outcome => Leaves history [] ∧ Reported host spec history outcome) [] := by
  rw [runSimpleUpdate, meets_run_bind]
  refine (tries_resolvePlan host spec).meets (fun _ _ isPlain => allowed_of_isQuiet isPlain.isQuiet)
    ?_ ?_
  · intro trace failure isPlain _
    exact ⟨leaves_of_isPlain isPlain,
      not_replaced_of_isQuiet (isQuiet_of_isPlain isPlain)⟩
  rintro lookup plan lookupIsPlain ⟨latest, lookedUp, ⟨current, rfl⟩ | ⟨newer, rfl⟩⟩
  · exact ⟨leaves_of_isPlain lookupIsPlain, rfl, latest, lookedUp, current⟩
  rw [List.nil_append]
  dsimp only [Settled]
  rw [meets_run_bind]
  refine tries_preflightExeWritable.meets
    (fun _ _ isPlain => allowed_of_isQuiet isPlain.isQuiet) ?_ ?_
  · intro trace failure isPlain _
    have bothPlain : ∀ entry ∈ lookup ++ trace, entry.1.IsPlain :=
      List.forall_mem_append.mpr ⟨lookupIsPlain, isPlain⟩
    exact ⟨leaves_of_isPlain bothPlain,
      not_replaced_of_isQuiet (isQuiet_of_isPlain bothPlain)⟩
  intro writing exe writingIsPlain writable
  have earlierPlain : ∀ entry ∈ lookup ++ writing, entry.1.IsPlain :=
    List.forall_mem_append.mpr ⟨lookupIsPlain, writingIsPlain⟩
  have earlierQuiet : ∀ entry ∈ lookup ++ writing, entry.1.IsQuiet :=
    isQuiet_of_isPlain earlierPlain
  have nothing := leaves_of_isPlain earlierPlain
  dsimp only [Settled]
  rw [meets_run_bind]
  refine (tries_prepareCandidate host spec latest _).meets
    (fun _ _ isQuiet => allowed_of_isQuiet isQuiet) ?_ ?_
  · intro trace failure isQuiet leaves
    exact ⟨nothing.append leaves,
      not_replaced_of_isQuiet (List.forall_mem_append.mpr ⟨earlierQuiet, isQuiet⟩)⟩
  rintro preparing ⟨fromCargo, staged⟩ preparingIsQuiet ⟨leaves, verified⟩
  have allQuiet := List.forall_mem_append.mpr ⟨earlierQuiet, preparingIsQuiet⟩
  have replaceable : Replaceable host spec latest fromCargo staged
      (lookup ++ writing ++ preparing) :=
    .mk lookedUp newer writable verified allQuiet
  dsimp only [Settled] at leaves verified ⊢
  rw [meets_run_andThen, meets_run_bind]
  apply meets_replaceCurrentExe
  · exact ⟨latest, fromCargo, staged, rfl, replaceable⟩
  · exact fun _ => allowed_of_isQuiet trivial
  · refine ⟨trivial, ?_⟩
    intro removed
    rw [List.append_assoc]
    have gone : Leaves (lookup ++ writing ++ preparing ++
        ([⟨.selfReplace staged.path, .ok ()⟩] ++ [⟨.removeDir staged.tempDir, ()⟩])) [] := by
      rw [← List.append_assoc]
      have replacing : Leaves [⟨.selfReplace staged.path, .ok ()⟩] [] := .refl _
      exact ((nothing.append leaves).append replacing).removed
    refine ⟨gone, ?_⟩
    cases fromCargo with
    | false => exact ⟨rfl, .mk replaceable⟩
    | true => exact ⟨rfl, .mk replaceable⟩
  · intro trace failure left notReplaced
    refine ⟨trivial, ?_⟩
    intro removed
    refine ⟨((nothing.append leaves).append left).removed, ?_⟩
    intro candidate
    rw [List.mem_append, List.mem_append, not_or, not_or]
    exact ⟨⟨not_replaced_of_isQuiet allQuiet candidate, notReplaced candidate⟩, by simp⟩

/-- Whatever happens in the world, an update replaces the executable at most by a newer version
that was looked up, downloaded from its release or else built, verified byte for byte where it was
downloaded, and asked for its version, in that order and with nothing in between; where it reports
an error nothing was replaced; and it removes all directories that it made. -/
theorem replaceable_of_run (host : Host) (spec : UpdateSpec) :
    (∀ before candidate answer,
        (runSimpleUpdate host spec).run.Reaches (before ++ [⟨.selfReplace candidate, answer⟩]) →
          ∃ latest fromCargo staged, candidate = staged.path ∧
            Replaceable host spec latest fromCargo staged before ∧
            Precedes spec.currentVersion.toList latest.toList ∧
            ∀ name, fromCargo = true → detectTargetFor host.os host.arch = some name →
              Unpublished spec.programName latest name before) ∧
      ∀ history outcome, (runSimpleUpdate host spec).run.Runs history outcome →
        Leaves history [] ∧ Reported host spec history outcome := by
  rcases (meets_runSimpleUpdate host spec).everyRun with ⟨always, atEnd⟩
  refine ⟨?_, atEnd⟩
  intro before candidate answer reaches
  rcases always before (.selfReplace candidate) answer reaches with
    ⟨latest, fromCargo, staged, isPath, replaceable⟩
  refine ⟨latest, fromCargo, staged, isPath, replaceable, replaceable.precedes, ?_⟩
  rintro name rfl detects
  exact replaceable.unpublished detects

end Evidence

end Gregg.Update

import Gregg.Update.Candidate

/-!
# Evidence for a candidate

What has happened when an update has a candidate to use: the exact commands and file operations,
with the answers that made it acceptable. Everything else ends in an error. Besides, the private
directories that are made on the way are gone at the end, but for the one of the candidate.
-/

namespace Gregg.Update

open Script

section Staging

def RESTART_UNIT : List String := ["restart", "greggd"]

/-- An action that changes neither the executable nor a daemon. -/
def Action.IsQuiet : Action → Prop
  | .systemctl arguments => arguments ≠ RESTART_UNIT
  | .selfReplace _ | .sendStop _ | .spawnDaemon _ _ _ | .killChild | .stopClientDaemon
  | .startClientDaemon => False
  | _ => True

/-- An action that takes no part in staging. -/
def Action.IsUnstaged : Action → Prop
  | .createTempDir _ | .removeDir _ => False
  | _ => True

/-- A quiet action that takes no part in staging. -/
def Action.IsPlain : Action → Prop
  | .createTempDir _ | .removeDir _ => False
  | action => action.IsQuiet

theorem Action.IsPlain.isQuiet {action : Action} (isPlain : action.IsPlain) : action.IsQuiet := by
  cases action <;> first | exact isPlain | trivial

theorem Action.IsPlain.isUnstaged {action : Action} (isPlain : action.IsPlain) :
    action.IsUnstaged := by
  cases action <;> trivial

theorem isQuiet_of_isPlain {trace : List Entry} (isPlain : ∀ entry ∈ trace, entry.1.IsPlain) :
    ∀ entry ∈ trace, entry.1.IsQuiet :=
  fun entry isMember => (isPlain entry isMember).isQuiet

/-- The directory an entry makes. -/
def createdDir : Entry → Option OsPath
  | ⟨.createTempDir _, .ok dir⟩ => some dir
  | _ => none

/-- The directory an entry removes. -/
def removedDir : Entry → Option OsPath
  | ⟨.removeDir dir, _⟩ => some dir
  | _ => none

/-- The directories that were made and not removed. -/
def Leaves (trace : List Entry) (left : List OsPath) : Prop :=
  (trace.filterMap createdDir).Perm (trace.filterMap removedDir ++ left)

theorem leaves_nil : Leaves [] [] :=
  .refl _

theorem Leaves.append {before after : List Entry} {left more : List OsPath}
    (first : Leaves before left) (second : Leaves after more) :
    Leaves (before ++ after) (left ++ more) := by
  rw [Leaves, List.filterMap_append, List.filterMap_append]
  apply (List.Perm.append first second).trans
  rw [List.append_assoc, List.append_assoc]
  apply List.Perm.append_left
  rw [← List.append_assoc, ← List.append_assoc]
  exact List.perm_append_comm.append_right _

theorem leaves_of_isUnstaged {trace : List Entry}
    (isUnstaged : ∀ entry ∈ trace, entry.1.IsUnstaged) : Leaves trace [] := by
  have madeNone : trace.filterMap createdDir = [] := by
    rw [List.filterMap_eq_nil_iff]
    rintro ⟨action, answer⟩ isMember
    have unstaged := isUnstaged _ isMember
    cases action <;> first | rfl | cases unstaged
  have removedNone : trace.filterMap removedDir = [] := by
    rw [List.filterMap_eq_nil_iff]
    rintro ⟨action, answer⟩ isMember
    have unstaged := isUnstaged _ isMember
    cases action <;> first | rfl | cases unstaged
  rw [Leaves, madeNone, removedNone]
  exact .refl _

theorem leaves_of_isPlain {trace : List Entry} (isPlain : ∀ entry ∈ trace, entry.1.IsPlain) :
    Leaves trace [] :=
  leaves_of_isUnstaged fun entry isMember => (isPlain entry isMember).isUnstaged

theorem leaves_created (label : String) (dir : OsPath) :
    Leaves [⟨.createTempDir label, .ok dir⟩] [dir] :=
  .refl _

/-- A directory that is removed is no longer left. -/
theorem Leaves.removed {trace : List Entry} {dir : OsPath} {left : List OsPath}
    (leaves : Leaves trace (dir :: left)) : Leaves (trace ++ [⟨.removeDir dir, ()⟩]) left := by
  rw [Leaves, List.filterMap_append, List.filterMap_append]
  have none : [(⟨.removeDir dir, ()⟩ : Entry)].filterMap createdDir = [] := rfl
  have some : [(⟨.removeDir dir, ()⟩ : Entry)].filterMap removedDir = [dir] := rfl
  rw [none, some, List.append_nil, List.append_assoc]
  exact leaves

end Staging

section Children

theorem does_runChild {may : Action → Prop} {command : Command}
    {spec : List Entry → Except IoError Output → Prop} :
    (runChild command).Does may spec ↔
      may (.run command) ∧
        ∀ answer, spec [⟨.run command, answer⟩] (answer.bind (withinBounds command)) := by
  rw [runChild, does_bind]
  exact Iff.rfl

/-- What is within the bounds is as the child gave it. -/
theorem eq_ok_of_withinBounds {command : Command} {answer : Except IoError Output}
    {output : Output} (within : answer.bind (withinBounds command) = .ok output) :
    answer = .ok output := by
  cases answer with
  | error error => cases within
  | ok given =>
      simp only [Except.bind, withinBounds] at within
      split at within
      · exact within
      · split at within
        · cases within
        · exact within

theorem tries_discoverTool {missing : UpdateError} (tools : List String) :
    Tries Action.IsPlain (discoverTool missing tools) (fun _ _ => True) fun _ _ => True := by
  induction tools with
  | nil => exact tries_throw.mpr trivial
  | cons tool tools next =>
      rw [discoverTool, tries_bind, tries_lift, does_runChild]
      refine ⟨trivial, ?_⟩
      intro answer
      cases answer.bind (withinBounds (versionProbe tool)) with
      | error error => exact next
      | ok status =>
          dsimp only
          split
          · exact tries_pure.mpr trivial
          · exact next

end Children

section Lookup

/-- The newest version, as the metadata of the crate give it. -/
inductive LookedUp (host : Host) (spec : UpdateSpec) (latest : String) : List Entry → Prop where
  | mk {curl : String} {discovery : List Entry} {output : Output}
      (exits : output.success = true)
      (gives : parseStableVersionResponse host output.stdout = .ok latest) :
      LookedUp host spec latest (discovery ++
        [⟨.run (captureCommand curl
          (lookupArguments spec.crateName spec.programName spec.currentVersion)), .ok output⟩])

theorem does_runCurlCapture {curl : String} {arguments : List String} :
    (runCurlCapture curl arguments).Does Action.IsPlain fun trace outcome =>
      ∀ stdout, outcome = .ok stdout →
        ∃ output : Output, output.success = true ∧ output.stdout = stdout ∧
          trace = [⟨.run (captureCommand curl arguments), .ok output⟩] := by
  rw [runCurlCapture, does_bind, does_runChild]
  refine ⟨trivial, ?_⟩
  intro answer
  rw [does_pure, List.append_nil]
  intro stdout gives
  cases within : answer.bind (withinBounds (captureCommand curl arguments)) with
  | error error =>
      rw [within] at gives
      cases gives
  | ok output =>
      rw [within, captured] at gives
      split at gives
      · rename_i exits
        cases gives
        exact ⟨output, exits, rfl, by rw [eq_ok_of_withinBounds within]⟩
      · cases gives

theorem tries_fetchLatestStableVersion (host : Host) (spec : UpdateSpec) :
    Tries Action.IsPlain (fetchLatestStableVersion host spec) (fun _ _ => True)
      fun trace latest => LookedUp host spec latest trace := by
  rw [fetchLatestStableVersion]
  split
  · exact tries_throw.mpr trivial
  · rw [tries_bind]
    refine (tries_discoverTool _).imp (fun _ isPlain => isPlain) (fun _ _ _ _ => trivial) ?_
    intro discovery curl _ _
    rw [tries_bind, tries_mapErr]
    refine does_runCurlCapture.imp (fun _ isPlain => isPlain) ?_
    intro trace outcome captures
    cases outcome with
    | error error => trivial
    | ok stdout =>
        rcases captures stdout rfl with ⟨output, exits, rfl, rfl⟩
        dsimp only [Settled]
        split
        · rename_i latest gives
          rw [tries_pure, List.append_nil]
          exact .mk exits gives
        · exact tries_throw.mpr trivial

theorem tries_resolvePlan (host : Host) (spec : UpdateSpec) :
    Tries Action.IsPlain (resolvePlan host spec) (fun _ _ => True) fun trace plan =>
      ∃ latest, LookedUp host spec latest trace ∧
        ((isUpdateAvailable spec.currentVersion.toList latest.toList = some false ∧
            plan = .alreadyCurrent spec.currentVersion) ∨
          (isUpdateAvailable spec.currentVersion.toList latest.toList = some true ∧
            plan = .available spec.currentVersion latest
              (detectTargetFor host.os host.arch))) := by
  rw [resolvePlan, tries_bind]
  refine (tries_fetchLatestStableVersion host spec).imp (fun _ isPlain => isPlain)
    (fun _ _ _ _ => trivial) ?_
  intro trace latest _ lookedUp
  simp only [isUpdateAvailable]
  split
  · exact tries_throw.mpr trivial
  · rename_i ordering compares
    split
    · rename_i notLess
      rw [tries_pure, List.append_nil]
      refine ⟨latest, lookedUp, .inl ⟨?_, rfl⟩⟩
      simpa [compares] using notLess
    · rename_i less
      rw [tries_pure, List.append_nil]
      refine ⟨latest, lookedUp, .inr ⟨?_, rfl⟩⟩
      simpa [compares] using less

end Lookup

section Downloads

/-- A download that is there: the command succeeded, said so with a status of success, and what
there is of the file is within the bound. -/
inductive Downloaded (curl url : String) (dest : OsPath) : List Entry → Prop where
  | mk {output : Output} {code size : ℕ} (exits : output.success = true)
      (reads : parseU16 (statusLine output) = some code) (low : 200 ≤ code) (high : code < 300)
      (fits : size ≤ MAX_DOWNLOAD_BYTES) :
      Downloaded curl url dest
        [⟨.run (downloadCommand curl url dest), .ok output⟩, ⟨.fileLen dest, .ok size⟩]

/-- A download that is not published: the status is `404`. -/
inductive Absent (curl url : String) (dest : OsPath) : List Entry → Prop where
  | mk {output : Output}
      (notFound : output.success = true ∧ parseU16 (statusLine output) = some 404 ∨
        output.success = false ∧ statusLine output = "404".toList) :
      Absent curl url dest
        [⟨.run (downloadCommand curl url dest), .ok output⟩, ⟨.removeFile dest, ()⟩]

def DownloadEnds (curl url : String) (dest : OsPath) (trace : List Entry) :
    DownloadOutcome → Prop
  | .success => Downloaded curl url dest trace
  | .notFound => Absent curl url dest trace
  | .failed _ => True

theorem does_discard {may : Action → Prop} {dest : OsPath} {outcome : DownloadOutcome}
    {spec : List Entry → DownloadOutcome → Prop} :
    (discard dest outcome).Does may spec ↔
      may (.removeFile dest) ∧ spec [⟨.removeFile dest, ()⟩] outcome := by
  rw [discard, does_bind, perform, does_perform]
  exact and_congr_right fun _ => ⟨fun holds => holds (), fun holds _ => holds⟩

theorem does_downloadFile {host : Host} {curl url : String} {dest : OsPath} :
    (downloadFile host curl url dest).Does Action.IsPlain
      (DownloadEnds curl url dest) := by
  rw [downloadFile, does_bind, does_runChild]
  refine ⟨trivial, ?_⟩
  intro answer
  cases within : answer.bind (withinBounds (downloadCommand curl url dest)) with
  | error error => exact does_discard.mpr ⟨trivial, trivial⟩
  | ok output =>
      rw [eq_ok_of_withinBounds within]
      dsimp only
      split
      · rename_i exits
        split
        · rename_i code reads
          split
          · rename_i inRange
            rw [downloadedAssetWithinCap, does_bind, perform, does_perform]
            refine ⟨trivial, ?_⟩
            intro size
            cases size with
            | error error => exact does_discard.mpr ⟨trivial, trivial⟩
            | ok size =>
                dsimp only
                split
                · rename_i fits
                  exact does_pure.mpr (.mk exits reads inRange.1 inRange.2 fits)
                · exact does_discard.mpr ⟨trivial, trivial⟩
          · split
            · rename_i isMissing
              rw [isMissing] at reads
              exact does_discard.mpr ⟨trivial, .mk (.inl ⟨exits, reads⟩)⟩
            · exact does_discard.mpr ⟨trivial, trivial⟩
        · exact does_discard.mpr ⟨trivial, trivial⟩
      · rename_i fails
        split
        · rename_i isMissing
          exact does_discard.mpr
            ⟨trivial, .mk (.inr ⟨Bool.eq_false_iff.mpr fails, isMissing⟩)⟩
        · exact does_discard.mpr ⟨trivial, trivial⟩

end Downloads

section Verification

/-- A file whose digest is the one that was published: the first word of a short text. -/
inductive ChecksumPassed (host : Host) (file shaFile : OsPath) : List Entry → Prop where
  | mk {size : ℕ} {content : List Char} {bytes : List UInt8}
      (fits : size ≤ MAX_CHECKSUM_FILE_BYTES) (short : byteLen content ≤ MAX_CHECKSUM_FILE_BYTES)
      (agrees : publishedDigest host content = .ok (hexDigest (host.sha256 bytes))) :
      ChecksumPassed host file shaFile
        [⟨.fileLen shaFile, .ok size⟩,
          ⟨.readText shaFile (MAX_CHECKSUM_FILE_BYTES + 1), .ok content⟩,
          ⟨.openFile file, .ok ()⟩, ⟨.readBytes file, .ok bytes⟩]

/-- A candidate that was asked, and that said what it is to say. -/
inductive IdentityPassed (candidate : OsPath) (program version : String) : List Entry → Prop where
  | mk {size : ℕ} {output : Output} (large : 1024 ≤ size) (exits : output.success = true)
      (reports : ∃ ending ∈ LINE_ENDINGS,
        Utf8.fromUtf8Lossy output.stdout = identityLine program version ++ ending) :
      IdentityPassed candidate program version
        [⟨.fileLen candidate, .ok size⟩, ⟨.setMode candidate 0o755, .ok ()⟩,
          ⟨.run (identityCommand candidate), .ok output⟩]

theorem tries_parseChecksumFile (host : Host) (path : OsPath) :
    Tries Action.IsPlain (parseChecksumFile host path) (fun _ _ => True) fun trace digest =>
      ∃ size content, size ≤ MAX_CHECKSUM_FILE_BYTES ∧ byteLen content ≤ MAX_CHECKSUM_FILE_BYTES ∧
        publishedDigest host content = .ok digest ∧
        trace = [⟨.fileLen path, .ok size⟩,
          ⟨.readText path (MAX_CHECKSUM_FILE_BYTES + 1), .ok content⟩] := by
  rw [parseChecksumFile, tries_bind, tries_mapErr, perform, does_perform]
  refine ⟨trivial, ?_⟩
  intro size
  cases size with
  | error error => trivial
  | ok size =>
      dsimp only [Settled]
      split
      · exact tries_throw.mpr trivial
      · rename_i fits
        rw [tries_bind, tries_mapErr, perform, does_perform]
        refine ⟨trivial, ?_⟩
        intro content
        cases content with
        | error error => trivial
        | ok content =>
            dsimp only [Settled]
            split
            · exact tries_throw.mpr trivial
            · rename_i short
              split
              · rename_i digest published
                rw [tries_pure]
                exact ⟨size, content, Nat.le_of_not_lt fits, Nat.le_of_not_lt short, published, rfl⟩
              · exact tries_throw.mpr trivial

theorem tries_computeSha256 (host : Host) (path : OsPath) :
    Tries Action.IsPlain (computeSha256 host path) (fun _ _ => True) fun trace digest =>
      ∃ bytes, digest = hexDigest (host.sha256 bytes) ∧
        trace = [⟨.openFile path, .ok ()⟩, ⟨.readBytes path, .ok bytes⟩] := by
  rw [computeSha256, tries_bind, tries_mapErr, perform, does_perform]
  refine ⟨trivial, ?_⟩
  intro opened
  cases opened with
  | error error => trivial
  | ok opened =>
      dsimp only [Settled]
      rw [tries_bind, tries_mapErr, perform, does_perform]
      refine ⟨trivial, ?_⟩
      intro bytes
      cases bytes with
      | error error => trivial
      | ok bytes => exact tries_pure.mpr ⟨bytes, rfl, rfl⟩

theorem tries_verifyChecksum (host : Host) (file shaFile : OsPath) :
    Tries Action.IsPlain (verifyChecksum host file shaFile) (fun _ _ => True)
      fun trace _ => ChecksumPassed host file shaFile trace := by
  rw [verifyChecksum, tries_bind]
  refine (tries_parseChecksumFile host shaFile).imp (fun _ isPlain => isPlain)
    (fun _ _ _ _ => trivial) ?_
  rintro _ digest _ ⟨size, content, fits, short, published, rfl⟩
  rw [tries_bind]
  refine (tries_computeSha256 host file).imp (fun _ isPlain => isPlain)
    (fun _ _ _ _ => trivial) ?_
  rintro _ actual _ ⟨bytes, rfl, rfl⟩
  split
  · exact tries_throw.mpr trivial
  · rename_i agrees
    rw [tries_pure]
    rw [Decidable.not_not.mp agrees] at published
    exact .mk fits short published

theorem tries_validateCandidate (host : Host) (candidate : OsPath) (program version : String) :
    Tries Action.IsPlain (validateCandidate host candidate program version) (fun _ _ => True)
      fun trace _ => IdentityPassed candidate program version trace := by
  rw [validateCandidate, tries_bind, tries_mapErr, perform, does_perform]
  refine ⟨trivial, ?_⟩
  intro size
  cases size with
  | error error => trivial
  | ok size =>
      dsimp only [Settled]
      split
      · exact tries_throw.mpr trivial
      · rename_i large
        rw [tries_bind, tries_mapErr, perform, does_perform]
        refine ⟨trivial, ?_⟩
        intro marked
        cases marked with
        | error error => trivial
        | ok marked =>
            dsimp only [Settled]
            rw [tries_bind, tries_mapErr, does_runChild]
            refine ⟨trivial, ?_⟩
            intro answer
            cases within : answer.bind (withinBounds (identityCommand candidate)) with
            | error error => trivial
            | ok output =>
                rw [eq_ok_of_withinBounds within]
                dsimp only [Settled]
                split
                · exact tries_throw.mpr trivial
                · rename_i exits
                  split
                  · exact tries_throw.mpr trivial
                  · rename_i reports
                    rw [tries_pure]
                    exact .mk (Nat.le_of_not_lt large) (by simpa using exits)
                      (exists_of_candidateOutputMatches (by simpa using reports))

end Verification

section Preparation

/-- A build that succeeded, and left the executable where it was told to. -/
inductive Built (program version : String) (tempRoot : OsPath) : List Entry → Prop where
  | mk {cargo : String} {output : Output} (exits : output.success = true) :
      Built program version tempRoot
        [⟨.createDirAll (fileIn tempRoot "cargo-root"), .ok ()⟩,
          ⟨.run (cargoCommand cargo program version (fileIn tempRoot "cargo-root")), .ok output⟩,
          ⟨.isFile (fileIn (fileIn (fileIn tempRoot "cargo-root") "bin") program), true⟩]

theorem does_removeDir {dir : OsPath} {spec : List Entry → Unit → Prop} :
    (perform (.removeDir dir)).Does Action.IsQuiet spec ↔ spec [⟨.removeDir dir, ()⟩] () := by
  rw [perform, does_perform]
  exact ⟨fun does => does.2 (), fun holds => ⟨trivial, fun _ => holds⟩⟩

theorem tries_createTempDir (label : String) :
    Tries Action.IsQuiet (createTempDir label) (fun trace _ => Leaves trace [])
      fun trace tempDir =>
        Leaves trace [tempDir] ∧
          trace = [⟨.createTempDir label, .ok tempDir⟩, ⟨.setMode tempDir 0o700, .ok ()⟩] := by
  rw [createTempDir, tries_bind, tries_mapErr, perform, does_perform]
  refine ⟨trivial, ?_⟩
  intro created
  cases created with
  | error error => exact leaves_nil
  | ok tempDir =>
      dsimp only [Settled]
      rw [tries_bind, tries_onError, tries_mapErr, perform, does_perform]
      refine ⟨trivial, ?_⟩
      have made : Leaves [⟨.createTempDir label, .ok tempDir⟩] [tempDir] :=
        leaves_created label tempDir
      intro secured
      cases secured with
      | error error =>
          apply does_removeDir.mpr
          have securing : Leaves [⟨.setMode tempDir 0o700, .error error⟩] [] := .refl _
          exact Leaves.removed (made.append securing)
      | ok secured =>
          rw [Settled, tries_pure]
          refine ⟨?_, rfl⟩
          have securing : Leaves [⟨.setMode tempDir 0o700, .ok secured⟩] [] := .refl _
          exact made.append securing

theorem tries_buildIn (host : Host) (cargo program version : String) (tempRoot : OsPath) :
    Tries Action.IsPlain (buildIn host cargo program version tempRoot) (fun _ _ => True)
      fun trace staged =>
        staged = ⟨tempRoot, fileIn (fileIn (fileIn tempRoot "cargo-root") "bin") program⟩ ∧
          ∃ build identity, Built program version tempRoot build ∧
            IdentityPassed staged.path program version identity ∧ trace = build ++ identity := by
  rw [buildIn]
  dsimp only
  rw [tries_bind, tries_mapErr, perform, does_perform]
  refine ⟨trivial, ?_⟩
  intro made
  cases made with
  | error error => trivial
  | ok made =>
      dsimp only [Settled]
      rw [tries_bind, tries_mapErr, does_runChild]
      refine ⟨trivial, ?_⟩
      intro answer
      cases within : answer.bind (withinBounds
          (cargoCommand cargo program version (fileIn tempRoot "cargo-root"))) with
      | error error => trivial
      | ok output =>
          rw [eq_ok_of_withinBounds within]
          dsimp only [Settled]
          split
          · exact tries_throw.mpr trivial
          · rename_i exits
            rw [tries_bind, tries_lift, perform, does_perform]
            refine ⟨trivial, ?_⟩
            intro isThere
            cases isThere with
            | false => exact tries_throw.mpr trivial
            | true =>
                simp only [Bool.not_true, Bool.false_eq_true, ↓reduceIte]
                rw [tries_bind]
                refine (tries_validateCandidate host _ program version).imp
                  (fun _ isPlain => isPlain) (fun _ _ _ _ => trivial) ?_
                intro identity _ _ passed
                rw [tries_pure]
                exact ⟨rfl, _, identity, @Built.mk _ _ _ cargo _ (by simpa using exits), passed,
                  by simp⟩

/-- A candidate that Cargo built, with all that happened before. -/
inductive CargoVerified (program version : String) (staged : StagedCandidate) :
    List Entry → Prop where
  | mk {front build identity : List Entry} (built : Built program version staged.tempDir build)
      (passed : IdentityPassed staged.path program version identity) :
      CargoVerified program version staged (front ++ build ++ identity)

theorem tries_cargoFallback (host : Host) (program version : String) :
    Tries Action.IsQuiet (cargoFallback host program version) (fun trace _ => Leaves trace [])
      fun trace staged =>
        Leaves trace [staged.tempDir] ∧ CargoVerified program version staged trace := by
  rw [cargoFallback, tries_bind]
  refine (tries_discoverTool _).imp (fun _ isPlain => isPlain.isQuiet)
    (fun _ _ isPlain _ => leaves_of_isPlain isPlain) ?_
  intro discovery cargo isPlain _
  have nothing := leaves_of_isPlain isPlain
  rw [tries_bind]
  refine (tries_createTempDir _).imp (fun _ isQuiet => isQuiet)
    (fun _ _ _ leaves => nothing.append leaves) ?_
  rintro _ tempRoot - ⟨made, rfl⟩
  rw [tries_onError]
  refine (tries_buildIn host cargo program version tempRoot).imp
    (fun _ isPlain => isPlain.isQuiet) ?_ ?_
  · intro trace failure isPlain _
    apply does_removeDir.mpr
    have left := (nothing.append (made.append (leaves_of_isPlain isPlain))).removed
    rwa [List.append_assoc, List.append_assoc] at left
  · rintro trace staged isPlain ⟨rfl, build, identity, built, passed, rfl⟩
    refine ⟨nothing.append (made.append (leaves_of_isPlain isPlain)), ?_⟩
    rw [← List.append_assoc, ← List.append_assoc]
    exact .mk built passed

/-- The asset for a target with its checksum, downloaded into a directory and verified there. -/
inductive AssetVerified (host : Host) (program latest target : String) (tempDir : OsPath) :
    List Entry → Prop where
  | mk {curl : String} {front asset sha checksum identity : List Entry}
      (assetIsThere : Downloaded curl (githubUrls program target latest).1
        (fileIn tempDir (assetName program target)) asset)
      (shaIsThere : Downloaded curl (githubUrls program target latest).2
        (fileIn tempDir s!"{assetName program target}.sha256") sha)
      (agrees : ChecksumPassed host (fileIn tempDir (assetName program target))
        (fileIn tempDir s!"{assetName program target}.sha256") checksum)
      (passed : IdentityPassed (fileIn tempDir (assetName program target)) program latest
        identity) :
      AssetVerified host program latest target tempDir
        (front ++ asset ++ sha ++ checksum ++ identity)

/-- A candidate that may be used, whether it was built here, and all that was done for it. -/
inductive Verified (host : Host) (program latest : String) (target : Option String) :
    Bool → StagedCandidate → List Entry → Prop where
  | binary {name : String} {tempDir : OsPath} {trace : List Entry}
      (supported : target.filter isSupportedBinaryTarget = some name)
      (verified : AssetVerified host program latest name tempDir trace) :
      Verified host program latest target false
        ⟨tempDir, fileIn tempDir (assetName program name)⟩ trace
  | unsupported {staged : StagedCandidate} {trace : List Entry}
      (supported : target.filter isSupportedBinaryTarget = none)
      (verified : CargoVerified program latest staged trace) :
      Verified host program latest target true staged trace
  /-- Cargo steps in for a supported target only where the asset is not published. -/
  | unpublished {name curl : String} {tempDir : OsPath} {staged : StagedCandidate}
      {front absent trace : List Entry}
      (supported : target.filter isSupportedBinaryTarget = some name)
      (isAbsent : Absent curl (githubUrls program name latest).1
        (fileIn tempDir (assetName program name)) absent)
      (verified : CargoVerified program latest staged trace) :
      Verified host program latest target true staged
        (front ++ absent ++ trace ++ [⟨.removeDir tempDir, ()⟩])

theorem tries_verifyAsset (host : Host) (curl program latest shaUrl : String)
    (tempDir assetPath shaPath : OsPath) :
    Tries Action.IsPlain (verifyAsset host curl program latest shaUrl tempDir assetPath shaPath)
      (fun _ _ => True) fun trace prepared =>
        prepared = (false, ⟨tempDir, assetPath⟩) ∧
          ∃ sha checksum identity, Downloaded curl shaUrl shaPath sha ∧
            ChecksumPassed host assetPath shaPath checksum ∧
            IdentityPassed assetPath program latest identity ∧
            trace = sha ++ checksum ++ identity := by
  rw [verifyAsset, tries_bind, tries_lift]
  refine does_downloadFile.imp (fun _ isPlain => isPlain) ?_
  intro sha outcome ends
  cases outcome with
  | failed reason => exact tries_throw.mpr trivial
  | notFound => exact tries_throw.mpr trivial
  | success =>
      dsimp only
      rw [tries_bind]
      refine (tries_verifyChecksum host assetPath shaPath).imp (fun _ isPlain => isPlain)
        (fun _ _ _ _ => trivial) ?_
      intro checksum _ _ agrees
      rw [tries_bind]
      refine (tries_validateCandidate host assetPath program latest).imp
        (fun _ isPlain => isPlain) (fun _ _ _ _ => trivial) ?_
      intro identity _ _ passed
      rw [tries_pure]
      exact ⟨rfl, sha, checksum, identity, ends, agrees, passed, by simp⟩

theorem tries_downloadCandidate (host : Host) (spec : UpdateSpec) (latest name : String)
    {target : Option String} (supported : target.filter isSupportedBinaryTarget = some name) :
    Tries Action.IsQuiet (downloadCandidate host spec latest name)
      (fun trace _ => Leaves trace []) fun trace prepared =>
        Leaves trace [prepared.2.tempDir] ∧
          Verified host spec.programName latest target prepared.1 prepared.2 trace := by
  rw [downloadCandidate]
  dsimp only
  rw [tries_bind]
  refine (tries_discoverTool _).imp (fun _ isPlain => isPlain.isQuiet)
    (fun _ _ isPlain _ => leaves_of_isPlain isPlain) ?_
  intro discovery curl discoveryIsPlain _
  have nothing := leaves_of_isPlain discoveryIsPlain
  rw [tries_bind]
  refine (tries_createTempDir _).imp (fun _ isQuiet => isQuiet)
    (fun _ _ _ leaves => nothing.append leaves) ?_
  rintro opening tempDir - ⟨made, -⟩
  rw [tries_bind, tries_lift]
  refine does_downloadFile.performed.imp (fun _ isPlain => isPlain.isQuiet) ?_
  rintro asset outcome ⟨assetIsPlain, ends⟩
  have started : Leaves (discovery ++ (opening ++ asset)) [tempDir] :=
    nothing.append (made.append (leaves_of_isPlain assetIsPlain))
  cases outcome with
  | failed reason =>
      apply tries_andThen.mpr
      apply tries_throw.mpr
      apply does_removeDir.mpr
      have left := started.removed
      simpa using left
  | success =>
      apply tries_onError.mpr
      refine (tries_verifyAsset host curl spec.programName latest _ tempDir _ _).imp
        (fun _ isPlain => isPlain.isQuiet) ?_ ?_
      · intro trace _ isPlain _
        apply does_removeDir.mpr
        have left := (started.append (leaves_of_isPlain isPlain)).removed
        simpa using left
      · rintro trace _ isPlain ⟨rfl, sha, checksum, identity, shaIsThere, agrees, passed, rfl⟩
        have left := started.append (leaves_of_isPlain isPlain)
        have verified : AssetVerified host spec.programName latest name tempDir
            (discovery ++ opening ++ asset ++ sha ++ checksum ++ identity) :=
          .mk ends shaIsThere agrees passed
        simp only [List.append_assoc] at left verified ⊢
        exact ⟨left, .binary supported verified⟩
  | notFound =>
      apply tries_andThen.mpr
      rw [tries_bind]
      refine (tries_cargoFallback host spec.programName latest).imp (fun _ isQuiet => isQuiet) ?_ ?_
      · intro trace _ _ leaves
        apply does_removeDir.mpr
        have left := (started.append leaves).removed
        simpa using left
      · rintro trace staged - ⟨leaves, verified⟩
        rw [tries_pure]
        apply does_removeDir.mpr
        have left := (started.append leaves).removed
        have all : Verified host spec.programName latest target true staged
            ((discovery ++ opening) ++ asset ++ trace ++ [⟨.removeDir tempDir, ()⟩]) :=
          .unpublished supported ends verified
        simp only [List.append_assoc, List.append_nil] at left all ⊢
        exact ⟨left, all⟩

/-- Whenever there is a candidate to use, it was verified, and its directory is all that is left;
otherwise nothing is. -/
theorem tries_prepareCandidate (host : Host) (spec : UpdateSpec) (latest : String)
    (target : Option String) :
    Tries Action.IsQuiet (prepareCandidate host spec latest target)
      (fun trace _ => Leaves trace []) fun trace prepared =>
        Leaves trace [prepared.2.tempDir] ∧
          Verified host spec.programName latest target prepared.1 prepared.2 trace := by
  cases supported : target.filter isSupportedBinaryTarget with
  | some name =>
      simp only [prepareCandidate, supported]
      exact tries_downloadCandidate host spec latest name supported
  | none =>
      simp only [prepareCandidate, supported]
      rw [tries_bind]
      refine (tries_cargoFallback host spec.programName latest).imp (fun _ isQuiet => isQuiet)
        (fun _ _ _ leaves => leaves) ?_
      rintro trace staged - ⟨leaves, verified⟩
      rw [tries_pure, List.append_nil]
      exact ⟨leaves, .unsupported supported verified⟩

end Preparation

end Gregg.Update

import Mathlib.Data.List.Infix
import Mathlib.Logic.Equiv.List
import Mathlib.Logic.Function.Basic
import Mathlib.Tactic.DeriveEncodable
import Gregg.ConfigFile.Reread

/-!
# Writing a configuration

A configuration goes to a temporary file, is read back and then renamed into its place. Temporary
files of interrupted writes are deleted first, and a configuration whose own name has their shape is
deleted with them.
-/

namespace Gregg.ConfigFile

/-- What stands at a name. -/
structure StoredFile where
  content : List Char
  isFile : Bool
  /-- Last written at least `STALE_TEMP_AGE` ago, by a clock that did not go back. -/
  stale : Bool
  deriving DecidableEq

/-- The directory of the configuration. -/
abbrev Directory := List Char → Option StoredFile

inductive WriteStep where
  | createDirectory
  | readDirectory
  | createTemp
  | secureTemp
  | write
  | flush
  | sync
  | reread
  | rename
  | syncParent
  deriving DecidableEq

/-- What `fs::remove_file` reports. -/
inductive Removal where
  | removed
  | notFound
  | permissionDenied
  | failed
  deriving DecidableEq

/-- What the operating system answers in one write. -/
structure WriteEnv where
  hasParent : Bool
  fails : WriteStep → Bool
  /-- The entries of the directory that have a name in UTF-8, `none` for one that is not read. -/
  listing : List (Option (List Char))
  fileTypeFails : List Char → Bool
  removal : List Char → Removal
  processId : ℕ
  uuid : List Char
  /-- What reaches the temporary file of what is written. -/
  reaches : List Char → List Char
  removesTemp : Bool

inductive WriteError where
  | validation (violations : List ConfigViolation)
  | noParentDirectory
  | serialization
  | cleanup
  | io (step : WriteStep)
  | unreadable (error : Option ConfigError)
  | differs
  deriving DecidableEq

/-- Whether a write that reports an error did not replace the configuration. -/
def WriteError.beforeRename : WriteError → Bool
  | .io .rename => false
  | .io .syncParent => false
  | _ => true

def isTempName (name : List Char) : Bool :=
  ".gregg-".toList.isPrefixOf name && ".toml.tmp".toList.isSuffixOf name

/-- Whether the cleanup deletes what stands at a name. -/
def isLeftOver (name : List Char) (file : StoredFile) : Bool :=
  isTempName name && file.isFile && file.stale

namespace WriteEnv

variable (env : WriteEnv)

def tempName : List Char :=
  ".gregg-".toList ++ (toString env.processId).toList ++ '-' :: env.uuid ++ ".toml.tmp".toList

/-- The loop of `cleanup_stale_temps`: whether it succeeds, and what it leaves. -/
def cleanEntries (dir : Directory) : List (Option (List Char)) → Bool × Directory
  | [] => (true, dir)
  | none :: _ => (false, dir)
  | some name :: rest =>
      if isTempName name then
        if env.fileTypeFails name then (false, dir)
        else
          match dir name with
          | none => cleanEntries dir rest
          | some file =>
              if isLeftOver name file then
                match env.removal name with
                | .removed => cleanEntries (Function.update dir name none) rest
                | .notFound => cleanEntries dir rest
                | .permissionDenied => cleanEntries dir rest
                | .failed => (false, dir)
              else cleanEntries dir rest
      else cleanEntries dir rest

/-- Report an error and delete the temporary file, which may fail. -/
def abandon (error : WriteError) (dir : Directory) : Option WriteError × Directory :=
  (some error, if env.removesTemp then Function.update dir env.tempName none else dir)

variable (ip : Fleet.IpSyntax) (codec : TomlCodec) (config : Config) (name : List Char)

/-- `write_atomic` from the temporary file on, after a text was made. -/
def replaceFile (content : List Char) (dir : Directory) : Option WriteError × Directory :=
  -- The file is opened with `create_new`, which refuses a name that is taken.
  if env.fails .createTemp || (dir env.tempName).isSome then (some (.io .createTemp), dir)
  else if env.fails .secureTemp then
    env.abandon (.io .secureTemp) (Function.update dir env.tempName (some ⟨[], true, false⟩))
  else
    let dir := Function.update dir env.tempName (some ⟨env.reaches content, true, false⟩)
    if env.fails .write then env.abandon (.io .write) dir
    else if env.fails .flush then env.abandon (.io .flush) dir
    else if env.fails .sync then env.abandon (.io .sync) dir
    else if env.fails .reread then env.abandon (.unreadable none) dir
    else
      match Config.parse ip codec (env.reaches content) with
      | .error error => env.abandon (.unreadable (some error)) dir
      | .ok verified =>
          if verified ≠ config then env.abandon .differs dir
          else if env.fails .rename then env.abandon (.io .rename) dir
          else
            let dir := Function.update (Function.update dir env.tempName none) name
              (dir env.tempName)
            if env.fails .syncParent then (some (.io .syncParent), dir) else (none, dir)

/-- `Config::write_atomic`: the error it returns, and what it leaves of the directory. -/
def writeAtomic (dir : Directory) : Option WriteError × Directory :=
  let violations := config.validate ip
  if !violations.isEmpty then (some (.validation violations), dir)
  else if !env.hasParent then (some .noParentDirectory, dir)
  else if env.fails .createDirectory then (some (.io .createDirectory), dir)
  else if env.fails .readDirectory then (some (.io .readDirectory), dir)
  else
    let (cleaned, dir) := env.cleanEntries dir env.listing
    if !cleaned then (some .cleanup, dir)
    else
      match codec.serialize config with
      | none => (some .serialization, dir)
      | some content => env.replaceFile ip codec config name content dir

/-- Every answer is the one of a system where nothing goes wrong. -/
structure Works (dir : Directory) : Prop where
  hasParent : env.hasParent = true
  succeeds : ∀ step, env.fails step = false
  listed : none ∉ env.listing
  hasFileType : ∀ name, env.fileTypeFails name = false
  removes : ∀ name, env.removal name ≠ .failed
  fresh : dir env.tempName = none
  reaches : ∀ content, env.reaches content = content

end WriteEnv

/-- Unless the write fails later than the rename, the previous file is still there. -/
def KeepsPrevious (name : List Char) (previous : StoredFile)
    (result : Option WriteError × Directory) : Prop :=
  ∀ error, result.1 = some error → error.beforeRename = true → result.2 name = some previous

/-- What a write of a configuration over a file promises. -/
structure WritesSafely (ip : Fleet.IpSyntax) (codec : TomlCodec) (config : Config)
    (dir : Directory) (name : List Char) (previous : StoredFile) : Prop where
  rereads : ∃ text, codec.serialize config = some text ∧ Config.parse ip codec text = .ok config
  succeeds : ∀ env : WriteEnv, env.Works dir →
    (env.writeAtomic ip codec config name dir).1 = none
  keepsPrevious : ∀ env : WriteEnv,
    KeepsPrevious name previous (env.writeAtomic ip codec config name dir)

section Cleanup

variable {env : WriteEnv} {dir after : Directory} {listing : List (Option (List Char))}

/-- The cleanup only deletes files, each with the shape of a temporary one. -/
theorem cleanEntries_cases (env : WriteEnv) (dir : Directory)
    (listing : List (Option (List Char))) (name : List Char) :
    (env.cleanEntries dir listing).2 name = dir name ∨
      (env.cleanEntries dir listing).2 name = none ∧
        ∃ file, dir name = some file ∧ isLeftOver name file = true := by
  induction listing generalizing dir with
  | nil => exact .inl rfl
  | cons entry rest ih =>
      cases entry with
      | none => exact .inl rfl
      | some listed =>
          rw [WriteEnv.cleanEntries]
          split
          · split
            · exact .inl rfl
            · split
              · exact ih dir
              · rename_i file stored
                split
                · rename_i leftOver
                  split
                  · rcases ih (Function.update dir listed none) with same | ⟨gone, deleted⟩
                    · by_cases here : name = listed
                      · subst here
                        rw [Function.update_self] at same
                        exact .inr ⟨same, file, stored, leftOver⟩
                      · rw [Function.update_of_ne here] at same
                        exact .inl same
                    · by_cases here : name = listed
                      · subst here
                        exact .inr ⟨gone, file, stored, leftOver⟩
                      · rw [Function.update_of_ne here] at deleted
                        exact .inr ⟨gone, deleted⟩
                  · exact ih dir
                  · exact ih dir
                  · exact .inl rfl
                · exact ih dir
          · exact ih dir

theorem cleanEntries_succeeds (listed : none ∉ listing)
    (hasFileType : ∀ name, env.fileTypeFails name = false)
    (removes : ∀ name, env.removal name ≠ .failed) (dir : Directory) :
    (env.cleanEntries dir listing).1 = true := by
  induction listing generalizing dir with
  | nil => rfl
  | cons entry rest ih =>
      rw [List.mem_cons, not_or] at listed
      cases entry with
      | none => exact absurd rfl listed.1
      | some name =>
          rw [WriteEnv.cleanEntries, hasFileType name]
          split
          · rw [if_neg Bool.false_ne_true]
            split
            · exact ih listed.2 dir
            · split
              · split
                · exact ih listed.2 _
                · exact ih listed.2 dir
                · exact ih listed.2 dir
                · rename_i failed
                  exact absurd failed (removes name)
              · exact ih listed.2 dir
          · exact ih listed.2 dir

end Cleanup

section Replacing

variable {env : WriteEnv} {ip : Fleet.IpSyntax} {codec : TomlCodec} {config : Config}
  {name content : List Char} {dir : Directory} {previous : StoredFile}

theorem keepsPrevious_abandon (different : name ≠ env.tempName) (error : WriteError)
    (stored : dir name = some previous) :
    KeepsPrevious name previous (env.abandon error dir) := by
  intro _ _ _
  simp only [WriteEnv.abandon]
  split
  · rw [Function.update_of_ne different, stored]
  · exact stored

/-- Before the rename only the temporary file is touched, which no other file can be. -/
theorem keepsPrevious_replaceFile (stored : dir name = some previous) :
    KeepsPrevious name previous (env.replaceFile ip codec config name content dir) := by
  rw [WriteEnv.replaceFile]
  split
  · intro _ _ _
    exact stored
  · rename_i opened
    have different : name ≠ env.tempName := by
      rintro rfl
      simp [stored] at opened
    have kept : ∀ file, Function.update dir env.tempName file name = some previous := by
      intro file
      rw [Function.update_of_ne different, stored]
    split
    · exact keepsPrevious_abandon different _ (kept _)
    · split
      · exact keepsPrevious_abandon different _ (kept _)
      · split
        · exact keepsPrevious_abandon different _ (kept _)
        · split
          · exact keepsPrevious_abandon different _ (kept _)
          · split
            · exact keepsPrevious_abandon different _ (kept _)
            · split
              · exact keepsPrevious_abandon different _ (kept _)
              · split
                · exact keepsPrevious_abandon different _ (kept _)
                · split
                  · exact keepsPrevious_abandon different _ (kept _)
                  · -- From here on the new file is in place.
                    intro error failed before
                    simp only at failed
                    split at failed
                    · cases failed
                      cases before
                    · cases failed

theorem replaceFile_succeeds (works : ∀ step, env.fails step = false)
    (fresh : dir env.tempName = none) (reaches : env.reaches content = content)
    (rereads : Config.parse ip codec content = .ok config) :
    (env.replaceFile ip codec config name content dir).1 = none := by
  simp [WriteEnv.replaceFile, works, fresh, reaches, rereads]

/-- A file that the cleanup leaves is kept. -/
theorem keepsPrevious_writeAtomic (stored : dir name = some previous)
    (kept : isLeftOver name previous = false) (env : WriteEnv) :
    KeepsPrevious name previous (env.writeAtomic ip codec config name dir) := by
  have unchanged : ∀ error, KeepsPrevious name previous (some error, dir) :=
    fun _ _ _ _ => stored
  have cleaned : (env.cleanEntries dir env.listing).2 name = some previous := by
    rcases cleanEntries_cases env dir env.listing name with same | ⟨-, file, isStored, leftOver⟩
    · rw [same, stored]
    · rw [stored] at isStored
      cases isStored
      rw [kept] at leftOver
      cases leftOver
  rw [WriteEnv.writeAtomic]
  split
  · exact unchanged _
  · split
    · exact unchanged _
    · split
      · exact unchanged _
      · split
        · exact unchanged _
        · generalize env.cleanEntries dir env.listing = result at cleaned ⊢
          rcases result with ⟨succeeded, after⟩
          simp only at cleaned ⊢
          split
          · intro _ _ _
            exact cleaned
          · split
            · intro _ _ _
              exact cleaned
            · exact keepsPrevious_replaceFile cleaned

/-- An answer of the system in which the configuration is deleted and nothing is written. -/
def WriteEnv.deletes (name : List Char) : WriteEnv where
  hasParent := true
  fails step := step = .createTemp
  listing := [some name]
  fileTypeFails _ := false
  removal _ := .removed
  processId := 1
  uuid := []
  reaches content := content
  removesTemp := true

theorem lost_of_isLeftOver (valid : config.validate ip = [])
    (serializes : (codec.serialize config).isSome = true) (stored : dir name = some previous)
    (leftOver : isLeftOver name previous = true) :
    ¬KeepsPrevious name previous
      ((WriteEnv.deletes name).writeAtomic ip codec config name dir) := by
  intro keeps
  rcases Option.isSome_iff_exists.mp serializes with ⟨content, isContent⟩
  have isTemp : isTempName name = true := by
    simp only [isLeftOver, Bool.and_eq_true] at leftOver
    exact leftOver.1.1
  have cleaned : (WriteEnv.deletes name).cleanEntries dir [some name] =
      (true, Function.update dir name none) := by
    simp [WriteEnv.cleanEntries, WriteEnv.deletes, isTemp, stored, leftOver]
  have written : (WriteEnv.deletes name).writeAtomic ip codec config name dir =
      (some (.io .createTemp), Function.update dir name none) := by
    have listing : (WriteEnv.deletes name).listing = [some name] := rfl
    have fails : ∀ step, (WriteEnv.deletes name).fails step = decide (step = .createTemp) :=
      fun _ => rfl
    have hasParent : (WriteEnv.deletes name).hasParent = true := rfl
    simp [WriteEnv.writeAtomic, WriteEnv.replaceFile, valid, hasParent, fails, listing, cleaned,
      isContent]
  rw [written] at keeps
  have present : Function.update dir name none name = some previous := keeps _ rfl rfl
  rw [Function.update_self] at present
  cases present

end Replacing

section Reachable

variable (ip : IpText) {urls : UrlSyntax} {codec : TomlCodec} {config : Config}
  {dir : Directory} {name : List Char} {previous : StoredFile}

/-- A reachable configuration is written, and until the rename nothing is lost, unless the file it
replaces is itself taken for the rest of an interrupted write. -/
theorem Reachable.writesSafely_iff (reachable : Reachable ip.toIpSyntax urls codec config)
    (stored : dir name = some previous) :
    WritesSafely ip.toIpSyntax codec config dir name previous ↔
      isLeftOver name previous = false := by
  rcases reachable.parse_serialize ip with ⟨text, isText, rereads⟩
  have valid := (reachable.normal_and_valid ip).2
  constructor
  · intro safe
    by_contra leftOver
    rw [Bool.not_eq_false] at leftOver
    exact lost_of_isLeftOver valid (by rw [isText]; rfl) stored leftOver (safe.keepsPrevious _)
  · intro kept
    refine ⟨⟨text, isText, rereads⟩, ?_, keepsPrevious_writeAtomic stored kept⟩
    intro env works
    have cleaned := cleanEntries_succeeds works.listed works.hasFileType works.removes dir
    have fresh : (env.cleanEntries dir env.listing).2 env.tempName = none := by
      rcases cleanEntries_cases env dir env.listing env.tempName with same | ⟨gone, -⟩
      · rw [same, works.fresh]
      · exact gone
    simp only [WriteEnv.writeAtomic, valid, works.hasParent, works.succeeds, cleaned, isText]
    exact replaceFile_succeeds works.succeeds fresh (works.reaches text) rereads

end Reachable

section Samples

local instance encodableUInt16 : Encodable UInt16 :=
  Encodable.ofLeftInjection UInt16.toNat (fun value => some (UInt16.ofNat value)) (by simp)

local instance encodableChar : Encodable Char :=
  Encodable.ofLeftInjection Char.toNat (fun value => some (Char.ofNat value)) (by simp)

local instance encodableString : Encodable String :=
  Encodable.ofLeftInjection String.toList (fun text => some (String.ofList text)) (by simp)

deriving instance Encodable for EggpoolScheme

deriving instance Encodable for EggpoolEntry

deriving instance Encodable for Clientd.SystemEntry

deriving instance Encodable for Fleet.CronConfig

deriving instance Encodable for Config

/-- A configuration file, by the lines about its systems. -/
def fileText (systems : List String) : List Char :=
  (["config_version = 1", "refresh_seconds = 5", "request_timeout_ms = 1500",
    "max_concurrent_requests = 16", "default_port = 11310"] ++ systems ++ ["", "[cron]",
    "display_history = 5", "cache_history = 25"]).flatMap fun line => line.toList ++ ['\n']

def defaultText : List Char :=
  fileText ["systems = []"]

/-- The default with a named system at an address with a zone. -/
def rack : Config :=
  { Config.default with systems := [⟨"1", "::1%25eth0", 11311, some "rack"⟩] }

def rackText : List Char :=
  fileText ["", "[[systems]]", "id = \"1\"", "host = \"::1%25eth0\"", "port = 11311",
    "name = \"rack\""]

/-- A codec that writes two configurations as their files hold them, and numbers every other. -/
def sampleCodec : TomlCodec where
  serialize config :=
    some (if config = Config.default then defaultText
      else if config = rack then rackText
      else '#' :: List.replicate (Encodable.encode config) '|')
  deserialize text :=
    if text = defaultText then some Config.default
    else if text = rackText then some rack
    else Encodable.decode (text.length - 1)
  serializes _ _ := rfl
  inverse := by
    intro config text serializes
    cases serializes
    have notNumber : ∀ text count, text.head? ≠ some '#' →
        '#' :: List.replicate count '|' ≠ text := by
      rintro text count other rfl
      exact other rfl
    by_cases isDefault : config = Config.default
    · rw [if_pos isDefault, if_pos rfl, isDefault]
    · rw [if_neg isDefault]
      by_cases isRack : config = rack
      · rw [if_pos isRack, if_neg (by decide +kernel), if_pos rfl, isRack]
      · rw [if_neg isRack, if_neg (notNumber _ _ (by decide +kernel)),
          if_neg (notNumber _ _ (by decide +kernel))]
        simp

/-- A directory with the default configuration at one name, long since written. -/
def oldDefault (name : List Char) : Directory :=
  fun other => if other = name then some ⟨defaultText, true, true⟩ else none

/-- The zone of the address is encoded when it is added, and the file is read back as it is. -/
theorem writesSafely_rack :
    Change.apply IpText.loopback.toIpSyntax (fun _ => none)
        (.add "rack@[::1%eth0]:11311".toList none false "1") Config.default = .ok rack ∧
      sampleCodec.serialize rack = some rackText ∧
      WritesSafely IpText.loopback.toIpSyntax sampleCodec rack (oldDefault "gregg.toml".toList)
        "gregg.toml".toList ⟨defaultText, true, true⟩ := by
  have applied : Change.apply IpText.loopback.toIpSyntax (fun _ => none)
      (.add "rack@[::1%eth0]:11311".toList none false "1") Config.default = .ok rack := rfl
  have reachable : Reachable IpText.loopback.toIpSyntax (fun _ => none) sampleCodec rack :=
    .changed Config.default rack _ .default applied (by decide +kernel)
  refine ⟨applied, by decide +kernel, ?_⟩
  exact (reachable.writesSafely_iff IpText.loopback (if_pos rfl)).mpr (by decide)

/-- The cleanup deletes the configuration itself, and then the write fails. -/
theorem configuration_is_cleaned_away :
    Reachable IpText.loopback.toIpSyntax (fun _ => none) sampleCodec Config.default ∧
      ¬WritesSafely IpText.loopback.toIpSyntax sampleCodec Config.default
        (oldDefault ".gregg-lab.toml.tmp".toList) ".gregg-lab.toml.tmp".toList
        ⟨defaultText, true, true⟩ := by
  refine ⟨.default, ?_⟩
  intro safe
  exact lost_of_isLeftOver rfl rfl (if_pos rfl) (by decide)
    (safe.keepsPrevious (.deletes ".gregg-lab.toml.tmp".toList))

end Samples

end Gregg.ConfigFile

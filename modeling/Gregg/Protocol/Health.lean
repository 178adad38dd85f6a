import Gregg.Lib.Json
import Gregg.Protocol.Scheduler
import Gregg.Protocol.Status

/-!
# The health documents

What a daemon answers about its readiness, in the two versions of the wire schema. A document is
built by one of seven constructors and checked again when it is read. Both versions have the same
envelope around a snapshot of their own.
-/

namespace Gregg.Protocol

open Json (byteLen optionalField)

def MAX_HEALTH_MESSAGE_BYTES : ℕ := 512

inductive ReadinessState where
  | ready
  | warming
  | failed
  deriving DecidableEq

inductive HealthCategory where
  | warming
  | collectorFailure
  | notServing
  deriving DecidableEq

/-- Whether a peer may pair a category with a state. -/
def categoryAllowed : ReadinessState → Option HealthCategory → Bool
  | .ready, category => category.isNone
  | .warming, category => category = some .warming
  | .failed, category => category = some .collectorFailure || category = some .notServing

def nul : Char := Char.ofNat 0

def messageViolation (message : List Char) : Option String :=
  if MAX_HEALTH_MESSAGE_BYTES < byteLen message then
    some "health message exceeds the protocol maximum"
  else if nul ∈ message then some "health message must not contain NUL characters"
  else none

/-- How a state is written. -/
def ReadinessState.name : ReadinessState → List Char
  | .ready => "ready".toList
  | .warming => "warming".toList
  | .failed => "failed".toList

def HealthCategory.name : HealthCategory → List Char
  | .warming => "warming".toList
  | .collectorFailure => "collector_failure".toList
  | .notServing => "not_serving".toList

section Message

/-- `str::is_char_boundary`. -/
def isCharBoundary : List Char → ℕ → Bool
  | _, 0 => true
  | [], _ + 1 => false
  | character :: rest, index + 1 =>
      character.utf8Size ≤ index + 1 && isCharBoundary rest (index + 1 - character.utf8Size)

/-- The characters before a boundary. -/
def sliceTo : List Char → ℕ → List Char
  | [], _ => []
  | character :: rest, stop =>
      if character.utf8Size ≤ stop then character :: sliceTo rest (stop - character.utf8Size)
      else []

/-- The loop that goes back to a boundary. -/
def boundaryFrom (text : List Char) : ℕ → ℕ
  | 0 => 0
  | stop + 1 => if isCharBoundary text (stop + 1) then stop + 1 else boundaryFrom text stop

def replaceNul (character : Char) : Char :=
  if character = nul then Utf8.replacement else character

/-- Clamp a message into the bounds of the wire. -/
def sanitizeHealthMessage (message : List Char) : List Char :=
  let cleaned := message.map replaceNul
  if byteLen cleaned ≤ MAX_HEALTH_MESSAGE_BYTES then cleaned
  else sliceTo cleaned (boundaryFrom cleaned MAX_HEALTH_MESSAGE_BYTES)

end Message

section Messages

variable {text message : List Char} {stop : ℕ}

theorem isCharBoundary_boundaryFrom : isCharBoundary text (boundaryFrom text stop) = true := by
  induction stop with
  | zero => cases text <;> rfl
  | succ stop ih =>
      rw [boundaryFrom]
      split
      · assumption
      · exact ih

theorem boundaryFrom_le : boundaryFrom text stop ≤ stop := by
  induction stop with
  | zero => exact Nat.le_refl _
  | succ stop ih =>
      rw [boundaryFrom]
      split
      · exact Nat.le_refl _
      · exact Nat.le_succ_of_le ih

/-- A slice up to a boundary has exactly the bytes before it. -/
theorem byteLen_sliceTo (isBoundary : isCharBoundary text stop = true) :
    byteLen (sliceTo text stop) = stop := by
  induction text generalizing stop with
  | nil =>
      cases stop with
      | zero => rfl
      | succ stop => cases isBoundary
  | cons character rest ih =>
      have positive := character.utf8Size_pos
      cases stop with
      | zero =>
          rw [sliceTo, if_neg (by omega)]
          rfl
      | succ stop =>
          rw [isCharBoundary, Bool.and_eq_true, decide_eq_true_eq] at isBoundary
          rw [sliceTo, if_pos isBoundary.1, Json.byteLen_cons, ih isBoundary.2]
          omega

theorem isPrefix_sliceTo : sliceTo text stop <+: text := by
  induction text generalizing stop with
  | nil => exact List.nil_prefix
  | cons character rest ih =>
      rw [sliceTo]
      split
      · exact (List.prefix_cons_inj character).mpr ih
      · exact List.nil_prefix

theorem isPrefix_sanitizeHealthMessage :
    sanitizeHealthMessage message <+: message.map replaceNul := by
  simp only [sanitizeHealthMessage]
  split
  · exact List.prefix_rfl
  · exact isPrefix_sliceTo

theorem nul_not_mem_replaced : nul ∉ message.map replaceNul := by
  intro isNul
  rcases List.mem_map.mp isNul with ⟨character, -, isReplaced⟩
  rw [replaceNul] at isReplaced
  split at isReplaced
  · exact absurd isReplaced (by decide)
  · rename_i isOther
    exact isOther isReplaced

theorem byteLen_sanitizeHealthMessage_le :
    byteLen (sanitizeHealthMessage message) ≤ MAX_HEALTH_MESSAGE_BYTES := by
  simp only [sanitizeHealthMessage]
  split
  · assumption
  · rw [byteLen_sliceTo isCharBoundary_boundaryFrom]
    exact boundaryFrom_le

theorem messageViolation_eq_none_iff :
    messageViolation message = none ↔
      byteLen message ≤ MAX_HEALTH_MESSAGE_BYTES ∧ nul ∉ message := by
  rw [messageViolation]
  split
  · rename_i exceeds
    exact iff_of_false (Option.some_ne_none _) fun fits => Nat.not_lt.mpr fits.1 exceeds
  · rename_i fits
    split
    · rename_i hasNul
      exact iff_of_false (Option.some_ne_none _) fun isFine => isFine.2 hasNul
    · rename_i noNul
      exact iff_of_true rfl ⟨Nat.le_of_not_lt fits, noNul⟩

theorem messageViolation_sanitizeHealthMessage :
    messageViolation (sanitizeHealthMessage message) = none :=
  messageViolation_eq_none_iff.mpr ⟨byteLen_sanitizeHealthMessage_le, fun isNul =>
    nul_not_mem_replaced (isPrefix_sanitizeHealthMessage.mem isNul)⟩

theorem map_replaceNul (noNul : nul ∉ message) : message.map replaceNul = message := by
  refine (List.map_congr_left fun character isIn => ?_).trans (List.map_id message)
  rw [replaceNul, if_neg]
  · rfl
  · rintro rfl
    exact noNul isIn

end Messages

/-- A health response around a snapshot of either version. -/
structure HealthDocument (Snapshot : Type) where
  schemaVersion : ℕ
  state : ReadinessState
  category : Option HealthCategory
  message : Option (List Char)
  snapshot : Option Snapshot

/-- A snapshot as the derived routines write and read it. It is written as an object, and a
validated one is read back. -/
structure SnapshotCodec (Snapshot : Type) where
  validate : Snapshot → Bool
  toJson : Snapshot → Json
  fromJson : Json → Option Snapshot
  toJson_ne_null : ∀ snapshot, toJson snapshot ≠ .null
  fromJson_toJson : ∀ snapshot, validate snapshot = true →
    fromJson (toJson snapshot) = some snapshot

/-- A call of one of the constructors. -/
inductive HealthCall (Snapshot : Type) where
  | ready (snapshot : Snapshot)
  | tryReady (snapshot : Snapshot)
  | warming
  | warmingWithMessage (message : List Char)
  | tryWarmingWithMessage (message : List Char)
  | failed (category : HealthCategory) (message : List Char)
  | tryFailed (category : HealthCategory) (message : List Char)

namespace HealthDocument

variable {Snapshot : Type} (version : ℕ) (codec : SnapshotCodec Snapshot)

section Constructors

def ready (snapshot : Snapshot) : HealthDocument Snapshot where
  schemaVersion := version
  state := .ready
  category := none
  message := none
  snapshot := some snapshot

def tryReady (snapshot : Snapshot) : Option (HealthDocument Snapshot) :=
  if codec.validate snapshot then some (ready version snapshot) else none

def warmingWithMessage (message : List Char) : HealthDocument Snapshot where
  schemaVersion := version
  state := .warming
  category := some .warming
  message := some (sanitizeHealthMessage message)
  snapshot := none

def warming : HealthDocument Snapshot :=
  warmingWithMessage version "collector warming up".toList

def tryWarmingWithMessage (message : List Char) : Except String (HealthDocument Snapshot) :=
  match messageViolation message with
  | some reason => .error reason
  | none => .ok
      { schemaVersion := version, state := .warming, category := some .warming
        message := some message, snapshot := none }

def failed (category : HealthCategory) (message : List Char) : HealthDocument Snapshot where
  schemaVersion := version
  state := .failed
  category := some category
  message := some (sanitizeHealthMessage message)
  snapshot := none

def tryFailed (category : HealthCategory) (message : List Char) :
    Except String (HealthDocument Snapshot) :=
  match messageViolation message with
  | some reason => .error reason
  | none => .ok
      { schemaVersion := version, state := .failed, category := some category
        message := some message, snapshot := none }

/-- What a constructor returns, if it accepts its arguments. -/
def construct : HealthCall Snapshot → Option (HealthDocument Snapshot)
  | .ready snapshot => some (ready version snapshot)
  | .tryReady snapshot => tryReady version codec snapshot
  | .warming => some (warming version)
  | .warmingWithMessage message => some (warmingWithMessage version message)
  | .tryWarmingWithMessage message => (tryWarmingWithMessage version message).toOption
  | .failed category message => some (failed version category message)
  | .tryFailed category message => (tryFailed version category message).toOption

end Constructors

section Wire

/-- The one value under a key. A key that stands twice is an error. -/
def valueUnder (fields : List (String × Json)) (key : String) : Option (Option Json) :=
  match fields.filter fun field => field.1 = key with
  | [] => some none
  | [field] => some (some field.2)
  | _ => none

/-- A field of a document. A derived reader also takes the fields by their position. -/
def fieldAt (document : Json) (position : ℕ) (key : String) : Option (Option Json) :=
  match document with
  | .object fields => valueUnder fields key
  | .array items => if items.length ≤ 5 then some items[position]? else none
  | _ => none

/-- A field that may be missing, or be `null`. -/
def optionFrom {Value : Type} (read : Json → Option Value) : Option Json → Option (Option Value)
  | none => some none
  | some .null => some none
  | some value => (read value).map some

def u16FromJson : Json → Option ℕ
  | .number literal => (Text.parseDigits 0 literal).filter (· ≤ 65535)
  | _ => none

def textFromJson : Json → Option (List Char)
  | .string text => some text
  | _ => none

/-- The name of a unit variant, which may stand alone or as the key of a `null`. -/
def variantFromJson : Json → Option (List Char)
  | .string name => some name
  | .object [(key, .null)] => some key.toList
  | _ => none

def stateFromJson (value : Json) : Option ReadinessState :=
  (variantFromJson value).bind fun name =>
    [.ready, .warming, .failed].find? fun state => ReadinessState.name state = name

def categoryFromJson (value : Json) : Option HealthCategory :=
  (variantFromJson value).bind fun name =>
    [.warming, .collectorFailure, .notServing].find? fun category =>
      HealthCategory.name category = name

def toJson (response : HealthDocument Snapshot) : Json :=
  .object
    ([("schema_version", .nat response.schemaVersion), ("state", .string response.state.name)] ++
      optionalField "category" (response.category.map fun category => .string category.name) ++
      optionalField "message" (response.message.map .string) ++
      optionalField "snapshot" (response.snapshot.map codec.toJson))

/-- The document before it is checked. Fields that are not known are passed over. -/
def readRaw (document : Json) : Option (HealthDocument Snapshot) := do
  let schemaVersion ← u16FromJson (← (← fieldAt document 0 "schema_version"))
  let state ← stateFromJson (← (← fieldAt document 1 "state"))
  let category ← optionFrom categoryFromJson (← fieldAt document 2 "category")
  let message ← optionFrom textFromJson (← fieldAt document 3 "message")
  let snapshot ← optionFrom codec.fromJson (← fieldAt document 4 "snapshot")
  some { schemaVersion, state, category, message, snapshot }

def checkMessage (raw : HealthDocument Snapshot) : Except String (HealthDocument Snapshot) :=
  match raw.message.bind messageViolation with
  | some reason => .error reason
  | none => .ok raw

def check (raw : HealthDocument Snapshot) : Except String (HealthDocument Snapshot) :=
  if raw.schemaVersion ≠ version then
    .error s!"unsupported schema_version {raw.schemaVersion} (expected {version})"
  else
    match raw.state with
    | .ready =>
        if raw.snapshot.isNone then .error "ready health response must include a snapshot"
        else if raw.category.isSome then
          .error "ready health response must not include a category"
        else if raw.message.isSome then .error "ready health response must not include a message"
        else checkMessage raw
    | .failed =>
        if raw.snapshot.isSome then
          .error "non-ready health response must not include a snapshot"
        else if !categoryAllowed raw.state raw.category then
          .error "failed health response must include a failure category"
        else checkMessage raw
    | .warming =>
        if raw.snapshot.isSome then
          .error "non-ready health response must not include a snapshot"
        else if !categoryAllowed raw.state raw.category then
          .error "warming health response must include the warming category"
        else checkMessage raw

/-- The response that a document is read as. -/
def fromJson (document : Json) : Except String (HealthDocument Snapshot) :=
  match readRaw codec document with
  | some raw => check version raw
  | none => .error "no health response"

end Wire

section RoundTrip

variable {Snapshot : Type} {version : ℕ} {codec : SnapshotCodec Snapshot}
  {response : HealthDocument Snapshot}

theorem stateFromJson_name (state : ReadinessState) :
    stateFromJson (.string state.name) = some state := by
  cases state <;> rfl

theorem categoryFromJson_name (category : HealthCategory) :
    categoryFromJson (.string category.name) = some category := by
  cases category <;> rfl

/-- A value is found under its key, whether or not it was left out. -/
theorem optionFrom_optional {Value : Type} {read : Json → Option Value} {value : Option Value}
    {write : Value → Json} (notNull : ∀ value, write value ≠ .null)
    (reads : ∀ present ∈ value, read (write present) = some present) :
    optionFrom read (value.map write) = some value := by
  cases value with
  | none => rfl
  | some present =>
      have isRead := reads present rfl
      rw [Option.map_some, optionFrom]
      · rw [isRead, Option.map_some]
      · exact notNull present

/-- The keys of a written document are distinct, so that each field is found. -/
theorem fieldAt_toJson :
    fieldAt (toJson codec response) 0 "schema_version" =
        some (some (.nat response.schemaVersion)) ∧
      fieldAt (toJson codec response) 1 "state" = some (some (.string response.state.name)) ∧
      fieldAt (toJson codec response) 2 "category" =
        some (response.category.map fun category => .string category.name) ∧
      fieldAt (toJson codec response) 3 "message" = some (response.message.map .string) ∧
      fieldAt (toJson codec response) 4 "snapshot" =
        some (response.snapshot.map codec.toJson) := by
  rcases response with ⟨schemaVersion, state, category, message, snapshot⟩
  cases category <;> cases message <;> cases snapshot <;> exact ⟨rfl, rfl, rfl, rfl, rfl⟩

/-- What is written is read back as it was, before it is checked. -/
theorem readRaw_toJson
    (isVersion : u16FromJson (.nat response.schemaVersion) = some response.schemaVersion)
    (isValid : ∀ snapshot ∈ response.snapshot, codec.validate snapshot = true) :
    readRaw codec (toJson codec response) = some response := by
  rcases @fieldAt_toJson _ codec response with ⟨isFirst, isState, isCategory, isMessage, isSnapshot⟩
  have category := @optionFrom_optional _ categoryFromJson response.category
    (fun category => .string category.name) (fun _ isNull => Json.noConfusion isNull)
    (fun category _ => categoryFromJson_name category)
  have message := @optionFrom_optional _ textFromJson response.message .string
    (fun _ isNull => Json.noConfusion isNull) (fun _ _ => rfl)
  have snapshot := @optionFrom_optional _ codec.fromJson response.snapshot codec.toJson
    codec.toJson_ne_null
    (fun snapshot isSnapshot => codec.fromJson_toJson snapshot (isValid snapshot isSnapshot))
  simp only [readRaw, isFirst, isState, isCategory, isMessage, isSnapshot, isVersion,
    stateFromJson_name, category, message, snapshot, Option.bind_eq_bind, Option.bind_some]

/-- What a response is on the wire: its text is accepted and decoded to an equal value. -/
def RoundTrips (version : ℕ) (codec : SnapshotCodec Snapshot) (parse : List Char → Option Json)
    (response : HealthDocument Snapshot) : Prop :=
  (parse (toJson codec response).render).map (fromJson version codec) = some (.ok response)

/-- A response as the checks of a reader have it. -/
structure Coherent (version : ℕ) (response : HealthDocument Snapshot) : Prop where
  version : response.schemaVersion = version
  category : categoryAllowed response.state response.category = true
  snapshot : response.snapshot.isSome = true ↔ response.state = .ready
  noMessage : response.state = .ready → response.message = none
  message : ∀ message ∈ response.message, messageViolation message = none

theorem checkMessage_eq_ok_iff :
    checkMessage response = .ok response ↔
      ∀ message ∈ response.message, messageViolation message = none := by
  rw [checkMessage]
  cases isMessage : response.message with
  | none =>
      refine iff_of_true rfl fun message isIn => ?_
      exact absurd isIn.symm (Option.some_ne_none _)
  | some message =>
      rw [Option.bind_some]
      cases isViolation : messageViolation message with
      | none =>
          refine iff_of_true rfl fun stored isStored => ?_
          rwa [← Option.some_inj.mp isStored]
      | some reason =>
          refine iff_of_false (by intro isOk; cases isOk) fun clean => ?_
          exact absurd ((clean message rfl).symm.trans isViolation).symm (Option.some_ne_none _)

theorem refuse_eq_ok_iff {condition : Prop} [Decidable condition] {reason : String}
    {rest : Except String (HealthDocument Snapshot)} :
    (if condition then .error reason else rest) = .ok response ↔
      ¬condition ∧ rest = .ok response := by
  by_cases refused : condition
  · rw [if_pos refused]
    exact iff_of_false (by intro isOk; cases isOk) fun accepted => accepted.1 refused
  · rw [if_neg refused]
    exact (and_iff_right refused).symm

theorem coherent_of_notReady (notReady : response.state ≠ .ready) :
    response.schemaVersion = version ∧ ¬response.snapshot.isSome = true ∧
        ¬(!categoryAllowed response.state response.category) = true ∧
        (∀ message ∈ response.message, messageViolation message = none) ↔
      Coherent version response := by
  rw [Bool.not_eq_true', Bool.not_eq_false]
  constructor
  · rintro ⟨sameVersion, noSnapshot, isAllowed, clean⟩
    exact ⟨sameVersion, isAllowed, iff_of_false noSnapshot notReady,
      fun isReady => absurd isReady notReady, clean⟩
  · rintro ⟨sameVersion, isAllowed, hasSnapshot, -, clean⟩
    exact ⟨sameVersion, fun isSome => notReady (hasSnapshot.mp isSome), isAllowed, clean⟩

/-- What a reader accepts. -/
theorem check_eq_ok_iff : check version response = .ok response ↔ Coherent version response := by
  rw [check, refuse_eq_ok_iff, not_not]
  cases isState : response.state with
  | ready =>
      simp only [refuse_eq_ok_iff, checkMessage_eq_ok_iff, Option.not_isSome_iff_eq_none,
        Option.isNone_iff_eq_none, ← ne_eq, Option.ne_none_iff_isSome]
      constructor
      · rintro ⟨sameVersion, hasSnapshot, noCategory, noMessage, clean⟩
        refine ⟨sameVersion, ?_, iff_of_true hasSnapshot isState, fun _ => noMessage, clean⟩
        rw [isState, noCategory]
        rfl
      · rintro ⟨sameVersion, isAllowed, hasSnapshot, noMessage, clean⟩
        rw [isState] at isAllowed
        exact ⟨sameVersion, hasSnapshot.mpr isState, Option.isNone_iff_eq_none.mp isAllowed,
          noMessage isState, clean⟩
  | warming =>
      simp only [refuse_eq_ok_iff, checkMessage_eq_ok_iff]
      rw [← isState]
      exact coherent_of_notReady (by rw [isState]; decide)
  | failed =>
      simp only [refuse_eq_ok_iff, checkMessage_eq_ok_iff]
      rw [← isState]
      exact coherent_of_notReady (by rw [isState]; decide)

theorem fromJson_toJson (isVersion : u16FromJson (.nat version) = some version)
    (sameVersion : response.schemaVersion = version)
    (isValid : ∀ snapshot ∈ response.snapshot, codec.validate snapshot = true) :
    fromJson version codec (toJson codec response) = check version response := by
  rw [fromJson, readRaw_toJson (sameVersion.symm ▸ isVersion) isValid]

end RoundTrip

end HealthDocument

namespace HealthCall

variable {Snapshot : Type}

/-- The message a constructor is given. -/
def message : HealthCall Snapshot → List Char
  | .ready _ => []
  | .tryReady _ => []
  | .warming => "collector warming up".toList
  | .warmingWithMessage message => message
  | .tryWarmingWithMessage message => message
  | .failed _ message => message
  | .tryFailed _ message => message

/-- A failure that is reported as a warming. -/
def FailsWarming : HealthCall Snapshot → Prop
  | .failed category _ => category = .warming
  | .tryFailed category _ => category = .warming
  | _ => False

end HealthCall

/-- A stored message is short, has no NUL, and is the front of the message without NULs. -/
def StoresMessage {Snapshot : Type} (call : HealthCall Snapshot)
    (response : HealthDocument Snapshot) : Prop :=
  ∀ message ∈ response.message, byteLen message ≤ MAX_HEALTH_MESSAGE_BYTES ∧ nul ∉ message ∧
    message <+: call.message.map replaceNul

section Constructed

variable {Snapshot : Type} {version : ℕ} {codec : SnapshotCodec Snapshot}
  {call : HealthCall Snapshot} {response : HealthDocument Snapshot} {message : List Char}

open HealthDocument

theorem coherent_other_iff {state : ReadinessState} {category : HealthCategory}
    (notReady : state ≠ .ready) (clean : messageViolation message = none) :
    Coherent version
        (⟨version, state, some category, some message, none⟩ : HealthDocument Snapshot) ↔
      categoryAllowed state (some category) = true := by
  refine ⟨fun coherent => coherent.category, fun isAllowed => ?_⟩
  refine ⟨rfl, isAllowed, iff_of_false Bool.false_ne_true notReady,
    fun isReady => absurd isReady notReady, fun stored isStored => ?_⟩
  rwa [← Option.some_inj.mp isStored]

theorem categoryAllowed_failed_iff {category : HealthCategory} :
    categoryAllowed .failed (some category) = true ↔ ¬category = .warming := by
  cases category <;> decide

theorem tryWarmingWithMessage_eq_some
    (made : (tryWarmingWithMessage version message).toOption = some response) :
    messageViolation message = none ∧
      response = ⟨version, .warming, some .warming, some message, none⟩ := by
  rw [tryWarmingWithMessage] at made
  split at made
  · cases made
  · exact ⟨‹_›, (Option.some_inj.mp made).symm⟩

theorem tryFailed_eq_some {category : HealthCategory}
    (made : (tryFailed version category message).toOption = some response) :
    messageViolation message = none ∧
      response = ⟨version, .failed, some category, some message, none⟩ := by
  rw [tryFailed] at made
  split at made
  · cases made
  · exact ⟨‹_›, (Option.some_inj.mp made).symm⟩

theorem coherent_ready {snapshot : Snapshot} : Coherent version (ready version snapshot) :=
  ⟨rfl, rfl, iff_of_true rfl rfl, fun _ => rfl, fun _ isStored => absurd isStored.symm
    (Option.some_ne_none _)⟩

/-- A constructed response passes the checks of its reader unless it fails as a warming. -/
theorem coherent_construct_iff (made : construct version codec call = some response) :
    Coherent version response ↔ ¬call.FailsWarming := by
  cases call with
  | ready snapshot =>
      cases made
      exact iff_of_true coherent_ready not_false
  | tryReady snapshot =>
      rw [construct, tryReady] at made
      split at made
      · cases made
        exact iff_of_true coherent_ready not_false
      · cases made
  | warming =>
      cases made
      exact iff_of_true ((coherent_other_iff (by decide)
        messageViolation_sanitizeHealthMessage).mpr rfl) not_false
  | warmingWithMessage message =>
      cases made
      exact iff_of_true ((coherent_other_iff (by decide)
        messageViolation_sanitizeHealthMessage).mpr rfl) not_false
  | tryWarmingWithMessage message =>
      rcases tryWarmingWithMessage_eq_some made with ⟨clean, rfl⟩
      exact iff_of_true ((coherent_other_iff (by decide) clean).mpr rfl) not_false
  | failed category message =>
      cases made
      exact (coherent_other_iff (by decide) messageViolation_sanitizeHealthMessage).trans
        categoryAllowed_failed_iff
  | tryFailed category message =>
      rcases tryFailed_eq_some made with ⟨clean, rfl⟩
      exact (coherent_other_iff (by decide) clean).trans categoryAllowed_failed_iff

theorem storesMessage_sanitized (isMessage : response.message =
    some (sanitizeHealthMessage call.message)) : StoresMessage call response := by
  intro stored isStored
  rw [isMessage] at isStored
  rw [← Option.some_inj.mp isStored]
  rcases messageViolation_eq_none_iff.mp
    (@messageViolation_sanitizeHealthMessage call.message) with ⟨isShort, noNul⟩
  exact ⟨isShort, noNul, isPrefix_sanitizeHealthMessage⟩

theorem storesMessage_clean (clean : messageViolation call.message = none)
    (isMessage : response.message = some call.message) : StoresMessage call response := by
  intro stored isStored
  rw [isMessage] at isStored
  rw [← Option.some_inj.mp isStored]
  rcases messageViolation_eq_none_iff.mp clean with ⟨isShort, noNul⟩
  refine ⟨isShort, noNul, [], ?_⟩
  rw [List.append_nil, map_replaceNul noNul]

theorem storesMessage_ready {snapshot : Snapshot} :
    StoresMessage call (ready version snapshot) :=
  fun _ isStored => absurd isStored.symm (Option.some_ne_none _)

theorem storesMessage_construct (made : construct version codec call = some response) :
    StoresMessage call response := by
  cases call with
  | ready snapshot =>
      cases made
      exact storesMessage_ready
  | tryReady snapshot =>
      rw [construct, tryReady] at made
      split at made
      · cases made
        exact storesMessage_ready
      · cases made
  | warming =>
      cases made
      exact storesMessage_sanitized rfl
  | warmingWithMessage message =>
      cases made
      exact storesMessage_sanitized rfl
  | tryWarmingWithMessage message =>
      rcases tryWarmingWithMessage_eq_some made with ⟨clean, rfl⟩
      exact storesMessage_clean clean rfl
  | failed category message =>
      cases made
      exact storesMessage_sanitized rfl
  | tryFailed category message =>
      rcases tryFailed_eq_some made with ⟨clean, rfl⟩
      exact storesMessage_clean clean rfl

theorem schemaVersion_construct (made : construct version codec call = some response) :
    response.schemaVersion = version := by
  cases call with
  | ready snapshot =>
      cases made
      rfl
  | tryReady snapshot =>
      rw [construct, tryReady] at made
      split at made
      · cases made
        rfl
      · cases made
  | warming =>
      cases made
      rfl
  | warmingWithMessage message =>
      cases made
      rfl
  | tryWarmingWithMessage message =>
      rcases tryWarmingWithMessage_eq_some made with ⟨-, rfl⟩
      rfl
  | failed category message =>
      cases made
      rfl
  | tryFailed category message =>
      rcases tryFailed_eq_some made with ⟨-, rfl⟩
      rfl

theorem roundTrips_construct_iff {parse : List Char → Option Json}
    (isVersion : u16FromJson (.nat version) = some version)
    (made : construct version codec call = some response)
    (isValid : ∀ snapshot ∈ response.snapshot, codec.validate snapshot = true)
    (parses : parse (toJson codec response).render = some (toJson codec response)) :
    RoundTrips version codec parse response ↔ ¬call.FailsWarming := by
  rw [RoundTrips, parses, Option.map_some, Option.some_inj,
    fromJson_toJson isVersion (schemaVersion_construct made) isValid, check_eq_ok_iff,
    coherent_construct_iff made]

end Constructed

abbrev HealthResponse := HealthDocument StatusSnapshot

abbrev HealthResponseV2 := HealthDocument StatusSnapshotV2

/-- When a health response is read back as it was built, and its message stored as it should be. -/
theorem health_roundTrips_iff (parse : List Char → Option Json) :
    (∀ (codec : SnapshotCodec StatusSnapshot) (call : HealthCall StatusSnapshot)
        (response : HealthResponse),
      HealthDocument.construct SCHEMA_VERSION_V1 codec call = some response →
      (∀ snapshot ∈ response.snapshot, codec.validate snapshot = true) →
      parse (response.toJson codec).render = some (response.toJson codec) →
        (response.RoundTrips SCHEMA_VERSION_V1 codec parse ∧ StoresMessage call response ↔
          ¬call.FailsWarming)) ∧
    (∀ (codec : SnapshotCodec StatusSnapshotV2) (call : HealthCall StatusSnapshotV2)
        (response : HealthResponseV2),
      HealthDocument.construct SCHEMA_VERSION_V2 codec call = some response →
      (∀ snapshot ∈ response.snapshot, codec.validate snapshot = true) →
      parse (response.toJson codec).render = some (response.toJson codec) →
        (response.RoundTrips SCHEMA_VERSION_V2 codec parse ∧ StoresMessage call response ↔
          ¬call.FailsWarming)) := by
  constructor
  · intro codec call response made isValid parses
    rw [roundTrips_construct_iff (by decide) made isValid parses]
    exact and_iff_left (storesMessage_construct made)
  · intro codec call response made isValid parses
    rw [roundTrips_construct_iff (by decide) made isValid parses]
    exact and_iff_left (storesMessage_construct made)

section Samples

/-- The routines of a snapshot, on documents that have none. -/
def withoutSnapshots (Snapshot : Type) : SnapshotCodec Snapshot where
  validate _ := false
  toJson _ := .object []
  fromJson _ := none
  toJson_ne_null _ isNull := Json.noConfusion isNull
  fromJson_toJson _ isValid := absurd isValid Bool.false_ne_true

/-- A reader that knows one text. -/
def readerOf (document : Json) (text : List Char) : Option Json :=
  if text = document.render then some document else none

/-- A failure with a message of 600 bytes, of which 512 are stored. -/
def longFailure : HealthCall StatusSnapshot :=
  .failed .collectorFailure (List.replicate 600 'x')

theorem health_roundTrips_longFailure :
    ∃ response, HealthDocument.construct SCHEMA_VERSION_V1 (withoutSnapshots StatusSnapshot)
        longFailure = some response ∧
      response.RoundTrips SCHEMA_VERSION_V1 (withoutSnapshots StatusSnapshot)
        (readerOf (response.toJson (withoutSnapshots StatusSnapshot))) ∧
      response.message = some (List.replicate 512 'x') := by
  refine ⟨_, rfl, ?_, by decide +kernel⟩
  refine (((health_roundTrips_iff _).1 (withoutSnapshots StatusSnapshot) longFailure _ rfl ?_
    (if_pos rfl)).mpr ?_).1
  · intro snapshot isSnapshot
    exact absurd isSnapshot.symm (Option.some_ne_none _)
  · intro isWarming
    cases isWarming

/-- What a constructor makes of a failure with the category of a warming. -/
def warmingFailure (Snapshot : Type) (version : ℕ) : HealthDocument Snapshot :=
  .failed version .warming "no delta yet".toList

/-- In either version such a failure is built without an objection, and refused by its reader. -/
theorem not_roundTrips_warmingFailure :
    HealthDocument.construct SCHEMA_VERSION_V1 (withoutSnapshots StatusSnapshot)
        (.tryFailed .warming "no delta yet".toList) =
      some (warmingFailure StatusSnapshot SCHEMA_VERSION_V1) ∧
    ¬(warmingFailure StatusSnapshot SCHEMA_VERSION_V1).RoundTrips SCHEMA_VERSION_V1
      (withoutSnapshots StatusSnapshot)
      (readerOf ((warmingFailure StatusSnapshot SCHEMA_VERSION_V1).toJson
        (withoutSnapshots StatusSnapshot))) ∧
    (warmingFailure StatusSnapshotV2 SCHEMA_VERSION_V2).toJson (withoutSnapshots StatusSnapshotV2) =
      .object
        [("schema_version", .number ['2']), ("state", .string "failed".toList),
          ("category", .string "warming".toList), ("message", .string "no delta yet".toList)] ∧
    HealthDocument.fromJson SCHEMA_VERSION_V2 (withoutSnapshots StatusSnapshotV2)
        ((warmingFailure StatusSnapshotV2 SCHEMA_VERSION_V2).toJson
          (withoutSnapshots StatusSnapshotV2)) =
      .error "failed health response must include a failure category" := by
  refine ⟨rfl, ?_, rfl, rfl⟩
  intro roundTrips
  rw [HealthDocument.RoundTrips, readerOf, if_pos rfl, Option.map_some, Option.some_inj]
    at roundTrips
  cases roundTrips

end Samples

end Gregg.Protocol

import Gregg.ConfigFile.Endpoint
import Gregg.Fleet.Batches
import Gregg.Protocol.WellFormedStatus

/-!
# Polling an endpoint

A poll asks for the second version of the status document, and for the first where the daemon does
not know the second. Every other failure is reported as it is. A poll that the scheduler starts uses
addresses that were prepared when the endpoint list was installed, and may be cut short between its
requests; the plain poll builds the addresses when it needs them.
-/

namespace Gregg.Poller

open Protocol
open Fleet (IpSyntax normalizeHost)
open Clientd (Endpoint PreparedTarget StatusUrls)

inductive ExpectedSchema where
  | v1
  | v2
  deriving DecidableEq

inductive NetworkFailureKind where
  | dns
  | connectionRefused
  | connect
  | other
  deriving DecidableEq

/-- What the HTTP client tells of a request that found no answer. -/
structure RequestFailure where
  decodedBodyTooLarge : Bool
  isTimeout : Bool
  networkFailureKind : Option NetworkFailureKind

/-- Why the body of an answer could not be read. -/
inductive BodyError where
  | decodedBodyTooLarge
  | timeout
  | other
  deriving DecidableEq

/-- What became of one request. -/
inductive Exchange (Body : Type) where
  /-- The client does not take the address. -/
  | invalidUrl
  | failed (failure : RequestFailure)
  | answered (status : UInt16) (body : Except BodyError Body)

/-- The JSON readers. -/
structure Decoders (Body : Type) where
  statusSnapshot : Body → Option StatusSnapshot
  statusPayloadV2 : Body → Option StatusPayloadV2

/-- An address, `none` where the host cannot be normalized. -/
abbrev PreparedUrl := Option (List Char)

/-- A host as it stands in an address. -/
def bracketedHost (ip : IpSyntax) (host : String) : Option (List Char) :=
  (normalizeHost ip (ConfigFile.unbracketedHost host.toList)).map fun host =>
    if ':' ∈ host then '[' :: host ++ [']'] else host

def statusUrl (ip : IpSyntax) (host : String) (port : UInt16) : PreparedUrl :=
  (bracketedHost ip host).map fun host =>
    "http://".toList ++ host ++ ':' :: (toString port).toList ++ "/v1/status".toList

def v2StatusUrl (ip : IpSyntax) (host : String) (port : UInt16) : PreparedUrl :=
  (bracketedHost ip host).map fun host =>
    "http://".toList ++ host ++ ':' :: (toString port).toList ++ "/v2/status".toList

def statusUrls (ip : IpSyntax) : StatusUrls PreparedUrl where
  statusUrl := statusUrl ip
  v2StatusUrl := v2StatusUrl ip

/-- Classify a detailed failure, by typed evidence only. -/
def classifyEggfetchFailure (failure : RequestFailure) : PollOutcome :=
  if failure.decodedBodyTooLarge then .bodyTooLarge
  else if failure.isTimeout then .timeout
  else
    match failure.networkFailureKind with
    | some .dns => .dnsFailure
    | some .connectionRefused => .connectionRefused
    | some .connect | some .other | none => .networkError

def isSuccess (status : UInt16) : Bool :=
  200 ≤ status.toNat && status.toNat < 300

def BodyError.outcome : BodyError → PollOutcome
  | .decodedBodyTooLarge => .bodyTooLarge
  | .timeout => .timeout
  | .other => .networkError

section Poll

variable {Body : Type} (decoders : Decoders Body)

/-- What either schema makes of a body. -/
def parseDocument {Document : Type} (decode : Body → Option Document)
    (unsupported violates : Document → Bool) (online : Document → PollOutcome) (body : Body) :
    PollOutcome :=
  match decode body with
  | none => .decodeError
  | some document =>
      if unsupported document then .unsupportedSchema
      else if violates document then .invalidSnapshot
      else online document

/-- Parse a response body against the schema required by its endpoint. -/
def parseResponse (body : Body) : ExpectedSchema → PollOutcome
  | .v2 =>
      parseDocument decoders.statusPayloadV2
        (fun payload => payload.snapshot.schemaVersion != SCHEMA_VERSION_V2)
        (fun payload => !(validatePayloadV2 payload).isEmpty) .onlineV2 body
  | .v1 =>
      parseDocument decoders.statusSnapshot
        (fun snapshot => snapshot.schemaVersion != SCHEMA_VERSION_V1)
        (fun snapshot => !(validate snapshot).isEmpty) .online body

/-- Poll a single address. -/
def pollSingleUrl (schema : ExpectedSchema) : Exchange Body → PollOutcome
  | .invalidUrl => .networkError
  | .failed failure => classifyEggfetchFailure failure
  | .answered status body =>
      if !isSuccess status then .httpStatus status
      else
        match body with
        | .error error => error.outcome
        | .ok body => parseResponse decoders body schema

/-- Whether the daemon does not know the address. -/
def PollOutcome.isNotFound : PollOutcome → Bool
  | .httpStatus status => status == 404
  | _ => false

/-- The scheduler's poll, where a request for an address ends as `exchange` says. -/
def pollPrepared (target : PreparedTarget PreparedUrl) (exchange : List Char → Exchange Body) :
    PollOutcome :=
  match target.v2Url with
  | none => .networkError
  | some v2Url =>
      let v2Outcome := pollSingleUrl decoders .v2 (exchange v2Url)
      if v2Outcome.isNotFound then
        match target.v1Url with
        | none => .networkError
        | some v1Url => pollSingleUrl decoders .v1 (exchange v1Url)
      else v2Outcome

/-- The plain poll, which builds an address when it needs it. -/
def poll (ip : IpSyntax) (endpoint : Endpoint) (exchange : List Char → Exchange Body) :
    PollOutcome :=
  match v2StatusUrl ip endpoint.host endpoint.port with
  | none => .networkError
  | some v2Url =>
      let v2Outcome := pollSingleUrl decoders .v2 (exchange v2Url)
      if v2Outcome.isNotFound then
        match statusUrl ip endpoint.host endpoint.port with
        | none => .networkError
        | some v1Url => pollSingleUrl decoders .v1 (exchange v1Url)
      else v2Outcome

end Poll

/-- A poll between its requests: what it waits for, or what it came to. -/
inductive Progress where
  | requesting (schema : ExpectedSchema) (url : List Char)
  | ended (outcome : PollOutcome)

section Steps

variable {Body : Type} (decoders : Decoders Body)

def request (schema : ExpectedSchema) : PreparedUrl → Progress
  | none => .ended .networkError
  | some url => .requesting schema url

/-- The scheduler's poll up to its first request. -/
def begin (target : PreparedTarget PreparedUrl) : Progress :=
  request .v2 target.v2Url

/-- The scheduler's poll from a request to the next one. -/
def resume (target : PreparedTarget PreparedUrl) (schema : ExpectedSchema)
    (exchange : Exchange Body) : Progress :=
  let outcome := pollSingleUrl decoders schema exchange
  match schema with
  | .v2 => if outcome.isNotFound then request .v1 target.v1Url else .ended outcome
  | .v1 => .ended outcome

/-- The addresses that a poll asks for. -/
def requested (target : PreparedTarget PreparedUrl) (exchange : List Char → Exchange Body) :
    List (List Char) :=
  match target.v2Url with
  | none => []
  | some v2Url =>
      if (pollSingleUrl decoders .v2 (exchange v2Url)).isNotFound then
        v2Url :: target.v1Url.toList
      else [v2Url]

end Steps

section Successes

variable {Body : Type} {decoders : Decoders Body} {target : PreparedTarget PreparedUrl}
  {exchange : List Char → Exchange Body} {answer : Exchange Body} {schema : ExpectedSchema}

/-- An answer that was successful, and whose body is a well-formed document. -/
def Delivers {Document : Type} (decode : Body → Option Document) (wellFormed : Document → Prop)
    (answer : Exchange Body) (document : Document) : Prop :=
  ∃ status body, answer = .answered status (.ok body) ∧ isSuccess status = true ∧
    decode body = some document ∧ wellFormed document

/-- The outcome of a poll that got no answer, or none that can be used. -/
def PollOutcome.IsFailure : PollOutcome → Prop
  | .online _ | .onlineV2 _ | .httpStatus _ | .cancelled => False
  | _ => True

theorem isFailure_classifyEggfetchFailure (failure : RequestFailure) :
    (classifyEggfetchFailure failure).IsFailure := by
  rw [classifyEggfetchFailure]
  split_ifs
  · exact trivial
  · exact trivial
  · split <;> exact trivial

/-- A body is refused, or it is a document of a known version that passes its checks. -/
theorem parseDocument_cases {Document : Type} (decode : Body → Option Document)
    (unsupported violates : Document → Bool) (online : Document → PollOutcome) (body : Body) :
    (parseDocument decode unsupported violates online body).IsFailure ∨
      ∃ document, decode body = some document ∧ violates document = false ∧
        parseDocument decode unsupported violates online body = online document := by
  rw [parseDocument]
  cases decode body with
  | none => exact .inl trivial
  | some document =>
      cases isUnsupported : unsupported document with
      | true =>
          simp only [isUnsupported]
          exact .inl trivial
      | false =>
          cases isViolating : violates document with
          | true =>
              simp only [isUnsupported, isViolating]
              exact .inl trivial
          | false =>
              simp only [isUnsupported, isViolating]
              exact .inr ⟨document, rfl, isViolating, rfl⟩

/-- How an answer comes to an outcome that is no failure. -/
inductive Answers (decoders : Decoders Body) (answer : Exchange Body) :
    ExpectedSchema → PollOutcome → Prop where
  | denied {schema : ExpectedSchema} {status : UInt16} {body : Except BodyError Body}
      (isAnswer : answer = .answered status body) (fails : isSuccess status = false) :
      Answers decoders answer schema (.httpStatus status)
  | v1 {snapshot : StatusSnapshot}
      (delivers : Delivers decoders.statusSnapshot SnapshotWellFormed answer snapshot) :
      Answers decoders answer .v1 (.online snapshot)
  | v2 {payload : StatusPayloadV2}
      (delivers : Delivers decoders.statusPayloadV2 PayloadWellFormed answer payload) :
      Answers decoders answer .v2 (.onlineV2 payload)

theorem not_isEmpty_eq_false_iff {Item : Type} {items : List Item} :
    (!items.isEmpty) = false ↔ items = [] := by
  cases items <;> simp

theorem parseResponse_cases {status : UInt16} {body : Body} (succeeds : isSuccess status = true) :
    (parseResponse decoders body schema).IsFailure ∨
      Answers decoders (.answered status (.ok body)) schema
        (parseResponse decoders body schema) := by
  cases schema with
  | v2 =>
      rw [parseResponse]
      rcases parseDocument_cases decoders.statusPayloadV2
        (fun payload => payload.snapshot.schemaVersion != SCHEMA_VERSION_V2)
        (fun payload => !(validatePayloadV2 payload).isEmpty) .onlineV2 body with
        failure | ⟨payload, decodes, passes, isOnline⟩
      · exact .inl failure
      · right
        rw [isOnline]
        have wellFormed := validatePayloadV2_eq_nil_iff.mp (not_isEmpty_eq_false_iff.mp passes)
        exact .v2 ⟨status, body, rfl, succeeds, decodes, wellFormed⟩
  | v1 =>
      rw [parseResponse]
      rcases parseDocument_cases decoders.statusSnapshot
        (fun snapshot => snapshot.schemaVersion != SCHEMA_VERSION_V1)
        (fun snapshot => !(validate snapshot).isEmpty) .online body with
        failure | ⟨snapshot, decodes, passes, isOnline⟩
      · exact .inl failure
      · right
        rw [isOnline]
        have wellFormed := validate_eq_nil_iff.mp (not_isEmpty_eq_false_iff.mp passes)
        exact .v1 ⟨status, body, rfl, succeeds, decodes, wellFormed⟩

/-- A request fails, or its answer is a denial or a well-formed document of the schema it asked
for. -/
theorem pollSingleUrl_cases (schema : ExpectedSchema) (answer : Exchange Body) :
    (pollSingleUrl decoders schema answer).IsFailure ∨
      Answers decoders answer schema (pollSingleUrl decoders schema answer) := by
  cases answer with
  | invalidUrl => exact .inl trivial
  | failed failure => exact .inl (isFailure_classifyEggfetchFailure failure)
  | answered status body =>
      simp only [pollSingleUrl]
      cases succeeds : isSuccess status with
      | false => exact .inr (.denied rfl succeeds)
      | true =>
          cases body with
          | error error => cases error <;> exact .inl trivial
          | ok body => exact parseResponse_cases succeeds

theorem pollSingleUrl_of_answers {outcome : PollOutcome}
    (answers : Answers decoders answer schema outcome) :
    pollSingleUrl decoders schema answer = outcome := by
  cases answers with
  | denied isAnswer fails =>
      simp [isAnswer, pollSingleUrl, fails]
  | v1 delivers =>
      rcases delivers with ⟨status, body, rfl, succeeds, decodes, wellFormed⟩
      simp [pollSingleUrl, succeeds, parseResponse, parseDocument, decodes,
        wellFormed.header.version, validate_eq_nil_iff.mpr wellFormed]
  | v2 delivers =>
      rcases delivers with ⟨status, body, rfl, succeeds, decodes, wellFormed⟩
      simp [pollSingleUrl, succeeds, parseResponse, parseDocument, decodes,
        wellFormed.snapshot.header.version, validatePayloadV2_eq_nil_iff.mpr wellFormed]

/-- What is no failure came from an answer, and every answer is taken. -/
theorem pollSingleUrl_eq_iff {outcome : PollOutcome} (noFailure : ¬outcome.IsFailure) :
    pollSingleUrl decoders schema answer = outcome ↔ Answers decoders answer schema outcome := by
  constructor
  · rintro rfl
    exact (pollSingleUrl_cases schema answer).resolve_left noFailure
  · exact pollSingleUrl_of_answers

theorem pollSingleUrl_ne_cancelled : pollSingleUrl decoders schema answer ≠ .cancelled := by
  intro cancelled
  cases (pollSingleUrl_eq_iff id).mp cancelled

/-- A version is unknown to a daemon exactly where it answers so. -/
theorem isNotFound_pollSingleUrl_iff :
    (pollSingleUrl decoders schema answer).isNotFound = true ↔
      ∃ body, answer = .answered 404 body := by
  constructor
  · intro notFound
    cases outcome : pollSingleUrl decoders schema answer with
    | httpStatus status =>
        rw [outcome] at notFound
        cases (pollSingleUrl_eq_iff id).mp outcome with
        | denied isAnswer fails =>
            cases beq_iff_eq.mp notFound
            exact ⟨_, isAnswer⟩
    | _ =>
        rw [outcome] at notFound
        cases notFound
  · rintro ⟨body, rfl⟩
    rfl

/-- The prepared addresses are those that the plain poll builds. -/
theorem poll_eq_pollPrepared (ip : IpSyntax) (endpoint : Endpoint) :
    poll decoders ip endpoint exchange =
      pollPrepared decoders
        { endpoint
          v1Url := (statusUrls ip).statusUrl endpoint.host endpoint.port
          v2Url := (statusUrls ip).v2StatusUrl endpoint.host endpoint.port } exchange :=
  rfl

theorem pollPrepared_of_v2Url {v2Url : List Char} (isV2 : target.v2Url = some v2Url) :
    pollPrepared decoders target exchange =
      if (pollSingleUrl decoders .v2 (exchange v2Url)).isNotFound then
        match target.v1Url with
        | none => .networkError
        | some v1Url => pollSingleUrl decoders .v1 (exchange v1Url)
      else pollSingleUrl decoders .v2 (exchange v2Url) := by
  rw [pollPrepared, isV2]

theorem pollPrepared_eq_onlineV2_iff {payload : StatusPayloadV2} :
    pollPrepared decoders target exchange = .onlineV2 payload ↔
      ∃ v2Url, target.v2Url = some v2Url ∧
        Delivers decoders.statusPayloadV2 PayloadWellFormed (exchange v2Url) payload := by
  constructor
  · intro online
    cases isV2 : target.v2Url with
    | none =>
        rw [pollPrepared, isV2] at online
        cases online
    | some v2Url =>
        refine ⟨v2Url, rfl, ?_⟩
        rw [pollPrepared_of_v2Url isV2] at online
        split at online
        · split at online
          · cases online
          · cases (pollSingleUrl_eq_iff id).mp online
        · cases (pollSingleUrl_eq_iff id).mp online with
          | v2 delivers => exact delivers
  · rintro ⟨v2Url, isV2, delivers⟩
    have isOnline := pollSingleUrl_of_answers (.v2 delivers)
    rw [pollPrepared_of_v2Url isV2, isOnline]
    rfl

/-- The first version is read only where the second is unknown. -/
theorem pollPrepared_eq_online_iff {snapshot : StatusSnapshot} :
    pollPrepared decoders target exchange = .online snapshot ↔
      ∃ v2Url body v1Url, target.v2Url = some v2Url ∧ exchange v2Url = .answered 404 body ∧
        target.v1Url = some v1Url ∧
        Delivers decoders.statusSnapshot SnapshotWellFormed (exchange v1Url) snapshot := by
  constructor
  · intro online
    cases isV2 : target.v2Url with
    | none =>
        rw [pollPrepared, isV2] at online
        cases online
    | some v2Url =>
        rw [pollPrepared_of_v2Url isV2] at online
        split at online
        · rename_i notFound
          rcases isNotFound_pollSingleUrl_iff.mp notFound with ⟨body, isAnswer⟩
          cases isV1 : target.v1Url with
          | none =>
              rw [isV1] at online
              cases online
          | some v1Url =>
              rw [isV1] at online
              cases (pollSingleUrl_eq_iff id).mp online with
              | v1 delivers => exact ⟨v2Url, body, v1Url, rfl, isAnswer, rfl, delivers⟩
        · cases (pollSingleUrl_eq_iff id).mp online
  · rintro ⟨v2Url, body, v1Url, isV2, isAnswer, isV1, delivers⟩
    have notFound : (pollSingleUrl decoders .v2 (exchange v2Url)).isNotFound = true :=
      isNotFound_pollSingleUrl_iff.mpr ⟨body, isAnswer⟩
    rw [pollPrepared_of_v2Url isV2, if_pos notFound, isV1]
    exact pollSingleUrl_of_answers (.v1 delivers)

theorem pollPrepared_ne_cancelled : pollPrepared decoders target exchange ≠ .cancelled := by
  intro cancelled
  cases isV2 : target.v2Url with
  | none =>
      rw [pollPrepared, isV2] at cancelled
      cases cancelled
  | some v2Url =>
      rw [pollPrepared_of_v2Url isV2] at cancelled
      split at cancelled
      · split at cancelled
        · cases cancelled
        · exact pollSingleUrl_ne_cancelled cancelled
      · exact pollSingleUrl_ne_cancelled cancelled

end Successes

end Gregg.Poller

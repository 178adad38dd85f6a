import Gregg.Clientd.ShownSnapshots
import Gregg.Greggd.ServedSamples

/-!
# From the samplers to the fleet

Daemons sample their machines and answer requests, at addresses of their own; a client polls them
over a network that may lose, delay and repeat answers, and shows what it gets. What it shows of a
system is a sample that the daemon at the system's address had published last when it answered, and
that was fresh by then.
-/

namespace Gregg.Metrics

open Fleet (IpSyntax NormalizedSnapshot HostAccepted sameTarget)
open Poller
open Protocol
open Sampling (Sampler SamplingDaemon SamplingEvent lastPublished daemonPolicy)
open Server (Serializers Answer)

/-- A daemon as it is started. -/
structure Deployed where
  sampler : Sampler
  intervalMs : ℕ
  created : Sampler.withInterval intervalMs = some sampler
  staleAfterMs : ℕ

/-- The daemons by the address of their status. -/
abbrev Deployment := List Char → Option Deployed

/-- What a client gets of an answer. -/
def carried {Body : Type} : Answer Body → Exchange Body
  | .response _ status body => .answered (UInt16.ofNat status) (.ok body)
  | .internalError => .answered 500 (.error .other)

structure World (Body Entry Summary Health : Type) where
  client : MetricsPlane Entry Summary Health
  daemons : List Char → Option (SamplingDaemon Body)
  /-- The answers that were given, with the addresses they were given at. -/
  answers : List (List Char × Exchange Body)

inductive WorldEvent (Body Entry Summary Health : Type) where
  | daemon (url : List Char) (event : SamplingEvent)
  /-- The daemon at an address answers a request for its status. -/
  | serve (url : List Char) (nowUnixMs : Option ℕ)
  /-- A task of the client gets an answer that was given. -/
  | arrives (index position now : ℕ)
  /-- Anything else that happens at the client. -/
  | client (event : MetricsEvent Body Entry Summary Health)

/-- Whether an event of the client is an answer to one of its requests. -/
def MetricsEvent.isAnswer {Body Entry Summary Health : Type} :
    MetricsEvent Body Entry Summary Health → Bool
  | .poll (.answered _ ⟨_, .answered _ _, _⟩) => true
  | _ => false

namespace World

variable {Body Entry Summary Health : Type}

section Step

variable (narrowed : ℕ → ℕ → F32) (serializers : Serializers Body) (decoders : Decoders Body)
  (ip : IpSyntax) (maxConcurrent : ℕ) (deployment : Deployment)

def start (config : Fleet.Config Entry) : World Body Entry Summary Health where
  client := .start ip maxConcurrent config
  daemons url := (deployment url).map fun deployed => .start deployed.sampler
  answers := []

def step (world : World Body Entry Summary Health) :
    WorldEvent Body Entry Summary Health → Option (World Body Entry Summary Health)
  | .daemon url event =>
      match deployment url, world.daemons url with
      | some deployed, some daemon =>
          (daemon.step narrowed serializers (daemonPolicy deployed.staleAfterMs) event).map
            fun next =>
              { world with
                daemons := fun other => if other = url then some next else world.daemons other }
      | _, _ => none
  | .serve url nowUnixMs =>
      match deployment url, world.daemons url with
      | some deployed, some daemon =>
          let answer := Server.statusResponse serializers (daemonPolicy deployed.staleAfterMs)
            daemon.server.published .v2 nowUnixMs
          some { world with answers := world.answers ++ [(url, carried answer)] }
      | _, _ => none
  | .arrives index position now =>
      match world.answers[position]? with
      | none => none
      | some (url, exchange) =>
          (world.client.step decoders ip maxConcurrent
            (.poll (.answered index ⟨url, exchange, now⟩))).map fun client => { world with client }
  | .client event =>
      if event.isAnswer then none
      else
        (world.client.step decoders ip maxConcurrent event).map fun client => { world with client }

end Step

section Runs

variable {narrowed : ℕ → ℕ → F32} {serializers : Serializers Body} {decoders : Decoders Body}
  {ip : IpSyntax} {maxConcurrent : ℕ} {deployment : Deployment} {config : Fleet.Config Entry}
  {world next : World Body Entry Summary Health}
  {event : WorldEvent Body Entry Summary Health}
  {events : List (WorldEvent Body Entry Summary Health)}

/-- The world before the daemon at an address gave an answer, and the daemon by then. -/
structure Serving (narrowed : ℕ → ℕ → F32) (serializers : Serializers Body)
    (decoders : Decoders Body) (ip : IpSyntax) (maxConcurrent : ℕ) (deployment : Deployment)
    (config : Fleet.Config Entry) (events : List (WorldEvent Body Entry Summary Health))
    (url : List Char) (nowUnixMs : Option ℕ) (deployed : Deployed) (daemon : SamplingDaemon Body) :
    Prop where
  isDeployed : deployment url = some deployed
  served : ∃ before world, before ++ [.serve url nowUnixMs] <+: events ∧
    Machine.run (step narrowed serializers decoders ip maxConcurrent deployment)
      (start ip maxConcurrent deployment config) before = some world ∧
    world.daemons url = some daemon

theorem Serving.later {url : List Char} {nowUnixMs : Option ℕ} {deployed : Deployed}
    {daemon : SamplingDaemon Body}
    (serving : Serving narrowed serializers decoders ip maxConcurrent deployment config events url
      nowUnixMs deployed daemon) :
    Serving narrowed serializers decoders ip maxConcurrent deployment config (events ++ [event])
      url nowUnixMs deployed daemon := by
  rcases serving.served with ⟨before, world, isPrefix, ran, found⟩
  exact ⟨serving.isDeployed, before, world, isPrefix.trans (List.prefix_append _ _), ran, found⟩

/-- What the daemon at an address answered once. -/
def Given (narrowed : ℕ → ℕ → F32) (serializers : Serializers Body)
    (decoders : Decoders Body) (ip : IpSyntax) (maxConcurrent : ℕ) (deployment : Deployment)
    (config : Fleet.Config Entry) (events : List (WorldEvent Body Entry Summary Health))
    (url : List Char) (exchange : Exchange Body) : Prop :=
  ∃ nowUnixMs deployed daemon,
    Serving narrowed serializers decoders ip maxConcurrent deployment config events url nowUnixMs
        deployed daemon ∧
      daemon.Coherent narrowed serializers ∧
      exchange = carried (Server.statusResponse serializers (daemonPolicy deployed.staleAfterMs)
        daemon.server.published .v2 nowUnixMs)

/-- The client ran against answers that were given. -/
structure Sound (narrowed : ℕ → ℕ → F32) (serializers : Serializers Body)
    (decoders : Decoders Body) (ip : IpSyntax) (maxConcurrent : ℕ) (deployment : Deployment)
    (config : Fleet.Config Entry) (events : List (WorldEvent Body Entry Summary Health))
    (world : World Body Entry Summary Health) : Prop where
  client : ∃ clientEvents,
    Machine.run (MetricsPlane.step decoders ip maxConcurrent) (.start ip maxConcurrent config)
        clientEvents = some world.client ∧
      ∀ url status body, Asked clientEvents url (.answered status body) →
        (url, .answered status body) ∈ world.answers
  daemons : ∀ url daemon, world.daemons url = some daemon →
    daemon.Coherent narrowed serializers
  answers : ∀ url exchange, (url, exchange) ∈ world.answers →
    Given narrowed serializers decoders ip maxConcurrent deployment config events url exchange

theorem sound_start : Sound narrowed serializers decoders ip maxConcurrent deployment config []
    (start ip maxConcurrent deployment config : World Body Entry Summary Health) where
  client := by
    refine ⟨[], rfl, ?_⟩
    rintro url status body ⟨index, now, member⟩
    cases member
  daemons := by
    intro url daemon found
    rcases Option.map_eq_some_iff.mp found with ⟨deployed, -, rfl⟩
    exact SamplingDaemon.coherent_start deployed.created
  answers := by
    intro url exchange member
    cases member

theorem Sound.later_answers
    (sound : Sound narrowed serializers decoders ip maxConcurrent deployment config events world) :
    ∀ url exchange, (url, exchange) ∈ world.answers →
      Given narrowed serializers decoders ip maxConcurrent deployment config (events ++ [event])
        url exchange := by
  intro url exchange member
  rcases sound.answers url exchange member with ⟨nowUnixMs, deployed, daemon, serving, rest⟩
  exact ⟨nowUnixMs, deployed, daemon, serving.later, rest⟩

/-- The client takes a step that is no answer, or an answer that was given. -/
theorem Sound.client_step {client : MetricsPlane Entry Summary Health}
    {clientEvent : MetricsEvent Body Entry Summary Health}
    (sound : Sound narrowed serializers decoders ip maxConcurrent deployment config events world)
    (stepped : world.client.step decoders ip maxConcurrent clientEvent = some client)
    (given : ∀ index url status body now,
      clientEvent = .poll (.answered index ⟨url, .answered status body, now⟩) →
        (url, .answered status body) ∈ world.answers) :
    Sound narrowed serializers decoders ip maxConcurrent deployment config (events ++ [event])
      { world with client } where
  client := by
    rcases sound.client with ⟨clientEvents, ran, asked⟩
    refine ⟨clientEvents ++ [clientEvent], ?_, ?_⟩
    · rw [Machine.run_append_singleton ran]
      exact stepped
    · rintro url status body ⟨index, now, member⟩
      rcases List.mem_append.mp member with earlier | last
      · exact asked url status body ⟨index, now, earlier⟩
      · exact given index url status body now (List.mem_singleton.mp last).symm
  daemons := sound.daemons
  answers := sound.later_answers

theorem Sound.step
    (ran : Machine.run (step narrowed serializers decoders ip maxConcurrent deployment)
      (start ip maxConcurrent deployment config) events = some world)
    (sound : Sound narrowed serializers decoders ip maxConcurrent deployment config events world)
    (stepped : world.step narrowed serializers decoders ip maxConcurrent deployment event =
      some next) :
    Sound narrowed serializers decoders ip maxConcurrent deployment config (events ++ [event])
      next := by
  cases event with
  | daemon url event =>
      rw [World.step] at stepped
      split at stepped
      · rename_i deployed daemon isDeployed found
        rcases Option.map_eq_some_iff.mp stepped with ⟨after, daemonStepped, rfl⟩
        refine ⟨sound.client, ?_, sound.later_answers⟩
        intro other reached isReached
        simp only at isReached
        split at isReached
        · cases isReached
          exact SamplingDaemon.coherent_step (sound.daemons url daemon found) daemonStepped
        · exact sound.daemons other reached isReached
      · cases stepped
  | serve url nowUnixMs =>
      rw [World.step] at stepped
      split at stepped
      · rename_i deployed daemon isDeployed found
        cases stepped
        rcases sound.client with ⟨clientEvents, ranClient, asked⟩
        refine ⟨⟨clientEvents, ranClient, ?_⟩, sound.daemons, ?_⟩
        · intro url status body isAsked
          exact List.mem_append_left _ (asked url status body isAsked)
        · intro other exchange member
          rcases List.mem_append.mp member with earlier | last
          · exact sound.later_answers other exchange earlier
          · cases List.mem_singleton.mp last
            exact ⟨nowUnixMs, deployed, daemon,
              ⟨isDeployed, events, world, List.prefix_refl _, ran, found⟩,
              sound.daemons url daemon found, rfl⟩
      · cases stepped
  | arrives index position now =>
      rw [World.step] at stepped
      split at stepped
      · cases stepped
      · rename_i url exchange found
        rcases Option.map_eq_some_iff.mp stepped with ⟨client, clientStepped, rfl⟩
        apply sound.client_step clientStepped
        rintro _ _ status body _ ⟨⟩
        exact List.mem_of_getElem? found
  | client event =>
      rw [World.step] at stepped
      split at stepped
      · cases stepped
      · rename_i notAnswer
        rcases Option.map_eq_some_iff.mp stepped with ⟨client, clientStepped, rfl⟩
        apply sound.client_step clientStepped
        rintro index url status body now rfl
        exact absurd rfl notAnswer

theorem sound_of_run
    (ran : Machine.run (World.step narrowed serializers decoders ip maxConcurrent deployment)
      (start ip maxConcurrent deployment config) events = some world) :
    Sound narrowed serializers decoders ip maxConcurrent deployment config events world := by
  apply Machine.run_induction (fun events (world : World Body Entry Summary Health) =>
    Sound narrowed serializers decoders ip maxConcurrent deployment config events world) ran
    sound_start
  intro _ _ _ _ ran sound stepped
  exact sound.step ran stepped

/-- A client reads back what a daemon wrote. -/
def RoundTrips (serializers : Serializers Body) (decoders : Decoders Body) : Prop :=
  ∀ payload body, PayloadWellFormed payload → serializers.status .v2 payload = some body →
    decoders.statusPayloadV2 body = some payload

/-- What is carried to a client was a response with that status. -/
theorem of_carried {answer : Answer Body} {status : UInt16} {body : Except BodyError Body}
    (isCarried : .answered status body = carried answer) :
    status = 500 ∨ ∃ route code found, answer = .response route code found ∧
      status = UInt16.ofNat code ∧ body = .ok found := by
  cases answer with
  | response route code found =>
      cases isCarried
      exact .inr ⟨route, code, found, rfl, rfl, rfl⟩
  | internalError =>
      cases isCarried
      exact .inl rfl

/-- A daemon of this kind knows the second version. -/
theorem Given.ne_notFound {url : List Char} {body : Except BodyError Body}
    (given : Given narrowed serializers decoders ip maxConcurrent deployment config events url
      (.answered 404 body)) : False := by
  rcases given with ⟨nowUnixMs, deployed, daemon, -, -, isCarried⟩
  rcases of_carried isCarried with impossible | ⟨route, code, found, responds, isStatus, -⟩
  · cases impossible
  · rcases SamplingDaemon.status_of_statusResponse responds with ⟨-, rfl⟩ | rfl
    · cases isStatus
    · cases isStatus

/-- A document that a client accepts is what the daemon had published last. -/
theorem Given.published {url : List Char} {answer : Exchange Body} {payload : StatusPayloadV2}
    (roundTrips : RoundTrips serializers decoders)
    (given : Given narrowed serializers decoders ip maxConcurrent deployment config events url
      answer)
    (delivers : Delivers decoders.statusPayloadV2 PayloadWellFormed answer payload) :
    ∃ nowUnixMs deployed daemon snapshot,
      Serving narrowed serializers decoders ip maxConcurrent deployment config events url nowUnixMs
          deployed daemon ∧
        lastPublished (daemon.loop.told narrowed) = some (snapshot, payload) ∧
        SamplingDaemon.Fresh deployed.staleAfterMs nowUnixMs (daemon.loop.told narrowed)
          payload := by
  rcases given with ⟨nowUnixMs, deployed, daemon, serving, coherent, isCarried⟩
  rcases delivers with ⟨status, body, rfl, succeeds, decodes, wellFormed⟩
  rcases of_carried isCarried with rfl | ⟨route, code, found, responds, rfl, ⟨⟩⟩
  · cases succeeds
  · rcases SamplingDaemon.status_of_statusResponse responds with ⟨rfl, rfl⟩ | rfl
    · rcases (SamplingDaemon.statusResponse_eq_ok_iff coherent).mp responds with
        ⟨snapshot, published, doc, isLast, converted, isDocument, fresh, serialized⟩
      cases isDocument
      have readBack := roundTrips published body converted.wellFormed serialized
      cases decodes.symm.trans readBack
      exact ⟨nowUnixMs, deployed, daemon, snapshot, serving, isLast, fresh⟩
    · cases succeeds

/-- Whatever a client shows of a system is a sample that the daemon at the address of the system had
published last, and that was fresh, when it answered. -/
theorem sampled_of_run (roundTrips : RoundTrips serializers decoders)
    (accepted : config.validate ip = [])
    (ran : Machine.run (World.step narrowed serializers decoders ip maxConcurrent deployment)
      (start ip maxConcurrent deployment config) events = some world) :
    ∀ system ∈ world.client.fleet.systems, ∀ normalized, system.latest = some normalized →
      ∃ endpoint url nowUnixMs deployed daemon snapshot payload,
        endpoint.id = system.id ∧ sameTarget ip system.endpoint endpoint = true ∧
          v2StatusUrl ip endpoint.host endpoint.port = some url ∧
          Serving narrowed serializers decoders ip maxConcurrent deployment config events url
            nowUnixMs deployed daemon ∧
          lastPublished (daemon.loop.told narrowed) = some (snapshot, payload) ∧
          SamplingDaemon.Fresh deployed.staleAfterMs nowUnixMs (daemon.loop.told narrowed)
            payload ∧
          normalized = .fromV2Payload payload := by
  intro system member normalized isLatest
  have sound := sound_of_run ran
  rcases sound.client with ⟨clientEvents, ranClient, asked⟩
  rcases ((provenance_of_run accepted ranClient).systems system member).shows normalized isLatest
    with ⟨endpoint, isId, -, same, source⟩
  cases source with
  | @v2 url answer payload isUrl isAsked delivers =>
      have isAnswer : (url, answer) ∈ world.answers := by
        rcases delivers with ⟨status, body, rfl, -⟩
        exact asked url status _ isAsked
      rcases (sound.answers url answer isAnswer).published roundTrips delivers with
        ⟨nowUnixMs, deployed, daemon, snapshot, serving, isLast, fresh⟩
      exact ⟨endpoint, url, nowUnixMs, deployed, daemon, snapshot, payload, isId, same, isUrl,
        serving, isLast, fresh, rfl⟩
  | v1 isV2Url denied isUrl isAsked delivers =>
      exact (sound.answers _ _ (asked _ 404 _ denied)).ne_notFound.elim

end Runs

section OneBox

/-- Bodies that are the documents themselves. -/
def verbatim : Serializers (Option StatusPayloadV2) where
  codec := Server.readiness.codec
  status version published :=
    match version, published with
    | .v1, _ => some none
    | .v2, payload => some (some payload)
  health _ _ := some none

def verbatimDecoders : Decoders (Option StatusPayloadV2) where
  statusSnapshot _ := none
  statusPayloadV2 body := body

theorem roundTrips_verbatim : RoundTrips verbatim verbatimDecoders := by
  rintro payload body - ⟨⟩
  rfl

def boxUrl : List Char :=
  "http://box:11310/v2/status".toList

/-- A daemon that samples every second, at every address. -/
def everywhere : Deployment :=
  fun _ => some ⟨Sampling.SamplerLoop.everySecond, 1000, rfl, 5000⟩

/-- The daemon publishes its first sample, and the client polls it. -/
def firstPoll : List (WorldEvent (Option StatusPayloadV2) Unit Unit Unit) :=
  SamplingDaemon.firstSample.map (.daemon boxUrl) ++
    [.client (.poll (.acquired 0 ⟨0, 0⟩)), .serve boxUrl (some 1200), .arrives 0 0 5,
      .client (.poll .joined), .client (.completed 6), .client .delivered, .client .applied]

theorem sampled_of_run_firstPoll :
    ∃ (world : World (Option StatusPayloadV2) Unit Unit Unit) (system : Fleet.PolledSystem)
      (normalized : NormalizedSnapshot) (payload : StatusPayloadV2),
      system ∈ world.client.fleet.systems ∧ system.latest = some normalized ∧
        normalized = .fromV2Payload payload := by
  obtain ⟨world, system, normalized, ran, systems, isLatest⟩ :
      ∃ (world : World (Option StatusPayloadV2) Unit Unit Unit) (system : Fleet.PolledSystem)
        (normalized : NormalizedSnapshot),
        Machine.run (World.step (fun _ _ => .nan) verbatim verbatimDecoders
            Fleet.FleetState.dnsNames 1 everywhere)
            (start Fleet.FleetState.dnsNames 1 everywhere Fleet.FleetState.oneBox) firstPoll =
              some world ∧
          world.client.fleet.systems = [system] ∧ system.latest = some normalized :=
    ⟨_, _, _, rfl, rfl, rfl⟩
  have member : system ∈ world.client.fleet.systems := systems ▸ List.mem_singleton.mpr rfl
  rcases sampled_of_run roundTrips_verbatim (by decide) ran system member normalized isLatest with
    ⟨endpoint, url, nowUnixMs, deployed, daemon, snapshot, payload, -, -, -, -, -, -, isShown⟩
  exact ⟨world, system, normalized, payload, member, isLatest, isShown⟩

end OneBox

end World

end Gregg.Metrics

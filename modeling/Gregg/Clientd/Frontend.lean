import Gregg.Clientd.Outbound

/-!
# The frontend's side of the local channel

Requests travel through a bounded channel to the one task that owns the socket. That task writes
the requests it finds and then reads; it never flushes what an earlier write left behind. So a
request is delivered only by its own write, or by the write of a later one, and a request taken
while another one waits behind a frame in flight replaces it.
-/

namespace Gregg.Clientd

/-- The two codecs of the channel, one for each direction. -/
structure Wire (Snapshot : Type) where
  frames : Codec (FrontendFrame Snapshot)
  requests : Codec DaemonRequest

/-- Why a frontend could not talk to its daemon. -/
inductive FrontError where
  | transport (error : TransportError)
  | decode (error : DecodeError)
  | malformed (message : String)
  | disconnected
  | timeout
  | channelFull
  deriving DecidableEq

/-- The read side of a frontend connection, and the only socket owner. It comes with the requests
the sender's channel accepted so far and the bytes its socket took. -/
structure FrameStream (Snapshot : Type) where
  connection : Connection
  requests : List DaemonRequest
  delivered : List (FrontendFrame Snapshot)
  failure : Option FrontError
  sent : List DaemonRequest
  wire : List UInt8

inductive FrontendEvent where
  | send (request : DaemonRequest)
  | write (outcomes : List WriteOutcome)
  | read (input : ReadOutcome)
  deriving DecidableEq

namespace FrontendEvent

def isWrite : FrontendEvent → Bool
  | write _ => true
  | _ => false

end FrontendEvent

namespace FrameStream

/-- Capacity of the per-frontend outbound request channel. -/
def REQUEST_CHANNEL_CAPACITY : ℕ := 8

/-- Read buffer for the frontend's connection. -/
def READ_BUFFER_BYTES : ℕ := 8192

variable {Snapshot : Type}

/-- An attached frontend: its handshake was answered, so the socket took all of it, and the read
buffer holds what came after the answer. -/
def attached (buffer : List UInt8) : FrameStream Snapshot where
  connection := { Connection.new with buffer }
  requests := []
  delivered := []
  failure := none
  sent := []
  wire := []

/-- `FrontendSender::try_send` on the bounded channel. -/
def trySend (stream : FrameStream Snapshot) (request : DaemonRequest) :
    Except FrontError (FrameStream Snapshot) :=
  if stream.requests.length < REQUEST_CHANNEL_CAPACITY then
    .ok { stream with
      requests := stream.requests ++ [request]
      sent := stream.sent ++ [request] }
  else .error .channelFull

/-- One turn of the request loop of `next`. -/
def writeRequest (wire : Wire Snapshot) (stream : FrameStream Snapshot)
    (outcomes : List WriteOutcome) : Option (FrameStream Snapshot) :=
  match stream.requests with
  | [] => none
  | request :: requests =>
      (stream.connection.writeFrame wire.requests request outcomes).map fun written =>
        { stream with
          connection := written.conn
          requests
          wire := stream.wire ++ written.taken
          failure :=
            match written.result with
            | .ok _ => none
            | .error error => some (.transport error) }

/-- The rest of `next`, once its request loop found the channel empty: return a buffered frame or
read what is available. -/
def readFrame (wire : Wire Snapshot) (stream : FrameStream Snapshot) (input : ReadOutcome) :
    Option (FrameStream Snapshot) :=
  if stream.requests ≠ [] then none
  else
    match stream.connection.tryReadFrame wire.frames with
    | (connection, .error error) =>
        some { stream with connection, failure := some (.transport error) }
    | (connection, .ok (some frame)) =>
        some { stream with connection, delivered := stream.delivered ++ [frame] }
    | (connection, .ok none) =>
        match input.available with
        | .ok chunk =>
            if READ_BUFFER_BYTES < chunk.length then none
            else
              match connection.pushBytes chunk with
              | .error error =>
                  some { stream with connection, failure := some (.transport error) }
              | .ok connection => some { stream with connection }
        | .error .wouldBlock => some { stream with connection }
        | .error .disconnected => some { stream with connection, failure := some .disconnected }
        | .error error => some { stream with connection, failure := some (.transport error) }

/-- A sender that offers a request, or a turn of `next`, which is not polled after an error. -/
def step (wire : Wire Snapshot) (stream : FrameStream Snapshot) (event : FrontendEvent) :
    Option (FrameStream Snapshot) :=
  if stream.failure.isSome then none
  else
    match event with
    | .send request =>
        match stream.trySend request with
        | .ok stream => some stream
        | .error _ => some stream
    | .write outcomes => stream.writeRequest wire outcomes
    | .read input => stream.readFrame wire input

/-- No request waits behind a frame in flight when the next one is taken. -/
def SlotFree (stream : FrameStream Snapshot) : FrontendEvent → Prop
  | .write _ => stream.connection.queued = none
  | _ => True

/-- The peer takes all that was left in flight and the whole request. -/
def AllTaken (wire : Wire Snapshot) (stream : FrameStream Snapshot) : FrontendEvent → Prop
  | .write outcomes => ∀ request ∈ stream.requests.head?, ∀ encoded,
      encodeFrame wire.requests request = .ok encoded →
        stream.connection.inflight.length + encoded.length ≤ Connection.capacity outcomes
  | _ => True

variable {wire : Wire Snapshot} {stream next final : FrameStream Snapshot}
  {event : FrontendEvent} {events : List FrontendEvent} {buffer : List UInt8}

/-- The outbound side of a stream, as a writer of the requests it took from the channel. -/
def writer (stream : FrameStream Snapshot) (written : List (EncodedFrame wire.requests)) :
    Writer wire.requests where
  conn := stream.connection
  accepted := stream.wire
  handed := written

theorem readFrame_outbound {input : ReadOutcome}
    (stepped : stream.readFrame wire input = some next) :
    next.connection.inflight = stream.connection.inflight ∧
      next.connection.queued = stream.connection.queued ∧ next.requests = stream.requests ∧
      next.sent = stream.sent ∧ next.wire = stream.wire := by
  unfold readFrame at stepped
  split at stepped
  · cases stepped
  · split at stepped
    · rename_i taken
      rcases Connection.tryReadFrame_buffer taken with ⟨rest, rfl⟩
      cases stepped
      exact ⟨rfl, rfl, rfl, rfl, rfl⟩
    · rename_i taken
      rcases Connection.tryReadFrame_buffer taken with ⟨rest, rfl⟩
      cases stepped
      exact ⟨rfl, rfl, rfl, rfl, rfl⟩
    · rename_i taken
      rcases Connection.tryReadFrame_buffer taken with ⟨rest, rfl⟩
      split at stepped
      · split at stepped
        · cases stepped
        · split at stepped
          · cases stepped
            exact ⟨rfl, rfl, rfl, rfl, rfl⟩
          · rename_i pushed
            cases stepped
            unfold Connection.pushBytes at pushed
            split at pushed
            · cases pushed
            · cases pushed
              exact ⟨rfl, rfl, rfl, rfl, rfl⟩
      all_goals
        cases stepped
        exact ⟨rfl, rfl, rfl, rfl, rfl⟩

/-- What the requests taken so far have become: some of them were replaced unless each found the
slot free, and the last one is complete if the peer took all of it. -/
structure Serves (wire : Wire Snapshot) (buffer : List UInt8) (events : List FrontendEvent)
    (stream : FrameStream Snapshot) (written : List (EncodedFrame wire.requests))
    (box : Outbox (EncodedFrame wire.requests)) : Prop where
  carries : (stream.writer written).Carries box
  sent : stream.sent = written.map (·.value) ++ stream.requests
  sublist : box.content.Sublist written
  nothingReplaced : Machine.EveryStep (step wire) (attached buffer) events SlotFree ↔
    box.content.length = written.length
  nothingLeft : Machine.LastStep (step wire) (attached buffer) events FrontendEvent.isWrite
    (AllTaken wire) ↔ box.current = none

theorem Serves.attached : Serves wire buffer [] (attached buffer) [] .empty where
  carries := by
    refine ⟨Outbox.settled_empty, ?_, ?_, ?_, rfl⟩
    · rfl
    · exact ⟨fun _ => rfl, fun _ => rfl⟩
    · rintro _ ⟨⟩
  sent := rfl
  sublist := List.Sublist.refl _
  nothingReplaced := ⟨fun _ => rfl, fun _ => Machine.everyStep_nil⟩
  nothingLeft := ⟨fun _ => rfl, fun _ => Machine.lastStep_nil⟩

section Steps

variable {written : List (EncodedFrame wire.requests)}
  {box : Outbox (EncodedFrame wire.requests)}

theorem Serves.of_other (serves : Serves wire buffer events stream written box)
    (ran : Machine.run (step wire) (FrameStream.attached buffer) events = some stream)
    (isOther : event.isWrite = false) (free : SlotFree stream event)
    (inflight : next.connection.inflight = stream.connection.inflight)
    (queued : next.connection.queued = stream.connection.queued)
    (sameWire : next.wire = stream.wire)
    (sent : next.sent = written.map (·.value) ++ next.requests) :
    Serves wire buffer (events ++ [event]) next written box where
  carries := by
    refine ⟨serves.carries.settled, ?_⟩
    rcases serves.carries.transmits with ⟨wireEq, idle, tail, queuedEq⟩
    simp only [writer] at wireEq idle tail queuedEq ⊢
    refine ⟨?_, ?_, ?_, ?_⟩
    · rwa [sameWire, inflight]
    · rwa [inflight]
    · rwa [inflight]
    · rwa [queued]
  sent := sent
  sublist := serves.sublist
  nothingReplaced := by
    rw [Machine.everyStep_append_singleton ran, serves.nothingReplaced]
    simp only [free, and_true]
  nothingLeft := by rw [Machine.lastStep_append_of_other isOther, serves.nothingLeft]

/-- Taking a request hands its frame to the outbox. -/
theorem Serves.write (serves : Serves wire buffer events stream written box)
    (ran : Machine.run (step wire) (FrameStream.attached buffer) events = some stream)
    {outcomes : List WriteOutcome}
    (stepped : stream.writeRequest wire outcomes = some next) (polled : next.failure = none) :
    ∃ written after, Serves wire buffer (events ++ [.write outcomes]) next written after := by
  unfold writeRequest at stepped
  split at stepped
  · cases stepped
  · rename_i request requests received
    rcases Option.map_eq_some_iff.mp stepped with ⟨result, wrote, rfl⟩
    unfold Connection.writeFrame at wrote
    split at wrote
    · cases wrote
      cases polled
    · rename_i encoded encodedEq
      rcases EncodedFrame.of_encodeFrame encodedEq with ⟨frame, rfl, rfl⟩
      have ok : result.result = .ok () := by
        cases outcome : result.result with
        | error error => simp [outcome] at polled
        | ok value => rfl
      have stepWriter : (stream.writer written).step (.write frame outcomes) =
          some { conn := result.conn
                 accepted := stream.wire ++ result.taken
                 handed := written ++ [frame] } := by
        simp only [Writer.step, writer, wrote, Option.map_some]
      rcases serves.carries.write stepWriter with ⟨-, after, carries, sameContent⟩
      have offered : (box.offer frame).content.Sublist (written ++ [frame]) :=
        Outbox.content_offer_sublist serves.carries.settled serves.sublist
      refine ⟨written ++ [frame], after, carries, ?_, ?_, ?_, ?_⟩
      · rw [serves.sent, received, List.map_append, List.append_assoc]
        rfl
      · rwa [sameContent]
      · rw [Machine.everyStep_append_singleton ran, serves.nothingReplaced, sameContent,
          List.length_append, List.length_singleton]
        have slot : SlotFree stream (.write outcomes) ↔ box.waiting = none := by
          have queued : stream.connection.queued = box.waiting.map EncodedFrame.bytes :=
            serves.carries.transmits.queued
          rw [SlotFree, queued, Option.map_eq_none_iff]
        have short := serves.sublist.length_le
        cases waits : box.waiting with
        | none =>
            rw [Outbox.content_offer_of_slotFree serves.carries.settled waits, List.length_append,
              List.length_singleton]
            simp [slot, waits]
        | some waiting =>
            rw [Outbox.length_content_offer serves.carries.settled waits]
            simp only [slot, waits, reduceCtorEq, and_false, false_iff]
            omega
      · rw [Machine.lastStep_append_of_kind ran rfl]
        have drains := serves.carries.write_drains wrote ok
        have takes : AllTaken wire stream (.write outcomes) ↔
            stream.connection.inflight.length + frame.bytes.length ≤
              Connection.capacity outcomes := by
          simp only [AllTaken, received, List.head?_cons, Option.mem_some_iff, forall_eq',
            encodedEq, Except.ok.injEq]
        rw [takes]
        exact drains.symm.trans carries.transmits.idle.symm

theorem Serves.step (serves : Serves wire buffer events stream written box)
    (ran : Machine.run (step wire) (FrameStream.attached buffer) events = some stream)
    (stepped : stream.step wire event = some next) (polled : next.failure = none) :
    ∃ written after, Serves wire buffer (events ++ [event]) next written after := by
  unfold FrameStream.step at stepped
  split at stepped
  · cases stepped
  · cases event with
    | send request =>
        refine ⟨written, box, ?_⟩
        simp only [trySend] at stepped
        split at stepped
        · rename_i sent
          split at sent
          · cases sent
            cases stepped
            refine serves.of_other ran rfl trivial rfl rfl rfl ?_
            rw [serves.sent, List.append_assoc]
          · cases sent
        · cases stepped
          exact serves.of_other ran rfl trivial rfl rfl rfl serves.sent
    | write outcomes => exact serves.write ran stepped polled
    | read input =>
        rcases readFrame_outbound stepped with ⟨inflight, queued, requests, sent, sameWire⟩
        refine ⟨written, box, serves.of_other ran rfl trivial inflight queued sameWire ?_⟩
        rw [sent, requests]
        exact serves.sent

end Steps

/-- The stream of a run that is still polled has kept the account of its requests. -/
theorem serves_of_run (ran : Machine.run (step wire) (attached buffer) events = some final)
    (polled : final.failure = none) :
    ∃ written box, Serves wire buffer events final written box := by
  revert polled
  apply Machine.run_induction
    (fun events stream => stream.failure = none →
      ∃ written box, Serves wire buffer events stream written box) ran
  · intro _
    exact ⟨[], .empty, .attached⟩
  · intro events stream event next ranBefore ih stepped polled
    have wasPolled : stream.failure = none := by
      by_contra failed
      have isFailed : stream.failure.isSome = true := Option.isSome_iff_ne_none.mpr failed
      simp [step, isFailed] at stepped
    rcases ih wasPolled with ⟨written, box, serves⟩
    exact serves.step ranBefore stepped polled

/-- Once `next` has taken every request from the channel, the wire holds all the requests the
sender's channel ever accepted, whole and in order, if and only if each of them was taken while no
other one waited behind a frame in flight, and the peer took all the outstanding bytes when the
last one was written. Further polling changes nothing about it. -/
theorem requests_written_iff (roundTrips : wire.requests.RoundTrips)
    (ran : Machine.run (step wire) (attached buffer) events = some final)
    (received : final.requests = []) (polled : final.failure = none) :
    onWire wire.requests final.wire = final.sent ↔
      Machine.EveryStep (step wire) (attached buffer) events SlotFree ∧
        Machine.LastStep (step wire) (attached buffer) events FrontendEvent.isWrite
          (AllTaken wire) := by
  rcases serves_of_run ran polled with ⟨written, box, serves⟩
  rcases serves.carries.accepted with ⟨tail, accepted, unfinished, -⟩
  have onTheWire : onWire wire.requests final.wire = box.sent.map (·.value) := by
    have stream := streamOf_append box.sent unfinished
    rw [← accepted] at stream
    exact onWire_stream roundTrips stream
  rw [onTheWire, serves.sent, received, List.append_nil, serves.nothingReplaced,
    serves.nothingLeft]
  have short := serves.sublist.length_le
  have total : box.content.length =
      box.sent.length + box.current.toList.length + box.waiting.toList.length := by
    simp [Outbox.content, Outbox.begun, Nat.add_assoc]
  constructor
  · intro same
    have lengths := congrArg List.length same
    rw [List.length_map, List.length_map] at lengths
    refine ⟨by omega, ?_⟩
    have nothing : box.current.toList = [] := List.length_eq_zero_iff.mp (by omega)
    simpa using nothing
  · rintro ⟨nothingReplaced, nothingLeft⟩
    have everything := serves.sublist.eq_of_length nothingReplaced
    rw [← everything, Outbox.content_of_drained serves.carries.settled nothingLeft]

theorem wire_of_reads {inputs : List ReadOutcome}
    (ran : Machine.run (step wire) stream (inputs.map .read) = some final) :
    final.wire = stream.wire ∧ final.sent = stream.sent := by
  induction inputs generalizing stream with
  | nil =>
      cases ran
      exact ⟨rfl, rfl⟩
  | cons input inputs ih =>
      rcases Option.bind_eq_some_iff.mp ran with ⟨next, stepped, ranAfter⟩
      unfold step at stepped
      split at stepped
      · cases stepped
      · rcases readFrame_outbound stepped with ⟨-, -, -, sent, sameWire⟩
        rw [← sent, ← sameWire]
        exact ih ranAfter

section Examples

/-- Two reloads with their JSON texts. -/
def exampleWire : Wire ℕ where
  frames := .ofTable []
  requests := .ofTable
    [(.reloadConfig 1, Utf8.asciiBytes "\x7b\"t\":\"reload_config\",\"generation\":1\x7d".toList),
      (.reloadConfig 2, Utf8.asciiBytes "\x7b\"t\":\"reload_config\",\"generation\":2\x7d".toList)]

theorem exampleWire_roundTrips : exampleWire.requests.RoundTrips := by
  apply Codec.ofTable_roundTrips
  decide +kernel

/-- A peer that blocks in the middle of a first request and takes the rest with the second. -/
def caughtUp : List FrontendEvent :=
  [.send (.reloadConfig 1), .write [.took 20, .wouldBlock], .send (.reloadConfig 2),
    .write [.took 25, .took 45], .read .wouldBlock]

theorem requests_written_caughtUp :
    Machine.EveryStep (step exampleWire) (attached []) caughtUp SlotFree ∧
      Machine.LastStep (step exampleWire) (attached []) caughtUp FrontendEvent.isWrite
        (AllTaken exampleWire) := by
  have reached : ∃ final, Machine.run (step exampleWire) (attached []) caughtUp = some final ∧
      final.requests = [] ∧ final.failure = none ∧
      onWire exampleWire.requests final.wire = final.sent :=
    ⟨_, rfl, rfl, rfl, by decide +kernel⟩
  rcases reached with ⟨final, ran, received, polled, complete⟩
  exact (requests_written_iff exampleWire_roundTrips ran received polled).mp complete

/-- A request the peer took five bytes of stays incomplete however often `next` is polled after
that: only another request would push the rest of it. -/
theorem requests_written_stuck :
    ∃ stuck, Machine.run (step exampleWire) (attached [])
        [.send (.reloadConfig 1), .write [.took 5, .wouldBlock]] = some stuck ∧
      stuck.requests = [] ∧ stuck.failure = none ∧
      ∀ (inputs : List ReadOutcome) (final : FrameStream ℕ),
        Machine.run (step exampleWire) stuck (inputs.map .read) = some final →
        onWire exampleWire.requests final.wire ≠ final.sent := by
  refine ⟨_, rfl, rfl, rfl, ?_⟩
  intro inputs final ran
  rw [(wire_of_reads ran).1, (wire_of_reads ran).2]
  decide +kernel

end Examples

end FrameStream

end Gregg.Clientd

import Gregg.Lib.Machine
import Gregg.Lib.Outbox
import Gregg.Clientd.Inbound

/-!
# What a connection puts on the wire

The outbound buffers of a connection carry an outbox of encoded frames: what the stream has taken,
followed by what is in flight, is the encoding of the frames whose transmission has begun. Hence
the stream never holds a torn frame, and whatever reads it back in pieces finds the frames that
were handed over, in order.
-/

namespace Gregg.Clientd

namespace Connection

theorem flushOutbound_took {conn : Connection} (someBytes : conn.inflight ≠ [])
    (slotFree : conn.queued = none) :
    conn.flushOutbound [.took conn.inflight.length] =
      some ⟨{ conn with inflight := [] }, conn.inflight, .ok true⟩ := by
  have notEmpty : ¬conn.inflight.isEmpty = true := by simpa using someBytes
  have positive : conn.inflight.length ≠ 0 := by simpa using someBytes
  simp [flushOutbound, refill, notEmpty, positive, slotFree]

/-- The bytes that wait to be written. -/
def outstanding (conn : Connection) : ℕ :=
  conn.inflight.length + (conn.queued.getD []).length

/-- The bytes a stream takes before it first blocks. -/
def capacity : List WriteOutcome → ℕ
  | .took count :: outcomes => count + capacity outcomes
  | _ => 0

theorem refill_none_iff {conn : Connection} :
    conn.refill = none ↔ conn.inflight = [] ∧ conn.queued = none := by
  unfold refill
  split
  · rename_i empty
    rw [Option.map_eq_none_iff, List.isEmpty_iff.mp empty]
    simp
  · rename_i notEmpty
    constructor
    · intro impossible
      cases impossible
    · rintro ⟨empty, -⟩
      exact absurd (List.isEmpty_iff.mpr empty) notEmpty

theorem refill_some {conn next : Connection} (refilled : conn.refill = some next)
    (someQueued : conn.queued ≠ some []) :
    next.inflight ≠ [] ∧ next.queued ≠ some [] ∧ next.outstanding = conn.outstanding := by
  unfold refill at refilled
  split at refilled
  · rename_i empty
    rcases Option.map_eq_some_iff.mp refilled with ⟨queued, waiting, rfl⟩
    refine ⟨?_, by simp, ?_⟩
    · rintro rfl
      exact someQueued waiting
    · simp [outstanding, List.isEmpty_iff.mp empty, waiting]
  · rename_i notEmpty
    cases refilled
    refine ⟨?_, someQueued, rfl⟩
    intro empty
    exact notEmpty (List.isEmpty_iff.mpr empty)

/-- A flush that does not fail empties the connection exactly when the stream takes all the bytes
that waited. -/
theorem flushOutbound_ok {conn : Connection} {outcomes : List WriteOutcome}
    {written : Written Bool} {drained : Bool} (someQueued : conn.queued ≠ some [])
    (flushed : conn.flushOutbound outcomes = some written) (ok : written.result = .ok drained) :
    (written.conn.inflight = [] ↔ conn.outstanding ≤ capacity outcomes) ∧
      (written.conn.inflight = [] → written.conn.queued = none) := by
  induction outcomes generalizing conn written with
  | nil =>
      rw [flushOutbound] at flushed
      cases refilled : conn.refill with
      | none =>
          simp only [refilled, Option.some.injEq] at flushed
          subst flushed
          rcases refill_none_iff.mp refilled with ⟨empty, slotFree⟩
          simp [outstanding, empty, slotFree]
      | some next =>
          simp only [refilled, Option.some.injEq] at flushed
          subst flushed
          rcases refill_some refilled someQueued with ⟨notEmpty, -, same⟩
          have positive := List.length_pos_of_ne_nil notEmpty
          have waits : 0 < conn.outstanding := by
            rw [← same, outstanding]
            omega
          simp only [notEmpty, capacity, false_iff, false_implies, and_true]
          omega
  | cons outcome outcomes ih =>
      rw [flushOutbound] at flushed
      cases refilled : conn.refill with
      | none =>
          simp only [refilled, Option.some.injEq] at flushed
          subst flushed
          rcases refill_none_iff.mp refilled with ⟨empty, slotFree⟩
          simp [outstanding, empty, slotFree]
      | some next =>
          rcases refill_some refilled someQueued with ⟨notEmpty, someQueuedNext, same⟩
          have positive := List.length_pos_of_ne_nil notEmpty
          simp only [refilled] at flushed
          cases outcome with
          | wouldBlock =>
              cases flushed
              rw [← same]
              simp only [notEmpty, capacity, false_iff, false_implies, and_true, outstanding]
              omega
          | failed error =>
              cases flushed
              cases ok
          | took count =>
              simp only at flushed
              split at flushed
              · cases flushed
                cases ok
              · split at flushed
                · cases flushed
                · rename_i within
                  rcases Option.map_eq_some_iff.mp flushed with ⟨rest, restFlushed, rfl⟩
                  have someAfter : ({ next with inflight := next.inflight.drop count } :
                      Connection).queued ≠ some [] := someQueuedNext
                  rcases ih someAfter restFlushed ok with ⟨empties, slotFree⟩
                  refine ⟨empties.trans ?_, slotFree⟩
                  rw [← same]
                  simp only [outstanding, List.length_drop, capacity]
                  omega

end Connection

variable {Value : Type} {codec : Codec Value}

/-- The outbound buffers carry the frames of an outbox, of which the stream accepted some bytes. -/
structure Transmits (box : Outbox (EncodedFrame codec)) (conn : Connection)
    (accepted : List UInt8) : Prop where
  wire : accepted ++ conn.inflight = box.begun.flatMap EncodedFrame.bytes
  idle : box.current = none ↔ conn.inflight = []
  tail : ∀ frame ∈ box.current, conn.inflight <:+ frame.bytes
  queued : conn.queued = box.waiting.map EncodedFrame.bytes

namespace Transmits

variable {box : Outbox (EncodedFrame codec)} {conn next : Connection} {accepted : List UInt8}
  {frame : EncodedFrame codec}

theorem new : Transmits (Outbox.empty : Outbox (EncodedFrame codec)) Connection.new [] := by
  constructor
  · rfl
  · exact ⟨fun _ => rfl, fun _ => rfl⟩
  · rintro _ ⟨⟩
  · rfl

theorem refill_none (transmits : Transmits box conn accepted) (nothing : conn.refill = none) :
    box.current = none ∧ box.Settled := by
  unfold Connection.refill at nothing
  split at nothing
  · rename_i empty
    have drained := transmits.idle.mpr (List.isEmpty_iff.mp empty)
    have slotFree := Option.map_eq_none_iff.mp nothing
    rw [transmits.queued] at slotFree
    exact ⟨drained, fun _ => Option.map_eq_none_iff.mp slotFree⟩
  · cases nothing

theorem refill_some (transmits : Transmits box conn accepted) (refilled : conn.refill = some next) :
    Transmits box.promote next accepted ∧ box.promote.current ≠ none := by
  rcases box with ⟨sent, current, waiting⟩
  rcases transmits with ⟨wire, idle, tail, queued⟩
  unfold Connection.refill at refilled
  split at refilled
  · rename_i empty
    have nothingInflight := List.isEmpty_iff.mp empty
    have drained : current = none := idle.mpr nothingInflight
    subst drained
    rcases Option.map_eq_some_iff.mp refilled with ⟨encoded, queuedEq, rfl⟩
    rw [queued] at queuedEq
    rcases Option.map_eq_some_iff.mp queuedEq with ⟨frame, rfl, rfl⟩
    refine ⟨⟨?_, ?_, ?_, rfl⟩, by simp [Outbox.promote]⟩
    · rw [nothingInflight, List.append_nil] at wire
      simpa [Outbox.begun, Outbox.promote] using wire
    · simpa [Outbox.promote] using frame.bytes_ne_nil
    · rintro other ⟨⟩
      exact List.suffix_refl _
  · rename_i notEmpty
    cases refilled
    have inFlight : current ≠ none := by
      intro drained
      exact notEmpty (List.isEmpty_iff.mpr (idle.mp drained))
    rcases Option.ne_none_iff_exists'.mp inFlight with ⟨frame, rfl⟩
    exact ⟨⟨wire, idle, tail, queued⟩, by simp [Outbox.promote]⟩

/-- The stream takes some bytes of the frame in flight, or the last of them. -/
theorem take (transmits : Transmits box conn accepted) (count : ℕ) :
    ∃ after : Outbox (EncodedFrame codec), after.content = box.content ∧
      Transmits after { conn with inflight := conn.inflight.drop count }
        (accepted ++ conn.inflight.take count) := by
  rcases transmits with ⟨wire, idle, tail, queued⟩
  have wireAfter : accepted ++ conn.inflight.take count ++ conn.inflight.drop count =
      box.begun.flatMap EncodedFrame.bytes := by
    rw [List.append_assoc, List.take_append_drop, wire]
  by_cases allTaken : conn.inflight.drop count = []
  · refine ⟨box.finish, Outbox.content_finish, ?_, ?_, ?_, queued⟩
    · rw [Outbox.begun_finish]
      exact wireAfter
    · simp [Outbox.finish, allTaken]
    · rintro frame ⟨⟩
  · refine ⟨box, rfl, wireAfter, ?_, ?_, queued⟩
    · constructor
      · intro drained
        simp [idle.mp drained]
      · intro impossible
        exact absurd impossible allTaken
    · intro frame inFlight
      exact (List.drop_suffix _ _).trans (tail frame inFlight)

/-- Flushing moves frames through the outbox and leaves no frame waiting behind nothing. -/
theorem flushOutbound {outcomes : List WriteOutcome} {written : Written Bool}
    (transmits : Transmits box conn accepted)
    (flushed : conn.flushOutbound outcomes = some written) :
    ∃ after : Outbox (EncodedFrame codec), after.content = box.content ∧ after.Settled ∧
      Transmits after written.conn (accepted ++ written.taken) := by
  induction outcomes generalizing box conn accepted written with
  | nil =>
      rw [Connection.flushOutbound] at flushed
      cases refilled : conn.refill with
      | none =>
          simp only [refilled, Option.some.injEq] at flushed
          subst flushed
          exact ⟨box, rfl, (transmits.refill_none refilled).2, by simpa using transmits⟩
      | some next =>
          simp only [refilled, Option.some.injEq] at flushed
          subst flushed
          rcases transmits.refill_some refilled with ⟨transmits, inFlight⟩
          exact ⟨box.promote, Outbox.content_promote, fun drained => absurd drained inFlight,
            by simpa using transmits⟩
  | cons outcome outcomes ih =>
      rw [Connection.flushOutbound] at flushed
      cases refilled : conn.refill with
      | none =>
          simp only [refilled, Option.some.injEq] at flushed
          subst flushed
          exact ⟨box, rfl, (transmits.refill_none refilled).2, by simpa using transmits⟩
      | some next =>
          rcases transmits.refill_some refilled with ⟨transmits, inFlight⟩
          have stopped : ∃ after : Outbox (EncodedFrame codec), after.content = box.content ∧
              after.Settled ∧ Transmits after next (accepted ++ []) :=
            ⟨box.promote, Outbox.content_promote, fun drained => absurd drained inFlight,
              by simpa using transmits⟩
          simp only [refilled] at flushed
          cases outcome with
          | wouldBlock =>
              cases flushed
              exact stopped
          | failed error =>
              cases flushed
              exact stopped
          | took count =>
              simp only at flushed
              split at flushed
              · cases flushed
                exact stopped
              · split at flushed
                · cases flushed
                · rcases Option.map_eq_some_iff.mp flushed with ⟨rest, restFlushed, rfl⟩
                  rcases transmits.take count with ⟨middle, sameContent, transmitsMiddle⟩
                  rcases ih transmitsMiddle restFlushed with
                    ⟨after, laterContent, settled, transmitsAfter⟩
                  refine ⟨after, ?_, settled, ?_⟩
                  · rw [laterContent, sameContent, Outbox.content_promote]
                  · simpa using transmitsAfter

theorem place (transmits : Transmits box conn accepted) (settled : box.Settled)
    (frame : EncodedFrame codec) :
    Transmits (box.offer frame) (conn.place frame.bytes) accepted := by
  rcases box with ⟨sent, current, waiting⟩
  rcases transmits with ⟨wire, idle, tail, queued⟩
  cases current with
  | none =>
      have nothingInflight : conn.inflight = [] := idle.mp rfl
      rw [nothingInflight, List.append_nil] at wire
      simp only [Connection.place, nothingInflight, List.isEmpty_nil, ↓reduceIte, Outbox.offer]
      refine ⟨?_, ?_, ?_, queued⟩
      · simpa [Outbox.begun] using wire
      · simpa using frame.bytes_ne_nil
      · rintro other ⟨⟩
        exact List.suffix_refl _
  | some inFlight =>
      have notEmpty : ¬conn.inflight.isEmpty = true := by
        intro empty
        cases idle.mpr (List.isEmpty_iff.mp empty)
      simp only [Connection.place, notEmpty, Bool.false_eq_true, ↓reduceIte, Outbox.offer]
      exact ⟨wire, idle, tail, rfl⟩

end Transmits

/-- A connection with all the bytes its stream took and all the frames handed over to it. -/
structure Writer (codec : Codec Value) where
  conn : Connection
  accepted : List UInt8
  handed : List (EncodedFrame codec)

inductive WriterOp (codec : Codec Value) where
  | write (frame : EncodedFrame codec) (outcomes : List WriteOutcome)
  | flush (outcomes : List WriteOutcome)

namespace Writer

def new : Writer codec where
  conn := .new
  accepted := []
  handed := []

def step (writer : Writer codec) : WriterOp codec → Option (Writer codec)
  | .write frame outcomes =>
      (writer.conn.writeEncoded frame.bytes outcomes).map fun written =>
        { conn := written.conn
          accepted := writer.accepted ++ written.taken
          handed := writer.handed ++ [frame] }
  | .flush outcomes =>
      (writer.conn.flushOutbound outcomes).map fun written =>
        { writer with conn := written.conn, accepted := writer.accepted ++ written.taken }

/-- The writer behaves as an outbox. -/
structure Carries (writer : Writer codec) (box : Outbox (EncodedFrame codec)) : Prop where
  settled : box.Settled
  transmits : Transmits box writer.conn writer.accepted

variable {writer next : Writer codec} {box : Outbox (EncodedFrame codec)}
  {frame : EncodedFrame codec} {outcomes : List WriteOutcome}

theorem carries_new : (new : Writer codec).Carries .empty :=
  ⟨Outbox.settled_empty, .new⟩

theorem Carries.write (carries : writer.Carries box)
    (stepped : writer.step (.write frame outcomes) = some next) :
    next.handed = writer.handed ++ [frame] ∧
      ∃ after, next.Carries after ∧ after.content = (box.offer frame).content := by
  rcases Option.map_eq_some_iff.mp stepped with ⟨written, wrote, rfl⟩
  rcases Option.map_eq_some_iff.mp wrote with ⟨flushed, flushedEq, rfl⟩
  have placed := carries.transmits.place carries.settled frame
  rcases placed.flushOutbound flushedEq with ⟨after, sameContent, settled, transmits⟩
  exact ⟨rfl, after, ⟨settled, transmits⟩, sameContent⟩

/-- A write that does not fail empties the connection exactly when the peer takes what was left in
flight and the whole frame. -/
theorem Carries.write_drains (carries : writer.Carries box) {written : Written Unit}
    (wrote : writer.conn.writeEncoded frame.bytes outcomes = some written)
    (ok : written.result = .ok ()) :
    written.conn.inflight = [] ↔
      writer.conn.inflight.length + frame.bytes.length ≤ Connection.capacity outcomes := by
  rcases Option.map_eq_some_iff.mp wrote with ⟨flushed, flushedEq, rfl⟩
  have flushedOk : ∃ drained, flushed.result = .ok drained := by
    cases result : flushed.result with
    | error error => simp [result, Except.map] at ok
    | ok drained => exact ⟨drained, rfl⟩
  rcases flushedOk with ⟨drained, flushedOk⟩
  have placed : (writer.conn.place frame.bytes).queued ≠ some [] ∧
      (writer.conn.place frame.bytes).outstanding =
        writer.conn.inflight.length + frame.bytes.length := by
    by_cases empty : writer.conn.inflight = []
    · have slotFree : writer.conn.queued = none := by
        rw [carries.transmits.queued, carries.settled (carries.transmits.idle.mpr empty)]
        rfl
      simp [Connection.place, Connection.outstanding, empty, slotFree]
    · have notEmpty : ¬writer.conn.inflight.isEmpty = true := by simpa using empty
      simp [Connection.place, Connection.outstanding, notEmpty, frame.bytes_ne_nil]
  rw [← placed.2]
  exact (Connection.flushOutbound_ok placed.1 flushedEq flushedOk).1

theorem Carries.flush (carries : writer.Carries box)
    (stepped : writer.step (.flush outcomes) = some next) :
    next.handed = writer.handed ∧
      ∃ after, next.Carries after ∧ after.content = box.content := by
  rcases Option.map_eq_some_iff.mp stepped with ⟨written, flushedEq, rfl⟩
  rcases carries.transmits.flushOutbound flushedEq with ⟨after, sameContent, settled, transmits⟩
  exact ⟨rfl, after, ⟨settled, transmits⟩, sameContent⟩

/-- The frames that reach or may still reach the wire are a subsequence of those handed over. -/
theorem carries_of_runs {admissible : Writer codec → WriterOp codec → Prop}
    (runs : Machine.RunsTo step admissible new writer) :
    ∃ box, writer.Carries box ∧ box.content.Sublist writer.handed := by
  apply runs.invariant fun writer => ∃ box, writer.Carries box ∧ box.content.Sublist writer.handed
  · exact ⟨.empty, carries_new, List.nil_sublist _⟩
  · rintro state op next ⟨box, carries, sublist⟩ - stepped
    cases op with
    | write frame outcomes =>
        rcases carries.write stepped with ⟨handed, after, carriesAfter, sameContent⟩
        refine ⟨after, carriesAfter, ?_⟩
        rw [handed, sameContent]
        exact Outbox.content_offer_sublist carries.settled sublist
    | flush outcomes =>
        rcases carries.flush stepped with ⟨handed, after, carriesAfter, sameContent⟩
        refine ⟨after, carriesAfter, ?_⟩
        rw [handed, sameContent]
        exact sublist

/-- The bytes the stream took are whole frames and the beginning of the one in flight. -/
theorem Carries.accepted (carries : writer.Carries box) :
    ∃ tail, writer.accepted = box.sent.flatMap EncodedFrame.bytes ++ tail ∧
      frameFormat.Unfinished tail ∧
      tail <+: box.current.toList.flatMap EncodedFrame.bytes := by
  rcases box with ⟨sent, current, waiting⟩
  rcases carries.transmits with ⟨wire, idle, isTail, -⟩
  cases current with
  | none =>
      have drained : writer.conn.inflight = [] := idle.mp rfl
      rw [drained, List.append_nil] at wire
      refine ⟨[], ?_, Framing.Format.unfinished_nil, List.nil_prefix⟩
      simpa [Outbox.begun] using wire
  | some frame =>
      rcases isTail frame rfl with ⟨taken, split⟩
      have notEmpty : writer.conn.inflight ≠ [] := by
        intro drained
        cases idle.mpr drained
      have missing := List.length_pos_of_ne_nil notEmpty
      have lengths := congrArg List.length split
      rw [List.length_append] at lengths
      refine ⟨taken, ?_, frame.unfinished ⟨_, split⟩ (by omega), ?_⟩
      · simp only [Outbox.begun, Option.toList_some, List.flatMap_append, List.flatMap_cons,
          List.flatMap_nil, List.append_nil, ← split] at wire
        rw [← List.append_assoc] at wire
        exact List.append_cancel_right wire
      · exact ⟨_, by simpa using split⟩

/-- The bytes the stream took are whole frames and part of a next one, all of them handed over in
this order; and reading them back in any chunks that fit into the read buffer yields a front of the
values of the whole frames, and all of them once no frame is left to take. -/
def Untorn (writer : Writer codec) : Prop :=
  ∃ (whole : List (EncodedFrame codec)) (unfinished : Option (EncodedFrame codec))
    (tail : List UInt8),
    writer.accepted = whole.flatMap EncodedFrame.bytes ++ tail ∧
    tail <+: unfinished.toList.flatMap EncodedFrame.bytes ∧
    (whole ++ unfinished.toList).Sublist writer.handed ∧
    ∀ ops, pushed ops = writer.accepted → ¬Overflows codec .new ops →
      ∃ final values, readBack codec .new ops = .ok (final, values) ∧
        values <+: whole.map (·.value) ∧
        ((final.tryReadFrame codec).2 = .ok none → values = whole.map (·.value))

/-- Outbound framing is never torn, whatever is written and however the stream takes it. -/
theorem outbound_framing (roundTrips : codec.RoundTrips)
    (runs : Machine.RunsTo step Machine.anyEvent new writer) : writer.Untorn := by
  rcases carries_of_runs runs with ⟨box, carries, sublist⟩
  rcases carries.accepted with ⟨tail, accepted, unfinished, isPrefix⟩
  refine ⟨box.sent, box.current, tail, accepted, isPrefix, ?_, ?_⟩
  · exact (List.sublist_append_left _ _).trans sublist
  · intro ops pushedAll fits
    have stream : StreamOf (Connection.new.buffer ++ pushed ops) box.sent tail := by
      rw [pushedAll, accepted]
      exact streamOf_append box.sent unfinished
    rcases readBack_stream roundTrips stream fits with
      ⟨final, values, left, reached, split, remaining⟩
    refine ⟨final, values, reached, ⟨_, split.symm⟩, ?_⟩
    intro drained
    have streamNow : StreamOf (final.buffer ++ []) left tail := by
      rwa [List.append_nil]
    rcases Connection.tryReadFrame_stream roundTrips streamNow with
      ⟨-, waiting⟩ | ⟨frame, rest, others, rfl, taken, -⟩
    · have nothingLeft := List.map_eq_nil_iff.mp (remaining.nil_of_takeFrame waiting).1
      rw [split, nothingLeft, List.map_nil, List.append_nil]
    · rw [taken] at drained
      cases drained

theorem step_write_took (drained : writer.conn.inflight = []) (slotFree : writer.conn.queued = none)
    (frame : EncodedFrame codec) :
    writer.step (.write frame [.took frame.bytes.length]) =
      some { conn := writer.conn
             accepted := writer.accepted ++ frame.bytes
             handed := writer.handed ++ [frame] } := by
  rcases writer with ⟨⟨buffer, handshaken, claimed, inflight, queued⟩, accepted, handed⟩
  simp only at drained slotFree
  subst drained slotFree
  let placed : Connection := ⟨buffer, handshaken, claimed, frame.bytes, none⟩
  have took : placed.flushOutbound [.took frame.bytes.length] = _ :=
    Connection.flushOutbound_took frame.bytes_ne_nil rfl
  simp only [placed] at took
  simp only [step, Connection.writeEncoded, Connection.place, List.isEmpty_nil, ↓reduceIte, took,
    Option.map_some]

/-- A number of any length is its own JSON text. -/
def rawJson : Codec (List UInt8) where
  toVec := .ok
  fromSlice := .ok

theorem rawJson_roundTrips : rawJson.RoundTrips := by
  rintro value body ⟨⟩
  rfl

def repeatedDigit (count : ℕ) (fits : count ≤ MAX_FRAME_BYTES) : EncodedFrame rawJson where
  value := List.replicate count 0x31
  body := List.replicate count 0x31
  serialized := rfl
  fits := by simpa using fits

/-- Three short frames, the second of them replaced while the first one was in flight. -/
theorem outbound_framing_replaced :
    ∃ writer : Writer rawJson, writer.handed.length = 3 ∧ writer.accepted.length = 20 ∧
      writer.Untorn := by
  have reached : ∃ writer : Writer rawJson, Machine.RunsTo step Machine.anyEvent new writer ∧
      writer.handed.length = 3 ∧ writer.accepted.length = 20 :=
    ⟨_, (((Machine.RunsTo.refl.snoc
      (.write (repeatedDigit 2 (by decide)) [.took 4, .took 1, .wouldBlock]) trivial rfl).snoc
      (.write (repeatedDigit 5 (by decide)) [.wouldBlock]) trivial rfl).snoc
      (.write (repeatedDigit 3 (by decide)) [.took 6, .took 9]) trivial rfl), rfl, rfl⟩
  rcases reached with ⟨writer, runs, handed, accepted⟩
  exact ⟨writer, handed, accepted, outbound_framing rawJson_roundTrips runs⟩

/-- Two frames of the greatest size, pushed in one chunk, do not fit into the read buffer: nothing
is read back at all. -/
theorem outbound_framing_oneChunk :
    ∃ writer : Writer rawJson, Machine.RunsTo step Machine.anyEvent new writer ∧
      ∀ before after, ∃ error, readBack rawJson .new
        (List.replicate before .read ++ .push writer.accepted :: List.replicate after .read) =
          .error error := by
  have greatest : ∃ frame : EncodedFrame rawJson, frame.body.length = MAX_FRAME_BYTES :=
    ⟨repeatedDigit MAX_FRAME_BYTES (Nat.le_refl _), List.length_replicate⟩
  rcases greatest with ⟨frame, body⟩
  refine ⟨_, (Machine.RunsTo.refl.snoc _ trivial (step_write_took rfl rfl frame)).snoc _ trivial
    (step_write_took rfl rfl frame), ?_⟩
  intro before after
  have tooLarge : MAX_BUFFERED_BYTES < (frame.bytes ++ frame.bytes).length := by
    rw [List.length_append, frame.length_bytes, body]
    decide
  have refused : ∃ error, Connection.new.pushBytes (frame.bytes ++ frame.bytes) = .error error :=
    ⟨_, if_pos (by simpa [Connection.new] using tooLarge)⟩
  rcases refused with ⟨error, refused⟩
  refine ⟨error, ?_⟩
  induction before with
  | zero => simp only [List.replicate_zero, List.nil_append, readBack, new, refused]
  | succ before ih => exact ih

end Writer

end Gregg.Clientd

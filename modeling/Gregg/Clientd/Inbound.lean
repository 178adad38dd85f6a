import Gregg.Clientd.Connection

/-!
# What a connection reads off the wire

Taking frames off the read buffer is the length-prefixed decoding of the framing library, so a
connection that is fed a stream of encoded frames, in pieces of any size and read at any moments,
yields the values of those frames in order. The one thing that can go wrong is that a piece does
not fit into the buffer.
-/

namespace Gregg.Clientd

theorem parseLength_le {bytes : List UInt8} {len : ℕ} (parsed : parseLength bytes = .ok len) :
    len ≤ MAX_FRAME_BYTES := by
  unfold parseLength at parsed
  repeat' split at parsed
  all_goals cases parsed
  omega

/-- The bytes of some frames, followed by an unfinished one. -/
def StreamOf {Value : Type} {codec : Codec Value} (bytes : List UInt8)
    (frames : List (EncodedFrame codec)) (tail : List UInt8) : Prop :=
  frameFormat.Stream bytes (frames.map EncodedFrame.body) tail

variable {Value : Type} {codec : Codec Value} {frames : List (EncodedFrame codec)}
  {bytes tail later : List UInt8}

theorem flatMap_bytes (frames : List (EncodedFrame codec)) :
    frames.flatMap EncodedFrame.bytes =
      (frames.map EncodedFrame.body).flatMap frameFormat.encode := by
  rw [List.flatMap_map]
  rfl

theorem streamOf_append (frames : List (EncodedFrame codec))
    (unfinished : frameFormat.Unfinished tail) :
    StreamOf (frames.flatMap EncodedFrame.bytes ++ tail) frames tail := by
  constructor
  · rw [flatMap_bytes]
  · intro body member
    rcases List.mem_map.mp member with ⟨frame, -, rfl⟩
    exact frame.fits
  · exact unfinished

theorem EncodedFrame.unfinished (frame : EncodedFrame codec) (isPrefix : tail <+: frame.bytes)
    (short : tail.length < frame.bytes.length) : frameFormat.Unfinished tail :=
  ⟨frame.body, frame.fits, isPrefix, short⟩

namespace Connection

variable {conn : Connection}

theorem takeBody_eq (conn : Connection) :
    conn.takeBody =
      match frameFormat.takeFrame conn.buffer with
      | .error error => (conn, .error (.ofDecode error))
      | .ok none => (conn, .ok none)
      | .ok (some (body, rest)) => ({ conn with buffer := rest }, .ok (some body)) := by
  have parse : frameFormat.parse = parseLength := rfl
  have headerLen : frameFormat.headerLen = LEN_PREFIX_BYTES := rfl
  simp only [takeBody, Framing.Format.takeFrame, parse, headerLen]
  by_cases short : conn.buffer.length < LEN_PREFIX_BYTES
  · simp only [short, ↓reduceIte]
  · simp only [short, ↓reduceIte]
    cases parsed : parseLength (conn.buffer.take LEN_PREFIX_BYTES) with
    | error error => rfl
    | ok len =>
        have inRange : LEN_PREFIX_BYTES + len ≤ u64Max := by
          apply Nat.le_trans (Nat.add_le_add_left (parseLength_le parsed) _)
          decide
        have frameEnd : satAdd LEN_PREFIX_BYTES len = LEN_PREFIX_BYTES + len :=
          Nat.min_eq_left inRange
        have body : (conn.buffer.take (LEN_PREFIX_BYTES + len)).drop LEN_PREFIX_BYTES =
            (conn.buffer.drop LEN_PREFIX_BYTES).take len := by
          rw [List.drop_take, Nat.add_sub_cancel_left]
        simp only [frameEnd, body]
        split
        · rfl
        · rfl

theorem tryReadFrame_buffer {next : Connection} {result : Except TransportError (Option Value)}
    (taken : conn.tryReadFrame codec = (next, result)) :
    ∃ rest, next = { conn with buffer := rest } := by
  have bodyTaken : ∀ next result, conn.takeBody = (next, result) →
      ∃ rest, next = { conn with buffer := rest } := by
    intro next result taken
    rw [takeBody_eq] at taken
    split at taken
    · cases taken
      exact ⟨conn.buffer, rfl⟩
    · cases taken
      exact ⟨conn.buffer, rfl⟩
    · cases taken
      exact ⟨_, rfl⟩
  unfold tryReadFrame at taken
  split at taken
  · cases taken
    rename_i body
    exact bodyTaken _ _ body
  · cases taken
    rename_i body
    exact bodyTaken _ _ body
  · rename_i body
    split at taken
    · cases taken
      exact bodyTaken _ _ body
    · cases taken
      exact bodyTaken _ _ body

/-- A connection in the middle of a stream of frames takes the next one, or waits. -/
theorem tryReadFrame_stream (roundTrips : codec.RoundTrips)
    (stream : StreamOf (conn.buffer ++ later) frames tail) :
    (conn.tryReadFrame codec = (conn, .ok none) ∧ frameFormat.takeFrame conn.buffer = .ok none) ∨
      ∃ frame rest others, frames = frame :: others ∧
        conn.tryReadFrame codec = ({ conn with buffer := rest }, .ok (some frame.value)) ∧
        StreamOf (rest ++ later) others tail := by
  rcases stream.takeFrame with waiting | ⟨body, rest, bodies, split, taken, remaining⟩
  · left
    simp only [tryReadFrame, takeBody_eq, waiting, and_self]
  · right
    rcases List.map_eq_cons_iff.mp split with ⟨frame, others, rfl, rfl, rfl⟩
    refine ⟨frame, rest, others, rfl, ?_, remaining⟩
    simp only [tryReadFrame, takeBody_eq, taken, roundTrips _ _ frame.serialized]

end Connection

/-- The values of the whole frames at the front of some bytes. -/
def onWire (codec : Codec Value) (bytes : List UInt8) : List Value :=
  (frameFormat.decode bytes).filterMap fun body => (codec.fromSlice body).toOption

theorem onWire_stream (roundTrips : codec.RoundTrips) (stream : StreamOf bytes frames tail) :
    onWire codec bytes = frames.map (·.value) := by
  rw [onWire, stream.decode, List.filterMap_map, ← List.filterMap_eq_map]
  congr 1
  funext frame
  simp only [Function.comp_apply, roundTrips _ _ frame.serialized, Except.toOption]

/-- One thing the reading side does. -/
inductive ReadOp where
  | push (chunk : List UInt8)
  | read

def pushed (ops : List ReadOp) : List UInt8 :=
  ops.flatMap fun
    | .push chunk => chunk
    | .read => []

/-- The connection after some pushes and reads, with the values the reads returned. -/
def readBack (codec : Codec Value) (conn : Connection) :
    List ReadOp → Except TransportError (Connection × List Value)
  | [] => .ok (conn, [])
  | .push chunk :: ops =>
      match conn.pushBytes chunk with
      | .error error => .error error
      | .ok conn => readBack codec conn ops
  | .read :: ops =>
      match conn.tryReadFrame codec with
      | (_, .error error) => .error error
      | (conn, .ok none) => readBack codec conn ops
      | (conn, .ok (some value)) =>
          (readBack codec conn ops).map fun (final, values) => (final, value :: values)

/-- Some chunk is pushed while the buffer cannot hold it. -/
def Overflows (codec : Codec Value) (conn : Connection) (ops : List ReadOp) : Prop :=
  ∃ before chunk after current values, ops = before ++ .push chunk :: after ∧
    readBack codec conn before = .ok (current, values) ∧
    MAX_BUFFERED_BYTES < current.buffer.length + chunk.length

theorem Overflows.push {conn next : Connection} {chunk : List UInt8} {ops : List ReadOp}
    (fed : conn.pushBytes chunk = .ok next) (overflows : Overflows codec next ops) :
    Overflows codec conn (.push chunk :: ops) := by
  rcases overflows with ⟨before, other, after, current, values, rfl, reached, tooLarge⟩
  refine ⟨.push chunk :: before, other, after, current, values, rfl, ?_, tooLarge⟩
  simpa only [readBack, fed] using reached

theorem Overflows.read {conn next : Connection} {found : Option Value} {ops : List ReadOp}
    (taken : conn.tryReadFrame codec = (next, .ok found)) (overflows : Overflows codec next ops) :
    Overflows codec conn (.read :: ops) := by
  rcases overflows with ⟨before, other, after, current, values, rfl, reached, tooLarge⟩
  refine ⟨.read :: before, other, after, current, found.toList ++ values, rfl, ?_, tooLarge⟩
  cases found with
  | none => simpa only [readBack, taken, Option.toList_none, List.nil_append] using reached
  | some value => simp only [readBack, taken, reached, Except.map, Option.toList_some,
      List.singleton_append]

/-- Reading a stream of frames back, in pieces and at moments of the reader's choice, yields their
values in order; it fails only where a piece does not fit. -/
theorem readBack_stream (roundTrips : codec.RoundTrips) {ops : List ReadOp} {conn : Connection}
    (stream : StreamOf (conn.buffer ++ pushed ops) frames tail)
    (fits : ¬Overflows codec conn ops) :
    ∃ final values, ∃ left : List (EncodedFrame codec),
      readBack codec conn ops = .ok (final, values) ∧
      frames.map (·.value) = values ++ left.map (·.value) ∧ StreamOf final.buffer left tail := by
  induction ops generalizing conn frames with
  | nil =>
      refine ⟨conn, [], frames, rfl, rfl, ?_⟩
      simpa [pushed] using stream
  | cons op ops ih =>
      cases op with
      | push chunk =>
          have roomy : ¬MAX_BUFFERED_BYTES < conn.buffer.length + chunk.length := by
            intro tooLarge
            exact fits ⟨[], chunk, ops, conn, [], rfl, rfl, tooLarge⟩
          have fed : conn.pushBytes chunk = .ok { conn with buffer := conn.buffer ++ chunk } := by
            simp only [Connection.pushBytes, roomy, ↓reduceIte]
          rcases ih (by simpa [pushed] using stream) fun overflows => fits (overflows.push fed) with
            ⟨final, values, left, reached, split, remaining⟩
          refine ⟨final, values, left, ?_, split, remaining⟩
          simpa only [readBack, fed] using reached
      | read =>
          have streamNow : StreamOf (conn.buffer ++ pushed ops) frames tail := by
            simpa [pushed] using stream
          rcases Connection.tryReadFrame_stream roundTrips streamNow with
            ⟨taken, -⟩ | ⟨frame, rest, others, rfl, taken, remaining⟩
          · rcases ih streamNow fun overflows => fits (overflows.read taken) with
              ⟨final, values, left, reached, split, remaining⟩
            refine ⟨final, values, left, ?_, split, remaining⟩
            simpa only [readBack, taken] using reached
          · have fitsAfter : ¬Overflows codec { conn with buffer := rest } ops :=
              fun overflows => fits (overflows.read taken)
            rcases ih remaining fitsAfter with ⟨final, values, left, reached, split, remaining⟩
            refine ⟨final, frame.value :: values, left, ?_, ?_, remaining⟩
            · simp only [readBack, taken, reached, Except.map]
            · rw [List.map_cons, split, List.cons_append]

end Gregg.Clientd

import Gregg.Clientd.Outbound

/-!
# State documents and control frames on one connection

A connection has one replacement slot for two kinds of frame. A state document may replace whatever
waits there, because it supersedes it; a control frame must not replace a document. As long as none
does, a peer that takes everything ends up with the newest document.
-/

namespace Gregg.Clientd

namespace Writer

variable {Snapshot : Type} {codec : Codec (FrontendFrame Snapshot)}
  {writer next : Writer codec} {op : WriterOp codec}

/-- The step writes no control frame while a state document waits for the frame in flight. -/
def KeepsDocument (writer : Writer codec) : WriterOp codec → Prop
  | .write frame _ => frame.value.isDocument = false →
      ∀ document : EncodedFrame codec, document.value.isDocument = true →
        writer.conn.queued ≠ some document.bytes
  | .flush _ => True

def isDocument (frame : EncodedFrame codec) : Bool :=
  frame.value.isDocument

/-- The newest document handed over is also the newest one sent or held. -/
def Fresh (writer : Writer codec) (box : Outbox (EncodedFrame codec)) : Prop :=
  Outbox.latest isDocument box.content = Outbox.latest isDocument writer.handed

theorem fresh_step {box : Outbox (EncodedFrame codec)} (carries : writer.Carries box)
    (fresh : writer.Fresh box) (keeps : writer.KeepsDocument op)
    (stepped : writer.step op = some next) : ∃ after, next.Carries after ∧ next.Fresh after := by
  cases op with
  | write frame outcomes =>
      rcases carries.write stepped with ⟨handed, after, carriesAfter, sameContent⟩
      refine ⟨after, carriesAfter, ?_⟩
      rw [Fresh, handed, sameContent]
      apply Outbox.latest_content_offer carries.settled _ fresh
      intro isControl waiting slot
      by_contra isDoc
      rw [Bool.not_eq_false] at isDoc
      apply keeps isControl waiting isDoc
      rw [carries.transmits.queued, Option.mem_def.mp slot, Option.map_some]
  | flush outcomes =>
      rcases carries.flush stepped with ⟨handed, after, carriesAfter, sameContent⟩
      refine ⟨after, carriesAfter, ?_⟩
      rw [Fresh, handed, sameContent]
      exact fresh

theorem fresh_of_runs (runs : Machine.RunsTo step KeepsDocument new writer) :
    ∃ box, writer.Carries box ∧ writer.Fresh box := by
  apply runs.invariant fun writer => ∃ box, writer.Carries box ∧ writer.Fresh box
  · exact ⟨.empty, carries_new, rfl⟩
  · rintro state op next ⟨box, carries, fresh⟩ keeps stepped
    exact fresh_step carries fresh keeps stepped

theorem latest_map_value (frames : List (EncodedFrame codec)) :
    Outbox.latest FrontendFrame.isDocument (frames.map (·.value)) =
      (Outbox.latest isDocument frames).map (·.value) := by
  rw [Outbox.latest, Outbox.latest, List.filter_map, List.getLast?_map]
  rfl

/-- In every run that writes no control frame over a waiting state document, whenever the peer has
taken all bytes the last document on the wire is the last one handed over. -/
theorem lastDocument_delivered (roundTrips : codec.RoundTrips)
    (runs : Machine.RunsTo step KeepsDocument new writer) (drained : writer.conn.inflight = []) :
    Outbox.latest FrontendFrame.isDocument (onWire codec writer.accepted) =
      Outbox.latest FrontendFrame.isDocument (writer.handed.map (·.value)) := by
  rcases fresh_of_runs runs with ⟨box, carries, fresh⟩
  have idle : box.current = none := carries.transmits.idle.mpr drained
  have content := Outbox.content_of_drained carries.settled idle
  have wire : StreamOf writer.accepted box.sent [] := by
    rcases carries.accepted with ⟨tail, accepted, unfinished, isPrefix⟩
    have noTail : tail = [] := by
      rw [idle] at isPrefix
      exact List.prefix_nil.mp isPrefix
    subst noTail
    rw [accepted]
    exact streamOf_append box.sent unfinished
  rw [onWire_stream roundTrips wire, latest_map_value, latest_map_value, ← fresh, content]

section Examples

/-- Documents numbered by their generation, and one acknowledgement, with their JSON texts. -/
def exampleTable : List (FrontendFrame ℕ × List UInt8) :=
  [(.snapshot 1, Utf8.asciiBytes "\x7b\"t\":\"snapshot\",\"generation\":1\x7d".toList),
    (.snapshot 2, Utf8.asciiBytes "\x7b\"t\":\"snapshot\",\"generation\":2\x7d".toList),
    (.controlAck 7 true none, Utf8.asciiBytes
      "\x7b\"t\":\"control_ack\",\"generation\":7,\"accepted\":true,\"detail\":null\x7d".toList)]

def exampleCodec : Codec (FrontendFrame ℕ) := .ofTable exampleTable

theorem exampleCodec_roundTrips : exampleCodec.RoundTrips := by
  apply Codec.ofTable_roundTrips
  decide +kernel

def exampleFrame (index : Fin 3) : EncodedFrame exampleCodec where
  value := (exampleTable.get index).1
  body := (exampleTable.get index).2
  serialized := by revert index; decide +kernel
  fits := by revert index; decide +kernel

/-- The acknowledgement goes out before the second document is handed over. -/
theorem lastDocument_delivered_afterAck :
    ∃ writer : Writer exampleCodec, writer.handed.length = 3 ∧
      Outbox.latest FrontendFrame.isDocument (onWire exampleCodec writer.accepted) =
        Outbox.latest FrontendFrame.isDocument (writer.handed.map (·.value)) := by
  have reached : ∃ writer : Writer exampleCodec,
      Machine.RunsTo step KeepsDocument new writer ∧ writer.handed.length = 3 ∧
        writer.conn.inflight = [] := by
    refine ⟨_, (((Machine.RunsTo.refl.snoc
      (.write (exampleFrame 0) [.took 10, .wouldBlock]) ?_ rfl).snoc
      (.write (exampleFrame 2) [.took 30, .took 73]) ?_ rfl).snoc
      (.write (exampleFrame 1) [.took 40]) ?_ rfl), rfl, rfl⟩
    all_goals
      intro _ document _ slotTaken
      cases slotTaken
  rcases reached with ⟨writer, runs, handed, drained⟩
  exact ⟨writer, handed, lastDocument_delivered exampleCodec_roundTrips runs drained⟩

/-- An acknowledgement written while a document waits takes its place: the peer takes every byte
and never learns of the second document. -/
theorem lastDocument_replacedByAck :
    ∃ writer : Writer exampleCodec,
      Machine.RunsTo step Machine.anyEvent new writer ∧ writer.conn.inflight = [] ∧
      Outbox.latest FrontendFrame.isDocument (onWire exampleCodec writer.accepted) ≠
        Outbox.latest FrontendFrame.isDocument (writer.handed.map (·.value)) := by
  refine ⟨_, (((Machine.RunsTo.refl.snoc
    (.write (exampleFrame 0) [.took 10, .wouldBlock]) trivial rfl).snoc
    (.write (exampleFrame 1) [.wouldBlock]) trivial rfl).snoc
    (.write (exampleFrame 2) [.took 30, .took 73]) trivial rfl), rfl, ?_⟩
  decide +kernel

end Examples

end Writer

end Gregg.Clientd

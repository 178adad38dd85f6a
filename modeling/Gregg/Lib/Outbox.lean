import Mathlib.Data.List.Basic

/-!
# One frame in flight and one replacement slot

An outbox transmits frames one after the other. A frame offered while another one is in flight
waits in a single slot, where it replaces the frame that waited there. What the outbox has sent or
still holds is therefore a subsequence of what it was offered, and everything as long as no offer
finds the slot taken.
-/

universe u

structure Outbox (Frame : Type u) where
  sent : List Frame
  current : Option Frame
  waiting : Option Frame

namespace Outbox

variable {Frame : Type u}

def empty : Outbox Frame where
  sent := []
  current := none
  waiting := none

def offer (box : Outbox Frame) (frame : Frame) : Outbox Frame :=
  match box.current with
  | none => { box with current := some frame }
  | some _ => { box with waiting := some frame }

/-- The last byte of the frame in flight is taken. -/
def finish (box : Outbox Frame) : Outbox Frame where
  sent := box.sent ++ box.current.toList
  current := none
  waiting := box.waiting

def promote (box : Outbox Frame) : Outbox Frame :=
  match box.current with
  | none => { box with current := box.waiting, waiting := none }
  | some _ => box

/-- The frames whose transmission has begun. -/
def begun (box : Outbox Frame) : List Frame :=
  box.sent ++ box.current.toList

def content (box : Outbox Frame) : List Frame :=
  box.begun ++ box.waiting.toList

/-- No frame waits while nothing is in flight. -/
def Settled (box : Outbox Frame) : Prop :=
  box.current = none → box.waiting = none

/-- The last frame of a kind. -/
def latest (kind : Frame → Bool) (frames : List Frame) : Option Frame :=
  (frames.filter kind).getLast?

variable {box : Outbox Frame} {frame : Frame} {handed : List Frame} {kind : Frame → Bool}

@[simp]
theorem content_empty : (empty : Outbox Frame).content = [] := rfl

theorem settled_empty : (empty : Outbox Frame).Settled := fun _ => rfl

@[simp]
theorem begun_finish : box.finish.begun = box.begun := by
  simp [finish, begun]

@[simp]
theorem content_finish : box.finish.content = box.content := by
  rw [content, begun_finish]
  rfl

@[simp]
theorem content_promote : box.promote.content = box.content := by
  rcases box with ⟨sent, current, waiting⟩
  cases current with
  | none => simp [promote, content, begun]
  | some _ => rfl

theorem content_of_drained (settled : box.Settled) (drained : box.current = none) :
    box.content = box.sent := by
  simp [content, begun, drained, settled drained]

theorem content_offer (settled : box.Settled) :
    (box.offer frame).content = box.begun ++ [frame] := by
  rcases box with ⟨sent, current, waiting⟩
  cases current with
  | none =>
      have slotFree : waiting = none := settled rfl
      simp [offer, content, begun, slotFree]
  | some _ => simp [offer, content, begun]

theorem content_offer_of_slotFree (settled : box.Settled) (slotFree : box.waiting = none) :
    (box.offer frame).content = box.content ++ [frame] := by
  rw [content_offer settled, content, slotFree, Option.toList_none, List.append_nil]

theorem length_content_offer (settled : box.Settled) {waiting : Frame}
    (slotTaken : box.waiting = some waiting) :
    (box.offer frame).content.length = box.content.length := by
  rw [content_offer settled, content, slotTaken]
  simp

/-- What is sent or held is a subsequence of what was offered. -/
theorem content_offer_sublist (settled : box.Settled) (sublist : box.content.Sublist handed) :
    (box.offer frame).content.Sublist (handed ++ [frame]) := by
  rw [content_offer settled]
  apply List.Sublist.append _ (List.Sublist.refl [frame])
  exact (List.sublist_append_left _ _).trans sublist

theorem latest_append_of_kind (isKind : kind frame = true) (frames : List Frame) :
    latest kind (frames ++ [frame]) = some frame := by
  simp [latest, List.filter_append, isKind]

theorem latest_append_of_other (isOther : kind frame = false) (frames : List Frame) :
    latest kind (frames ++ [frame]) = latest kind frames := by
  simp [latest, List.filter_append, isOther]

/-- The newest frame of a kind stays the newest one held or sent, unless a frame of another kind
takes the slot it waits in. -/
theorem latest_content_offer (settled : box.Settled)
    (keeps : kind frame = false → ∀ waiting ∈ box.waiting, kind waiting = false)
    (newest : latest kind box.content = latest kind handed) :
    latest kind (box.offer frame).content = latest kind (handed ++ [frame]) := by
  rw [content_offer settled]
  cases isKind : kind frame with
  | true => rw [latest_append_of_kind isKind, latest_append_of_kind isKind]
  | false =>
      rw [latest_append_of_other isKind, latest_append_of_other isKind, ← newest, content]
      cases slot : box.waiting with
      | none => simp
      | some waiting =>
          have isOther := keeps isKind waiting slot
          rw [Option.toList_some, latest_append_of_other isOther]

end Outbox

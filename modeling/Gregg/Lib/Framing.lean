import Mathlib.Data.List.Basic

/-!
# Length-prefixed framing

A frame is a header of fixed size that announces the length of a body, followed by the body. A
stream of such frames decodes to its bodies whatever is known of it so far: a reader that holds
only the first bytes of a stream either takes its first frame or learns that the frame is not
complete yet, and never misreads what it holds.
-/

namespace Framing

universe u v

/-- A header format whose announcements are read back as they were written. -/
structure Format (Byte : Type u) (Error : Type v) where
  headerLen : ℕ
  limit : ℕ
  header : ℕ → List Byte
  parse : List Byte → Except Error ℕ
  headerLen_pos : 0 < headerLen
  header_length : ∀ length ≤ limit, (header length).length = headerLen
  parse_header : ∀ length ≤ limit, parse (header length) = .ok length

namespace Format

variable {Byte : Type u} {Error : Type v} (format : Format Byte Error)

def encode (body : List Byte) : List Byte :=
  format.header body.length ++ body

/-- The first frame of a buffer and the bytes after it, `none` while it is incomplete. -/
def takeFrame (buffer : List Byte) : Except Error (Option (List Byte × List Byte)) :=
  if buffer.length < format.headerLen then .ok none
  else
    match format.parse (buffer.take format.headerLen) with
    | .error error => .error error
    | .ok length =>
        if buffer.length < format.headerLen + length then .ok none
        else .ok (some ((buffer.drop format.headerLen).take length,
          buffer.drop (format.headerLen + length)))

/-- The bytes of a frame that has begun and is not complete; no byte at all is such a beginning. -/
def Unfinished (buffer : List Byte) : Prop :=
  ∃ body : List Byte, body.length ≤ format.limit ∧ buffer <+: format.encode body ∧
    buffer.length < (format.encode body).length

/-- Whole frames followed by an unfinished one. -/
structure Stream (bytes : List Byte) (bodies : List (List Byte)) (tail : List Byte) : Prop where
  bytes_eq : bytes = bodies.flatMap format.encode ++ tail
  fits : ∀ body ∈ bodies, body.length ≤ format.limit
  unfinished : format.Unfinished tail

def decodeFrom : ℕ → List Byte → List (List Byte)
  | 0, _ => []
  | fuel + 1, buffer =>
      match format.takeFrame buffer with
      | .ok (some (body, rest)) => body :: decodeFrom fuel rest
      | _ => []

/-- The bodies of the whole frames at the front of a buffer. -/
def decode (bytes : List Byte) : List (List Byte) :=
  format.decodeFrom bytes.length bytes

variable {format} {bytes buffer later tail : List Byte} {body : List Byte}
  {bodies : List (List Byte)}

theorem length_encode (fits : body.length ≤ format.limit) :
    (format.encode body).length = format.headerLen + body.length := by
  rw [encode, List.length_append, format.header_length _ fits]

theorem unfinished_nil : format.Unfinished [] := by
  refine ⟨[], Nat.zero_le _, List.nil_prefix, ?_⟩
  rw [length_encode (Nat.zero_le _)]
  simpa using format.headerLen_pos

theorem takeFrame_encode_append (rest : List Byte) (fits : body.length ≤ format.limit) :
    format.takeFrame (format.encode body ++ rest) = .ok (some (body, rest)) := by
  have headerLength := format.header_length _ fits
  have header : (format.encode body ++ rest).take format.headerLen =
      format.header body.length := by
    rw [encode, List.append_assoc, ← headerLength, List.take_left]
  have afterHeader : (format.encode body ++ rest).drop format.headerLen = body ++ rest := by
    rw [encode, List.append_assoc, ← headerLength, List.drop_left]
  have total : (format.encode body ++ rest).length =
      format.headerLen + body.length + rest.length := by
    rw [List.length_append, length_encode fits]
  have notShort : ¬(format.encode body ++ rest).length < format.headerLen := by omega
  have complete : ¬(format.encode body ++ rest).length < format.headerLen + body.length := by
    omega
  have afterFrame : (format.encode body ++ rest).drop (format.headerLen + body.length) = rest := by
    rw [← List.drop_drop, afterHeader, List.drop_left]
  simp only [takeFrame, notShort, header, format.parse_header _ fits, complete, afterHeader,
    afterFrame, List.take_left, ↓reduceIte]

/-- What stands first in a buffer still does when more bytes arrive. -/
theorem takeFrame_append {rest : List Byte} (later : List Byte)
    (taken : format.takeFrame buffer = .ok (some (body, rest))) :
    format.takeFrame (buffer ++ later) = .ok (some (body, rest ++ later)) := by
  unfold takeFrame at taken ⊢
  split at taken
  · cases taken
  · rename_i headerHere
    have headerHereToo : ¬(buffer ++ later).length < format.headerLen := by
      rw [List.length_append]
      omega
    rw [if_neg headerHereToo, List.take_append_of_le_length (Nat.not_lt.mp headerHere)]
    split at taken
    · cases taken
    · rename_i length parsed
      split at taken
      · cases taken
      · rename_i complete
        have completeToo : ¬(buffer ++ later).length < format.headerLen + length := by
          rw [List.length_append]
          omega
        cases taken
        simp only [if_neg completeToo]
        rw [List.drop_append_of_le_length (Nat.not_lt.mp complete),
          List.drop_append_of_le_length (Nat.not_lt.mp headerHere), List.take_append_of_le_length]
        rw [List.length_drop]
        omega

theorem suffix_of_takeFrame {rest : List Byte}
    (taken : format.takeFrame buffer = .ok (some (body, rest))) : rest <:+ buffer := by
  unfold takeFrame at taken
  split at taken
  · cases taken
  · split at taken
    · cases taken
    · split at taken
      · cases taken
      · cases taken
        exact List.drop_suffix _ _

theorem takeFrame_unfinished (unfinished : format.Unfinished buffer) :
    format.takeFrame buffer = .ok none := by
  rcases unfinished with ⟨body, fits, isPrefix, short⟩
  rw [length_encode fits] at short
  by_cases headerMissing : buffer.length < format.headerLen
  · simp only [takeFrame, headerMissing, ↓reduceIte]
  · have header : buffer.take format.headerLen = format.header body.length := by
      have headerLength := format.header_length _ fits
      have headerPrefix : format.header body.length <+: buffer := by
        apply List.prefix_of_prefix_length_le (List.prefix_append _ _) isPrefix
        omega
      rw [← headerLength]
      exact (List.prefix_iff_eq_take.mp headerPrefix).symm
    simp only [takeFrame, headerMissing, header, format.parse_header _ fits, short, ↓reduceIte]

theorem Unfinished.of_prefix (unfinished : format.Unfinished tail) (isPrefix : buffer <+: tail) :
    format.Unfinished buffer := by
  rcases unfinished with ⟨body, fits, tailPrefix, short⟩
  exact ⟨body, fits, isPrefix.trans tailPrefix, Nat.lt_of_le_of_lt isPrefix.length_le short⟩

/-- A reader that holds the front of a stream takes its first frame, or waits for more of it. -/
theorem Stream.takeFrame (stream : format.Stream (buffer ++ later) bodies tail) :
    format.takeFrame buffer = .ok none ∨
      ∃ body rest others, bodies = body :: others ∧
        format.takeFrame buffer = .ok (some (body, rest)) ∧
        format.Stream (rest ++ later) others tail := by
  rcases stream with ⟨bytesEq, fits, unfinished⟩
  rcases bodies with _ | ⟨body, others⟩
  · left
    apply takeFrame_unfinished
    apply unfinished.of_prefix
    rw [List.flatMap_nil, List.nil_append] at bytesEq
    exact ⟨later, bytesEq⟩
  · have bodyFits := fits body (by simp)
    rw [List.flatMap_cons, List.append_assoc] at bytesEq
    rcases List.append_eq_append_iff.mp bytesEq with
      ⟨missing, encoded, -⟩ | ⟨rest, bufferEq, remaining⟩
    · by_cases complete : missing = []
      · right
        subst complete
        rw [List.append_nil] at encoded
        refine ⟨body, [], others, rfl, ?_, ?_, ?_, unfinished⟩
        · rw [← encoded, ← List.append_nil (format.encode body)]
          exact takeFrame_encode_append [] bodyFits
        · rw [← encoded] at bytesEq
          exact List.append_cancel_left bytesEq
        · intro other otherMem
          exact fits other (by simp [otherMem])
      · left
        apply takeFrame_unfinished
        refine ⟨body, bodyFits, ⟨missing, encoded.symm⟩, ?_⟩
        have := List.length_pos_of_ne_nil complete
        rw [encoded, List.length_append]
        omega
    · right
      refine ⟨body, rest, others, rfl, ?_, remaining.symm, ?_, unfinished⟩
      · rw [bufferEq]
        exact takeFrame_encode_append rest bodyFits
      · intro other otherMem
        exact fits other (by simp [otherMem])

/-- With the whole stream in hand, nothing is left to take exactly when every frame was taken. -/
theorem Stream.nil_of_takeFrame (stream : format.Stream bytes bodies tail)
    (drained : format.takeFrame bytes = .ok none) : bodies = [] ∧ bytes = tail := by
  rcases bodies with _ | ⟨body, others⟩
  · exact ⟨rfl, stream.bytes_eq⟩
  · have taken := takeFrame_encode_append (others.flatMap format.encode ++ tail)
      (stream.fits body (by simp))
    rw [stream.bytes_eq, List.flatMap_cons, List.append_assoc, taken] at drained
    cases drained

theorem decodeFrom_stream {fuel : ℕ} (stream : format.Stream bytes bodies tail)
    (enough : bodies.length ≤ fuel) : format.decodeFrom fuel bytes = bodies := by
  induction fuel generalizing bytes bodies with
  | zero =>
      rw [List.length_eq_zero_iff.mp (Nat.le_zero.mp enough)]
      rfl
  | succ fuel ih =>
      rw [decodeFrom]
      have whole : format.Stream (bytes ++ []) bodies tail := by simpa using stream
      rcases whole.takeFrame with drained | ⟨body, rest, others, rfl, taken, remaining⟩
      · rw [drained, (stream.nil_of_takeFrame drained).1]
      · rw [List.append_nil] at remaining
        rw [List.length_cons] at enough
        simp only [taken]
        rw [ih remaining (by omega)]

theorem length_le_of_stream (stream : format.Stream bytes bodies tail) :
    bodies.length ≤ bytes.length := by
  have encoded : ∀ list : List (List Byte), (∀ body ∈ list, body.length ≤ format.limit) →
      list.length ≤ (list.flatMap format.encode).length := by
    intro list
    induction list with
    | nil => simp
    | cons body rest ih =>
        intro fits
        have restBound := ih fun other otherMem => fits other (by simp [otherMem])
        have positive := format.headerLen_pos
        rw [List.flatMap_cons, List.length_append, length_encode (fits body (by simp)),
          List.length_cons]
        omega
  have bound := encoded bodies stream.fits
  rw [stream.bytes_eq, List.length_append]
  omega

theorem Stream.decode (stream : format.Stream bytes bodies tail) :
    format.decode bytes = bodies :=
  decodeFrom_stream stream (length_le_of_stream stream)

end Format

end Framing

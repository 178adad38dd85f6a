import Mathlib.Data.List.Induction
import Gregg.Greggd.Observation

/-!
# What is kept of a child's output

The tail keeps the last bytes of the stream however it was split, but one chunk of exactly the
capacity marks it as cut. The published text is the beginning of the decoded tail, not its end.
-/

namespace Gregg

namespace OutputTail

/-- The tail after a stream was read in chunks. -/
def pushAll (chunks : List (List UInt8)) : OutputTail :=
  chunks.foldl push new

/-- The last bytes of a stream. -/
def lastBytes (limit : ℕ) (stream : List UInt8) : List UInt8 :=
  stream.drop (stream.length - limit)

theorem length_lastBytes (limit : ℕ) (stream : List UInt8) :
    (lastBytes limit stream).length = min stream.length limit := by
  rw [lastBytes, List.length_drop]
  omega

theorem lastBytes_of_length_le {limit : ℕ} {stream : List UInt8} (fits : stream.length ≤ limit) :
    lastBytes limit stream = stream := by
  rw [lastBytes, Nat.sub_eq_zero_of_le fits, List.drop_zero]

theorem lastBytes_append_of_le {limit : ℕ} (stream : List UInt8) {bytes : List UInt8}
    (long : limit ≤ bytes.length) : lastBytes limit (stream ++ bytes) = lastBytes limit bytes := by
  have skipped : (stream ++ bytes).length - limit = stream.length + (bytes.length - limit) := by
    rw [List.length_append]
    omega
  rw [lastBytes, skipped, List.drop_length_add_append, lastBytes]

theorem lastBytes_append_of_lt {limit : ℕ} (stream : List UInt8) {bytes : List UInt8}
    (short : bytes.length < limit) :
    lastBytes limit (stream ++ bytes) =
      (lastBytes limit stream).drop ((lastBytes limit stream).length + bytes.length - limit) ++
        bytes := by
  rw [length_lastBytes, lastBytes, lastBytes, List.drop_drop,
    List.drop_append_of_le_length (by rw [List.length_append]; omega)]
  congr 2
  rw [List.length_append]
  omega

/-- The flag is set by what was dropped, and by one chunk that is the whole tail. -/
structure Holds (limit : ℕ) (chunks : List (List UInt8)) (tail : OutputTail) : Prop where
  capacity : tail.capacity = limit
  buffer : tail.buffer = lastBytes limit chunks.flatten
  truncated : tail.truncated = true ↔ limit < chunks.flatten.length ∨
    chunks.flatten.length = limit ∧ ∃ chunk ∈ chunks, chunk.length = limit

theorem Holds.push {limit : ℕ} {chunks : List (List UInt8)} {tail : OutputTail}
    (holds : Holds limit chunks tail) (bytes : List UInt8) :
    Holds limit (chunks ++ [bytes]) (tail.push bytes) := by
  rcases holds with ⟨rfl, buffer, truncated⟩
  have stream : (chunks ++ [bytes]).flatten = chunks.flatten ++ bytes := by simp
  have length : (chunks ++ [bytes]).flatten.length = chunks.flatten.length + bytes.length := by
    rw [stream, List.length_append]
  rw [OutputTail.push]
  split
  · rename_i long
    refine ⟨rfl, ?_, ?_⟩
    · rw [stream, lastBytes_append_of_le _ long, lastBytes]
    · refine iff_of_true rfl ?_
      rw [length]
      by_cases first : chunks.flatten.length = 0 ∧ bytes.length = tail.capacity
      · exact .inr ⟨by omega, bytes, by simp, first.2⟩
      · exact .inl (by omega)
  · rename_i short
    have short : bytes.length < tail.capacity := by omega
    refine ⟨rfl, ?_, ?_⟩
    · rw [stream, lastBytes_append_of_lt _ short, buffer]
    · have sameWhole : (∃ chunk ∈ chunks ++ [bytes], chunk.length = tail.capacity) ↔
          ∃ chunk ∈ chunks, chunk.length = tail.capacity := by
        simp [short.ne]
      have overflows : 0 < tail.buffer.length + bytes.length - tail.capacity ↔
          tail.capacity < min chunks.flatten.length tail.capacity + bytes.length := by
        rw [buffer, length_lastBytes]
        omega
      have whole : (∃ chunk ∈ chunks, chunk.length = tail.capacity) →
          tail.capacity ≤ chunks.flatten.length := by
        rintro ⟨chunk, member, isWhole⟩
        rw [← isWhole]
        exact (List.sublist_flatten_of_mem member).length_le
      rw [Bool.or_eq_true, decide_eq_true_eq, truncated, overflows, sameWhole, length]
      by_cases isWhole : ∃ chunk ∈ chunks, chunk.length = tail.capacity
      · have atLeast := whole isWhole
        simp only [isWhole, and_true]
        omega
      · simp only [isWhole, and_false, or_false]
        omega

theorem holds_pushAll (chunks : List (List UInt8)) :
    Holds MAX_SCHEDULER_OUTPUT_BYTES chunks (pushAll chunks) := by
  induction chunks using List.reverseRecOn with
  | nil => exact ⟨rfl, rfl, by decide⟩
  | append_singleton chunks bytes ih =>
      rw [pushAll, List.foldl_append]
      exact ih.push bytes

/-- What the tail promises of a stream: its last bytes, and whether there were more. -/
structure ExactTail (limit : ℕ) (chunks : List (List UInt8)) (tail : OutputTail) : Prop where
  buffer : tail.buffer = lastBytes limit chunks.flatten
  truncated : tail.truncated = true ↔ limit < chunks.flatten.length

/-- The tail of a stream is exact unless the stream is as long as the tail and came in one chunk. -/
theorem exactTail_pushAll_iff (chunks : List (List UInt8)) :
    ExactTail MAX_SCHEDULER_OUTPUT_BYTES chunks (pushAll chunks) ↔
      ¬(chunks.flatten.length = MAX_SCHEDULER_OUTPUT_BYTES ∧
        ∃ chunk ∈ chunks, chunk.length = MAX_SCHEDULER_OUTPUT_BYTES) := by
  rcases holds_pushAll chunks with ⟨-, buffer, truncated⟩
  constructor
  · intro exact whole
    have cut := exact.truncated.mp (truncated.mpr (.inr whole))
    exact cut.ne whole.1.symm
  · intro notWhole
    refine ⟨buffer, ?_⟩
    rw [truncated]
    exact or_iff_left notWhole

/-- A stream of exactly the capacity, read at once, is marked as cut. -/
theorem wholeChunk_is_marked_truncated :
    ¬ExactTail MAX_SCHEDULER_OUTPUT_BYTES [List.replicate MAX_SCHEDULER_OUTPUT_BYTES 0]
      (pushAll [List.replicate MAX_SCHEDULER_OUTPUT_BYTES 0]) := by
  rintro ⟨-, truncated⟩
  have cut : (pushAll [List.replicate MAX_SCHEDULER_OUTPUT_BYTES 0]).truncated = true := by
    rw [pushAll, List.foldl_cons, List.foldl_nil, push,
      if_pos (by rw [List.length_replicate]; exact Nat.le_refl _)]
  have more := truncated.mp cut
  simp at more

end OutputTail

section Publishing

theorem textEscapedLen_append (front back : List Char) :
    textEscapedLen (front ++ back) = textEscapedLen front + textEscapedLen back := by
  rw [textEscapedLen, List.map_append, List.sum_append, textEscapedLen, textEscapedLen]

/-- The loop keeps all of a text, or its longest prefix within the budget. -/
theorem truncateFrom_cases {budget used : ℕ} {keptBefore : Bool} (text : List Char)
    (within : used ≤ budget) (keepsFirst : keptBefore = true ∨ used + 6 ≤ budget) :
    (used + textEscapedLen text ≤ budget ∧
        truncateFrom budget used keptBefore text = (text, false)) ∨
      ∃ kept next rest, text = kept ++ next :: rest ∧ used + textEscapedLen kept ≤ budget ∧
        budget < used + textEscapedLen (kept ++ [next]) ∧
        truncateFrom budget used keptBefore text = (kept, true) := by
  induction text generalizing used keptBefore with
  | nil => exact .inl ⟨by simpa using within, rfl⟩
  | cons character text ih =>
      rw [truncateFrom]
      simp only
      split
      · rename_i tooLong
        have notFirst : keptBefore = true := by
          rcases keepsFirst with kept | room
          · exact kept
          · have small := jsonEscapedLen_le character
            omega
        refine .inr ⟨[], character, text, rfl, by simpa using within, ?_, by rw [if_pos notFirst]⟩
        simpa using tooLong
      · rename_i fits
        have afterwards := @ih (used + jsonEscapedLen character) true (by omega) (.inl rfl)
        rcases afterwards with ⟨whole, same⟩ | ⟨kept, next, rest, rfl, keptFits, nextExceeds, same⟩
        · refine .inl ⟨?_, by rw [same]⟩
          rw [textEscapedLen_cons]
          omega
        · refine .inr ⟨character :: kept, next, rest, rfl, ?_, ?_, by rw [same]⟩
          · rw [textEscapedLen_cons]
            omega
          · rw [List.cons_append, textEscapedLen_cons]
            omega

/-- Whether the longest prefix of a text within a budget is also an ending of it. -/
def PrefixIsEnding (budget : ℕ) (text : List Char) : Prop :=
  ∃ kept next, (kept ++ [next]) <+: text ∧ kept <:+ text ∧ textEscapedLen kept ≤ budget ∧
    budget < textEscapedLen (kept ++ [next])

theorem eq_of_longestPrefix {budget : ℕ} {text kept other : List Char} {next otherNext : Char}
    (isPrefix : (kept ++ [next]) <+: text) (otherPrefix : (other ++ [otherNext]) <+: text)
    (fits : textEscapedLen kept ≤ budget) (otherFits : textEscapedLen other ≤ budget)
    (exceeds : budget < textEscapedLen (kept ++ [next]))
    (otherExceeds : budget < textEscapedLen (other ++ [otherNext])) : kept = other := by
  have noShorter : ∀ {first second : List Char} {symbol : Char}, (first ++ [symbol]) <+: text →
      second <+: text → budget < textEscapedLen (first ++ [symbol]) →
      textEscapedLen second ≤ budget → second.length ≤ first.length := by
    intro first second symbol isFirst isSecond firstExceeds secondFits
    by_contra longer
    have inSecond : (first ++ [symbol]) <+: second := by
      apply List.prefix_of_prefix_length_le isFirst isSecond
      rw [List.length_append, List.length_singleton]
      omega
    rcases inSecond with ⟨rest, rfl⟩
    rw [textEscapedLen_append] at secondFits
    omega
  have keptPrefix : kept <+: text := (List.prefix_append kept [next]).trans isPrefix
  have otherKept : other <+: text := (List.prefix_append other [otherNext]).trans otherPrefix
  have lengths : kept.length = other.length :=
    le_antisymm (noShorter otherPrefix keptPrefix otherExceeds fits)
      (noShorter isPrefix otherKept exceeds otherFits)
  exact (List.prefix_of_prefix_length_le keptPrefix otherKept lengths.le).eq_of_length lengths

/-- What the published output promises of a stream. -/
structure MostRecent (chunks : List (List UInt8)) (output : SchedulerOutputV2) : Prop where
  ending : output.text <:+ Utf8.fromUtf8Lossy (OutputTail.pushAll chunks).buffer
  bounded : textEscapedLen output.text ≤ MAX_SCHEDULER_OUTPUT_TEXT_BYTES
  honest : output.truncated = false → output.text = Utf8.fromUtf8Lossy chunks.flatten

theorem intoWire_cases (tail : OutputTail) :
    (textEscapedLen (Utf8.fromUtf8Lossy tail.buffer) ≤ MAX_SCHEDULER_OUTPUT_TEXT_BYTES ∧
        tail.intoWire = ⟨Utf8.fromUtf8Lossy tail.buffer, tail.truncated⟩) ∨
      ∃ kept next, (kept ++ [next]) <+: Utf8.fromUtf8Lossy tail.buffer ∧
        textEscapedLen kept ≤ MAX_SCHEDULER_OUTPUT_TEXT_BYTES ∧
        MAX_SCHEDULER_OUTPUT_TEXT_BYTES < textEscapedLen (kept ++ [next]) ∧
        tail.intoWire = ⟨kept, true⟩ := by
  rw [OutputTail.intoWire, outputTextFromBytes, truncateToEscapedBudget]
  rcases @truncateFrom_cases MAX_SCHEDULER_OUTPUT_TEXT_BYTES 0 false
      (Utf8.fromUtf8Lossy tail.buffer) (Nat.zero_le _) (.inr (by decide)) with
    ⟨fits, same⟩ | ⟨kept, next, rest, whole, fits, exceeds, same⟩
  · rw [Nat.zero_add] at fits
    refine .inl ⟨fits, ?_⟩
    simp only [same, Bool.or_false]
  · rw [Nat.zero_add] at fits exceeds
    refine .inr ⟨kept, next, ⟨rest, by simp [whole]⟩, fits, exceeds, ?_⟩
    simp only [same, Bool.or_true]

/-- The output published of a stream is its most recent one exactly when all of the decoded tail
fits the budget, or what fits of its beginning is at the same time its ending. -/
theorem mostRecent_intoWire_iff (chunks : List (List UInt8)) :
    MostRecent chunks (OutputTail.pushAll chunks).intoWire ↔
      textEscapedLen (Utf8.fromUtf8Lossy (OutputTail.lastBytes MAX_SCHEDULER_OUTPUT_BYTES
          chunks.flatten)) ≤ MAX_SCHEDULER_OUTPUT_TEXT_BYTES ∨
        PrefixIsEnding MAX_SCHEDULER_OUTPUT_TEXT_BYTES (Utf8.fromUtf8Lossy
          (OutputTail.lastBytes MAX_SCHEDULER_OUTPUT_BYTES chunks.flatten)) := by
  rcases OutputTail.holds_pushAll chunks with ⟨-, buffer, truncated⟩
  rw [← buffer]
  rcases intoWire_cases (OutputTail.pushAll chunks) with
    ⟨fits, same⟩ | ⟨kept, next, isPrefix, fits, exceeds, same⟩
  · refine iff_of_true ?_ (.inl fits)
    rw [same]
    refine ⟨List.suffix_rfl, fits, ?_⟩
    intro notTruncated
    have short : chunks.flatten.length ≤ MAX_SCHEDULER_OUTPUT_BYTES := by
      by_contra long
      rw [truncated.mpr (.inl (not_le.mp long))] at notTruncated
      cases notTruncated
    rw [buffer, OutputTail.lastBytes_of_length_le short]
  · rw [same]
    constructor
    · rintro ⟨ending, -, -⟩
      exact .inr ⟨kept, next, isPrefix, ending, fits, exceeds⟩
    · rintro (whole | ⟨other, otherNext, otherPrefix, ending, otherFits, otherExceeds⟩)
      · rcases isPrefix with ⟨rest, isText⟩
        rw [← isText, textEscapedLen_append] at whole
        omega
      · have sameKept := eq_of_longestPrefix isPrefix otherPrefix fits otherFits exceeds
          otherExceeds
        refine ⟨?_, fits, nofun⟩
        rw [sameKept]
        exact ending

/-- A stream of 513 bytes whose last one is its only `b`. -/
def sampleStream : List UInt8 :=
  List.replicate 512 0x61 ++ [0x62]

/-- The last byte is cut off, and the 512 before it are published. -/
theorem sampleStream_loses_its_end :
    ¬MostRecent [sampleStream] (OutputTail.pushAll [sampleStream]).intoWire := by
  rintro ⟨⟨front, whole⟩, -, -⟩
  have published : (OutputTail.pushAll [sampleStream]).intoWire.text.getLast? = some 'a' := by
    decide +kernel
  have decoded : (Utf8.fromUtf8Lossy (OutputTail.pushAll [sampleStream]).buffer).getLast? =
      some 'b' := by
    decide +kernel
  have nonempty : (OutputTail.pushAll [sampleStream]).intoWire.text ≠ [] := by
    intro isEmpty
    rw [isEmpty] at published
    cases published
  rw [← whole, List.getLast?_append_of_ne_nil _ nonempty, published] at decoded
  cases decoded

end Publishing

end Gregg

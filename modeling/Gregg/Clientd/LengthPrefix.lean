import Gregg.Clientd.Protocol

/-!
# The spellings of a length

A length is eight hexadecimal digits and a newline. The parser behind it reads any number of digits
after an optional plus sign, so that a sign can stand for one of the digits.
-/

namespace Gregg.Clientd

/-- The number that hexadecimal digits write, the first one the highest. -/
def hexNumber : List Char → Option ℕ
  | [] => some 0
  | first :: digits =>
      (Text.hexValue first).bind fun digit =>
        (hexNumber digits).map (digit * 16 ^ digits.length + ·)

/-- Bytes that write a length: so many hexadecimal digits after the sign, and a newline. -/
def Writes (sign : List Char) (count : ℕ) (bytes : List UInt8) (len : ℕ) : Prop :=
  ∃ digits, digits.length = count ∧ hexNumber digits = some len ∧
    bytes = Utf8.asciiBytes (sign ++ digits ++ ['\n'])

/-- Eight hexadecimal digits and a newline. -/
def Spells : List UInt8 → ℕ → Prop :=
  Writes [] 8

/-- A plus sign, seven hexadecimal digits and a newline. -/
def Signed : List UInt8 → ℕ → Prop :=
  Writes ['+'] 7

section Digits

variable {digits : List Char} {value len : ℕ}

theorem hexValue_lt {character : Char} {digit : ℕ}
    (isDigit : Text.hexValue character = some digit) : digit < 16 := by
  rw [Text.hexValue] at isDigit
  split at isDigit
  · rename_i decimal
    cases isDigit
    have atMost : character.toNat ≤ 57 := decimal.2
    have first : '0'.toNat = 48 := rfl
    omega
  split at isDigit
  · rename_i lower
    cases isDigit
    have atMost : character.toNat ≤ 102 := lower.2
    have first : 'a'.toNat = 97 := rfl
    omega
  split at isDigit
  · rename_i upper
    cases isDigit
    have atMost : character.toNat ≤ 70 := upper.2
    have first : 'A'.toNat = 65 := rfl
    omega
  · cases isDigit

theorem hexNumber_lt (written : hexNumber digits = some len) : len < 16 ^ digits.length := by
  induction digits generalizing len with
  | nil =>
      cases written
      exact Nat.one_pos
  | cons first digits ih =>
      rw [hexNumber] at written
      rcases Option.bind_eq_some_iff.mp written with ⟨digit, isDigit, later⟩
      rcases Option.map_eq_some_iff.mp later with ⟨rest, isRest, rfl⟩
      have small := hexValue_lt isDigit
      have bound := ih isRest
      rw [List.length_cons, Nat.pow_succ]
      calc digit * 16 ^ digits.length + rest
        _ < digit * 16 ^ digits.length + 16 ^ digits.length := by omega
        _ = (digit + 1) * 16 ^ digits.length := by rw [Nat.add_mul, Nat.one_mul]
        _ ≤ 16 * 16 ^ digits.length := Nat.mul_le_mul_right _ small
        _ = 16 ^ digits.length * 16 := Nat.mul_comm _ _

/-- The parser reads digits after the value of those before them. -/
theorem parseHex_of_hexNumber (written : hexNumber digits = some len)
    (inRange : value * 16 ^ digits.length + len ≤ u64Max) :
    Text.parseHex value digits = .ok (value * 16 ^ digits.length + len) := by
  induction digits generalizing value len with
  | nil =>
      cases written
      rw [Text.parseHex, List.length_nil, Nat.pow_zero, Nat.mul_one, Nat.add_zero]
  | cons first digits ih =>
      rw [hexNumber] at written
      rcases Option.bind_eq_some_iff.mp written with ⟨digit, isDigit, later⟩
      rcases Option.map_eq_some_iff.mp later with ⟨rest, isRest, rfl⟩
      have whole : value * 16 ^ (first :: digits).length + (digit * 16 ^ digits.length + rest) =
          (value * 16 + digit) * 16 ^ digits.length + rest := by
        rw [List.length_cons, Nat.pow_succ, Nat.add_mul, Nat.mul_assoc, Nat.mul_comm 16]
        omega
      rw [whole] at inRange ⊢
      have next : value * 16 + digit ≤ u64Max := by
        have positive : 0 < 16 ^ digits.length := Nat.pow_pos (by decide)
        have scaled := Nat.le_mul_of_pos_right (value * 16 + digit) positive
        omega
      simp only [Text.parseHex, isDigit, next, if_true]
      exact ih isRest inRange

theorem hexNumber_of_parseHex {before after : ℕ}
    (parsed : Text.parseHex before digits = .ok after) :
    ∃ written, hexNumber digits = some written ∧
      after = before * 16 ^ digits.length + written := by
  induction digits generalizing before with
  | nil =>
      cases parsed
      exact ⟨0, rfl, by simp⟩
  | cons first digits ih =>
      simp only [Text.parseHex] at parsed
      split at parsed
      · cases parsed
      · rename_i digit isDigit
        split at parsed
        · rcases ih parsed with ⟨written, isWritten, rfl⟩
          refine ⟨digit * 16 ^ digits.length + written, ?_, ?_⟩
          · rw [hexNumber, isDigit, Option.bind_some, isWritten, Option.map_some]
          · rw [List.length_cons, Nat.pow_succ, Nat.add_mul, Nat.mul_assoc, Nat.mul_comm 16]
            omega
        · cases parsed

end Digits

section Prefix

variable {bytes : List UInt8} {sign : List Char} {count len : ℕ}

/-- The outcome for a number that was read: the number up to the cap. -/
def capped (len : ℕ) : Except DecodeError ℕ :=
  if MAX_FRAME_BYTES < len then .error (.tooLarge len MAX_FRAME_BYTES) else .ok len

/-- What the integer parser takes: digits, after a plus sign or not. -/
theorem fromStrRadix16_eq_ok_iff {text : List Char} (nonempty : text ≠ []) :
    Text.fromStrRadix16 text = .ok len ↔
      Text.parseHex 0 text = .ok len ∨
        ∃ digits, digits ≠ [] ∧ text = '+' :: digits ∧ Text.parseHex 0 digits = .ok len := by
  rcases text with _ | ⟨first, rest⟩
  · exact absurd rfl nonempty
  by_cases isPlus : first = '+'
  · subst isPlus
    cases rest with
    | nil =>
        refine iff_of_false (by rintro ⟨⟩) ?_
        rintro (⟨⟨⟩⟩ | ⟨digits, others, same, -⟩)
        exact others (List.cons.inj same).2.symm
    | cons second rest =>
        constructor
        · exact fun read => .inr ⟨second :: rest, List.cons_ne_nil _ _, rfl, read⟩
        · rintro (⟨⟨⟩⟩ | ⟨digits, -, same, read⟩)
          rwa [← (List.cons.inj same).2] at read
  · constructor
    · intro read
      left
      unfold Text.fromStrRadix16 at read
      split at read
      · rename_i same
        cases same
      · rename_i same
        exact absurd (List.cons.inj same).1 isPlus
      · rename_i same
        exact absurd (List.cons.inj same).1 isPlus
      · exact read
    · rintro (read | ⟨digits, -, same, -⟩)
      · exact Text.fromStrRadix16_eq_ok nonempty read
      · exact absurd (List.cons.inj same).1 isPlus

/-- As many digits as a length has are in range for the parser. -/
theorem parseHex_of_short {digits : List Char} (written : hexNumber digits = some len)
    (short : digits.length ≤ 8) : Text.parseHex 0 digits = .ok len := by
  have small := hexNumber_lt written
  have wide : 16 ^ digits.length ≤ 16 ^ 8 := Nat.pow_le_pow_right (by decide) short
  have largest : 16 ^ 8 ≤ u64Max := by decide
  have parsed := @parseHex_of_hexNumber digits 0 len written (by omega)
  rwa [Nat.zero_mul, Nat.zero_add] at parsed

theorem fromUtf8_of_parseHex {digits : List Char} (isSign : sign = [] ∨ sign = ['+'])
    (parsed : Text.parseHex 0 digits = .ok len) :
    Utf8.fromUtf8 (Utf8.asciiBytes (sign ++ digits ++ ['\n'])) =
      .ok (sign ++ digits ++ ['\n']) := by
  apply Utf8.fromUtf8_asciiBytes
  rw [List.forall_mem_append, List.forall_mem_append]
  refine ⟨⟨?_, Text.isAscii_of_parseHex parsed⟩, by simp⟩
  rcases isSign with rfl | rfl <;> simp

/-- Digits, after a plus sign or not, are read up to the cap. -/
theorem parseLength_of_writes (writes : Writes sign count bytes len)
    (isSign : sign = [] ∨ sign = ['+']) (width : sign.length + count = 8) :
    parseLength bytes = capped len := by
  rcases writes with ⟨digits, rfl, written, rfl⟩
  have parsed := parseHex_of_short written (by omega)
  have nonempty : digits ≠ [] := by
    rintro rfl
    rcases isSign with rfl | rfl <;> cases width
  have read : Text.fromStrRadix16 (sign ++ digits) = .ok len := by
    rcases isSign with rfl | rfl
    · exact Text.fromStrRadix16_eq_ok nonempty parsed
    · exact (fromStrRadix16_eq_ok_iff (List.cons_ne_nil _ _)).mpr
        (.inr ⟨digits, nonempty, rfl, parsed⟩)
  have length : (Utf8.asciiBytes (sign ++ digits ++ ['\n'])).length = LEN_PREFIX_BYTES := by
    rw [Utf8.asciiBytes, List.length_map, List.length_append, List.length_append, width]
    rfl
  have stripped : Text.stripSuffix '\n' (sign ++ digits ++ ['\n']) = some (sign ++ digits) := by
    rw [Text.stripSuffix, List.getLast?_concat, if_pos rfl, List.dropLast_concat]
  rw [parseLength, if_neg (not_not.mpr length), fromUtf8_of_parseHex isSign parsed]
  simp only [stripped, read]
  rfl

/-- A sign is no digit. -/
theorem not_spells_of_signed (signed : Signed bytes len) (other : ℕ) : ¬Spells bytes other := by
  rcases signed with ⟨digits, length, written, isBytes⟩
  rintro ⟨others, otherLength, otherWritten, rfl⟩
  have decoded := @fromUtf8_of_parseHex [] _ _ (.inl rfl)
    (parseHex_of_short otherWritten otherLength.le)
  rw [isBytes, fromUtf8_of_parseHex (.inr rfl) (parseHex_of_short written (by omega)),
    Except.ok.injEq] at decoded
  have same : others = '+' :: digits := (List.append_cancel_right decoded).symm
  rw [same] at otherWritten
  cases otherWritten

/-- Bytes that decode to digits and a newline write a length. -/
theorem writes_of_parseHex {digits : List Char}
    (decoded : Utf8.fromUtf8 bytes = .ok (sign ++ digits ++ ['\n']))
    (isSign : ∀ character ∈ sign, character.toNat < 0x80)
    (parsed : Text.parseHex 0 digits = .ok len)
    (length : bytes.length = sign.length + count + 1) : Writes sign count bytes len := by
  have isAscii : ∀ character ∈ sign ++ digits ++ ['\n'], character.toNat < 0x80 := by
    rw [List.forall_mem_append, List.forall_mem_append]
    exact ⟨⟨isSign, Text.isAscii_of_parseHex parsed⟩, by simp⟩
  have isBytes := Utf8.eq_asciiBytes decoded isAscii
  rcases hexNumber_of_parseHex parsed with ⟨written, isWritten, rfl⟩
  rw [Nat.zero_mul, Nat.zero_add]
  refine ⟨digits, ?_, isWritten, isBytes⟩
  rw [isBytes, Utf8.asciiBytes, List.length_map, List.length_append, List.length_append,
    List.length_singleton] at length
  omega

theorem writes_or_malformed (bytes : List UInt8) :
    (∃ len, Spells bytes len ∨ Signed bytes len) ∨
      ∃ message, parseLength bytes = .error (.malformedLength message) := by
  by_cases length : bytes.length = LEN_PREFIX_BYTES
  · rw [parseLength, if_neg (not_not.mpr length)]
    cases decoded : Utf8.fromUtf8 bytes with
    | error failure => exact .inr ⟨_, rfl⟩
    | ok text =>
        cases stripped : Text.stripSuffix '\n' text with
        | none =>
            refine .inr ⟨"missing newline terminator", ?_⟩
            simp only [stripped]
        | some trimmed =>
            cases read : Text.fromStrRadix16 trimmed with
            | error failure =>
                refine .inr ⟨failure, ?_⟩
                simp only [stripped, read]
            | ok len =>
                refine .inl ⟨len, ?_⟩
                have nonempty : trimmed ≠ [] := by
                  rintro rfl
                  cases read
                rw [Text.stripSuffix_eq_some stripped] at decoded
                rcases (fromStrRadix16_eq_ok_iff nonempty).mp read with
                  parsed | ⟨digits, -, rfl, parsed⟩
                · exact .inl (@writes_of_parseHex _ [] _ _ _ decoded (by simp) parsed length)
                · exact .inr (@writes_of_parseHex _ ['+'] _ _ _ decoded (by simp) parsed length)
  · rw [parseLength, if_pos length]
    exact .inr ⟨_, rfl⟩

end Prefix

/-- The prefix of every frame is the length of its body. -/
theorem parseLength_of_encodeFrame {Value : Type} {codec : Codec Value} {value : Value}
    {encoded : List UInt8} (succeeded : encodeFrame codec value = .ok encoded) :
    ∃ body, codec.toVec value = .ok body ∧
      parseLength (encoded.take LEN_PREFIX_BYTES) = .ok body.length := by
  rcases EncodedFrame.of_encodeFrame succeeded with ⟨frame, rfl, rfl⟩
  refine ⟨frame.body, frame.serialized, ?_⟩
  rw [EncodedFrame.bytes, ← length_lengthPrefix frame.fits, List.take_left]
  exact parseLength_lengthPrefix frame.fits

/-- A prefix is read as the language of the lengths has it: the lengths up to the cap, every other
spelling is malformed, and in front of a frame it is the length of the body. -/
structure OneSpelling (bytes : List UInt8) : Prop where
  accepted : ∀ len, parseLength bytes = .ok len ↔ Spells bytes len ∧ len ≤ MAX_FRAME_BYTES
  refused : (∀ len, ¬Spells bytes len) →
    ∃ message, parseLength bytes = .error (.malformedLength message)
  framed : ∀ (Value : Type) (codec : Codec Value) (value : Value) (encoded : List UInt8),
    encodeFrame codec value = .ok encoded → encoded.take LEN_PREFIX_BYTES = bytes →
      ∃ body, codec.toVec value = .ok body ∧ parseLength bytes = .ok body.length

/-- A sign in front of seven digits is accepted. -/
theorem not_oneSpelling_plus : ¬OneSpelling (Utf8.asciiBytes "+0000abc\n".toList) := by
  intro spelling
  have read : parseLength (Utf8.asciiBytes "+0000abc\n".toList) = .ok 0xabc := by decide +kernel
  have signed : Signed (Utf8.asciiBytes "+0000abc\n".toList) 0xabc :=
    ⟨"0000abc".toList, rfl, rfl, rfl⟩
  exact not_spells_of_signed signed _ ((spelling.accepted _).mp read).1

/-- A prefix is read as a spelling of its length exactly when it has no sign. -/
theorem parseLength_exact (bytes : List UInt8) :
    OneSpelling bytes ↔ ∀ len, ¬Signed bytes len := by
  constructor
  · intro spelling len signed
    rcases spelling.refused (not_spells_of_signed signed) with ⟨message, refused⟩
    rw [parseLength_of_writes signed (.inr rfl) rfl, capped] at refused
    split at refused <;> cases refused
  intro unsigned
  refine ⟨fun len => ⟨?_, ?_⟩, fun notSpelled => ?_, ?_⟩
  · intro read
    rcases writes_or_malformed bytes with ⟨written, spelled | signed⟩ | ⟨message, malformed⟩
    · rw [parseLength_of_writes spelled (.inl rfl) rfl, capped] at read
      split at read
      · cases read
      · rename_i fits
        cases read
        exact ⟨spelled, Nat.not_lt.mp fits⟩
    · exact absurd signed (unsigned written)
    · rw [malformed] at read
      cases read
  · rintro ⟨spelled, fits⟩
    rw [parseLength_of_writes spelled (.inl rfl) rfl, capped, if_neg (Nat.not_lt.mpr fits)]
  · rcases writes_or_malformed bytes with ⟨written, spelled | signed⟩ | malformed
    · exact absurd spelled (notSpelled written)
    · exact absurd signed (unsigned written)
    · exact malformed
  · rintro Value codec value encoded succeeded rfl
    exact parseLength_of_encodeFrame succeeded

end Gregg.Clientd

import Mathlib.Algebra.GroupWithZero.Nat
import Mathlib.Data.Rat.Defs
import Mathlib.Data.List.Basic
import Mathlib.Data.List.Induction

/-!
# The standard-library types the sources compute with

Saturating 64-bit counters, the comparisons of `f32`, the text operations of `str`, and the lossy
UTF-8 decoding of captured bytes. Strings are Lean strings, which are sequences of Unicode scalar
values exactly as Rust's are; operations that scan one work on its list of characters.
-/

namespace Gregg

/-- `u64::MAX`. -/
def u64Max : ℕ := 2 ^ 64 - 1

/-- `u64::saturating_add`. -/
def satAdd (left right : ℕ) : ℕ :=
  min (left + right) u64Max

/-- `u64::try_from(value).unwrap_or(u64::MAX)`. -/
def toU64 (value : ℕ) : ℕ :=
  min value u64Max

theorem satAdd_le (left right : ℕ) : satAdd left right ≤ left + right :=
  Nat.min_le_left _ _

@[simp]
theorem ite_singleton_eq_nil_iff {Item : Type} {condition : Prop} [Decidable condition]
    {item : Item} : (if condition then [item] else []) = [] ↔ ¬condition := by
  split <;> simp_all

theorem exists_of_bind_eq_ok {Failure Value Next : Type}
    {result : Except Failure Value} {next : Value → Except Failure Next}
    {final : Next} (succeeds : (result >>= next) = .ok final) :
    ∃ value, result = .ok value ∧ next value = .ok final := by
  cases result with
  | error failure => cases succeeds
  | ok value => exact ⟨value, rfl, succeeds⟩

/-- An `f32` as the modelled code observes one: through comparisons and finiteness tests only. -/
inductive F32 where
  | finite (value : ℚ)
  | infinity (negative : Bool)
  | nan
  deriving DecidableEq

namespace F32

/-- `f32::is_finite`. -/
def isFinite : F32 → Bool
  | finite _ => true
  | _ => false

/-- The IEEE order `left <= right`, false whenever an operand is not a number. -/
def le : F32 → F32 → Bool
  | nan, _ => false
  | _, nan => false
  | infinity true, _ => true
  | _, infinity false => true
  | finite left, finite right => left ≤ right
  | _, _ => false

/-- The IEEE order `left < right`. -/
def lt : F32 → F32 → Bool
  | finite left, finite right => left < right
  | left, right => left.le right && !right.le left

/-- The IEEE equality, under which `nan` differs from itself. -/
instance : BEq F32 where
  beq left right := left.le right && right.le left

end F32

/-- `Instant`, in nanoseconds from the process-local epoch. -/
abbrev Instant := ℕ

/-- `DateTime<Local>`, in nanoseconds from the Unix epoch. -/
abbrev DateTime := ℤ

/-- `Duration::from_millis`, in nanoseconds. -/
def fromMillis (millis : ℕ) : ℕ :=
  millis * 1000000

/-- `DateTime::timestamp_millis`, which floors. -/
def timestampMillis (time : DateTime) : ℤ :=
  time / 1000000

/-- `timestamp_millis().max(0).unsigned_abs()`. -/
def unixMillis (time : DateTime) : ℕ :=
  (timestampMillis time).toNat

namespace Text

/-- `char::is_whitespace`: the Unicode property `White_Space`. -/
def isWhitespace (character : Char) : Bool :=
  let code := character.toNat
  (0x9 ≤ code && code ≤ 0xd) || code == 0x20 || code == 0x85 || code == 0xa0 || code == 0x1680 ||
    (0x2000 ≤ code && code ≤ 0x200a) || code == 0x2028 || code == 0x2029 || code == 0x202f ||
    code == 0x205f || code == 0x3000

/-- `char::is_control`: the Unicode general category `Cc`. -/
def isControl (character : Char) : Bool :=
  let code := character.toNat
  code ≤ 0x1f || (0x7f ≤ code && code ≤ 0x9f)

/-- `str::trim`. -/
def trim (text : List Char) : List Char :=
  ((text.dropWhile isWhitespace).reverse.dropWhile isWhitespace).reverse

/-- The pieces of a text between separators that are not empty. -/
def fields (isSeparator : Char → Bool) (text : List Char) : List (List Char) :=
  (text.splitOnP isSeparator).filter fun field => !field.isEmpty

/-- `str::split_whitespace`. -/
def splitWhitespace (text : List Char) : List (List Char) :=
  (text.splitOnP isWhitespace).filter fun field => !field.isEmpty

/-- A separator ends the fields before it. -/
theorem fields_append {isSeparator : Char → Bool} {separator : Char}
    (isEnd : isSeparator separator = true) (before after : List Char) :
    fields isSeparator (before ++ separator :: after) =
      fields isSeparator before ++ fields isSeparator after := by
  rw [fields, List.splitOnP_append_cons _ _ isEnd, List.filter_append]
  rfl

/-- White space on either side of a text is in no field where it separates them. -/
theorem fields_trim {isSeparator : Char → Bool}
    (separates : ∀ character, isWhitespace character = true → isSeparator character = true)
    (text : List Char) : fields isSeparator (trim text) = fields isSeparator text := by
  have atFront : ∀ text : List Char,
      fields isSeparator (text.dropWhile isWhitespace) = fields isSeparator text := by
    intro text
    induction text with
    | nil => rfl
    | cons first text ih =>
        rw [List.dropWhile_cons]
        split
        · rename_i isSpace
          rw [ih]
          exact (fields_append (separates first isSpace) [] text).symm
        · rfl
  have atEnd : ∀ text : List Char,
      fields isSeparator (text.reverse.dropWhile isWhitespace).reverse =
        fields isSeparator text := by
    intro text
    induction text using List.reverseRecOn with
    | nil => rfl
    | append_singleton text last ih =>
        rw [List.reverse_append, List.reverse_singleton, List.singleton_append,
          List.dropWhile_cons]
        split
        · rename_i isSpace
          rw [ih, fields_append (separates last isSpace) text []]
          exact (List.append_nil _).symm
        · rw [List.reverse_cons, List.reverse_reverse]
  rw [trim, atEnd, atFront]

/-- A word in front of white space is a word of the text. -/
theorem splitWhitespace_append {separator : Char}
    (isSeparator : isWhitespace separator = true) (before after : List Char) :
    splitWhitespace (before ++ separator :: after) =
      splitWhitespace before ++ splitWhitespace after :=
  fields_append isSeparator before after

/-- A text without white space is one word. -/
theorem splitWhitespace_of_solid {text : List Char} (nonempty : text ≠ [])
    (solid : ∀ character ∈ text, isWhitespace character = false) :
    splitWhitespace text = [text] := by
  rw [splitWhitespace, List.splitOnP_eq_singleton solid]
  simp [nonempty]

theorem solid_of_mem_splitWhitespace {text word : List Char}
    (isWord : word ∈ splitWhitespace text) :
    ∀ character ∈ word, isWhitespace character = false := by
  have pieces : ∀ text : List Char, ∀ word ∈ text.splitOnP isWhitespace,
      ∀ character ∈ word, isWhitespace character = false := by
    intro text
    induction text with
    | nil => simp [List.splitOnP_nil]
    | cons first text ih =>
        rw [List.splitOnP_cons_eq_if_modifyHead]
        split
        · simpa using ih
        · rename_i solid
          rcases List.exists_cons_of_ne_nil (List.splitOnP_ne_nil isWhitespace text) with
            ⟨piece, rest, split⟩
          rw [split] at ih ⊢
          simp only [List.modifyHead_cons, List.forall_mem_cons] at ih ⊢
          exact ⟨⟨Bool.eq_false_iff.mpr solid, ih.1⟩, ih.2⟩
  exact pieces text word (List.mem_filter.mp isWord).1

theorem splitWhitespace_space {separator : Char} (isSeparator : isWhitespace separator = true)
    (text : List Char) : splitWhitespace (separator :: text) = splitWhitespace text :=
  splitWhitespace_append isSeparator [] text

/-- White space on either side of a text has no words. -/
theorem splitWhitespace_trim (text : List Char) :
    splitWhitespace (trim text) = splitWhitespace text :=
  fields_trim (fun _ isSpace => isSpace) text

/-- Every character that is no white space is in a word. -/
theorem exists_word_of_mem {text : List Char} {character : Char} (isMember : character ∈ text)
    (solid : isWhitespace character = false) :
    ∃ word ∈ splitWhitespace text, character ∈ word := by
  have pieces : ∀ text : List Char, character ∈ text →
      ∃ piece ∈ text.splitOnP isWhitespace, character ∈ piece := by
    intro text
    induction text with
    | nil => simp
    | cons first text ih =>
        intro isMember
        rw [List.splitOnP_cons_eq_if_modifyHead]
        rcases List.exists_cons_of_ne_nil (List.splitOnP_ne_nil isWhitespace text) with
          ⟨piece, rest, split⟩
        rw [split] at ih ⊢
        rcases List.mem_cons.mp isMember with rfl | inRest
        · rw [if_neg (by simp [solid])]
          exact ⟨character :: piece, by simp⟩
        · rcases ih inRest with ⟨found, isPiece, inPiece⟩
          split
          · exact ⟨found, List.mem_cons_of_mem _ isPiece, inPiece⟩
          · rcases List.mem_cons.mp isPiece with rfl | inOthers
            · exact ⟨first :: found, by simp, List.mem_cons_of_mem _ inPiece⟩
            · exact ⟨found, by simp [inOthers], inPiece⟩
  rcases pieces text isMember with ⟨piece, isPiece, inPiece⟩
  refine ⟨piece, List.mem_filter.mpr ⟨isPiece, ?_⟩, inPiece⟩
  cases piece with
  | nil => cases inPiece
  | cons first rest => rfl

/-- `str::split_once`: the text before and after the first separator. -/
def splitOnce (separator : Char) : List Char → Option (List Char × List Char)
  | [] => none
  | character :: rest =>
      if character = separator then some ([], rest)
      else (splitOnce separator rest).map fun (before, after) => (character :: before, after)

section Once

variable {separator : Char} {text before after : List Char}

theorem splitOnce_append (notMem : separator ∉ before) :
    splitOnce separator (before ++ separator :: after) = some (before, after) := by
  induction before with
  | nil => simp [splitOnce]
  | cons character before ih =>
      rw [List.mem_cons, not_or] at notMem
      rw [List.cons_append, splitOnce, if_neg (Ne.symm notMem.1), ih notMem.2]
      rfl

theorem splitOnce_eq_none (notMem : separator ∉ text) :
    splitOnce separator text = none := by
  induction text with
  | nil => rfl
  | cons character text ih =>
      rw [List.mem_cons, not_or] at notMem
      rw [splitOnce, if_neg (Ne.symm notMem.1), ih notMem.2]
      rfl

theorem eq_of_splitOnce (split : splitOnce separator text = some (before, after)) :
    text = before ++ separator :: after := by
  induction text generalizing before with
  | nil => cases split
  | cons character text ih =>
      rw [splitOnce] at split
      split at split
      · rename_i same
        cases split
        rw [same]
        rfl
      · rcases Option.map_eq_some_iff.mp split with ⟨⟨front, back⟩, splitRest, ⟨⟩⟩
        rw [ih splitRest]
        rfl

end Once

def digitValue (character : Char) : Option ℕ :=
  if '0' ≤ character ∧ character ≤ '9' then some (character.toNat - '0'.toNat) else none

/-- The decimal value of a run of digits, `none` past `u64::MAX` or at any other character. -/
def parseDigits (value : ℕ) : List Char → Option ℕ
  | [] => some value
  | character :: rest =>
      match digitValue character with
      | none => none
      | some digit =>
          let next := value * 10 + digit
          if next ≤ u64Max then parseDigits next rest else none

/-- `str::parse::<usize>` on a 64-bit target, which accepts one leading plus sign. -/
def parseUsize (text : List Char) : Option ℕ :=
  match text with
  | [] => none
  | '+' :: [] => none
  | '+' :: digits => parseDigits 0 digits
  | digits => parseDigits 0 digits

theorem digitValue_eq_some_iff {character : Char} {digit : ℕ} :
    digitValue character = some digit ↔
      character.isDigit = true ∧ character.toNat - '0'.toNat = digit := by
  have isDigit : character.isDigit = true ↔ '0' ≤ character ∧ character ≤ '9' :=
    Char.isDigit_iff_toNat
  rw [digitValue, isDigit]
  split
  · rename_i within
    rw [Option.some_inj]
    exact ⟨fun same => ⟨within, same⟩, fun both => both.2⟩
  · rename_i other
    exact iff_of_false (by rintro ⟨⟩) fun both => other both.1

/-- More digits do not make a number smaller. -/
theorem le_ofDigitChars (digits : List Char) (before : ℕ) :
    before ≤ Nat.ofDigitChars 10 digits before := by
  induction digits generalizing before with
  | nil => rw [Nat.ofDigitChars_nil]
  | cons digit digits ih =>
      rw [Nat.ofDigitChars_cons]
      have later := ih (10 * before + (digit.toNat - '0'.toNat))
      omega

/-- The digits are read after the value of those before them, and no number past the range is. -/
theorem parseDigits_eq_some_iff {before value : ℕ} {digits : List Char}
    (inRange : before ≤ u64Max) :
    parseDigits before digits = some value ↔
      (∀ digit ∈ digits, digit.isDigit = true) ∧ Nat.ofDigitChars 10 digits before = value ∧
        value ≤ u64Max := by
  induction digits generalizing before with
  | nil =>
      rw [parseDigits, Nat.ofDigitChars_nil, Option.some_inj]
      constructor
      · rintro rfl
        exact ⟨by simp, rfl, inRange⟩
      · exact fun both => both.2.1
  | cons digit digits ih =>
      rw [List.forall_mem_cons, Nat.ofDigitChars_cons, Nat.mul_comm 10 before]
      simp only [parseDigits]
      cases isDigit : digitValue digit with
      | none =>
          refine iff_of_false (by rintro ⟨⟩) fun all => ?_
          have read := digitValue_eq_some_iff.mpr ⟨all.1.1, rfl⟩
          rw [isDigit] at read
          cases read
      | some number =>
          rcases digitValue_eq_some_iff.mp isDigit with ⟨decimal, rfl⟩
          dsimp only
          split
          · rename_i fits
            rw [ih fits]
            exact ⟨fun all => ⟨⟨decimal, all.1⟩, all.2⟩, fun all => ⟨all.1.2, all.2⟩⟩
          · rename_i overflows
            refine iff_of_false (by rintro ⟨⟩) fun all => ?_
            have least := le_ofDigitChars digits (before * 10 + (digit.toNat - '0'.toNat))
            rw [all.2.1] at least
            exact overflows (least.trans all.2.2)

/-- What the integer parser takes: digits, after a plus sign or not. -/
theorem parseUsize_eq_some_iff {text : List Char} {value : ℕ} :
    parseUsize text = some value ↔
      ∃ digits, (text = digits ∨ text = '+' :: digits) ∧ digits ≠ [] ∧
        parseDigits 0 digits = some value := by
  rcases text with _ | ⟨first, rest⟩
  · refine iff_of_false (by rintro ⟨⟩) ?_
    rintro ⟨digits, rfl | same, nonempty, -⟩
    · exact nonempty rfl
    · cases same
  by_cases isPlus : first = '+'
  · subst isPlus
    have signed : parseUsize ('+' :: rest) = if rest = [] then none
        else parseDigits 0 rest := by
      cases rest <;> rfl
    rw [signed]
    constructor
    · intro read
      split at read
      · cases read
      · rename_i nonempty
        exact ⟨rest, .inr rfl, nonempty, read⟩
    · rintro ⟨digits, rfl | same, nonempty, read⟩
      · cases read
      · cases same
        rw [if_neg nonempty, read]
  · have unsigned : parseUsize (first :: rest) = parseDigits 0 (first :: rest) := by
      unfold parseUsize
      split
      · rename_i same
        cases same
      · rename_i same
        exact absurd (List.cons.inj same).1 isPlus
      · rename_i same
        exact absurd (List.cons.inj same).1 isPlus
      · rfl
    rw [unsigned]
    constructor
    · exact fun read => ⟨_, .inl rfl, List.cons_ne_nil _ _, read⟩
    · rintro ⟨digits, rfl | same, -, read⟩
      · exact read
      · exact absurd (List.cons.inj same).1 isPlus

theorem parseDigits_toDigits (value : ℕ) (inRange : value ≤ u64Max) :
    parseDigits 0 (Nat.toDigits 10 value) = some value := by
  rw [parseDigits_eq_some_iff (Nat.zero_le _)]
  exact ⟨fun digit isDigit => Nat.isDigit_of_mem_toDigits (by decide) (by decide) isDigit,
    Nat.ofDigitChars_ten_toDigits, inRange⟩

/-- `char::to_digit(16)`. -/
def hexValue (character : Char) : Option ℕ :=
  if '0' ≤ character ∧ character ≤ '9' then some (character.toNat - '0'.toNat)
  else if 'a' ≤ character ∧ character ≤ 'f' then some (character.toNat - 'a'.toNat + 10)
  else if 'A' ≤ character ∧ character ≤ 'F' then some (character.toNat - 'A'.toNat + 10)
  else none

def parseHex (value : ℕ) : List Char → Except String ℕ
  | [] => .ok value
  | character :: rest =>
      match hexValue character with
      | none => .error "invalid digit found in string"
      | some digit =>
          let next := value * 16 + digit
          if next ≤ u64Max then parseHex next rest
          else .error "number too large to fit in target type"

/-- `usize::from_str_radix(text, 16)` on a 64-bit target, with the text of its error. -/
def fromStrRadix16 (text : List Char) : Except String ℕ :=
  match text with
  | [] => .error "cannot parse integer from empty string"
  | '+' :: [] => .error "invalid digit found in string"
  | '+' :: digits => parseHex 0 digits
  | digits => parseHex 0 digits

/-- `str::strip_suffix`. -/
def stripSuffix (suffix : Char) (text : List Char) : Option (List Char) :=
  if text.getLast? = some suffix then some text.dropLast else none

theorem stripSuffix_eq_some {suffix : Char} {text trimmed : List Char}
    (stripped : stripSuffix suffix text = some trimmed) : text = trimmed ++ [suffix] := by
  rw [stripSuffix] at stripped
  split at stripped
  · rename_i isLast
    cases stripped
    exact (List.dropLast_append_getLast? suffix isLast).symm
  · cases stripped

/-- The digits of `{:x}`, padded with zeros to the width of `{:0width x}`. -/
def formatHex (width value : ℕ) : List Char :=
  let digits := Nat.toDigits 16 value
  List.replicate (width - digits.length) '0' ++ digits

theorem hexValue_digitChar {digit : ℕ} (isDigit : digit < 16) :
    hexValue digit.digitChar = some digit := by
  have everyDigit : ∀ digit : Fin 16, hexValue (Nat.digitChar digit) = some digit.val := by
    decide
  exact everyDigit ⟨digit, isDigit⟩

theorem parseHex_append {value middle : ℕ} {front : List Char} (rest : List Char)
    (parsed : parseHex value front = .ok middle) :
    parseHex value (front ++ rest) = parseHex middle rest := by
  induction front generalizing value with
  | nil =>
      cases parsed
      rfl
  | cons character front ih =>
      simp only [List.cons_append, parseHex] at parsed ⊢
      split at parsed
      · cases parsed
      · split at parsed
        · rename_i inRange
          simpa only [inRange, ↓reduceIte] using ih parsed
        · cases parsed

theorem parseHex_toDigits (value : ℕ) (inRange : value ≤ u64Max) :
    parseHex 0 (Nat.toDigits 16 value) = .ok value := by
  induction value using Nat.strong_induction_on with
  | _ value ih =>
      by_cases single : value < 16
      · rw [Nat.toDigits_of_lt_base single]
        simp [parseHex, hexValue_digitChar single, inRange]
      · rw [Nat.toDigits_of_base_le (by omega) (by omega)]
        have lastDigit : value % 16 < 16 := Nat.mod_lt _ (by omega)
        have leading := ih (value / 16) (by omega) (by omega)
        rw [parseHex_append _ leading]
        have whole : value / 16 * 16 + value % 16 = value := by omega
        simp [parseHex, hexValue_digitChar lastDigit, whole, inRange]

theorem parseHex_replicate_zero (width : ℕ) :
    parseHex 0 (List.replicate width '0') = .ok 0 := by
  induction width with
  | zero => rfl
  | succ width ih => simpa [List.replicate_succ, parseHex, hexValue] using ih

theorem parseHex_formatHex {width value : ℕ} (inRange : value ≤ u64Max) :
    parseHex 0 (formatHex width value) = .ok value := by
  rw [formatHex, parseHex_append _ (parseHex_replicate_zero _)]
  exact parseHex_toDigits value inRange

theorem fromStrRadix16_eq_ok {text : List Char} {value : ℕ} (nonempty : text ≠ [])
    (parsed : parseHex 0 text = .ok value) : fromStrRadix16 text = .ok value := by
  rcases text with _ | ⟨character, rest⟩
  · exact absurd rfl nonempty
  · by_cases isPlus : character = '+'
    · subst isPlus
      simp [parseHex, hexValue] at parsed
    · unfold fromStrRadix16
      split
      · rename_i isNil
        cases isNil
      · rename_i isSign
        cases isSign
        exact absurd rfl isPlus
      · rename_i isSign
        cases isSign
        exact absurd rfl isPlus
      · exact parsed

theorem isAscii_of_parseHex {text : List Char} {before after : ℕ}
    (parsed : parseHex before text = .ok after) :
    ∀ character ∈ text, character.toNat < 0x80 := by
  induction text generalizing before with
  | nil => simp
  | cons first rest ih =>
      simp only [parseHex] at parsed
      split at parsed
      · cases parsed
      · rename_i digit isDigit
        split at parsed
        · intro character member
          rcases List.mem_cons.mp member with rfl | member
          · by_contra large
            have notBelow : ∀ bound : Char, bound.toNat < 0x80 → ¬character ≤ bound := by
              intro bound boundSmall atMost
              have : character.toNat ≤ bound.toNat := atMost
              omega
            simp [hexValue, notBelow] at isDigit
          · exact ih parsed character member
        · cases parsed

theorem length_formatHex {width value : ℕ} (positive : 0 < width) (fits : value < 16 ^ width) :
    (formatHex width value).length = width := by
  have short := (Nat.length_toDigits_le_iff (by omega) positive).mpr fits
  simp only [formatHex, List.length_append, List.length_replicate]
  omega

end Text

namespace Utf8

/-- `char::REPLACEMENT_CHARACTER`. -/
def replacement : Char := Char.ofNat 0xfffd

/-- Whether a byte lies in an inclusive range. -/
def within (low high : ℕ) (byte : UInt8) : Bool :=
  low ≤ byte.toNat && byte.toNat ≤ high

/-- The admissible second bytes after a three- or four-byte lead. -/
def secondRange (lead : ℕ) : ℕ × ℕ :=
  if lead = 0xe0 then (0xa0, 0xbf)
  else if lead = 0xed then (0x80, 0x9f)
  else if lead = 0xf0 then (0x90, 0xbf)
  else if lead = 0xf4 then (0x80, 0x8f)
  else (0x80, 0xbf)

/-- The next character of `String::from_utf8_lossy` and the bytes after it. An ill-formed prefix
is replaced as one maximal subpart. -/
def nextLossy (lead : UInt8) (rest : List UInt8) : Char × List UInt8 :=
  let code := lead.toNat
  if code < 0x80 then (Char.ofNat code, rest)
  else if 0xc2 ≤ code ∧ code ≤ 0xdf then
    match rest with
    | second :: rest =>
        if within 0x80 0xbf second then
          (Char.ofNat ((code - 0xc0) * 0x40 + (second.toNat - 0x80)), rest)
        else (replacement, second :: rest)
    | [] => (replacement, [])
  else if 0xe0 ≤ code ∧ code ≤ 0xef then
    match rest with
    | second :: rest =>
        if within (secondRange code).1 (secondRange code).2 second then
          match rest with
          | third :: rest =>
              if within 0x80 0xbf third then
                (Char.ofNat ((code - 0xe0) * 0x1000 + (second.toNat - 0x80) * 0x40 +
                  (third.toNat - 0x80)), rest)
              else (replacement, third :: rest)
          | [] => (replacement, [])
        else (replacement, second :: rest)
    | [] => (replacement, [])
  else if 0xf0 ≤ code ∧ code ≤ 0xf4 then
    match rest with
    | second :: rest =>
        if within (secondRange code).1 (secondRange code).2 second then
          match rest with
          | third :: rest =>
              if within 0x80 0xbf third then
                match rest with
                | fourth :: rest =>
                    if within 0x80 0xbf fourth then
                      (Char.ofNat ((code - 0xf0) * 0x40000 + (second.toNat - 0x80) * 0x1000 +
                        (third.toNat - 0x80) * 0x40 + (fourth.toNat - 0x80)), rest)
                    else (replacement, fourth :: rest)
                | [] => (replacement, [])
              else (replacement, third :: rest)
          | [] => (replacement, [])
        else (replacement, second :: rest)
    | [] => (replacement, [])
  else (replacement, rest)

/-- The decoding loop, with one unit of fuel for each remaining byte. -/
def decodeLossy : ℕ → List UInt8 → List Char
  | 0, _ => []
  | _ + 1, [] => []
  | fuel + 1, lead :: rest =>
      let (character, remaining) := nextLossy lead rest
      character :: decodeLossy fuel remaining

/-- `String::from_utf8_lossy`. -/
def fromUtf8Lossy (bytes : List UInt8) : List Char :=
  decodeLossy bytes.length bytes

/-- The checking loop of `str::from_utf8`, with the text of its error. -/
def fromUtf8From (index : ℕ) : ℕ → List UInt8 → Except String (List Char)
  | 0, _ => .ok []
  | _ + 1, [] => .ok []
  | fuel + 1, lead :: rest =>
      let (character, remaining) := nextLossy lead rest
      let width := rest.length + 1 - remaining.length
      if character = replacement ∧ (lead :: rest).take width ≠ [0xef, 0xbf, 0xbd] then
        -- Only a sequence the input ends in the middle of is incomplete.
        if remaining = [] ∧ 0xc2 ≤ lead.toNat ∧ lead.toNat ≤ 0xf4 then
          .error s!"incomplete utf-8 byte sequence from index {index}"
        else .error s!"invalid utf-8 sequence of {width} bytes from index {index}"
      else (fromUtf8From (index + width) fuel remaining).map (character :: ·)

/-- `str::from_utf8`. -/
def fromUtf8 (bytes : List UInt8) : Except String (List Char) :=
  fromUtf8From 0 bytes.length bytes

/-- `str::as_bytes` of a text of ASCII characters. -/
def asciiBytes (text : List Char) : List UInt8 :=
  text.map fun character => UInt8.ofNat character.toNat

theorem fromUtf8_asciiBytes {text : List Char}
    (isAscii : ∀ character ∈ text, character.toNat < 0x80) :
    fromUtf8 (asciiBytes text) = .ok text := by
  have decoded : ∀ (text : List Char) (index : ℕ),
      (∀ character ∈ text, character.toNat < 0x80) →
      fromUtf8From index text.length (asciiBytes text) = .ok text := by
    intro text
    induction text with
    | nil => exact fun _ _ => rfl
    | cons character text ih =>
        intro index isAscii
        have small := isAscii character (by simp)
        have code : (UInt8.ofNat character.toNat).toNat = character.toNat := by
          rw [UInt8.toNat_ofNat']
          omega
        have notReplacement : character ≠ replacement := by
          rintro rfl
          simp [replacement] at small
        have tail := ih (index + 1) fun other otherMem => isAscii other (by simp [otherMem])
        simp only [asciiBytes] at tail
        simp [asciiBytes, fromUtf8From, nextLossy, code, small, notReplacement, tail, Except.map]
  have lengths : (asciiBytes text).length = text.length := by simp [asciiBytes]
  rw [fromUtf8, lengths]
  exact decoded text 0 isAscii

theorem le_toNat_ofNat {code : ℕ} (large : 0x80 ≤ code) (valid : code.isValidChar) :
    0x80 ≤ (Char.ofNat code).toNat := by
  rw [Char.ofNat, dif_pos valid]
  exact large

/-- The second bytes of a longer sequence, which leave out the codes of shorter ones. -/
theorem second_of_within {lead : ℕ} {second : UInt8}
    (inRange : within (secondRange lead).1 (secondRange lead).2 second = true) :
    (0x80 ≤ second.toNat ∧ second.toNat ≤ 0xbf) ∧ (lead = 0xe0 → 0xa0 ≤ second.toNat) ∧
      (lead = 0xed → second.toNat ≤ 0x9f) ∧ (lead = 0xf0 → 0x90 ≤ second.toNat) ∧
        (lead = 0xf4 → second.toNat ≤ 0x8f) := by
  rw [within, Bool.and_eq_true, decide_eq_true_eq, decide_eq_true_eq] at inRange
  simp only [secondRange] at inRange
  split_ifs at inRange <;> simp only at inRange <;> omega

/-- Only one byte below 0x80 decodes to an ASCII character: itself. -/
theorem nextLossy_of_ascii {lead : UInt8} {rest : List UInt8}
    (isAscii : (nextLossy lead rest).1.toNat < 0x80) :
    lead.toNat < 0x80 ∧ nextLossy lead rest = (Char.ofNat lead.toNat, rest) := by
  have placeholder : 0x80 ≤ replacement.toNat := by decide
  have next : ∀ {byte : UInt8}, within 0x80 0xbf byte = true →
      0x80 ≤ byte.toNat ∧ byte.toNat ≤ 0xbf := by
    intro byte inRange
    rwa [within, Bool.and_eq_true, decide_eq_true_eq, decide_eq_true_eq] at inRange
  by_cases small : lead.toNat < 0x80
  · exact ⟨small, by simp only [nextLossy, small, if_true]⟩
  refine absurd isAscii (Nat.not_lt.mpr ?_)
  simp only [nextLossy, if_neg small]
  split
  · rename_i two
    cases rest with
    | nil => exact placeholder
    | cons second rest =>
        dsimp only
        split
        · rename_i inRange
          have bounds := next inRange
          dsimp only
          apply le_toNat_ofNat
          · omega
          · rw [Nat.isValidChar]
            omega
        · exact placeholder
  split
  · rename_i three
    rcases rest with _ | ⟨second, rest⟩
    · exact placeholder
    dsimp only
    split
    · rename_i inSecond
      have secondBounds := second_of_within inSecond
      rcases rest with _ | ⟨third, rest⟩
      · exact placeholder
      dsimp only
      split
      · rename_i inThird
        have bounds := next inThird
        dsimp only
        apply le_toNat_ofNat
        · omega
        · rw [Nat.isValidChar]
          omega
      · exact placeholder
    · exact placeholder
  split
  · rename_i four
    rcases rest with _ | ⟨second, rest⟩
    · exact placeholder
    dsimp only
    split
    · rename_i inSecond
      have secondBounds := second_of_within inSecond
      rcases rest with _ | ⟨third, rest⟩
      · exact placeholder
      dsimp only
      split
      · rename_i inThird
        have bounds := next inThird
        rcases rest with _ | ⟨fourth, rest⟩
        · exact placeholder
        dsimp only
        split
        · rename_i inFourth
          have fourthBounds := next inFourth
          dsimp only
          apply le_toNat_ofNat
          · omega
          · rw [Nat.isValidChar]
            omega
        · exact placeholder
      · exact placeholder
    · exact placeholder
  · exact placeholder

/-- Bytes that decode to an ASCII text are its bytes. -/
theorem eq_asciiBytes {bytes : List UInt8} {text : List Char}
    (decoded : fromUtf8 bytes = .ok text) (isAscii : ∀ character ∈ text, character.toNat < 0x80) :
    bytes = asciiBytes text := by
  rw [fromUtf8] at decoded
  generalize 0 = index at decoded
  induction bytes generalizing index text with
  | nil =>
      cases decoded
      rfl
  | cons lead rest ih =>
      rw [List.length_cons, fromUtf8From] at decoded
      dsimp only at decoded
      split at decoded
      · split at decoded <;> cases decoded
      · cases later : fromUtf8From (index + (rest.length + 1 - (nextLossy lead rest).2.length))
            rest.length (nextLossy lead rest).2 with
        | error failure =>
            rw [later] at decoded
            cases decoded
        | ok tail =>
            rw [later] at decoded
            cases decoded
            rw [List.forall_mem_cons] at isAscii
            rcases nextLossy_of_ascii isAscii.1 with ⟨small, next⟩
            rw [next] at later ⊢
            have code : (Char.ofNat lead.toNat).toNat = lead.toNat := by
              rw [Char.ofNat, dif_pos (.inl (by omega))]
              rfl
            rw [asciiBytes, List.map_cons, code, UInt8.ofNat_toNat, ih isAscii.2 _ later]
            rfl

example : fromUtf8Lossy [0x61, 0xe2, 0x82, 0x41, 0xff, 0xc3, 0xa9] =
    ['a', replacement, 'A', replacement, 'é'] := by decide

end Utf8

end Gregg

import Mathlib.Algebra.GroupWithZero.Nat
import Mathlib.Data.List.Basic

/-!
# JSON documents

A document as a serializer emits it and a deserializer visits it, its compact text, and the number
of UTF-8 bytes of that text as a sum over its members. A number is its literal, so that a document
with numbers of any kind is one value.
-/

inductive Json where
  | null
  | bool (value : Bool)
  | number (literal : List Char)
  | string (text : List Char)
  | array (items : List Json)
  | object (fields : List (String × Json))

namespace Json

/-- The number of bytes of a text in UTF-8. -/
def byteLen (text : List Char) : ℕ :=
  (text.map Char.utf8Size).sum

@[simp]
theorem byteLen_nil : byteLen [] = 0 := rfl

@[simp]
theorem byteLen_cons (character : Char) (text : List Char) :
    byteLen (character :: text) = character.utf8Size + byteLen text := rfl

@[simp]
theorem byteLen_append (before after : List Char) :
    byteLen (before ++ after) = byteLen before + byteLen after := by
  simp [byteLen]

def hexDigit (value : ℕ) : Char :=
  Nat.digitChar value

/-- One character inside a JSON string. Only control characters, quotes and backslashes are
escaped. -/
def escape (character : Char) : List Char :=
  if character.toNat = 0x22 then ['\\', '"']
  else if character.toNat = 0x5c then ['\\', '\\']
  else if character.toNat = 0x8 then ['\\', 'b']
  else if character.toNat = 0xc then ['\\', 'f']
  else if character.toNat = 0xa then ['\\', 'n']
  else if character.toNat = 0xd then ['\\', 'r']
  else if character.toNat = 0x9 then ['\\', 't']
  else if character.toNat < 0x20 then
    ['\\', 'u', '0', '0', hexDigit (character.toNat / 16), hexDigit (character.toNat % 16)]
  else [character]

def quote (text : List Char) : List Char :=
  '"' :: text.flatMap escape ++ ['"']

mutual

/-- The compact text of a document. -/
def render : Json → List Char
  | .null => ['n', 'u', 'l', 'l']
  | .bool true => ['t', 'r', 'u', 'e']
  | .bool false => ['f', 'a', 'l', 's', 'e']
  | .number literal => literal
  | .string text => quote text
  | .array [] => ['[', ']']
  | .array (item :: items) => '[' :: render item ++ renderItems items ++ [']']
  | .object [] => ['{', '}']
  | .object ((key, value) :: fields) =>
      '{' :: quote key.toList ++ ':' :: render value ++ renderFields fields ++ ['}']

def renderItems : List Json → List Char
  | [] => []
  | item :: items => ',' :: render item ++ renderItems items

def renderFields : List (String × Json) → List Char
  | [] => []
  | (key, value) :: fields => ',' :: quote key.toList ++ ':' :: render value ++ renderFields fields

end

/-- The bytes a document takes. -/
def size (document : Json) : ℕ :=
  byteLen document.render

/-- The bytes of a key in its quotes. -/
def keySize (key : String) : ℕ :=
  byteLen (quote key.toList)

/-- The bytes of one field with its colon and a separator. -/
def fieldSize (field : String × Json) : ℕ :=
  keySize field.1 + 2 + field.2.size

theorem byteLen_renderItems (items : List Json) :
    byteLen (renderItems items) = (items.map fun item => item.size + 1).sum := by
  induction items with
  | nil => rfl
  | cons item items ih =>
      have comma : (',' : Char).utf8Size = 1 := by decide
      simp only [renderItems, List.cons_append, byteLen_cons, byteLen_append, ih, comma,
        List.map_cons, List.sum_cons, size]
      omega

theorem byteLen_renderFields (fields : List (String × Json)) :
    byteLen (renderFields fields) = (fields.map fieldSize).sum := by
  induction fields with
  | nil => rfl
  | cons field fields ih =>
      have comma : (',' : Char).utf8Size = 1 := by decide
      have colon : (':' : Char).utf8Size = 1 := by decide
      simp only [renderFields, List.cons_append, byteLen_cons, byteLen_append, ih, comma, colon,
        List.map_cons, List.sum_cons, fieldSize, keySize, size]
      omega

@[simp]
theorem size_null : size .null = 4 := by decide

theorem size_bool_le (value : Bool) : size (.bool value) ≤ 5 := by
  cases value <;> decide

@[simp]
theorem size_number (literal : List Char) : size (.number literal) = byteLen literal := by
  rw [size, render]

/-- An array takes its brackets, and a comma after every item but the last. -/
theorem size_array (items : List Json) :
    size (.array items) = max 2 (1 + (items.map fun item => item.size + 1).sum) := by
  cases items with
  | nil => decide
  | cons item items =>
      have bracket : ('[' : Char).utf8Size = 1 := by decide
      have closing : byteLen [']'] = 1 := by decide
      simp only [size, render, List.cons_append, byteLen_cons, byteLen_append, bracket, closing,
        byteLen_renderItems, List.map_cons, List.sum_cons]
      omega

theorem size_object {fields : List (String × Json)} (nonempty : fields ≠ []) :
    size (.object fields) = 1 + (fields.map fieldSize).sum := by
  cases fields with
  | nil => exact absurd rfl nonempty
  | cons field fields =>
      have brace : ('{' : Char).utf8Size = 1 := by decide
      have colon : (':' : Char).utf8Size = 1 := by decide
      have closing : byteLen ['}'] = 1 := by decide
      simp only [size, render, List.cons_append, byteLen_cons, byteLen_append, brace, colon,
        closing, byteLen_renderFields, List.map_cons, List.sum_cons, fieldSize, keySize]
      omega

theorem byteLen_quote (text : List Char) :
    byteLen (quote text) = 2 + (text.map fun character => byteLen (escape character)).sum := by
  have flat : byteLen (text.flatMap escape) =
      (text.map fun character => byteLen (escape character)).sum := by
    induction text with
    | nil => rfl
    | cons character text ih =>
        simp only [List.flatMap_cons, byteLen_append, ih, List.map_cons, List.sum_cons]
  have mark : ('"' : Char).utf8Size = 1 := by decide
  have closing : byteLen ['"'] = 1 := by decide
  simp only [quote, List.cons_append, byteLen_cons, byteLen_append, flat, mark, closing]
  omega

@[simp]
theorem size_string (text : List Char) :
    size (.string text) = 2 + (text.map fun character => byteLen (escape character)).sum := by
  rw [size, render, byteLen_quote]

/-- A natural number, written in decimal. -/
def nat (value : ℕ) : Json :=
  .number (Nat.toDigits 10 value)

/-- An integer, written in decimal. -/
def int (value : ℤ) : Json :=
  .number (if value < 0 then '-' :: Nat.toDigits 10 value.natAbs else Nat.toDigits 10 value.natAbs)

theorem byteLen_digits (value : ℕ) :
    byteLen (Nat.toDigits 10 value) = (Nat.toDigits 10 value).length := by
  have single : ∀ character ∈ Nat.toDigits 10 value, character.utf8Size = 1 := by
    intro character isDigit
    have digit := Nat.isDigit_of_mem_toDigits (by decide) (by decide) isDigit
    simp only [Char.isDigit, Bool.and_eq_true, decide_eq_true_eq] at digit
    have ascii : character.val ≤ 0x7f := UInt32.le_trans digit.2 (by decide)
    exact if_pos ascii
  rw [byteLen, List.map_congr_left single]
  simp

/-- A number below a power of ten takes at most that many digits. -/
theorem size_nat_le {value digits : ℕ} (positive : 0 < digits) (below : value < 10 ^ digits) :
    (nat value).size ≤ digits := by
  rw [nat, size_number, byteLen_digits]
  exact (Nat.length_toDigits_le_iff (by decide) positive).mpr below

theorem size_int_le {value : ℤ} {digits : ℕ} (positive : 0 < digits)
    (below : value.natAbs < 10 ^ digits) : (int value).size ≤ digits + 1 := by
  have size := size_nat_le positive below
  rw [nat, size_number] at size
  rw [int, size_number]
  split
  · have minus : ('-' : Char).utf8Size = 1 := by decide
    rw [byteLen_cons, minus]
    omega
  · omega

/-- A field that is left out when it is absent. -/
def optionalField (key : String) (value : Option Json) : List (String × Json) :=
  (value.map fun value => (key, value)).toList

/-- The bytes of a field that may be left out. -/
def optionalSize (key : String) (value : Option Json) : ℕ :=
  value.elim 0 fun value => keySize key + 2 + value.size

@[simp]
theorem optionalSize_none (key : String) : optionalSize key none = 0 := rfl

@[simp]
theorem optionalSize_some (key : String) (value : Json) :
    optionalSize key (some value) = keySize key + 2 + value.size := rfl

theorem sum_optionalField (key : String) (value : Option Json) :
    ((optionalField key value).map fieldSize).sum = optionalSize key value := by
  cases value <;> rfl

theorem optionalSize_le {key : String} {value : Option Json} {bound : ℕ}
    (bounded : ∀ present ∈ value, present.size ≤ bound) :
    optionalSize key value ≤ keySize key + 2 + bound := by
  cases value with
  | none => exact Nat.zero_le _
  | some present => exact Nat.add_le_add_left (bounded present rfl) _

end Json

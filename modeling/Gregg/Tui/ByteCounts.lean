import Mathlib.Algebra.Order.Ring.Rat
import Mathlib.Tactic.Linarith
import Gregg.Tui.DriveTable

/-!
# What a byte count says

A byte count is printed as a number of tenths of a unit, with the bytes themselves below the first
unit. Read back, a printed count is close to the bytes, and a larger one never reads as less.
-/

namespace Gregg.Tui.DriveTable

/-- What a printed count says: so many tenths of a unit. -/
structure ShownCount where
  tenths : ℕ
  unit : ℕ

/-- The number in front of the unit. -/
def ShownCount.mantissa (shown : ShownCount) : ℚ :=
  shown.tenths / 10

/-- The bytes that a printed count says. -/
def ShownCount.value (shown : ShownCount) : ℚ :=
  shown.mantissa * shown.unit

def unitOf (label : List Char) : Option ℕ :=
  if label = "KiB".toList then some KIB
  else if label = "MiB".toList then some MIB
  else if label = "GiB".toList then some GIB
  else if label = "TiB".toList then some TIB
  else none

/-- What the rest of a count says after its digits. -/
def readTenths (whole : ℕ) : List Char → Option ShownCount
  | [' ', 'B'] => some ⟨whole * 10, 1⟩
  | '.' :: tenth :: ' ' :: label =>
      if tenth.isDigit then
        (unitOf label).map (⟨whole * 10 + Nat.ofDigitChars 10 [tenth] 0, ·⟩)
      else none
  | _ => none

/-- Read a printed count. -/
def readBytes (text : List Char) : Option ShownCount :=
  readTenths (Nat.ofDigitChars 10 (text.takeWhile Char.isDigit) 0) (text.dropWhile Char.isDigit)

/-- Bytes in tenths of a unit, or of the next one where they are rounded up to it. -/
def shownIn (bytes unit : ℕ) (next : Option ℕ) : ShownCount :=
  match next.filter fun _ => 10240 ≤ tenthsOf bytes unit with
  | some nextUnit => ⟨tenthsOf bytes nextUnit, nextUnit⟩
  | none => ⟨tenthsOf bytes unit, unit⟩

/-- What is printed for a byte count. -/
def shownBytes (bytes : ℕ) : ShownCount :=
  if TIB ≤ bytes then shownIn bytes TIB none
  else if GIB ≤ bytes then shownIn bytes GIB (some TIB)
  else if MIB ≤ bytes then shownIn bytes MIB (some GIB)
  else if KIB ≤ bytes then shownIn bytes KIB (some MIB)
  else ⟨bytes * 10, 1⟩

/-- A count in the first of some units, each with those after it, in which it is below 1024.0. -/
def firstFit (bytes unit : ℕ) : List ℕ → ShownCount
  | [] => ⟨tenthsOf bytes unit, unit⟩
  | next :: units =>
      if tenthsOf bytes unit < 10240 then ⟨tenthsOf bytes unit, unit⟩
      else firstFit bytes next units

section Reading

/-- The number at the front of a count is read up to the next character. -/
theorem readBytes_append (whole : ℕ) {next : Char} (notDigit : next.isDigit = false)
    (rest : List Char) :
    readBytes (Nat.toDigits 10 whole ++ next :: rest) = readTenths whole (next :: rest) := by
  have digits : ∀ character ∈ Nat.toDigits 10 whole, character.isDigit = true :=
    fun character isDigit => Nat.isDigit_of_mem_toDigits (by decide) (by decide) isDigit
  rw [readBytes, List.takeWhile_append_of_pos digits, List.dropWhile_append_of_pos digits,
    List.takeWhile_cons_of_neg (by simp [notDigit]),
    List.dropWhile_cons_of_neg (by simp [notDigit]), List.append_nil,
    Nat.ofDigitChars_ten_toDigits]

theorem readBytes_plain (bytes : ℕ) : readBytes (s!"{bytes} B").toList = some ⟨bytes * 10, 1⟩ := by
  have isText : (s!"{bytes} B").toList = Nat.toDigits 10 bytes ++ ' ' :: ['B'] := by
    rw [← Nat.toList_repr]
    exact String.toList_append
  rw [isText, readBytes_append _ (by decide), readTenths]

theorem readBytes_tenthsLabel (tenths : ℕ) {label : String} {unit : ℕ}
    (isUnit : unitOf label.toList = some unit) :
    readBytes (tenthsLabel tenths label).toList = some ⟨tenths, unit⟩ := by
  have short : tenths % 10 < 10 := Nat.mod_lt _ (by decide)
  have isText : (tenthsLabel tenths label).toList =
      Nat.toDigits 10 (tenths / 10) ++
        '.' :: ([(tenths % 10).digitChar] ++ ' ' :: label.toList) := by
    rw [tenthsLabel, ← Nat.toDigits_of_lt_base short, ← Nat.toList_repr, ← Nat.toList_repr]
    simp only [String.toList_append, List.append_assoc]
    rfl
  have isDigit : (tenths % 10).digitChar.isDigit = true := by
    apply Nat.isDigit_of_mem_toDigits (b := 10) (n := tenths % 10) (by decide) (by decide)
    rw [Nat.toDigits_of_lt_base short]
    exact List.mem_singleton_self _
  rw [isText, readBytes_append _ (by decide), List.singleton_append, readTenths, if_pos isDigit,
    isUnit, Option.map_some, Nat.ofDigitChars_cons_digitChar_of_lt_ten short, Nat.ofDigitChars_nil]
  congr 2
  omega

/-- The unit and its next one are read from their labels. -/
theorem readBytes_bytesIn (bytes : ℕ) {unit : ℕ} {label : String} {next : Option (ℕ × String)}
    (isUnit : unitOf label.toList = some unit)
    (isNext : ∀ entry, next = some entry → unitOf entry.2.toList = some entry.1) :
    readBytes (bytesIn bytes unit label next).toList =
      some (shownIn bytes unit (next.map Prod.fst)) := by
  cases next with
  | none => exact readBytes_tenthsLabel _ isUnit
  | some entry =>
      by_cases promoted : 10240 ≤ tenthsOf bytes unit
      · have isText : bytesIn bytes unit label (some entry) =
            tenthsLabel (tenthsOf bytes entry.1) entry.2 := by
          simp only [bytesIn, Option.filter_some, promoted, decide_true, if_true]
        have isShown : shownIn bytes unit (some entry.1) = ⟨tenthsOf bytes entry.1, entry.1⟩ := by
          simp only [shownIn, Option.filter_some, promoted, decide_true, if_true]
        rw [isText, Option.map_some, isShown]
        exact readBytes_tenthsLabel _ (isNext entry rfl)
      · have isText : bytesIn bytes unit label (some entry) =
            tenthsLabel (tenthsOf bytes unit) label := by
          simp [bytesIn, promoted]
        have isShown : shownIn bytes unit (some entry.1) = ⟨tenthsOf bytes unit, unit⟩ := by
          simp [shownIn, promoted]
        rw [isText, Option.map_some, isShown]
        exact readBytes_tenthsLabel _ isUnit

theorem readBytes_formatBytes (bytes : ℕ) :
    readBytes (formatBytes bytes).toList = some (shownBytes bytes) := by
  rw [formatBytes, shownBytes]
  split
  · rename_i isZero
    subst isZero
    exact readBytes_plain 0
  split
  · exact readBytes_bytesIn bytes rfl (by simp)
  split
  · exact readBytes_bytesIn bytes rfl (by rintro _ ⟨⟩; rfl)
  split
  · exact readBytes_bytesIn bytes rfl (by rintro _ ⟨⟩; rfl)
  split
  · exact readBytes_bytesIn bytes rfl (by rintro _ ⟨⟩; rfl)
  · exact readBytes_plain bytes

end Reading

section Rounding

/-- A number of tenths is at most half a tenth away. -/
theorem tenthsOf_close (bytes : ℕ) {unit : ℕ} (positive : 0 < unit) :
    2 * (tenthsOf bytes unit * unit) ≤ 20 * bytes + unit ∧
      20 * bytes ≤ 2 * (tenthsOf bytes unit * unit) + unit := by
  have below := Nat.div_mul_le_self (bytes * 10 + unit / 2) unit
  have above := Nat.lt_div_mul_add (a := bytes * 10 + unit / 2) positive
  rw [tenthsOf]
  omega

theorem tenthsOf_mono {smaller larger : ℕ} (le : smaller ≤ larger) (unit : ℕ) :
    tenthsOf smaller unit ≤ tenthsOf larger unit :=
  Nat.div_le_div_right (by omega)

/-- A number of tenths is below 1024.0 up to half a tenth before it. -/
theorem tenthsOf_lt_iff (bytes : ℕ) {unit : ℕ} (positive : 0 < unit) (even : unit % 2 = 0) :
    tenthsOf bytes unit < 10240 ↔ 20 * bytes < 20479 * unit := by
  rw [tenthsOf, Nat.div_lt_iff_lt_mul positive]
  omega

/-- From 1024.0 of a unit on, a count is at least 1.0 of the next one. -/
theorem le_tenthsOf_next {bytes unit next : ℕ} (positive : 0 < unit) (even : unit % 2 = 0)
    (isNext : next = unit * 1024) (reached : ¬tenthsOf bytes unit < 10240) :
    10 ≤ tenthsOf bytes next := by
  rw [tenthsOf_lt_iff bytes positive even] at reached
  rw [tenthsOf, Nat.le_div_iff_mul_le (by omega)]
  omega

theorem le_tenthsOf_kib {bytes : ℕ} (reached : ¬bytes < KIB) : 10 ≤ tenthsOf bytes KIB := by
  rw [tenthsOf, Nat.le_div_iff_mul_le (by decide)]
  omega

theorem shownIn_some (bytes unit next : ℕ) :
    shownIn bytes unit (some next) =
      if tenthsOf bytes unit < 10240 then ⟨tenthsOf bytes unit, unit⟩
      else ⟨tenthsOf bytes next, next⟩ := by
  by_cases promoted : tenthsOf bytes unit < 10240
  · have notPromoted : ¬10240 ≤ tenthsOf bytes unit := Nat.not_le.mpr promoted
    simp [shownIn, promoted, notPromoted]
  · rw [if_neg promoted]
    simp only [shownIn, Option.filter_some, decide_eq_true (Nat.not_lt.mp promoted), if_true]

/-- A count is printed in the first unit in which it is below 1024.0. -/
theorem shownBytes_eq (bytes : ℕ) :
    shownBytes bytes =
      if bytes < KIB then ⟨bytes * 10, 1⟩ else firstFit bytes KIB [MIB, GIB, TIB] := by
  have inKib := @tenthsOf_lt_iff bytes KIB (by decide) (by decide)
  have inMib := @tenthsOf_lt_iff bytes MIB (by decide) (by decide)
  have inGib := @tenthsOf_lt_iff bytes GIB (by decide) (by decide)
  have isMib : MIB = KIB * 1024 := rfl
  have isGib : GIB = MIB * 1024 := rfl
  have isTib : TIB = GIB * 1024 := rfl
  have largest : shownIn bytes TIB none = ⟨tenthsOf bytes TIB, TIB⟩ := rfl
  rw [shownBytes, shownIn_some, shownIn_some, shownIn_some, largest]
  simp only [firstFit, inKib, inMib, inGib]
  split_ifs <;> first | rfl | omega

end Rounding

section Units

/-- Units of which each is 1024 of the one before it. -/
def Ladder (unit : ℕ) : List ℕ → Prop
  | [] => True
  | next :: units => next = unit * 1024 ∧ Ladder next units

variable {bytes smaller larger unit : ℕ} {units : List ℕ}

/-- What is printed in a unit: the count, up to half a tenth, from 1.0 on and below 1024.0 where
there is a next unit. -/
structure Fits (bytes last : ℕ) (shown : ShownCount) : Prop where
  close : 2 * (shown.tenths * shown.unit) ≤ 20 * bytes + shown.unit ∧
    20 * bytes ≤ 2 * (shown.tenths * shown.unit) + shown.unit
  least : 10 ≤ shown.tenths
  most : shown.unit ≠ last → shown.tenths < 10240

theorem fits_firstFit (positive : 0 < unit) (even : unit % 2 = 0) (ladder : Ladder unit units)
    (least : 10 ≤ tenthsOf bytes unit) :
    Fits bytes ((unit :: units).getLast (List.cons_ne_nil _ _)) (firstFit bytes unit units) := by
  induction units generalizing unit with
  | nil => exact ⟨tenthsOf_close bytes positive, least, fun other => absurd rfl other⟩
  | cons next units ih =>
      rcases ladder with ⟨isNext, ladder⟩
      rw [firstFit]
      split
      · rename_i below
        exact ⟨tenthsOf_close bytes positive, least, fun _ => below⟩
      · rename_i reached
        rw [List.getLast_cons (List.cons_ne_nil _ _)]
        exact ih (by omega) (by omega) ladder (le_tenthsOf_next positive even isNext reached)

/-- A count of at least 1.0 of a unit reads as no less in the later units. -/
theorem le_firstFit (positive : 0 < unit) (even : unit % 2 = 0) (ladder : Ladder unit units)
    (least : 10 ≤ tenthsOf bytes unit) :
    10 * unit ≤ (firstFit bytes unit units).tenths * (firstFit bytes unit units).unit := by
  induction units generalizing unit with
  | nil => exact Nat.mul_le_mul_right unit least
  | cons next units ih =>
      rcases ladder with ⟨isNext, ladder⟩
      rw [firstFit]
      split
      · exact Nat.mul_le_mul_right unit least
      · rename_i reached
        have later := ih (by omega) (by omega) ladder
          (le_tenthsOf_next positive even isNext reached)
        omega

theorem firstFit_mono (positive : 0 < unit) (even : unit % 2 = 0) (ladder : Ladder unit units)
    (le : smaller ≤ larger) :
    (firstFit smaller unit units).tenths * (firstFit smaller unit units).unit ≤
      (firstFit larger unit units).tenths * (firstFit larger unit units).unit := by
  have inUnit := tenthsOf_mono le unit
  induction units generalizing unit with
  | nil => exact Nat.mul_le_mul_right unit inUnit
  | cons next units ih =>
      rcases ladder with ⟨isNext, ladder⟩
      rw [firstFit, firstFit]
      by_cases reached : tenthsOf larger unit < 10240
      · rw [if_pos reached, if_pos (inUnit.trans_lt reached)]
        exact Nat.mul_le_mul_right unit inUnit
      rw [if_neg reached]
      split
      · rename_i below
        -- The smaller count is below 1024.0 of the unit, the larger one at least 1.0 of the next.
        have later := le_firstFit (by omega) (by omega) ladder
          (le_tenthsOf_next positive even isNext reached)
        calc tenthsOf smaller unit * unit
          _ ≤ 10240 * unit := Nat.mul_le_mul_right unit below.le
          _ = 10 * next := by omega
          _ ≤ _ := later
      · exact ih (by omega) (by omega) ladder (tenthsOf_mono le next)

theorem ladder_kib : Ladder KIB [MIB, GIB, TIB] :=
  ⟨rfl, rfl, rfl, trivial⟩

/-- A larger count never reads as less. -/
theorem shownBytes_mono (le : smaller ≤ larger) :
    (shownBytes smaller).tenths * (shownBytes smaller).unit ≤
      (shownBytes larger).tenths * (shownBytes larger).unit := by
  rw [shownBytes_eq, shownBytes_eq]
  by_cases inBytes : larger < KIB
  · rw [if_pos inBytes, if_pos (by omega)]
    dsimp only
    omega
  rw [if_neg inBytes]
  split
  · rename_i below
    have later := le_firstFit (by decide) (by decide) ladder_kib (le_tenthsOf_kib inBytes)
    dsimp only
    omega
  · exact firstFit_mono (by decide) (by decide) ladder_kib le

end Units

/-- A byte count is printed so that it can be read back: up to half a tenth of the unit, and from
1.0 on and below 1024.0 of a unit between the bytes and the largest one. -/
structure Shows (bytes : ℕ) (shown : ShownCount) : Prop where
  read : readBytes (formatBytes bytes).toList = some shown
  close : |shown.value - bytes| ≤ shown.unit / 20
  mantissa : shown.unit ≠ 1 → shown.unit ≠ TIB → 1 ≤ shown.mantissa ∧ shown.mantissa < 1024

theorem abs_value_sub_le {bytes : ℕ} {shown : ShownCount}
    (close : 2 * (shown.tenths * shown.unit) ≤ 20 * bytes + shown.unit ∧
      20 * bytes ≤ 2 * (shown.tenths * shown.unit) + shown.unit) :
    |shown.value - bytes| ≤ shown.unit / 20 := by
  have above : (2 * (shown.tenths * shown.unit) : ℚ) ≤ 20 * bytes + shown.unit := by
    exact_mod_cast close.1
  have below : (20 * bytes : ℚ) ≤ 2 * (shown.tenths * shown.unit) + shown.unit := by
    exact_mod_cast close.2
  rw [ShownCount.value, ShownCount.mantissa, abs_le]
  constructor <;> linarith

theorem shows_shownBytes (bytes : ℕ) : Shows bytes (shownBytes bytes) := by
  have read := readBytes_formatBytes bytes
  by_cases inBytes : bytes < KIB
  · have isShown : shownBytes bytes = ⟨bytes * 10, 1⟩ := by
      rw [shownBytes_eq, if_pos inBytes]
    rw [isShown] at read ⊢
    refine ⟨read, abs_value_sub_le ?_, fun other => absurd rfl other⟩
    dsimp only
    omega
  · have isShown : shownBytes bytes = firstFit bytes KIB [MIB, GIB, TIB] := by
      rw [shownBytes_eq, if_neg inBytes]
    have fits := fits_firstFit (by decide) (by decide) ladder_kib (le_tenthsOf_kib inBytes)
    rw [← isShown] at fits
    refine ⟨read, abs_value_sub_le fits.close, fun _ notLargest => ?_⟩
    have least : (10 : ℚ) ≤ (shownBytes bytes).tenths := by exact_mod_cast fits.least
    have most : ((shownBytes bytes).tenths : ℚ) < 10240 := by exact_mod_cast fits.most notLargest
    rw [ShownCount.mantissa]
    constructor <;> linarith

/-- Of two byte counts the larger one is not printed as less, and both are printed as they are up to
half a tenth. -/
theorem formatBytes_ordered {smaller larger : ℕ} (le : smaller ≤ larger) :
    ∃ less more, Shows smaller less ∧ Shows larger more ∧ less.value ≤ more.value := by
  refine ⟨_, _, shows_shownBytes smaller, shows_shownBytes larger, ?_⟩
  have ordered : ((shownBytes smaller).tenths * (shownBytes smaller).unit : ℚ) ≤
      (shownBytes larger).tenths * (shownBytes larger).unit := by
    exact_mod_cast shownBytes_mono le
  rw [ShownCount.value, ShownCount.value, ShownCount.mantissa, ShownCount.mantissa]
  linarith

theorem formatBytes_ordered_promoted :
    ∃ less more, Shows (MIB - 1) less ∧ Shows MIB more ∧ less.value ≤ more.value :=
  formatBytes_ordered (Nat.sub_le MIB 1)

end Gregg.Tui.DriveTable

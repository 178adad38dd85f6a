import Gregg.RustStd
import Mathlib.Tactic.IntervalCases

/-!
# Stable versions and release targets

The texts an update decides by: strict version numbers of three parts, the targets that releases
are built for, and the names and addresses of what a release publishes.
-/

namespace Gregg.Update

section Versions

/-- The major, the minor and the patch number. -/
abbrev StableVersion := ℕ × ℕ × ℕ

/-- `str::parse::<u64>` of a part of a version, which must not start with a needless zero. -/
def parsePart (part : List Char) : Option ℕ :=
  if 1 < part.length ∧ part.head? = some '0' then none else Text.parseUsize part

def parseStableVersion (input : List Char) : Option StableVersion :=
  if input.isEmpty || input.contains '-' || input.contains '+' then none
  else
    match input.splitOn '.' with
    | [major, minor, patch] =>
        (parsePart major).bind fun major =>
          (parsePart minor).bind fun minor =>
            (parsePart patch).map fun patch => (major, minor, patch)
    | _ => none

def StableVersion.cmp (left right : StableVersion) : Ordering :=
  (compare left.1 right.1).then
    ((compare left.2.1 right.2.1).then (compare left.2.2 right.2.2))

def compareVersions (a b : List Char) : Option Ordering :=
  (parseStableVersion a).bind fun av => (parseStableVersion b).map fun bv => av.cmp bv

def isUpdateAvailable (current latest : List Char) : Option Bool :=
  (compareVersions current latest).map fun ordering => ordering == .lt

/-- The one text of a version. -/
def StableVersion.render (version : StableVersion) : List Char :=
  Nat.toDigits 10 version.1 ++
    '.' :: (Nat.toDigits 10 version.2.1 ++ '.' :: Nat.toDigits 10 version.2.2)

end Versions

section Digits

theorem exists_digitChar {character : Char} (isDigit : character.isDigit = true) :
    ∃ digit < 10, character = digit.digitChar := by
  have range := Char.isDigit_iff_toNat.mp isDigit
  have code : character = Char.ofNat character.toNat := (Char.ofNat_toNat character).symm
  refine ⟨character.toNat - '0'.toNat, ?_, ?_⟩
  · have top : character.toNat ≤ '9'.toNat := range.2
    have last : '9'.toNat = 57 := rfl
    have first : '0'.toNat = 48 := rfl
    omega
  · have low : 48 ≤ character.toNat := range.1
    have high : character.toNat ≤ 57 := range.2
    rw [code]
    generalize character.toNat = number at low high
    interval_cases number <;> rfl

/-- The digits of a number without a needless zero are the ones it is written with. -/
theorem eq_toDigits {digits : List Char} (decimal : ∀ digit ∈ digits, digit.isDigit = true)
    (nonempty : digits ≠ []) (canonical : 1 < digits.length → digits.head? ≠ some '0') :
    digits = Nat.toDigits 10 (Nat.ofDigitChars 10 digits 0) := by
  -- From the right: the number before the last digit is positive, as its first digit is no zero.
  induction digits using List.reverseRecOn with
  | nil => exact absurd rfl nonempty
  | append_singleton front last ih =>
      rcases exists_digitChar (decimal last (by simp)) with ⟨digit, small, rfl⟩
      have value : Nat.ofDigitChars 10 (front ++ [digit.digitChar]) 0 =
          10 * Nat.ofDigitChars 10 front 0 + digit := by
        rw [Nat.ofDigitChars_append, Nat.ofDigitChars_cons_digitChar_of_lt_ten small,
          Nat.ofDigitChars_nil]
      rw [value]
      by_cases isEmpty : front = []
      · subst isEmpty
        simp [Nat.toDigits_of_lt_base small]
      · have starts : (front ++ [digit.digitChar]).head? = front.head? := by
          rw [List.head?_append_of_ne_nil _ isEmpty]
        have longer : 1 < (front ++ [digit.digitChar]).length := by
          have size := List.length_pos_iff.mpr isEmpty
          simp only [List.length_append, List.length_singleton]
          omega
        have noZero := canonical longer
        rw [starts] at noZero
        have written := ih (fun other isMember => decimal other (by simp [isMember])) isEmpty
          fun _ => noZero
        have positive : 0 < Nat.ofDigitChars 10 front 0 := by
          rcases Nat.eq_zero_or_pos (Nat.ofDigitChars 10 front 0) with zero | positive
          · rw [zero, Nat.toDigits_zero] at written
            rw [written] at noZero
            exact absurd rfl noZero
          · exact positive
        rw [← Nat.toDigits_append_toDigits (by decide) positive small, ← written,
          Nat.toDigits_of_lt_base small]

theorem head_toDigits {number : ℕ} (positive : 0 < number) :
    (Nat.toDigits 10 number).head? ≠ some '0' := by
  induction number using Nat.strongRecOn with
  | ind number ih =>
      by_cases small : number < 10
      · rw [Nat.toDigits_of_lt_base small]
        simp only [List.head?_cons, ne_eq, Option.some.injEq, Nat.digitChar_eq_zero]
        omega
      · have large : 10 ≤ number := Nat.le_of_not_lt small
        rw [Nat.toDigits_of_base_le (by decide) large,
          List.head?_append_of_ne_nil _ Nat.toDigits_ne_nil]
        exact ih (number / 10) (by omega) (by omega)

/-- A part of a version is read back from its digits, and from nothing else. -/
theorem parsePart_eq_some_iff {part : List Char} {number : ℕ} (unsigned : '+' ∉ part) :
    parsePart part = some number ↔ part = Nat.toDigits 10 number ∧ number ≤ u64Max := by
  rw [parsePart]
  constructor
  · intro parses
    split at parses
    · cases parses
    · rename_i canonical
      rcases Text.parseUsize_eq_some_iff.mp parses with ⟨digits, rfl | rfl, nonempty, reads⟩
      · rcases (Text.parseDigits_eq_some_iff (Nat.zero_le _)).mp reads with
          ⟨decimal, rfl, inRange⟩
        exact ⟨eq_toDigits decimal nonempty fun longer starts => canonical ⟨longer, starts⟩,
          inRange⟩
      · exact absurd List.mem_cons_self unsigned
  · rintro ⟨rfl, inRange⟩
    rw [if_neg]
    · exact Text.parseUsize_eq_some_iff.mpr
        ⟨_, .inl rfl, Nat.toDigits_ne_nil, Text.parseDigits_toDigits number inRange⟩
    · rintro ⟨longer, starts⟩
      rcases Nat.eq_zero_or_pos number with rfl | positive
      · exact absurd longer (by decide)
      · exact head_toDigits positive starts

end Digits

section Versions

theorem mem_toDigits {number : ℕ} {character : Char}
    (isMember : character ∈ Nat.toDigits 10 number) :
    character.isDigit = true :=
  Nat.isDigit_of_mem_toDigits (by decide) (by decide) isMember

theorem StableVersion.mem_render {version : StableVersion} {character : Char}
    (isMember : character ∈ version.render) : character.isDigit = true ∨ character = '.' := by
  simp only [StableVersion.render, List.mem_append, List.mem_cons] at isMember
  rcases isMember with major | rfl | minor | rfl | patch
  · exact .inl (mem_toDigits major)
  · exact .inr rfl
  · exact .inl (mem_toDigits minor)
  · exact .inr rfl
  · exact .inl (mem_toDigits patch)

theorem StableVersion.splitOn_render (version : StableVersion) :
    version.render.splitOn '.' =
      [Nat.toDigits 10 version.1, Nat.toDigits 10 version.2.1, Nat.toDigits 10 version.2.2] := by
  have noDot : ∀ number, '.' ∉ Nat.toDigits 10 number := by
    intro number isMember
    exact absurd (mem_toDigits isMember) (by decide)
  rw [StableVersion.render, List.splitOn_append_cons_self_of_not_mem (noDot _),
    List.splitOn_append_cons_self_of_not_mem (noDot _), List.splitOn_eq_singleton (noDot _)]

/-- A stable version has one text, and only that one is read. -/
theorem parseStableVersion_eq_some_iff {input : List Char} {version : StableVersion} :
    parseStableVersion input = some version ↔
      input = version.render ∧ version.1 ≤ u64Max ∧ version.2.1 ≤ u64Max ∧
        version.2.2 ≤ u64Max := by
  constructor
  · intro parses
    rw [parseStableVersion] at parses
    split at parses
    · cases parses
    rename_i plain
    simp only [Bool.or_eq_true, List.contains_iff_mem, not_or] at plain
    have joined : ['.'].intercalate (input.splitOn '.') = input := List.intercalate_splitOn '.'
    split at parses
    · rename_i major minor patch parts
      rw [parts] at joined
      have text : input = major ++ '.' :: (minor ++ '.' :: patch) := by
        rw [← joined]
        simp
      have unsigned : '+' ∉ major ∧ '+' ∉ minor ∧ '+' ∉ patch := by
        have absent := plain.2
        rw [text] at absent
        simp only [List.mem_append, List.mem_cons, not_or] at absent
        exact ⟨absent.1, absent.2.2.1, absent.2.2.2.2⟩
      simp only [Option.bind_eq_some_iff, Option.map_eq_some_iff] at parses
      rcases parses with ⟨first, firstParses, second, secondParses, third, thirdParses, rfl⟩
      rcases (parsePart_eq_some_iff unsigned.1).mp firstParses with ⟨rfl, firstFits⟩
      rcases (parsePart_eq_some_iff unsigned.2.1).mp secondParses with ⟨rfl, secondFits⟩
      rcases (parsePart_eq_some_iff unsigned.2.2).mp thirdParses with ⟨rfl, thirdFits⟩
      exact ⟨text, firstFits, secondFits, thirdFits⟩
    · cases parses
  · rintro ⟨rfl, firstFits, secondFits, thirdFits⟩
    have absent : ∀ character, character.isDigit = false → character ≠ '.' →
        character ∉ version.render := by
      intro character notDigit notDot isMember
      rcases StableVersion.mem_render isMember with isDigit | isDot
      · rw [notDigit] at isDigit
        cases isDigit
      · exact notDot isDot
    have plain : ¬(version.render.isEmpty || version.render.contains '-' ||
        version.render.contains '+') = true := by
      have nonempty : version.render ≠ [] := by
        simp [StableVersion.render]
      simp only [Bool.or_eq_true, List.contains_iff_mem, List.isEmpty_iff, not_or]
      exact ⟨⟨nonempty, absent '-' (by decide) (by decide)⟩, absent '+' (by decide) (by decide)⟩
    have reads : ∀ number, number ≤ u64Max →
        parsePart (Nat.toDigits 10 number) = some number := by
      intro number fits
      refine (parsePart_eq_some_iff ?_).mpr ⟨rfl, fits⟩
      intro isMember
      exact absurd (mem_toDigits isMember) (by decide)
    rw [parseStableVersion, if_neg plain, StableVersion.splitOn_render]
    simp [reads _ firstFits, reads _ secondFits, reads _ thirdFits]

/-- The order of two versions, read as triples of numbers. -/
theorem StableVersion.cmp_eq_lt_iff {left right : StableVersion} :
    left.cmp right = .lt ↔
      left.1 < right.1 ∨
        left.1 = right.1 ∧
          (left.2.1 < right.2.1 ∨ left.2.1 = right.2.1 ∧ left.2.2 < right.2.2) := by
  simp only [StableVersion.cmp, Ordering.then_eq_lt, Nat.compare_eq_lt, Nat.compare_eq_eq]

/-- Both are texts of versions, and the first version comes before the second. -/
def Precedes (current latest : List Char) : Prop :=
  ∃ installed newest : StableVersion, current = installed.render ∧ latest = newest.render ∧
    (installed.1 < newest.1 ∨
      installed.1 = newest.1 ∧
        (installed.2.1 < newest.2.1 ∨
          installed.2.1 = newest.2.1 ∧ installed.2.2 < newest.2.2))

/-- An update is offered exactly for a version that comes after the one there is. -/
theorem isUpdateAvailable_eq_true_iff {current latest : List Char} :
    isUpdateAvailable current latest = some true ↔
      ∃ installed newest : StableVersion, parseStableVersion current = some installed ∧
        parseStableVersion latest = some newest ∧ installed.cmp newest = .lt := by
  simp only [isUpdateAvailable, compareVersions, Option.map_eq_some_iff, Option.bind_eq_some_iff]
  constructor
  · rintro ⟨ordering, ⟨installed, isInstalled, newest, isNewest, rfl⟩, isLess⟩
    exact ⟨installed, newest, isInstalled, isNewest, beq_iff_eq.mp isLess⟩
  · rintro ⟨installed, newest, isInstalled, isNewest, isLess⟩
    exact ⟨.lt, ⟨installed, isInstalled, newest, isNewest, isLess⟩, rfl⟩

theorem precedes_of_isUpdateAvailable {current latest : List Char}
    (available : isUpdateAvailable current latest = some true) : Precedes current latest := by
  rcases isUpdateAvailable_eq_true_iff.mp available with
    ⟨installed, newest, isInstalled, isNewest, isLess⟩
  exact ⟨installed, newest, (parseStableVersion_eq_some_iff.mp isInstalled).1,
    (parseStableVersion_eq_some_iff.mp isNewest).1, StableVersion.cmp_eq_lt_iff.mp isLess⟩

end Versions

end Gregg.Update

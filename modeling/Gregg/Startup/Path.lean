import Gregg.Lib.Search
import Gregg.RustStd

/-!
# Paths of the operating system

A path is any sequence of bytes without a NUL. It is kept as its characters and the ill-formed
parts between them, of which a text shows each as one replacement character.
-/

namespace Gregg

inductive OsUnit where
  | char (character : Char)
  | illFormed (bytes : List UInt8)
  deriving DecidableEq

/-- A `Path` of a Unix system. -/
abbrev OsPath := List OsUnit

namespace OsPath

/-- `PathBuf::from` of a text. -/
def ofText (text : List Char) : OsPath :=
  text.map .char

def lossyChar : OsUnit → Char
  | .char character => character
  | .illFormed _ => Utf8.replacement

/-- `Path::to_string_lossy`. -/
def toStringLossy (path : OsPath) : List Char :=
  path.map lossyChar

/-- `Path::components`: whether the path starts at the root, and its names. Empty names and inner
dots are left out. -/
def components (path : OsPath) : Bool × List OsPath :=
  let names := path.splitOn (.char '/')
  let kept := names.filter fun name => name ≠ [] && name ≠ [.char '.']
  (path.head? == some (.char '/'),
    if names.head? = some [.char '.'] then [.char '.'] :: kept else kept)

/-- `Path` equality. -/
def samePath (left right : OsPath) : Bool :=
  left.components == right.components

/-- The path is a valid text. -/
def IsText (path : OsPath) : Prop :=
  ofText path.toStringLossy = path

instance (path : OsPath) : Decidable path.IsText :=
  inferInstanceAs (Decidable (_ = _))

@[simp]
theorem toStringLossy_ofText (text : List Char) : (ofText text).toStringLossy = text := by
  rw [toStringLossy, ofText, List.map_map]
  exact List.map_id text

theorem isText_ofText (text : List Char) : (ofText text).IsText := by
  rw [IsText, toStringLossy_ofText]

/-- A text names a path exactly when it is the text of the path. -/
theorem ofText_eq_iff {text : List Char} {path : OsPath} :
    ofText text = path ↔ path.IsText ∧ text = path.toStringLossy := by
  constructor
  · rintro rfl
    exact ⟨isText_ofText text, (toStringLossy_ofText text).symm⟩
  · rintro ⟨isText, rfl⟩
    exact isText

@[simp]
theorem samePath_refl (path : OsPath) : path.samePath path = true :=
  beq_self_eq_true _

/-- An ill-formed part of a path is in one of its components, and in no other path with the
same ones. -/
theorem illFormed_mem_iff {path : OsPath} {bytes : List UInt8} :
    .illFormed bytes ∈ path ↔ ∃ name ∈ path.components.2, .illFormed bytes ∈ name := by
  constructor
  · intro isPart
    have notSeparator : OsUnit.illFormed bytes ≠ .char '/' := by simp
    rcases Search.exists_mem_splitOn isPart notSeparator with ⟨name, isName, inName⟩
    have kept : (decide (name ≠ []) && decide (name ≠ [.char '.'])) = true := by
      rw [Bool.and_eq_true, decide_eq_true_iff, decide_eq_true_iff]
      constructor
      · rintro rfl
        cases inName
      · rintro rfl
        simp at inName
    have isKept : name ∈ (path.splitOn (.char '/')).filter fun name =>
        name ≠ [] && name ≠ [.char '.'] := List.mem_filter.mpr ⟨isName, kept⟩
    refine ⟨name, ?_, inName⟩
    rw [components]
    dsimp only
    split
    · exact List.mem_cons_of_mem _ isKept
    · exact isKept
  · rintro ⟨name, isName, inName⟩
    rw [components] at isName
    dsimp only at isName
    have isKept : name ∈ path.splitOn (.char '/') := by
      split at isName
      · rcases List.mem_cons.mp isName with rfl | isName
        · simp at inName
        · exact (List.mem_filter.mp isName).1
      · exact (List.mem_filter.mp isName).1
    exact (Search.of_mem_splitOn isKept).2 _ inName

theorem isText_iff {path : OsPath} : path.IsText ↔ ∀ bytes, .illFormed bytes ∉ path := by
  induction path with
  | nil => simp [IsText, ofText, toStringLossy]
  | cons part path ih =>
      rw [IsText, ofText, toStringLossy] at ih ⊢
      rw [List.map_cons, List.map_cons, List.cons.injEq, ih]
      cases part with
      | char character => simp [lossyChar]
      | illFormed bytes =>
          refine iff_of_false (fun same => nomatch same.1) (fun none => ?_)
          exact none bytes List.mem_cons_self

/-- The text of a path names the same path exactly when the path is a text. -/
theorem samePath_toStringLossy_iff (path : OsPath) :
    (ofText path.toStringLossy).samePath path = true ↔ path.IsText := by
  constructor
  · intro same
    rw [isText_iff]
    intro bytes isPart
    rw [illFormed_mem_iff, ← eq_of_beq same, ← illFormed_mem_iff] at isPart
    exact isText_iff.mp (isText_ofText path.toStringLossy) bytes isPart
  · intro isText
    rw [isText]
    exact samePath_refl path

end OsPath

/-- `Path` equality on some system: paths that are the same are both valid texts or neither. -/
structure PathEquality where
  same : OsPath → OsPath → Bool
  refl (path : OsPath) : same path path = true
  symm {left right : OsPath} (isSame : same left right = true) : same right left = true
  trans {first second third : OsPath} (isSame : same first second = true)
    (next : same second third = true) : same first third = true
  isText {left right : OsPath} (isSame : same left right = true) (text : left.IsText) :
    right.IsText

/-- `Path` equality of a Unix system. -/
def PathEquality.unix : PathEquality where
  same := OsPath.samePath
  refl := OsPath.samePath_refl
  symm isSame := beq_iff_eq.mpr (eq_of_beq isSame).symm
  trans isSame next := beq_iff_eq.mpr ((eq_of_beq isSame).trans (eq_of_beq next))
  isText isSame text := by
    rw [OsPath.isText_iff] at text ⊢
    intro bytes isPart
    rw [OsPath.illFormed_mem_iff, ← eq_of_beq isSame, ← OsPath.illFormed_mem_iff] at isPart
    exact text bytes isPart

end Gregg

import Gregg.RustStd
import Gregg.Lib.FileTree

/-!
# The identity of a configuration file

The client daemon and `greggd` both derive their socket names from the path of their configuration
file: from its canonical path when the file exists, and from the absolute path read as text when it
does not. The two normalizations are the same code in both programs.
-/

namespace Gregg

open FileTree (Path strike)

/-- What stands between two slashes of a path. -/
structure FileName where
  bytes : List UInt8
  proper : bytes ≠ [] ∧ 0x2f ∉ bytes ∧ bytes ≠ [0x2e] ∧ bytes ≠ [0x2e, 0x2e]
  deriving DecidableEq

abbrev Location : Type := List FileName

def Location.text (location : Location) : List UInt8 :=
  if location = [] then [0x2f] else location.flatMap fun name => 0x2f :: name.bytes

/-- A path as it is given to a process, with the directory the process runs in while that exists. -/
structure Spelling where
  currentDir : Option Location
  path : Path FileName

namespace Spelling

/-- Where the system starts to look the path up. -/
def lookupStart (spelling : Spelling) : Option Location :=
  if spelling.path.hasRoot then some [] else spelling.currentDir

/-- The base of the absolute path; `current_dir().unwrap_or_else(|_| PathBuf::from("/"))`. -/
def absoluteBase (spelling : Spelling) : Location :=
  if spelling.path.hasRoot then [] else spelling.currentDir.getD []

/-- `std::fs::canonicalize`. -/
def canonicalize (tree : FileTree.Tree FileName) (spelling : Spelling) : Option Location :=
  if spelling.path.hasRoot = false ∧ spelling.path.components = [] then none
  else spelling.lookupStart.bind fun here =>
    tree.walk tree.maxLinks here spelling.path.components

/-- The directory and the name that a spelling gives a file, when that directory exists. -/
def entry (tree : FileTree.Tree FileName) (spelling : Spelling) : Option (Location × FileName) :=
  match spelling.path.components.getLast? with
  | some (.normal name) =>
      spelling.lookupStart.bind fun here =>
        (tree.walk tree.maxLinks here spelling.path.components.dropLast).bind fun dir =>
          if tree.node dir = some .directory then some (dir, name) else none
  | _ => none

/-- `normalize` and `control_identity_path`. -/
def normalized (tree : FileTree.Tree FileName) (spelling : Spelling) : Location :=
  match spelling.canonicalize tree with
  | some canonical => canonical
  | none => strike spelling.absoluteBase spelling.path.components

/-- Renaming a finished file over the path. -/
def write (tree : FileTree.Tree FileName) (spelling : Spelling) : FileTree.Tree FileName :=
  match spelling.entry tree with
  | none => tree
  | some (dir, name) =>
      if placed : tree.node dir = some .directory ∧
          tree.node (dir ++ [name]) ≠ some .directory then
        tree.put dir name placed.1 placed.2
      else tree

end Spelling

def FNV_OFFSET_BASIS : UInt64 := 0xcbf29ce484222325

def FNV_PRIME : UInt64 := 0x100000001b3

/-- The digest of a path: FNV-1a over its bytes, `{hash:016x}`. -/
def pathDigest (path : List UInt8) : List Char :=
  let hash := path.foldl (fun hash byte => (hash ^^^ byte.toUInt64) * FNV_PRIME) FNV_OFFSET_BASIS
  Text.formatHex 16 hash.toNat

structure SocketPath where
  directory : Location
  fileName : List Char
  deriving DecidableEq

def SocketPath.text (path : SocketPath) : List UInt8 :=
  (if path.directory = [] then [] else path.directory.text) ++
    0x2f :: Utf8.asciiBytes path.fileName

/-- The digest and the path it was computed from. -/
structure ConfigIdentity where
  id : List Char
  normalized : Location
  agrees : id = pathDigest normalized.text
  deriving DecidableEq

namespace ConfigIdentity

def ofPath (normalized : Location) : ConfigIdentity :=
  ⟨pathDigest normalized.text, normalized, rfl⟩

@[simp]
theorem ofPath_inj {left right : Location} : ofPath left = ofPath right ↔ left = right := by
  constructor
  · intro same
    exact congrArg ConfigIdentity.normalized same
  · intro same
    rw [same]

/-- A socket file in a directory, unless its path is too long for `sun_path`. -/
def join (pathMax : ℕ) (fileName : List Char) (directory : Location) : Option SocketPath :=
  if pathMax < (SocketPath.mk directory fileName).text.length then none
  else some ⟨directory, fileName⟩

/-- The socket beside the configuration file. -/
def primary (pathMax : ℕ) (fileName : List Char) (identity : ConfigIdentity) :
    Option SocketPath :=
  if identity.normalized = [] then none else join pathMax fileName identity.normalized.dropLast

def candidates (pathMax : ℕ) (fileName : List Char) (tempDir : Location)
    (identity : ConfigIdentity) : List SocketPath :=
  let out := (identity.primary pathMax fileName).toList
  match join pathMax fileName tempDir with
  | none => out
  | some fallback => if fallback ∈ out then out else out ++ [fallback]

end ConfigIdentity

namespace Clientd

def UNIX_PATH_MAX : ℕ := 100

abbrev ClientDaemonIdentity : Type := ConfigIdentity

namespace ClientDaemonIdentity

/-- `ClientDaemonIdentity::for_path`. -/
def forPath (tree : FileTree.Tree FileName) (spelling : Spelling) : ClientDaemonIdentity :=
  .ofPath (spelling.normalized tree)

def socketFileName (identity : ClientDaemonIdentity) : List Char :=
  "gregg-client-".toList ++ identity.id ++ ".sock".toList

def candidates (tempDir : Location) (identity : ClientDaemonIdentity) : List SocketPath :=
  ConfigIdentity.candidates UNIX_PATH_MAX (socketFileName identity) tempDir identity

end ClientDaemonIdentity

end Clientd

namespace Greggd

def UNIX_PATH_MAX : ℕ := 108

abbrev ControlIdentity : Type := ConfigIdentity

namespace ControlIdentity

/-- `ControlIdentity::for_path`. -/
def forPath (tree : FileTree.Tree FileName) (spelling : Spelling) : ControlIdentity :=
  .ofPath (spelling.normalized tree)

def socketFileName (identity : ControlIdentity) : List Char :=
  "greggd-".toList ++ identity.id ++ ".control.sock".toList

def stopCandidates (tempDir : Location) (identity : ControlIdentity) : List SocketPath :=
  ConfigIdentity.candidates UNIX_PATH_MAX (socketFileName identity) tempDir identity

end ControlIdentity

end Greggd

namespace Spelling

variable {tree : FileTree.Tree FileName} {spelling left right : Spelling} {dir location : Location}
  {name : FileName}

/-- No file and no link to one stands under the name. -/
def Missing (tree : FileTree.Tree FileName) (dir : Location) (name : FileName) : Prop :=
  ∀ location, ¬tree.Reaches dir [.normal name] location

/-- The directory part of the spelling, read as text, is the path of the directory it leads to. -/
def AsWritten (dir : Location) (spelling : Spelling) : Prop :=
  strike spelling.absoluteBase spelling.path.components.dropLast = dir

theorem of_entry (named : spelling.entry tree = some (dir, name)) :
    ∃ here front, spelling.path.components = front ++ [.normal name] ∧
      spelling.lookupStart = some here ∧ tree.walk tree.maxLinks here front = some dir ∧
      tree.node dir = some .directory := by
  unfold entry at named
  split at named
  · rename_i last isLast
    rcases Option.bind_eq_some_iff.mp named with ⟨here, starts, found⟩
    rcases Option.bind_eq_some_iff.mp found with ⟨reached, walked, placed⟩
    rcases Option.ite_none_right_eq_some.mp placed with ⟨isDir, same⟩
    cases same
    refine ⟨here, _, ?_, starts, walked, isDir⟩
    exact (List.dropLast_append_getLast? _ isLast).symm
  · cases named

/-- A missing file has no canonical path, and the text decides. -/
theorem normalized_of_missing (named : spelling.entry tree = some (dir, name))
    (missing : Missing tree dir name) :
    spelling.normalized tree =
      strike spelling.absoluteBase spelling.path.components.dropLast ++ [name] := by
  rcases of_entry named with ⟨here, front, components, starts, walked, _⟩
  have unresolved : spelling.canonicalize tree = none := by
    rw [canonicalize, components, starts, Option.bind_some, if_neg (by simp)]
    rw [Option.eq_none_iff_forall_ne_some]
    intro location resolved
    rcases FileTree.Tree.walk_append resolved with ⟨middle, first, second⟩
    rw [walked] at first
    cases first
    exact missing location second
  rw [normalized, unresolved, components]
  simp

theorem write_eq (named : spelling.entry tree = some (dir, name))
    (missing : Missing tree dir name) :
    ∃ isDir replaces, spelling.write tree = tree.put dir name isDir replaces := by
  rcases of_entry named with ⟨_, _, _, _, _, isDir⟩
  have replaces : tree.node (dir ++ [name]) ≠ some .directory := by
    intro stands
    exact missing _ (.enter isDir stands (by simp) .done)
  refine ⟨isDir, replaces, ?_⟩
  unfold write
  rw [named]
  exact dif_pos ⟨isDir, replaces⟩

/-- Once written the file has one canonical path under every spelling that named it. -/
theorem normalized_put {isDir : tree.node dir = some .directory}
    {replaces : tree.node (dir ++ [name]) ≠ some .directory}
    (named : spelling.entry tree = some (dir, name)) (missing : Missing tree dir name) :
    spelling.normalized (tree.put dir name isDir replaces) = dir ++ [name] := by
  rcases of_entry named with ⟨here, front, components, starts, walked, _⟩
  have resolved : spelling.canonicalize (tree.put dir name isDir replaces) =
      some (dir ++ [name]) := by
    rw [canonicalize, components, starts, Option.bind_some, if_neg (by simp)]
    apply FileTree.Tree.walk_append_file
    · exact FileTree.Tree.node_put_directory isDir
    · exact FileTree.Tree.node_put_self
    · exact FileTree.Tree.walk_put missing walked
  rw [normalized, resolved]

/-- A file that exists has one normalized path under every spelling of it. -/
theorem normalized_eq_of_canonicalize (leftNames : left.canonicalize tree = some location)
    (rightNames : right.canonicalize tree = some location) :
    left.normalized tree = right.normalized tree := by
  rw [normalized, normalized, leftNames, rightNames]

/-- Two spellings of one missing file: each keeps its identity when the file is written, and both
have the same one before and after. -/
structure OneIdentity {Identity : Type} (forPath : FileTree.Tree FileName → Spelling → Identity)
    (tree : FileTree.Tree FileName) (left right : Spelling) : Prop where
  leftKeeps : forPath (left.write tree) left = forPath tree left
  rightKeeps : forPath (left.write tree) right = forPath tree right
  before : forPath tree left = forPath tree right
  after : forPath (left.write tree) left = forPath (left.write tree) right

theorem oneIdentity_iff {forPath : FileTree.Tree FileName → Spelling → ConfigIdentity}
    (digest : ∀ tree spelling, forPath tree spelling = .ofPath (spelling.normalized tree))
    (leftNamed : left.entry tree = some (dir, name))
    (rightNamed : right.entry tree = some (dir, name)) (missing : Missing tree dir name) :
    OneIdentity forPath tree left right ↔ AsWritten dir left ∧ AsWritten dir right := by
  rcases write_eq leftNamed missing with ⟨isDir, replaces, written⟩
  have leftBefore := normalized_of_missing leftNamed missing
  have rightBefore := normalized_of_missing rightNamed missing
  have leftAfter : left.normalized (left.write tree) = dir ++ [name] := by
    rw [written]
    exact normalized_put leftNamed missing
  have rightAfter : right.normalized (left.write tree) = dir ++ [name] := by
    rw [written]
    exact normalized_put rightNamed missing
  constructor
  · intro one
    have leftKeeps := one.leftKeeps
    have rightKeeps := one.rightKeeps
    simp only [digest, ConfigIdentity.ofPath_inj, leftAfter, rightAfter, leftBefore,
      rightBefore, List.append_left_inj] at leftKeeps rightKeeps
    exact ⟨leftKeeps.symm, rightKeeps.symm⟩
  · rintro ⟨leftWritten, rightWritten⟩
    rw [AsWritten] at leftWritten rightWritten
    constructor <;>
      simp only [digest, leftAfter, rightAfter, leftBefore, rightBefore, leftWritten,
        rightWritten]

/-- The identity of one configuration file, in the client daemon and in `greggd`: while the file is
missing it is the one it will have just when the text of every spelling says where the file is. -/
theorem one_identity_iff (leftNamed : left.entry tree = some (dir, name))
    (rightNamed : right.entry tree = some (dir, name)) (missing : Missing tree dir name) :
    (OneIdentity Clientd.ClientDaemonIdentity.forPath tree left right ↔
      AsWritten dir left ∧ AsWritten dir right) ∧
    (OneIdentity Greggd.ControlIdentity.forPath tree left right ↔
      AsWritten dir left ∧ AsWritten dir right) ∧
    ∀ (present : FileTree.Tree FileName) (first second : Spelling) (location : Location),
      first.canonicalize present = some location → second.canonicalize present = some location →
        Clientd.ClientDaemonIdentity.forPath present first =
            Clientd.ClientDaemonIdentity.forPath present second ∧
          Greggd.ControlIdentity.forPath present first =
            Greggd.ControlIdentity.forPath present second := by
  refine ⟨oneIdentity_iff (fun _ _ => rfl) leftNamed rightNamed missing,
    oneIdentity_iff (fun _ _ => rfl) leftNamed rightNamed missing, ?_⟩
  intro present first second location firstNames secondNames
  have same := normalized_eq_of_canonicalize firstNames secondNames
  exact ⟨congrArg ConfigIdentity.ofPath same, congrArg ConfigIdentity.ofPath same⟩

/-- Without symbolic links every spelling says where the file is. -/
theorem asWritten_of_linkFree
    (linkFree : ∀ location target, tree.node location ≠ some (.symlink target))
    (named : spelling.entry tree = some (dir, name)) : AsWritten dir spelling := by
  rcases of_entry named with ⟨here, front, components, starts, walked, _⟩
  have base : spelling.absoluteBase = here := by
    unfold lookupStart at starts
    unfold absoluteBase
    cases rooted : spelling.path.hasRoot with
    | true =>
        rw [rooted, if_pos rfl] at starts
        cases starts
        rfl
    | false =>
        rw [rooted, if_neg Bool.false_ne_true] at starts
        simp [starts]
  rw [AsWritten, base, components, List.dropLast_concat]
  exact (FileTree.Tree.eq_strike_of_walk linkFree walked).symm

section Examples

def privateName : FileName := ⟨Utf8.asciiBytes "private".toList, by decide⟩

def tmpName : FileName := ⟨Utf8.asciiBytes "tmp".toList, by decide⟩

def configName : FileName := ⟨Utf8.asciiBytes "gregg.toml".toList, by decide⟩

def linkedTmp : FileTree.Tree FileName :=
  .ofTable
    [([privateName], .directory), ([privateName, tmpName], .directory),
      ([tmpName], .symlink ⟨false, [.normal privateName, .normal tmpName]⟩)]
    40 (by decide) (by decide)

def direct : Spelling :=
  ⟨none, ⟨true, [.normal privateName, .normal tmpName, .normal configName]⟩⟩

def dotted : Spelling :=
  ⟨some [privateName],
    ⟨false, [.parentDir, .normal privateName, .curDir, .normal tmpName, .normal configName]⟩⟩

def throughLink : Spelling :=
  ⟨none, ⟨true, [.normal tmpName, .normal configName]⟩⟩

theorem one_identity_dotted :
    OneIdentity Clientd.ClientDaemonIdentity.forPath linkedTmp direct dotted ∧
      OneIdentity Greggd.ControlIdentity.forPath linkedTmp direct dotted := by
  have directNamed : direct.entry linkedTmp = some ([privateName, tmpName], configName) := by
    decide +kernel
  have dottedNamed : dotted.entry linkedTmp = some ([privateName, tmpName], configName) := by
    decide +kernel
  have vacant : linkedTmp.node ([privateName, tmpName] ++ [configName]) = none := by
    decide +kernel
  have written : AsWritten [privateName, tmpName] direct ∧
      AsWritten [privateName, tmpName] dotted := ⟨rfl, rfl⟩
  rcases one_identity_iff directNamed dottedNamed
    (fun _ => FileTree.Tree.not_reaches_of_none vacant) with ⟨client, control, _⟩
  exact ⟨client.mpr written, control.mpr written⟩

/-- A daemon started through the link before the first write binds its sockets where no later
command looks for them. -/
theorem identity_lost_throughLink :
    throughLink.entry linkedTmp = some ([privateName, tmpName], configName) ∧
      Clientd.ClientDaemonIdentity.forPath (throughLink.write linkedTmp) throughLink ≠
        Clientd.ClientDaemonIdentity.forPath linkedTmp throughLink ∧
      Greggd.ControlIdentity.forPath (throughLink.write linkedTmp) throughLink ≠
        Greggd.ControlIdentity.forPath linkedTmp throughLink ∧
      Clientd.ClientDaemonIdentity.forPath linkedTmp throughLink ≠
        Clientd.ClientDaemonIdentity.forPath linkedTmp direct ∧
      ∀ path ∈ Clientd.ClientDaemonIdentity.candidates [tmpName]
          (Clientd.ClientDaemonIdentity.forPath (throughLink.write linkedTmp) throughLink),
        path ∉ Clientd.ClientDaemonIdentity.candidates [tmpName]
          (Clientd.ClientDaemonIdentity.forPath linkedTmp throughLink) := by
  decide +kernel

end Examples

end Spelling

end Gregg

import Mathlib.Data.List.Basic

/-!
# File trees with symbolic links

A tree gives each location, the names from the root down, what stands there. A path is looked up
one component at a time from a directory; a symbolic link puts the components of its target in
front of what is left. `walk` does so with a limit on the links it follows, as an operating system
does; `Reaches` is the lookup without a limit.
-/

universe u

namespace FileTree

variable {Name : Type u}

inductive Component (Name : Type u) where
  | curDir
  | parentDir
  | normal (name : Name)
  deriving DecidableEq

/-- A path as it is written; a trailing slash is a last `curDir`. -/
structure Path (Name : Type u) where
  hasRoot : Bool
  components : List (Component Name)
  deriving DecidableEq

inductive Node (Name : Type u) where
  | directory
  | file
  | symlink (target : Path Name)
  deriving DecidableEq

structure Tree (Name : Type u) where
  node : List Name → Option (Node Name)
  maxLinks : ℕ
  root : node [] = some .directory
  inside : ∀ dir name, node (dir ++ [name]) ≠ none → node dir = some .directory

/-- Where the components of a path are read from. -/
def Path.start (path : Path Name) (here : List Name) : List Name :=
  if path.hasRoot then [] else here

/-- The components of a path read as text: a dot is dropped and `..` strikes out the name before
it. -/
def strike (here : List Name) (components : List (Component Name)) : List Name :=
  components.foldl
    (fun location component =>
      match component with
      | .curDir => location
      | .parentDir => location.dropLast
      | .normal name => location ++ [name])
    here

@[simp]
theorem strike_append (here : List Name) (front rest : List (Component Name)) :
    strike here (front ++ rest) = strike (strike here front) rest :=
  List.foldl_append

@[simp]
theorem strike_normal (here : List Name) (name : Name) :
    strike here [.normal name] = here ++ [name] :=
  rfl

namespace Tree

variable [DecidableEq Name]

/-- One lookup; `follow` goes on from a symbolic link. -/
def walkWith (tree : Tree Name)
    (follow : List Name → List (Component Name) → Option (List Name)) :
    List Name → List (Component Name) → Option (List Name)
  | here, [] => some here
  | here, component :: rest =>
      if tree.node here = some .directory then
        match component with
        | .curDir => tree.walkWith follow here rest
        | .parentDir => tree.walkWith follow here.dropLast rest
        | .normal name =>
            match tree.node (here ++ [name]) with
            | none => none
            | some (.symlink target) => follow (target.start here) (target.components ++ rest)
            | some _ => tree.walkWith follow (here ++ [name]) rest
      else none

def walk (tree : Tree Name) : ℕ → List Name → List (Component Name) → Option (List Name)
  | 0 => tree.walkWith fun _ _ => none
  | links + 1 => tree.walkWith (tree.walk links)

omit [DecidableEq Name] in
/-- The lookup that follows as many links as there are. -/
inductive Reaches (tree : Tree Name) : List Name → List (Component Name) → List Name → Prop where
  | done {here : List Name} : Reaches tree here [] here
  | curDir {here location : List Name} {rest : List (Component Name)}
      (isDir : tree.node here = some .directory) (onward : Reaches tree here rest location) :
      Reaches tree here (.curDir :: rest) location
  | parentDir {here location : List Name} {rest : List (Component Name)}
      (isDir : tree.node here = some .directory)
      (onward : Reaches tree here.dropLast rest location) :
      Reaches tree here (.parentDir :: rest) location
  | enter {here location : List Name} {name : Name} {rest : List (Component Name)}
      {entry : Node Name} (isDir : tree.node here = some .directory)
      (stands : tree.node (here ++ [name]) = some entry)
      (notLink : ∀ target, entry ≠ .symlink target)
      (onward : Reaches tree (here ++ [name]) rest location) :
      Reaches tree here (.normal name :: rest) location
  | link {here location : List Name} {name : Name} {rest : List (Component Name)}
      {target : Path Name} (isDir : tree.node here = some .directory)
      (stands : tree.node (here ++ [name]) = some (.symlink target))
      (onward : Reaches tree (target.start here) (target.components ++ rest) location) :
      Reaches tree here (.normal name :: rest) location

variable {tree : Tree Name} {here location dir : List Name} {name : Name}
  {components front rest : List (Component Name)} {links : ℕ}

omit [DecidableEq Name] in
/-- What is left of a lookup starts where the components before it lead. -/
theorem Reaches.split (reaches : tree.Reaches here (front ++ rest) location) :
    ∃ middle, tree.Reaches here front middle ∧ tree.Reaches middle rest location := by
  generalize whole : front ++ rest = components at reaches
  induction reaches generalizing front with
  | done =>
      rcases List.append_eq_nil_iff.mp whole with ⟨rfl, rfl⟩
      exact ⟨_, .done, .done⟩
  | curDir isDir onward ih =>
      rcases List.append_eq_cons_iff.mp whole with ⟨rfl, rfl⟩ | ⟨tail, rfl, left⟩
      · exact ⟨_, .done, .curDir isDir onward⟩
      · rcases ih left.symm with ⟨middle, first, second⟩
        exact ⟨middle, .curDir isDir first, second⟩
  | parentDir isDir onward ih =>
      rcases List.append_eq_cons_iff.mp whole with ⟨rfl, rfl⟩ | ⟨tail, rfl, left⟩
      · exact ⟨_, .done, .parentDir isDir onward⟩
      · rcases ih left.symm with ⟨middle, first, second⟩
        exact ⟨middle, .parentDir isDir first, second⟩
  | enter isDir stands notLink onward ih =>
      rcases List.append_eq_cons_iff.mp whole with ⟨rfl, rfl⟩ | ⟨tail, rfl, left⟩
      · exact ⟨_, .done, .enter isDir stands notLink onward⟩
      · rcases ih left.symm with ⟨middle, first, second⟩
        exact ⟨middle, .enter isDir stands notLink first, second⟩
  | @link here _ _ _ target isDir stands onward ih =>
      rcases List.append_eq_cons_iff.mp whole with ⟨rfl, rfl⟩ | ⟨tail, rfl, left⟩
      · exact ⟨_, .done, .link isDir stands onward⟩
      · have whole' : (target.components ++ tail) ++ rest = target.components ++ (tail ++ rest) :=
          List.append_assoc ..
        rw [← left] at whole'
        rcases ih whole' with ⟨middle, first, second⟩
        exact ⟨middle, .link isDir stands first, second⟩

section OneComponent

variable {follow : List Name → List (Component Name) → Option (List Name)}

@[simp]
theorem walkWith_nil : tree.walkWith follow here [] = some here := by
  unfold walkWith
  rfl

theorem walkWith_curDir (isDir : tree.node here = some .directory) :
    tree.walkWith follow here (.curDir :: rest) = tree.walkWith follow here rest := by
  conv_lhs => unfold walkWith
  exact if_pos isDir

theorem walkWith_parentDir (isDir : tree.node here = some .directory) :
    tree.walkWith follow here (.parentDir :: rest) =
      tree.walkWith follow here.dropLast rest := by
  conv_lhs => unfold walkWith
  exact if_pos isDir

theorem walkWith_enter {entry : Node Name} (isDir : tree.node here = some .directory)
    (stands : tree.node (here ++ [name]) = some entry)
    (notLink : ∀ target, entry ≠ .symlink target) :
    tree.walkWith follow here (.normal name :: rest) =
      tree.walkWith follow (here ++ [name]) rest := by
  conv_lhs => unfold walkWith
  rw [if_pos isDir]
  cases entry with
  | symlink target => exact absurd rfl (notLink target)
  | directory => simp only [stands]
  | file => simp only [stands]

theorem walkWith_link {target : Path Name} (isDir : tree.node here = some .directory)
    (stands : tree.node (here ++ [name]) = some (.symlink target)) :
    tree.walkWith follow here (.normal name :: rest) =
      follow (target.start here) (target.components ++ rest) := by
  conv_lhs => unfold walkWith
  rw [if_pos isDir]
  simp only [stands]

/-- What a lookup that succeeds finds at its first component. -/
inductive Finds (tree : Tree Name) (here : List Name) : Component Name → Prop where
  | curDir : Finds tree here .curDir
  | parentDir : Finds tree here .parentDir
  | enter {name : Name} {entry : Node Name} (stands : tree.node (here ++ [name]) = some entry)
      (notLink : ∀ target, entry ≠ .symlink target) : Finds tree here (.normal name)
  | link {name : Name} {target : Path Name}
      (stands : tree.node (here ++ [name]) = some (.symlink target)) :
      Finds tree here (.normal name)

theorem finds_of_walkWith {component : Component Name}
    (walked : tree.walkWith follow here (component :: rest) = some location) :
    tree.node here = some .directory ∧ Finds tree here component := by
  unfold walkWith at walked
  by_cases isDir : tree.node here = some .directory
  · rw [if_pos isDir] at walked
    refine ⟨isDir, ?_⟩
    cases component with
    | curDir => exact .curDir
    | parentDir => exact .parentDir
    | normal name =>
        cases stands : tree.node (here ++ [name]) with
        | none => simp [stands] at walked
        | some entry =>
            cases entry with
            | symlink target => exact .link stands
            | directory => exact .enter stands (by simp)
            | file => exact .enter stands (by simp)
  · rw [if_neg isDir] at walked
    cases walked

theorem reaches_of_walkWith
    (follows : ∀ here components location, follow here components = some location →
      tree.Reaches here components location)
    (walked : tree.walkWith follow here components = some location) :
    tree.Reaches here components location := by
  induction components generalizing here with
  | nil =>
      rw [walkWith_nil] at walked
      cases walked
      exact .done
  | cons component rest ih =>
      rcases finds_of_walkWith walked with ⟨isDir, finds⟩
      cases finds with
      | curDir =>
          rw [walkWith_curDir isDir] at walked
          exact .curDir isDir (ih walked)
      | parentDir =>
          rw [walkWith_parentDir isDir] at walked
          exact .parentDir isDir (ih walked)
      | enter stands notLink =>
          rw [walkWith_enter isDir stands notLink] at walked
          exact .enter isDir stands notLink (ih walked)
      | link stands =>
          rw [walkWith_link isDir stands] at walked
          exact .link isDir stands (follows _ _ _ walked)

theorem walkWith_append
    (follows : ∀ here front location, follow here (front ++ rest) = some location →
      ∃ middle, follow here front = some middle ∧ tree.Reaches middle rest location)
    (sound : ∀ here components location, follow here components = some location →
      tree.Reaches here components location)
    (walked : tree.walkWith follow here (front ++ rest) = some location) :
    ∃ middle, tree.walkWith follow here front = some middle ∧
      tree.Reaches middle rest location := by
  induction front generalizing here with
  | nil => exact ⟨here, walkWith_nil, reaches_of_walkWith sound walked⟩
  | cons component front ih =>
      rw [List.cons_append] at walked
      rcases finds_of_walkWith walked with ⟨isDir, finds⟩
      cases finds with
      | curDir =>
          rw [walkWith_curDir isDir] at walked ⊢
          exact ih walked
      | parentDir =>
          rw [walkWith_parentDir isDir] at walked ⊢
          exact ih walked
      | enter stands notLink =>
          rw [walkWith_enter isDir stands notLink] at walked ⊢
          exact ih walked
      | link stands =>
          rw [walkWith_link isDir stands, ← List.append_assoc] at walked
          rw [walkWith_link isDir stands]
          exact follows _ _ _ walked

theorem walkWith_append_file
    (follows : ∀ here front, follow here front = some dir →
      follow here (front ++ [.normal name]) = some (dir ++ [name]))
    (isDir : tree.node dir = some .directory) (isFile : tree.node (dir ++ [name]) = some .file)
    (walked : tree.walkWith follow here front = some dir) :
    tree.walkWith follow here (front ++ [.normal name]) = some (dir ++ [name]) := by
  induction front generalizing here with
  | nil =>
      rw [walkWith_nil] at walked
      cases walked
      rw [List.nil_append, walkWith_enter isDir isFile (by simp), walkWith_nil]
  | cons component front ih =>
      rw [List.cons_append]
      rcases finds_of_walkWith walked with ⟨hereDir, finds⟩
      cases finds with
      | curDir =>
          rw [walkWith_curDir hereDir] at walked ⊢
          exact ih walked
      | parentDir =>
          rw [walkWith_parentDir hereDir] at walked ⊢
          exact ih walked
      | enter stands notLink =>
          rw [walkWith_enter hereDir stands notLink] at walked ⊢
          exact ih walked
      | link stands =>
          rw [walkWith_link hereDir stands] at walked ⊢
          rw [← List.append_assoc]
          exact follows _ _ walked

/-- Where no link stands, a path leads where its text says. -/
theorem eq_strike_of_walkWith
    (linkFree : ∀ location target, tree.node location ≠ some (.symlink target))
    (walked : tree.walkWith follow here components = some location) :
    location = strike here components := by
  induction components generalizing here with
  | nil =>
      rw [walkWith_nil] at walked
      cases walked
      rfl
  | cons component rest ih =>
      rcases finds_of_walkWith walked with ⟨hereDir, finds⟩
      cases finds with
      | curDir =>
          rw [walkWith_curDir hereDir] at walked
          exact ih walked
      | parentDir =>
          rw [walkWith_parentDir hereDir] at walked
          exact ih walked
      | enter stands notLink =>
          rw [walkWith_enter hereDir stands notLink] at walked
          exact ih walked
      | link stands => exact absurd stands (linkFree _ _)

end OneComponent

theorem reaches_of_walk (walked : tree.walk links here components = some location) :
    tree.Reaches here components location := by
  induction links generalizing here components location with
  | zero =>
      apply reaches_of_walkWith _ walked
      intro _ _ _ impossible
      cases impossible
  | succ links ih => exact reaches_of_walkWith (fun _ _ _ => ih) walked

theorem eq_strike_of_walk
    (linkFree : ∀ location target, tree.node location ≠ some (.symlink target))
    (walked : tree.walk links here components = some location) :
    location = strike here components := by
  cases links with
  | zero => exact eq_strike_of_walkWith linkFree walked
  | succ links => exact eq_strike_of_walkWith linkFree walked

omit [DecidableEq Name] in
theorem not_reaches_of_none (vacant : tree.node (dir ++ [name]) = none) :
    ¬tree.Reaches dir [.normal name] location := by
  intro reaches
  cases reaches with
  | enter _ stands =>
      rw [vacant] at stands
      cases stands
  | link _ stands =>
      rw [vacant] at stands
      cases stands

/-- A path that can be walked can be walked up to any of its components, and the rest of it leads
on from there. -/
theorem walk_append (walked : tree.walk links here (front ++ rest) = some location) :
    ∃ middle, tree.walk links here front = some middle ∧ tree.Reaches middle rest location := by
  induction links generalizing here front location with
  | zero =>
      refine walkWith_append ?_ ?_ walked
      · intro _ _ _ impossible
        cases impossible
      · intro _ _ _ impossible
        cases impossible
  | succ links ih =>
      exact walkWith_append (fun _ _ _ => ih) (fun _ _ _ => reaches_of_walk) walked

theorem walk_append_file (isDir : tree.node dir = some .directory)
    (isFile : tree.node (dir ++ [name]) = some .file)
    (walked : tree.walk links here front = some dir) :
    tree.walk links here (front ++ [.normal name]) = some (dir ++ [name]) := by
  induction links generalizing here front with
  | zero =>
      refine walkWith_append_file ?_ isDir isFile walked
      intro _ _ impossible
      cases impossible
  | succ links ih => exact walkWith_append_file (fun _ _ => ih) isDir isFile walked

/-- The tree of the entries of a table, under its root. -/
def ofTable (entries : List (List Name × Node Name)) (maxLinks : ℕ)
    (closed : ∀ entry ∈ entries, entry.1.dropLast = [] ∨
      (entry.1.dropLast, Node.directory) ∈ entries)
    (distinct : ∀ left ∈ entries, ∀ right ∈ entries, left.1 = right.1 → left.2 = right.2) :
    Tree Name where
  node location :=
    if location = [] then some .directory
    else (entries.find? fun entry => entry.1 = location).map (·.2)
  maxLinks := maxLinks
  root := if_pos rfl
  inside := by
    intro above child stands
    rw [if_neg (by simp)] at stands
    by_cases isRoot : above = []
    · exact if_pos isRoot
    · rw [if_neg isRoot]
      rcases Option.ne_none_iff_exists'.mp stands with ⟨node, found⟩
      rcases Option.map_eq_some_iff.mp found with ⟨entry, isEntry, _⟩
      have names := List.find?_some isEntry
      rw [decide_eq_true_eq] at names
      rcases closed entry (List.mem_of_find?_eq_some isEntry) with atRoot | isAbove
      · simp [names, isRoot] at atRoot
      · rw [names, List.dropLast_concat] at isAbove
        cases first : entries.find? fun entry => entry.1 = above with
        | none => simpa using List.find?_eq_none.mp first _ isAbove
        | some other =>
            have same := List.find?_some first
            rw [decide_eq_true_eq] at same
            simp [distinct other (List.mem_of_find?_eq_some first) _ isAbove same]

/-- Put a file where a name of a directory points, over anything but a directory. -/
def put (tree : Tree Name) (dir : List Name) (name : Name)
    (isDir : tree.node dir = some .directory)
    (replaces : tree.node (dir ++ [name]) ≠ some .directory) : Tree Name where
  node location := if location = dir ++ [name] then some .file else tree.node location
  maxLinks := tree.maxLinks
  root := by
    rw [if_neg (by simp)]
    exact tree.root
  inside := by
    intro above child stands
    have aboveDir : tree.node above = some .directory := by
      by_cases same : above ++ [child] = dir ++ [name]
      · rw [(List.append_inj' same rfl).1]
        exact isDir
      · rw [if_neg same] at stands
        exact tree.inside above child stands
    rw [if_neg, aboveDir]
    rintro rfl
    exact replaces aboveDir

section Put

variable {isDir : tree.node dir = some .directory}
  {replaces : tree.node (dir ++ [name]) ≠ some .directory}

@[simp]
theorem node_put_self : (tree.put dir name isDir replaces).node (dir ++ [name]) = some .file :=
  if_pos rfl

theorem node_put_of_ne (other : location ≠ dir ++ [name]) :
    (tree.put dir name isDir replaces).node location = tree.node location :=
  if_neg other

theorem node_put_directory (hereDir : tree.node here = some .directory) :
    (tree.put dir name isDir replaces).node here = some .directory := by
  rw [node_put_of_ne, hereDir]
  rintro rfl
  exact replaces hereDir

/-- A file put where nothing was reachable leaves every lookup that succeeded as it was. -/
theorem walkWith_put {follow after : List Name → List (Component Name) → Option (List Name)}
    (missing : ∀ target, ¬tree.Reaches dir [.normal name] target)
    (follows : ∀ here components location, follow here components = some location →
      after here components = some location)
    (sound : ∀ here components location, follow here components = some location →
      tree.Reaches here components location)
    (walked : tree.walkWith follow here components = some location) :
    (tree.put dir name isDir replaces).walkWith after here components = some location := by
  induction components generalizing here with
  | nil =>
      rw [walkWith_nil] at walked ⊢
      exact walked
  | cons component rest ih =>
      have reaches := reaches_of_walkWith sound walked
      rcases finds_of_walkWith walked with ⟨hereDir, finds⟩
      have keepsDir : (tree.put dir name isDir replaces).node here = some .directory :=
        node_put_directory hereDir
      have otherEntry : ∀ child, component = .normal child → here ++ [child] ≠ dir ++ [name] := by
        rintro child rfl same
        rcases List.append_inj' same rfl with ⟨rfl, sameName⟩
        cases sameName
        have parts : tree.Reaches here ([.normal name] ++ rest) location := reaches
        rcases parts.split with ⟨middle, first, _⟩
        exact missing middle first
      cases finds with
      | curDir =>
          rw [walkWith_curDir hereDir] at walked
          rw [walkWith_curDir keepsDir]
          exact ih walked
      | parentDir =>
          rw [walkWith_parentDir hereDir] at walked
          rw [walkWith_parentDir keepsDir]
          exact ih walked
      | enter stands notLink =>
          rw [walkWith_enter hereDir stands notLink] at walked
          rw [walkWith_enter keepsDir _ notLink]
          · exact ih walked
          · rw [node_put_of_ne (otherEntry _ rfl), stands]
      | link stands =>
          rw [walkWith_link hereDir stands] at walked
          rw [walkWith_link keepsDir]
          · exact follows _ _ _ walked
          · rw [node_put_of_ne (otherEntry _ rfl), stands]

theorem walk_put (missing : ∀ target, ¬tree.Reaches dir [.normal name] target)
    (walked : tree.walk links here components = some location) :
    (tree.put dir name isDir replaces).walk links here components = some location := by
  induction links generalizing here components location with
  | zero =>
      refine walkWith_put missing (fun _ _ _ impossible => impossible) ?_ walked
      intro _ _ _ impossible
      cases impossible
  | succ links ih =>
      exact walkWith_put missing (fun _ _ _ => ih) (fun _ _ _ => reaches_of_walk) walked

end Put

end Tree

end FileTree

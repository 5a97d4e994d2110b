import Mathlib.Data.List.Basic
import Mathlib.Data.List.Induction

/-!
A tree of directories and files without symbolic links: how the system finds its way along a path,
and what the calls of `std::fs` do to the tree.
-/

namespace FileTree

/-- The names on the way from the root. -/
abbrev Location := List String

inductive Node where
  | directory
  | file (bytes : List UInt8)
  deriving DecidableEq

/-- What stands where. The root is a directory. -/
abbrev Tree := Location → Option Node

inductive Errno where
  | notFound
  | notADirectory
  | alreadyExists
  | isADirectory
  | busy
  deriving DecidableEq

/-- Where a component of a path leads if all the directories are there. -/
def lexical (here : Location) (component : String) : Location :=
  if component = "" ∨ component = "." then here
  else if component = ".." then here.dropLast
  else here ++ [component]

def normal (path : List String) : Location := path.foldl lexical []

/-- `Path::components`, of a path from the root. -/
def components (path : List String) : List String :=
  path.filter fun component => component ≠ "" ∧ component ≠ "."

/-- Slashes that follow each other are one. -/
def collapse (path : List String) : List String := path.filter fun component => component != ""

namespace Tree

variable (tree : Tree)

def put (location : Location) (node : Node) : Tree :=
  fun other => if other = location then some node else tree other

def enter (here : Location) (component : String) : Except Errno Location :=
  if component = "" ∨ component = "." then .ok here
  else if component = ".." then .ok here.dropLast
  else match tree (here ++ [component]) with
    | some .directory => .ok (here ++ [component])
    | some (.file _) => .error .notADirectory
    | none => .error .notFound

/-- The directory at the end of the path. -/
def resolve (path : List String) : Except Errno Location := path.foldlM tree.enter []

def isDir (path : List String) : Bool := (tree.resolve path).isOk

/-- What stands at the end of the path. -/
def find (path : List String) : Option Node :=
  match tree.resolve path, path.getLast? with
  | .ok _, _ => some .directory
  | .error _, some name =>
    if name = "" ∨ name = "." ∨ name = ".." then none
    else match tree.resolve path.dropLast with
      | .ok parent => tree (parent ++ [name])
      | .error _ => none
  | .error _, none => none

/-- `mkdir(2)` -/
def mkdir (path : List String) : Except Errno Tree :=
  match (collapse path).getLast? with
  | none => .error .alreadyExists
  | some name => do
    let parent ← tree.resolve (collapse path).dropLast
    if name = "." ∨ name = ".." ∨ (tree (parent ++ [name])).isSome then .error .alreadyExists
    else .ok (tree.put (parent ++ [name]) .directory)

def orFound (path : List String) (made : Except Errno Tree) : Except Errno Tree :=
  match made with
  | .error error => if tree.isDir path then .ok tree else .error error
  | made => made

/-- Make the directory, and the ones around it if those are missing. -/
def makeWithin (path : List String) (outer : Tree → Except Errno Tree) : Except Errno Tree :=
  match tree.mkdir path with
  | .error .notFound => do
    let tree ← outer tree
    tree.orFound path (tree.mkdir path)
  | made => tree.orFound path made

/-- The components come innermost first. -/
def createOuter : List String → Tree → Except Errno Tree
  | [], tree => .ok tree
  | name :: outer, tree => tree.makeWithin (outer.reverse ++ [name]) (createOuter outer)

/-- `fs::create_dir_all` -/
def createDirAll (path : List String) : Except Errno Tree :=
  tree.makeWithin path (createOuter (components path).reverse.tail)

/-- `fs::remove_dir_all` -/
def removeDirAll (path : List String) : Except Errno Tree := do
  let location ← tree.resolve path
  if location = [] ∨ (collapse path).getLast? ∈ [some ".", some ".."] then .error .busy
  else .ok fun other => if location.isPrefixOf other then none else tree other

/-- `fs::write`: where the file is, and the tree with it. -/
def write (dir : List String) (name : String) (bytes : List UInt8) : Except Errno (Location × Tree) := do
  let parent ← tree.resolve dir
  if tree (parent ++ [name]) = some .directory then .error .isADirectory
  else .ok (parent ++ [name], tree.put (parent ++ [name]) (.file bytes))

/-- `fs::read` -/
def read (path : List String) : Except Errno (List UInt8) :=
  match tree.find path with
  | some (.file bytes) => .ok bytes
  | some .directory => .error .isADirectory
  | none => .error .notFound

end Tree

section Resolution

variable {tree tree' : Tree} {path : List String} {here location : Location} {component : String}

theorem normal_append (path : List String) (component : String) :
    normal (path ++ [component]) = lexical (normal path) component := by
  simp [normal]

/-- All the directories are still there. -/
def KeepsDirs (tree tree' : Tree) : Prop :=
  ∀ location, tree location = some .directory → tree' location = some .directory

theorem KeepsDirs.refl (tree : Tree) : KeepsDirs tree tree := fun _ stands => stands

theorem KeepsDirs.trans {a b c : Tree} (first : KeepsDirs a b) (second : KeepsDirs b c) : KeepsDirs a c :=
  fun location stands => second location (first location stands)

/-- A component that leads nowhere new. -/
def Dots (component : String) : Prop := component = "" ∨ component = "." ∨ component = ".."

theorem lexical_plain (plain : ¬ Dots component) : lexical here component = here ++ [component] := by
  simp only [Dots, not_or] at plain
  simp [lexical, plain]

theorem enter_dots (dots : Dots component) : tree.enter here component = .ok (lexical here component) := by
  rcases dots with rfl | rfl | rfl <;> simp [Tree.enter, lexical]

theorem enter_plain (plain : ¬ Dots component) :
    tree.enter here component = .ok location ↔
      location = here ++ [component] ∧ tree location = some .directory := by
  simp only [Dots, not_or] at plain
  simp only [Tree.enter, plain, or_self, if_false]
  constructor
  · intro entered
    split at entered
    · rename_i stands
      cases entered
      exact ⟨rfl, stands⟩
    · cases entered
    · cases entered
  · intro ⟨same, stands⟩
    rw [same] at stands
    rw [same, stands]

theorem enter_lexical (entered : tree.enter here component = .ok location) :
    location = lexical here component := by
  by_cases dots : Dots component
  · rw [enter_dots dots] at entered
    cases entered
    rfl
  · rw [lexical_plain dots]
    exact ((enter_plain dots).mp entered).1

theorem KeepsDirs.enter (keeps : KeepsDirs tree tree') (entered : tree.enter here component = .ok location) :
    tree'.enter here component = .ok location := by
  by_cases dots : Dots component
  · rw [enter_dots dots] at entered ⊢
    exact entered
  · obtain ⟨same, stands⟩ := (enter_plain dots).mp entered
    exact (enter_plain dots).mpr ⟨same, keeps location stands⟩

theorem resolve_append (path : List String) (component : String) :
    tree.resolve (path ++ [component]) = (do
      let here ← tree.resolve path
      tree.enter here component) := by
  simp [Tree.resolve, List.foldlM_append]

theorem resolve_snoc (resolved : tree.resolve path = .ok here) (component : String) :
    tree.resolve (path ++ [component]) = tree.enter here component := by
  rw [resolve_append, resolved]
  rfl

/-- Whatever is found is found where the names say. -/
theorem resolve_normal (resolved : tree.resolve path = .ok location) : location = normal path := by
  induction path using List.reverseRecOn generalizing location with
  | nil =>
    cases resolved
    rfl
  | append_singleton path component ih =>
    rw [resolve_append] at resolved
    cases outer : tree.resolve path with
    | error error => simp [outer, bind, Except.bind] at resolved
    | ok here =>
      simp only [outer, bind, Except.bind] at resolved
      rw [enter_lexical resolved, ih outer, normal_append]

theorem KeepsDirs.resolve (keeps : KeepsDirs tree tree') (resolved : tree.resolve path = .ok location) :
    tree'.resolve path = .ok location := by
  induction path using List.reverseRecOn generalizing location with
  | nil => exact resolved
  | append_singleton path component ih =>
    rw [resolve_append] at resolved
    cases outer : tree.resolve path with
    | error error => simp [outer, bind, Except.bind] at resolved
    | ok here =>
      simp only [outer, bind, Except.bind] at resolved
      rw [resolve_snoc (ih outer)]
      exact keeps.enter resolved

theorem isDir_iff : tree.isDir path ↔ tree.resolve path = .ok (normal path) := by
  unfold Tree.isDir
  constructor
  · intro found
    cases resolved : tree.resolve path with
    | error error => simp [resolved, Except.isOk, Except.toBool] at found
    | ok location => rw [resolve_normal resolved]
  · intro resolved
    simp [resolved, Except.isOk, Except.toBool]

end Resolution

section Operations

variable {tree tree' : Tree} {path : List String} {here location : Location} {name : String}

/-- Nothing but directories is new. -/
def Extends (tree tree' : Tree) : Prop :=
  ∀ location, tree' location = tree location ∨
    tree location = none ∧ tree' location = some .directory

theorem Extends.refl (tree : Tree) : Extends tree tree := fun _ => .inl rfl

theorem Extends.trans {a b c : Tree} (first : Extends a b) (second : Extends b c) : Extends a c := by
  intro location
  rcases second location with same | ⟨absent, made⟩
  · rw [same]
    exact first location
  · rcases first location with same | ⟨absent', made'⟩
    · rw [← same]
      exact .inr ⟨absent, made⟩
    · rw [absent] at made'
      cases made'

theorem Extends.keepsDirs (extend : Extends tree tree') : KeepsDirs tree tree' := by
  intro location stands
  rcases extend location with same | ⟨absent, made⟩
  · rw [same, stands]
  · exact made

theorem Extends.file {bytes : List UInt8} (extend : Extends tree tree') :
    tree' location = some (.file bytes) ↔ tree location = some (.file bytes) := by
  rcases extend location with same | ⟨absent, made⟩
  · rw [same]
  · simp [absent, made]

theorem resolve_collapse (path : List String) : tree.resolve (collapse path) = tree.resolve path := by
  induction path using List.reverseRecOn with
  | nil => rfl
  | append_singleton path component ih =>
    by_cases blank : component = ""
    · have same : collapse (path ++ [component]) = collapse path := by simp [collapse, blank]
      have dots : Dots component := .inl blank
      rw [same, ih]
      cases resolved : tree.resolve path with
      | error error => simp [resolve_append, resolved, bind, Except.bind]
      | ok here =>
        rw [resolve_snoc resolved, enter_dots dots]
        simp [lexical, blank]
    · have longer : collapse (path ++ [component]) = collapse path ++ [component] := by
        simp [collapse, blank]
      rw [longer, resolve_append, ih, resolve_append]

/-- What `mkdir` has made is there. -/
theorem mkdir_ok (made : tree.mkdir path = .ok tree') : Extends tree tree' ∧ tree'.isDir path := by
  unfold Tree.mkdir at made
  split at made
  · cases made
  rename_i name last
  have whole := List.dropLast_append_getLast? name last
  cases outer : tree.resolve (collapse path).dropLast with
  | error error => simp [outer, bind, Except.bind] at made
  | ok parent =>
    simp only [outer, bind, Except.bind] at made
    split at made
    · cases made
    rename_i free
    simp only [not_or, Bool.not_eq_true, Option.isSome_eq_false_iff, Option.isNone_iff_eq_none] at free
    obtain ⟨notDot, notDots, absent⟩ := free
    cases made
    have extend : Extends tree (tree.put (parent ++ [name]) .directory) := by
      intro location
      by_cases same : location = parent ++ [name]
      · rw [same]
        exact .inr ⟨absent, by simp [Tree.put]⟩
      · exact .inl (by simp [Tree.put, same])
    refine ⟨extend, ?_⟩
    have nonblank : name ≠ "" := by
      have member := List.mem_of_getLast? last
      simpa using (List.mem_filter.mp member).2
    have plain : ¬ Dots name := by simp [Dots, nonblank, notDot, notDots]
    have resolved : (tree.put (parent ++ [name]) .directory).resolve path = .ok (parent ++ [name]) := by
      rw [← resolve_collapse, ← whole, resolve_snoc (extend.keepsDirs.resolve outer)]
      exact (enter_plain plain).mpr ⟨rfl, by simp [Tree.put]⟩
    simp [Tree.isDir, resolved, Except.isOk, Except.toBool]

theorem orFound_ok {made : Except Errno Tree} (sound : ∀ tree', made = .ok tree' →
      Extends tree tree' ∧ tree'.isDir path)
    (found : tree.orFound path made = .ok tree') : Extends tree tree' ∧ tree'.isDir path := by
  unfold Tree.orFound at found
  split at found
  · split at found
    · rename_i stands
      cases found
      exact ⟨.refl tree, stands⟩
    · cases found
  · exact sound tree' found

theorem makeWithin_ok {outer : Tree → Except Errno Tree}
    (around : ∀ tree', outer tree = .ok tree' → Extends tree tree')
    (made : tree.makeWithin path outer = .ok tree') : Extends tree tree' ∧ tree'.isDir path := by
  unfold Tree.makeWithin at made
  split at made
  · cases wrapped : outer tree with
    | error error => simp [wrapped, bind, Except.bind] at made
    | ok between =>
      simp only [wrapped, bind, Except.bind] at made
      obtain ⟨extend, stands⟩ := orFound_ok (fun _ => mkdir_ok) made
      exact ⟨(around between wrapped).trans extend, stands⟩
  · exact orFound_ok (fun _ => mkdir_ok) made

theorem createOuter_ok {names : List String} (made : Tree.createOuter names tree = .ok tree') :
    Extends tree tree' := by
  induction names generalizing tree tree' with
  | nil =>
    cases made
    exact .refl tree
  | cons name outer ih => exact (makeWithin_ok (fun _ => ih) made).1

theorem createDirAll_ok (made : tree.createDirAll path = .ok tree') :
    Extends tree tree' ∧ tree'.isDir path :=
  makeWithin_ok (fun _ => createOuter_ok) made

/-- A file is written where the names say, and nothing else changes. -/
theorem write_ok {bytes : List UInt8} (written : tree.write path name bytes = .ok (location, tree')) :
    location = normal path ++ [name] ∧ tree.isDir path ∧ tree location ≠ some .directory ∧
      tree' = tree.put location (.file bytes) := by
  unfold Tree.write at written
  cases resolved : tree.resolve path with
  | error error => simp [resolved, bind, Except.bind] at written
  | ok parent =>
    simp only [resolved, bind, Except.bind] at written
    split at written
    · cases written
    rename_i free
    cases written
    rw [resolve_normal resolved] at *
    exact ⟨rfl, isDir_iff.mpr resolved, free, rfl⟩

theorem keepsDirs_put {bytes : List UInt8} (free : tree location ≠ some .directory) :
    KeepsDirs tree (tree.put location (.file bytes)) := by
  intro other stands
  have apart : other ≠ location := by
    intro same
    rw [same] at stands
    exact free stands
  simp [Tree.put, apart, stands]

/-- A file in a directory that is there is found. -/
theorem find_file {bytes : List UInt8} (stands : tree.isDir path) (plain : ¬ Dots name)
    (here : tree (normal path ++ [name]) = some (.file bytes)) :
    tree.find (path ++ [name]) = some (.file bytes) := by
  have resolved := isDir_iff.mp stands
  have missed : ∀ location, tree.resolve (path ++ [name]) ≠ .ok location := by
    intro location found
    rw [resolve_snoc resolved] at found
    obtain ⟨same, directory⟩ := (enter_plain plain).mp found
    rw [same, here] at directory
    cases directory
  simp only [Dots] at plain
  unfold Tree.find
  cases found : tree.resolve (path ++ [name]) with
  | ok location => exact absurd found (missed location)
  | error error => simp [plain, resolved, here]

end Operations

end FileTree

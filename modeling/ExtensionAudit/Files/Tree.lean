import ExtensionAudit.Files.Basic
import ExtensionAudit.Files.Path

namespace ExtensionAudit

inductive FileNode where
  | directory
  | file (content : ByteArray)

/-- A file system as a value: nodes by the names that lead to them from the root, and the directory
in which the program works. -/
structure FileTree where
  entries : List (List String × FileNode) := []
  working : List String

namespace FileTree

/-- Nothing but a working directory and those around it. -/
def empty : FileTree where
  working := ["tmp", "work"]

/-- Whether a place is the working directory or one around it. These are always there. -/
def isBase (t : FileTree) (place : List String) : Bool :=
  place.isPrefixOf t.working

def node? (t : FileTree) (place : List String) : Option FileNode :=
  if t.isBase place then some .directory else t.entries.lookup place

def isDirectory (t : FileTree) (place : List String) : Bool :=
  match t.node? place with
  | some .directory => true
  | _ => false

/-- Takes one step from a place: into a name, up, or not at all. Only from a directory a step can be
taken, and above the root is the root; whether there is a node behind the step is not looked at. -/
def step? (t : FileTree) (place : List String) (name : String) : Option (List String) :=
  if !t.isDirectory place then none
  else if name = "" || name = "." then some place
  else if name = ".." then some place.dropLast
  else if Path.size name ≤ Path.longestName then some (place ++ [name])
  else none

/-- The place that a path is followed from. -/
def start (t : FileTree) (path : String) : List String :=
  if Path.isAbsolute path then [] else t.working

/-- The place that a path leads to. All directories on the way are there. -/
def place? (t : FileTree) (path : String) : Option (List String) :=
  if Path.isAccepted path then (Path.parts path).foldlM t.step? (t.start path) else none

def insert (t : FileTree) (place : List String) (node : FileNode) : FileTree :=
  { t with entries := (place, node) :: t.entries.filter (·.1 ≠ place) }

/-- Inserts a node by the names that lead to it from the working directory. -/
def put (t : FileTree) (names : List String) (node : FileNode) : FileTree :=
  t.insert (t.working ++ names) node

def erase (t : FileTree) (place : List String) : FileTree :=
  { t with entries := t.entries.filter (·.1 ≠ place) }

def follow? (t : FileTree) (path : String) : Option FileNode :=
  (t.place? path).bind t.node?

def pathExists (t : FileTree) (path : String) : Bool :=
  (t.follow? path).isSome

def read? (t : FileTree) (path : String) : Option ByteArray :=
  match t.follow? path with
  | some (.file content) => some content
  | _ => none

/-- The place of a file that can be written: it is no directory. -/
def filePlace? (t : FileTree) (path : String) : Option (List String) :=
  (t.place? path).filter fun place => !t.isDirectory place

def write? (t : FileTree) (path : String) (content : ByteArray) : Option FileTree :=
  (t.filePlace? path).map fun place => t.insert place (.file content)

/-- Steps into a name, making the directory if there is nothing of that name. -/
def enter? (t : FileTree) (place : List String) (name : String) :
    Option (FileTree × List String) := do
  let next ← t.step? place name
  match t.node? next with
  | some .directory => some (t, next)
  | some (.file _) => none
  | none => some (t.insert next .directory, next)

/-- Enters the names one after the other, as far as that goes, and tells whether it went all the
way. What was made on the way stays. -/
def enterAll (t : FileTree) (place : List String) : List String → Bool × FileTree
  | [] => (true, t)
  | name :: names =>
    match t.enter? place name with
    | none => (false, t)
    | some (t, place) => enterAll t place names

/-- Makes all directories of a path, and tells whether they are there now. The empty path is the
working directory. A path that ends in a point makes only the directories around its last name. -/
def createDirectories (t : FileTree) (path : String) : Bool × FileTree :=
  if path = "" then (true, t)
  else if !Path.isAccepted path then (false, t)
  else if Path.endsInPoint path then
    let (made, t) := t.enterAll (t.start path) (Path.names path).dropLast
    (made && (t.place? path).any t.isDirectory, t)
  else t.enterAll (t.start path) (Path.names path)

def rename? (t : FileTree) (source target : String) : Option FileTree := do
  let place ← t.place? source
  match t.node? place with
  | some (.file content) => (t.erase place).write? target content
  | _ => none

def remove? (t : FileTree) (path : String) : Option FileTree := do
  let place ← t.place? path
  match t.node? place with
  | some (.file _) => some (t.erase place)
  | _ => none

def files (t : FileTree) : List (List String × ByteArray) :=
  t.entries.filterMap fun (place, node) =>
    match node with
    | .file content => some (place, content)
    | .directory => none

def fileNames (t : FileTree) (path : String) : List String :=
  match t.place? path with
  | none => []
  | some place => t.files.filterMap fun (names, _) =>
      if names.dropLast = place then names.getLast? else none

/-- The paths of all files in the working directory and below, in ascending order. -/
def paths (t : FileTree) : List String :=
  let inner := t.files.filter fun (place, _) => t.working.isPrefixOf place
  (inner.map fun (place, _) => "/".intercalate (place.drop t.working.length)).mergeSort
    fun a b => a ≤ b

theorem lookup_filter_ne (entries : List (List String × FileNode)) (place other : List String) :
    (entries.filter (·.1 ≠ place)).lookup other =
      if other = place then none else entries.lookup other := by
  induction entries with
  | nil => rw [List.filter_nil, List.lookup_nil, ite_self]
  | cons entry entries ih =>
    obtain ⟨here, node⟩ := entry
    by_cases removed : here = place
    · subst removed
      rw [List.filter_cons_of_neg (by simp), ih]
      by_cases found : other = here
      · rw [if_pos found, if_pos found]
      · rw [if_neg found, if_neg found, List.lookup_cons, beq_false_of_ne found]
    · rw [List.filter_cons_of_pos (by simpa using removed), List.lookup_cons, List.lookup_cons, ih]
      by_cases found : other = here
      · subst found
        simp [removed]
      · rw [beq_false_of_ne found]

/-- A node that is inserted somewhere is there, and nothing else has changed. -/
theorem node?_insert {t : FileTree} {place : List String} (inside : t.isBase place = false)
    (node : FileNode) (other : List String) :
    (t.insert place node).node? other = if other = place then some node else t.node? other := by
  have base : (t.insert place node).isBase other = t.isBase other := rfl
  by_cases same : other = place
  · subst same
    rw [if_pos rfl, node?, base, inside]
    simp [insert]
  · rw [if_neg same, node?, node?, base]
    split
    · rfl
    · simp only [insert, List.lookup_cons, beq_false_of_ne same]
      rw [lookup_filter_ne, if_neg same]

@[simp]
theorem working_empty : empty.working = ["tmp", "work"] :=
  rfl

@[simp]
theorem working_put (t : FileTree) (names : List String) (node : FileNode) :
    (t.put names node).working = t.working :=
  rfl

theorem node?_put {t : FileTree} {names : List String} (named : names ≠ []) (node : FileNode)
    (other : List String) :
    (t.put names node).node? other =
      if other = t.working ++ names then some node else t.node? other := by
  refine node?_insert (Bool.eq_false_iff.mpr fun base => named ?_) node other
  have length := (List.isPrefixOf_iff_prefix.mp base).length_le
  rw [List.length_append] at length
  exact List.length_eq_zero_iff.mp (by omega)

/-- What is erased is gone, and nothing else has changed. -/
theorem node?_erase {t : FileTree} {place : List String} (inside : t.isBase place = false)
    (other : List String) :
    (t.erase place).node? other = if other = place then none else t.node? other := by
  have base : (t.erase place).isBase other = t.isBase other := rfl
  have found : (t.erase place).entries.lookup other =
      if other = place then none else t.entries.lookup other :=
    lookup_filter_ne t.entries place other
  rw [node?, node?, base, found]
  by_cases same : other = place
  · subst same
    rw [inside]
    rfl
  · rw [if_neg same, if_neg same]

theorem isDirectory_of_isBase {t : FileTree} {place : List String} (base : t.isBase place = true) :
    t.isDirectory place = true := by
  rw [isDirectory, node?, if_pos base]

theorem isBase_of_not_isDirectory {t : FileTree} {place : List String}
    (free : t.isDirectory place = false) : t.isBase place = false := by
  refine Bool.eq_false_iff.mpr fun base => ?_
  rw [isDirectory_of_isBase base] at free
  exact nomatch free

/-- What is inserted where no directory is takes no directory away. -/
theorem isDirectory_insert {t : FileTree} {place other : List String} {node : FileNode}
    (free : t.isDirectory place = false) (there : t.isDirectory other = true) :
    (t.insert place node).isDirectory other = true := by
  have differs : other ≠ place := by
    rintro rfl
    exact Bool.false_ne_true (free.symm.trans there)
  rwa [isDirectory, node?_insert (isBase_of_not_isDirectory free), if_neg differs]

/-- A file where no directory is changes no directory. -/
theorem isDirectory_insert_file {t : FileTree} {place : List String}
    (free : t.isDirectory place = false) (content : ByteArray) (other : List String) :
    (t.insert place (.file content)).isDirectory other = t.isDirectory other := by
  have inside := isBase_of_not_isDirectory free
  by_cases same : other = place
  · subst same
    rw [free, isDirectory, node?_insert inside, if_pos rfl]
  · rw [isDirectory, node?_insert inside, if_neg same, isDirectory]

/-- Erasing a file changes no directory. -/
theorem isDirectory_erase_file {t : FileTree} {place : List String} {content : ByteArray}
    (file : t.node? place = some (.file content)) (other : List String) :
    (t.erase place).isDirectory other = t.isDirectory other := by
  have free : t.isDirectory place = false := by rw [isDirectory, file]
  have inside := isBase_of_not_isDirectory free
  by_cases same : other = place
  · subst same
    rw [free, isDirectory, node?_erase inside, if_pos rfl]
  · rw [isDirectory, node?_erase inside, if_neg same, isDirectory]

/-- Where the directories are the same, every path leads to the same place. -/
theorem place?_congr {t changed : FileTree}
    (same : ∀ place, changed.isDirectory place = t.isDirectory place)
    (working : changed.working = t.working) (path : String) :
    changed.place? path = t.place? path := by
  have step : changed.step? = t.step? := by
    funext here name
    rw [step?, same, step?]
  rw [place?, step, start, working, place?, start]

/-- What was written to a path is read from it. -/
theorem read?_write? {t changed : FileTree} {path : String} {content : ByteArray}
    (written : t.write? path content = some changed) : changed.read? path = some content := by
  obtain ⟨place, found, rfl⟩ := Option.map_eq_some_iff.mp written
  obtain ⟨leads, free⟩ := Option.filter_eq_some_iff.mp found
  have free : t.isDirectory place = false := by simpa using free
  have inside := isBase_of_not_isDirectory free
  have again := place?_congr (isDirectory_insert_file free content) rfl path
  rw [read?, follow?, again, leads, Option.bind_some, node?_insert inside, if_pos rfl]

/-- A file holds under its new path what it held before. -/
theorem read?_rename? {t changed : FileTree} {source target : String} {content : ByteArray}
    (held : t.read? source = some content) (renamed : t.rename? source target = some changed) :
    changed.read? target = some content := by
  obtain ⟨place, leads, moved⟩ := Option.bind_eq_some_iff.mp renamed
  simp only [read?, follow?, leads, Option.bind_some] at held
  cases node : t.node? place with
  | none => simp [node] at moved
  | some found =>
    cases found with
    | directory => simp [node] at moved
    | file there =>
      simp only [node, Option.some.injEq] at held moved
      subst held
      exact read?_write? moved

theorem pathExists_of_read? {t : FileTree} {path : String} {content : ByteArray}
    (held : t.read? path = some content) : t.pathExists path = true := by
  cases found : t.follow? path with
  | none => simp [read?, found] at held
  | some node => simp [pathExists, found]

end FileTree

/-- Replaces the tree by its changed form, unless the change was refused. -/
def changeTree (change : FileTree → Option FileTree) : StateM FileTree Bool := fun t =>
  match change t with
  | some changed => (true, changed)
  | none => (false, t)

instance : MonadFiles (StateM FileTree) where
  pathExists path := return (← get).pathExists path
  read path := return (← get).read? path
  write path content := changeTree (·.write? path content)
  createDirectories path := fun t => t.createDirectories path
  rename source target := changeTree (·.rename? source target)
  fileNames path := return (← get).fileNames path

end ExtensionAudit

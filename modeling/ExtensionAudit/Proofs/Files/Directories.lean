import ExtensionAudit.Proofs.Files.Places
import Mathlib.Data.List.Infix

namespace ExtensionAudit.FileTree

variable {t point : FileTree} {name path : String} {here place next : List String}
  {working names parts : List String}

/-- The names that are entered when the directories of a path are made. -/
def entered (path : String) : List String :=
  if Path.endsInPoint path then (Path.names path).dropLast else Path.names path

theorem entered_starts_names (path : String) : entered path <+: Path.names path := by
  unfold entered
  split
  · exact List.dropLast_prefix _
  · exact List.prefix_refl _

/-- The trees that are passed while the directories of a path are made, from the outermost on. -/
def creationPoints (t : FileTree) (path : String) : List FileTree :=
  if Path.isAccepted path then
    (entered path).inits.map fun names => (t.enterAll (t.start path) names).2
  else []

theorem mem_creationPoints_iff : point ∈ t.creationPoints path ↔ Path.isAccepted path = true ∧
    ∃ front, front <+: entered path ∧ (t.enterAll (t.start path) front).2 = point := by
  unfold creationPoints
  split
  · rename_i accepted
    simp only [List.mem_map, List.mem_inits, accepted, true_and]
  · rename_i refused
    simp [refused]

theorem createDirectories_snd (accepted : Path.isAccepted path = true) :
    (t.createDirectories path).2 = (t.enterAll (t.start path) (entered path)).2 := by
  rw [createDirectories, entered, if_neg (Path.ne_empty_of_isAccepted accepted),
    if_neg (by simp [accepted])]
  split <;> rfl

/-- The tree with all directories of a path is the last one that is passed. -/
theorem createDirectories_mem (accepted : Path.isAccepted path = true) :
    (t.createDirectories path).2 ∈ t.creationPoints path :=
  mem_creationPoints_iff.mpr
    ⟨accepted, entered path, List.prefix_refl _, (createDirectories_snd accepted).symm⟩

/-- For a path that cannot be asked for, no directory is made. -/
theorem createDirectories_eq_or_mem (t : FileTree) (path : String) :
    (t.createDirectories path).2 = t ∨ (t.createDirectories path).2 ∈ t.creationPoints path := by
  by_cases accepted : Path.isAccepted path = true
  · exact Or.inr (createDirectories_mem accepted)
  · left
    rw [createDirectories]
    split
    · rfl
    · rw [if_pos (by simpa using accepted)]

/-- The working directory stays where it is. -/
theorem start_enterAll (t : FileTree) (here names : List String) (path : String) :
    (t.enterAll here names).2.start path = t.start path :=
  enterAll_induction (motive := fun changed => changed.start path = t.start path) rfl
    (fun same _ _ => same) here names

/-- Where a way leads to something already, no directory on it is made. -/
theorem enterAll_of_present {front : List String} (leads : names.foldlM t.step? here = some place)
    (present : (t.node? place).isSome) (starts : front <+: names) :
    (t.enterAll here front).2 = t := by
  induction names generalizing here front with
  | nil =>
    obtain rfl := List.prefix_nil.mp starts
    rfl
  | cons name names ih =>
    cases front with
    | nil => rfl
    | cons first front =>
      obtain ⟨rfl, later⟩ := List.cons_prefix_cons.mp starts
      rw [List.foldlM_cons] at leads
      obtain ⟨next, step, rest⟩ := Option.bind_eq_some_iff.mp leads
      have there : (t.node? next).isSome := by
        cases names with
        | nil =>
          obtain rfl := Option.some.inj rest
          exact present
        | cons second names =>
          rw [List.foldlM_cons] at rest
          obtain ⟨_, further, -⟩ := Option.bind_eq_some_iff.mp rest
          rw [eq_directory_of_isDirectory (isDirectory_of_step? further)]
          rfl
      rw [enterAll]
      cases entered : t.enter? here first with
      | none => rfl
      | some found =>
        obtain ⟨changed, stepped⟩ := found
        obtain ⟨again, made⟩ := enter?_eq_some entered
        obtain rfl := Option.some.inj (step.symm.trans again)
        rcases made with ⟨rfl, -⟩ | ⟨free, -⟩
        · exact ih rest later
        · exact absurd there (by simp [free])

theorem eq_of_mem_creationPoints (exists_ : t.pathExists path = true)
    (passed : point ∈ t.creationPoints path) : point = t := by
  obtain ⟨-, front, starts, rfl⟩ := mem_creationPoints_iff.mp passed
  obtain ⟨node, followed⟩ := Option.isSome_iff_exists.mp exists_
  obtain ⟨place, leads, present⟩ := Option.bind_eq_some_iff.mp followed
  have named := foldlM_names (place?_eq_some_iff.mp leads).2
  exact enterAll_of_present named (by rw [present]; rfl) (starts.trans (entered_starts_names path))

/-- Once a way leads to a directory, no more directories on it are made. -/
theorem enterAll_of_arrived {front longer : List String} (starts : front <+: longer)
    (within : longer <+: names)
    (leads : names.foldlM (t.enterAll here front).2.step? here = some place)
    (there : (t.enterAll here front).2.isDirectory place = true) :
    (t.enterAll here longer).2 = (t.enterAll here front).2 := by
  -- On the front: where it is used up, the rest of the names leads to what is there.
  induction front generalizing t here longer names with
  | nil =>
    refine enterAll_of_present leads ?_ within
    change t.isDirectory place = true at there
    rw [eq_directory_of_isDirectory there]
    rfl
  | cons first front ih =>
    obtain ⟨longer, rfl⟩ : ∃ rest, longer = first :: rest := by
      obtain ⟨rest, rfl⟩ := starts
      exact ⟨front ++ rest, rfl⟩
    obtain ⟨names, rfl⟩ : ∃ rest, names = first :: rest := by
      obtain ⟨rest, rfl⟩ := within
      exact ⟨longer ++ rest, rfl⟩
    rw [List.foldlM_cons] at leads
    obtain ⟨arrived, step, rest⟩ := Option.bind_eq_some_iff.mp leads
    have later := isDirectory_of_step? step
    rw [enterAll] at step rest there later ⊢
    rw [enterAll]
    cases entered : t.enter? here first with
    | none => rfl
    | some found =>
      obtain ⟨changed, next⟩ := found
      simp only [entered] at step rest there later
      have again := (enter?_eq_some entered).1
      have same : arrived = next := by
        rw [← Option.some_inj, ← step, ← again]
        exact step?_congr (isDirectory_of_step? again) later first
      rw [same] at rest
      exact ih (List.cons_prefix_cons.mp starts).2 (List.cons_prefix_cons.mp within).2 rest there

/-- Once the path leads to a directory, all directories of the path are made. -/
theorem eq_createDirectories_of_arrived (passed : point ∈ t.creationPoints path)
    (leads : point.place? path = some place) (there : point.isDirectory place = true) :
    point = (t.createDirectories path).2 := by
  obtain ⟨accepted, front, starts, rfl⟩ := mem_creationPoints_iff.mp passed
  have arrives := (place?_eq_some_iff.mp leads).2
  rw [start_enterAll] at arrives
  rw [createDirectories_snd accepted]
  exact (enterAll_of_arrived starts (entered_starts_names path) (foldlM_names arrives) there).symm

/-- The place that names spell, whether the directories on the way are there or not. -/
def spell (here names : List String) : List String :=
  names.foldl (fun here name => if name = ".." then here.dropLast else here ++ [name]) here

theorem spell_cons : spell here (name :: names) = spell (spell here [name]) names :=
  rfl

theorem spell_singleton (notUp : name ≠ "..") : spell here [name] = here ++ [name] :=
  if_neg notUp

/-- The names lead down, or up from the working directory or one around it. -/
def leadsOn (working here : List String) : List String → Bool
  | [] => true
  | name :: names =>
    (name ≠ ".." || here.isPrefixOf working) && leadsOn working (spell here [name]) names

/-- A path that goes up only to where the working directory is. Any other path leads through a
directory that it leaves again, and leads nowhere until there is one. -/
def isDirect (t : FileTree) (path : String) : Bool :=
  leadsOn t.working (t.start path) (Path.names path)

theorem leadsOn_cons_iff : leadsOn working here (name :: names) = true ↔
    (name ≠ ".." ∨ here <+: working) ∧ leadsOn working (spell here [name]) names = true := by
  simp [leadsOn]

/-- Outside of the directories around the working one, such names lead only down. -/
theorem isBase_or_prefix_spell (on : leadsOn t.working here names = true) :
    t.isBase here = true ∨ here <+: spell here names := by
  induction names generalizing here with
  | nil => exact Or.inr (List.prefix_refl _)
  | cons name names ih =>
    obtain ⟨first, later⟩ := leadsOn_cons_iff.mp on
    refine or_iff_not_imp_left.mpr fun outside => ?_
    rw [isBase, List.isPrefixOf_iff_prefix] at outside
    have down : spell here [name] = here ++ [name] := spell_singleton (first.resolve_right outside)
    rw [down] at later
    rw [spell_cons, down]
    have within : here <+: here ++ [name] := List.prefix_append _ _
    rcases ih later with base | starts
    · rw [isBase, List.isPrefixOf_iff_prefix] at base
      exact absurd (within.trans base) outside
    · exact within.trans starts

theorem eq_of_step? (named : name ≠ "" ∧ name ≠ ".") (step : t.step? here name = some next) :
    next = spell here [name] := by
  have there := isDirectory_of_step? step
  simp only [step?, there, named.1, named.2, decide_false, Bool.or_self, Bool.not_true,
    Bool.false_eq_true, if_false] at step
  split at step
  · rename_i up
    rw [← Option.some.inj step]
    exact (if_pos up).symm
  · rename_i notUp
    rw [spell_singleton notUp]
    split at step
    · exact (Option.some.inj step).symm
    · exact absurd step (by simp)

/-- A path leads, if anywhere, to the place that its names spell. -/
theorem eq_of_foldlM (leads : parts.foldlM t.step? here = some place) :
    place = spell here (parts.filter fun part => part ≠ "" ∧ part ≠ ".") := by
  induction parts generalizing here with
  | nil => exact (Option.some.inj leads).symm
  | cons part parts ih =>
    rw [List.foldlM_cons] at leads
    obtain ⟨next, step, rest⟩ := Option.bind_eq_some_iff.mp leads
    by_cases named : part ≠ "" ∧ part ≠ "."
    · rw [List.filter_cons_of_pos (by simpa using named), spell_cons]
      obtain rfl := eq_of_step? named step
      exact ih rest
    · rw [List.filter_cons_of_neg (by simpa using named)]
      rw [eq_of_step?_idle (by simpa [or_iff_not_imp_left] using named) step] at rest
      exact ih rest

/-- Only nodes on the way are made. -/
theorem node?_enterAll {front : List String} (named : ∀ name ∈ names, name ≠ "" ∧ name ≠ ".")
    (on : leadsOn t.working here names = true) (apart : ¬ place <+: spell here names)
    (starts : front <+: names) :
    (t.enterAll here front).2.node? place = t.node? place := by
  induction names generalizing t here front with
  | nil =>
    obtain rfl := List.prefix_nil.mp starts
    rfl
  | cons name names ih =>
    cases front with
    | nil => rfl
    | cons first front =>
      obtain ⟨rfl, later⟩ := List.cons_prefix_cons.mp starts
      rw [enterAll]
      cases entered : t.enter? here first with
      | none => rfl
      | some found =>
        obtain ⟨changed, next⟩ := found
        obtain ⟨-, onLater⟩ := leadsOn_cons_iff.mp on
        obtain ⟨step, made⟩ := enter?_eq_some entered
        obtain rfl := eq_of_step? (named first List.mem_cons_self) step
        have namedLater : ∀ name ∈ names, name ≠ "" ∧ name ≠ "." :=
          fun name listed => named name (List.mem_cons_of_mem _ listed)
        rcases made with ⟨rfl, -⟩ | ⟨free, rfl⟩
        · exact ih namedLater onLater apart later
        · have outside := isBase_of_absent free
          have kept := ih (t := t.insert (spell here [first]) .directory) namedLater onLater apart
            later
          -- What is made is not among the directories that are always there, so it is on the way.
          have differs : place ≠ spell here [first] := by
            rintro rfl
            rcases isBase_or_prefix_spell onLater with base | onWay
            · exact absurd base (by simp [outside])
            · exact apart onWay
          rw [kept, node?_insert outside, if_neg differs]

/-- What is there is in a directory. -/
def Formed (t : FileTree) : Prop :=
  ∀ place, (t.node? place).isSome → t.isDirectory place.dropLast = true

/-- Nothing is where the path leads to, whether there is a directory or not. -/
def Bare (t : FileTree) (path : String) : Prop :=
  ∀ here, t.place? path = some here → ∀ name, t.node? (here ++ [name]) = none

namespace Formed

theorem empty : Formed empty := by
  intro place present
  have base : FileTree.empty.isBase place = true := by
    by_contra outside
    rw [node?, if_neg outside] at present
    exact Bool.false_ne_true present
  refine isDirectory_of_isBase ?_
  rw [isBase, List.isPrefixOf_iff_prefix] at base ⊢
  exact (List.dropLast_prefix place).trans base

theorem isDirectory_dropLast (formed : t.Formed) (there : t.isDirectory place = true) :
    t.isDirectory place.dropLast = true := by
  refine formed place ?_
  rw [eq_directory_of_isDirectory there]
  rfl

/-- The directories around a directory are there. -/
theorem isDirectory_of_append (formed : t.Formed) (there : t.isDirectory (here ++ names) = true) :
    t.isDirectory here = true := by
  induction names using List.reverseRecOn with
  | nil => rwa [List.append_nil] at there
  | append_singleton names name ih =>
    have before := formed.isDirectory_dropLast there
    rw [← List.append_assoc, List.dropLast_concat] at before
    exact ih before

/-- A way that leads to a directory of the tree in some tree leads there in this one. -/
theorem foldlM_of_isDirectory (formed : t.Formed)
    (on : leadsOn t.working here (parts.filter fun part => part ≠ "" ∧ part ≠ ".") = true)
    (there :
      t.isDirectory (spell here (parts.filter fun part => part ≠ "" ∧ part ≠ ".")) = true)
    (leads : parts.foldlM point.step? here = some place) :
    parts.foldlM t.step? here = some place := by
  induction parts generalizing here with
  | nil => exact leads
  | cons part parts ih =>
    rw [List.foldlM_cons] at leads ⊢
    obtain ⟨next, step, rest⟩ := Option.bind_eq_some_iff.mp leads
    have here_there : t.isDirectory here = true := by
      rcases isBase_or_prefix_spell on with base | ⟨rest, shape⟩
      · exact isDirectory_of_isBase base
      · exact formed.isDirectory_of_append (by rwa [shape])
    have same : t.step? here part = some next := by
      rw [← step]
      exact step?_congr (isDirectory_of_step? step) here_there part
    refine Option.bind_eq_some_iff.mpr ⟨next, same, ?_⟩
    by_cases named : part ≠ "" ∧ part ≠ "."
    · rw [List.filter_cons_of_pos (by simpa using named)] at on there
      obtain rfl := eq_of_step? named step
      exact ih (leadsOn_cons_iff.mp on).2 there rest
    · rw [List.filter_cons_of_neg (by simpa using named)] at on there
      rw [eq_of_step?_idle (by simpa [or_iff_not_imp_left] using named) step] at rest ⊢
      exact ih on there rest

/-- Where there is no directory, nothing is in it. -/
theorem bare_of_nowhere (formed : t.Formed)
    (nowhere : ∀ here, t.place? path = some here → t.isDirectory here = false) : t.Bare path := by
  intro here leads name
  by_contra present
  have there := formed _ (Option.isSome_iff_ne_none.mpr present)
  rw [List.dropLast_concat, nowhere here leads] at there
  exact absurd there (by simp)

theorem bare_of_missing (formed : t.Formed) (missing : t.pathExists path = false) :
    t.Bare path := by
  refine formed.bare_of_nowhere fun here leads => ?_
  rw [pathExists, follow?, leads, Option.bind_some, Option.isSome_eq_false_iff,
    Option.isNone_iff_eq_none] at missing
  rw [isDirectory, missing]

/-- A directory that was not there before is empty as long as directories are made. -/
theorem bare_of_new (formed : t.Formed) (direct : t.isDirect path = true)
    (missing : t.pathExists path = false) (passed : point ∈ t.creationPoints path) :
    point.Bare path := by
  obtain ⟨accepted, front, starts, rfl⟩ := mem_creationPoints_iff.mp passed
  intro here leads name
  obtain ⟨-, arrives⟩ := place?_eq_some_iff.mp leads
  rw [start_enterAll] at arrives
  have spelled : here = spell (t.start path) (Path.names path) := eq_of_foldlM arrives
  -- What is found there now was there before, and then the path would have led there.
  have absent : t.node? (here ++ [name]) = none := by
    by_contra present
    have there := formed _ (Option.isSome_iff_ne_none.mpr present)
    rw [List.dropLast_concat] at there
    have again := formed.foldlM_of_isDirectory direct (by rwa [spelled] at there) arrives
    have found : t.pathExists path = true := by
      rw [pathExists, follow?, place?_eq_some_iff.mpr ⟨accepted, again⟩, Option.bind_some,
        eq_directory_of_isDirectory there]
      rfl
    exact absurd found (by simp [missing])
  have named : ∀ part ∈ Path.names path, part ≠ "" ∧ part ≠ "." := by
    intro part listed
    simpa using (List.mem_filter.mp listed).2
  have apart : ¬ here ++ [name] <+: spell (t.start path) (Path.names path) := by
    intro within
    have length := within.length_le
    rw [← spelled, List.length_append, List.length_singleton] at length
    omega
  rw [node?_enterAll named direct apart (starts.trans (entered_starts_names path)), absent]

end Formed

namespace Formed

theorem insert (formed : t.Formed) {node : FileNode} (inside : t.isDirectory place.dropLast = true)
    (free : t.isDirectory place = false) : (t.insert place node).Formed := by
  intro other present
  rw [node?_insert (isBase_of_not_isDirectory free)] at present
  split at present
  · rename_i same
    rw [same]
    exact isDirectory_insert free inside
  · exact isDirectory_insert free (formed other present)

theorem erase (formed : t.Formed) {content : ByteArray}
    (file : t.node? place = some (.file content)) : (t.erase place).Formed := by
  have free : t.isDirectory place = false := by rw [isDirectory, file]
  intro other present
  rw [node?_erase (isBase_of_not_isDirectory free)] at present
  split at present
  · exact absurd present (by simp)
  · rw [isDirectory_erase_file file]
    exact formed other present

/-- A step from a directory leads into a directory. -/
theorem step? (formed : t.Formed) (step : t.step? here name = some next) :
    t.isDirectory next.dropLast = true := by
  have there := isDirectory_of_step? step
  have before := formed.isDirectory_dropLast there
  simp only [FileTree.step?, there, Bool.not_true, Bool.false_eq_true, if_false] at step
  split at step
  · rwa [← Option.some.inj step]
  · split at step
    · rw [← Option.some.inj step]
      exact formed.isDirectory_dropLast before
    · split at step
      · rwa [← Option.some.inj step, List.dropLast_concat]
      · exact absurd step (by simp)

theorem place? (formed : t.Formed) (leads : t.place? path = some place) :
    t.isDirectory place.dropLast = true := by
  obtain ⟨-, arrives⟩ := place?_eq_some_iff.mp leads
  rcases List.eq_nil_or_concat (Path.parts path) with empty | ⟨front, last, parted⟩
  · rw [empty] at arrives
    rw [← Option.some.inj arrives]
    exact formed.isDirectory_dropLast (isDirectory_of_isBase (isBase_start t path))
  · rw [parted, List.concat_eq_append, foldlM_append_singleton] at arrives
    obtain ⟨before, -, step⟩ := Option.bind_eq_some_iff.mp arrives
    exact formed.step? step

theorem enterAll (formed : t.Formed) (names : List String) : (t.enterAll here names).2.Formed :=
  enterAll_induction formed
    (fun formed step free => formed.insert (formed.step? step) (by rw [isDirectory, free])) here names

theorem of_mem_creationPoints (formed : t.Formed) (passed : point ∈ t.creationPoints path) :
    point.Formed := by
  obtain ⟨-, front, -, rfl⟩ := mem_creationPoints_iff.mp passed
  exact formed.enterAll front

theorem createDirectories (formed : t.Formed) (path : String) :
    (t.createDirectories path).2.Formed := by
  rcases createDirectories_eq_or_mem t path with same | passed
  · rwa [same]
  · exact formed.of_mem_creationPoints passed

theorem write? (formed : t.Formed) {content : ByteArray} {changed : FileTree}
    (written : t.write? path content = some changed) : changed.Formed := by
  obtain ⟨place, found, rfl⟩ := Option.map_eq_some_iff.mp written
  obtain ⟨leads, free⟩ := Option.filter_eq_some_iff.mp found
  exact formed.insert (formed.place? leads) (by simpa using free)

theorem rename? (formed : t.Formed) {target : String} {changed : FileTree}
    (renamed : t.rename? path target = some changed) : changed.Formed := by
  obtain ⟨start, leads, moved⟩ := Option.bind_eq_some_iff.mp renamed
  cases node : t.node? start with
  | none => simp [node] at moved
  | some found =>
    cases found with
    | directory => simp [node] at moved
    | file content =>
      simp only [node] at moved
      exact (formed.erase node).write? moved

end Formed

end ExtensionAudit.FileTree

import ExtensionAudit.Files.Tree
import Mathlib.Data.List.Basic

namespace ExtensionAudit

namespace Path

/-- A name that can be given to a file in any directory. -/
structure IsName (name : String) : Prop where
  noSlash : '/' ∉ name.toList
  noZero : '\x00' ∉ name.toList
  filled : name ≠ ""
  notHere : name ≠ "."
  notUp : name ≠ ".."
  short : size name ≤ longestName

/-- Behind a directory stands the name, and before it the parts of the directory; an empty part at
the end of these may be missing. -/
theorem exists_parts_inside (directory : String) {name : String} (plain : '/' ∉ name.toList) :
    ∃ before, parts (inside directory name) = before ++ [name] ∧
      (parts directory = before ∨ parts directory = before ++ [""]) := by
  rcases List.eq_nil_or_concat directory.toList with empty | ⟨cs, last, chars⟩
  · have parted : parts directory = [""] := by rw [parts, empty]; rfl
    refine ⟨[], ?_, Or.inr parted⟩
    have opens : endsOpen directory = true := by simp [endsOpen, empty]
    have shape : (directory ++ name).toList = name.toList := by simp [empty]
    rw [inside, if_pos opens, parts, shape, Text.split_of_not_mem plain]
    simp
  · rw [List.concat_eq_append] at chars
    by_cases slash : last = '/'
    · subst slash
      have parted : parts directory = (Text.split '/' cs).map String.ofList ++ [""] := by
        rw [parts, chars, Text.split_append, Text.split_nil, List.map_append]
        rfl
      refine ⟨_, ?_, Or.inr parted⟩
      have opens : endsOpen directory = true := by simp [endsOpen, chars]
      have shape : (directory ++ name).toList = cs ++ '/' :: name.toList := by simp [chars]
      rw [inside, if_pos opens, parts, shape, Text.split_append, Text.split_of_not_mem plain]
      simp
    · have closed : endsOpen directory = false := by simp [endsOpen, chars, slash]
      refine ⟨parts directory, ?_, Or.inl rfl⟩
      rw [inside, if_neg (by simp [closed]), parts_append plain]

theorem toList_inside (directory name : String) :
    ∃ between, (inside directory name).toList = directory.toList ++ between ++ name.toList ∧
      (between = [] ∨ between = ['/']) := by
  unfold inside
  split
  · exact ⟨[], by simp, Or.inl rfl⟩
  · exact ⟨['/'], by simp, Or.inr rfl⟩

theorem size_append (s t : String) : size (s ++ t) = size s + size t := by
  simp [size]

theorem size_inside_le (directory name : String) :
    size (inside directory name) ≤ size directory + 1 + size name := by
  have one : size "/" = 1 := by decide
  unfold inside
  split
  · rw [size_append]
    omega
  · have total : size (directory ++ "/" ++ name) = size directory + 1 + size name := by
      rw [size_append, size_append, one]
    exact Nat.le_of_eq total

theorem ne_empty_of_isAccepted {path : String} (accepted : isAccepted path = true) : path ≠ "" := by
  rintro rfl
  exact absurd accepted (by decide)

/-- The path of a name is accepted where that of the directory is, unless it gets too long. -/
theorem isAccepted_inside {directory name : String} (accepted : isAccepted directory = true)
    (noZero : '\x00' ∉ name.toList) (fits : size (inside directory name) ≤ longestPath) :
    isAccepted (inside directory name) = true := by
  simp only [isAccepted, Bool.and_eq_true, decide_eq_true_eq, Bool.not_eq_true',
    List.contains_eq_mem, decide_eq_false_iff_not] at accepted ⊢
  obtain ⟨⟨filled, -⟩, clean⟩ := accepted
  obtain ⟨between, shape, joint⟩ := toList_inside directory name
  refine ⟨⟨?_, fits⟩, ?_⟩
  · intro empty
    rw [empty] at shape
    have nothing : directory.toList = [] := by simp_all
    exact filled (String.toList_eq_nil_iff.mp nothing)
  · rw [shape]
    rcases joint with rfl | rfl <;> simp [clean, noZero]

/-- A path that is accepted with a name behind it is accepted without it. -/
theorem isAccepted_of_inside {directory name : String} (filled : directory ≠ "")
    (accepted : isAccepted (inside directory name) = true) : isAccepted directory = true := by
  simp only [isAccepted, Bool.and_eq_true, decide_eq_true_eq, Bool.not_eq_true',
    List.contains_eq_mem, decide_eq_false_iff_not] at accepted ⊢
  obtain ⟨⟨-, fits⟩, clean⟩ := accepted
  obtain ⟨between, shape, -⟩ := toList_inside directory name
  refine ⟨⟨filled, ?_⟩, fun zero => clean ?_⟩
  · rw [size, shape, List.append_assoc, List.map_append, List.sum_append] at fits
    exact Nat.le_trans (Nat.le_add_right _ _) fits
  · rw [shape, List.append_assoc]
    exact List.mem_append_left _ zero

/-- A name makes no path absolute. -/
theorem isAbsolute_inside (directory : String) {name : String} (plain : '/' ∉ name.toList) :
    isAbsolute (inside directory name) = isAbsolute directory := by
  rw [isAbsolute, isAbsolute]
  cases chars : directory.toList with
  | nil =>
    have opens : endsOpen directory = true := by simp [endsOpen, chars]
    rw [inside, if_pos opens, String.toList_append, chars, List.nil_append]
    cases begins : name.toList with
    | nil => rfl
    | cons c cs =>
      rw [begins, List.mem_cons, not_or] at plain
      simpa using Ne.symm plain.1
  | cons c cs =>
    obtain ⟨between, shape, -⟩ := toList_inside directory name
    rw [shape, chars]
    rfl

end Path

namespace FileTree

open ExtensionAudit.Path (IsName)

variable {t : FileTree} {directory name : String} {here place : List String}

theorem isDirectory_of_step? {next : List String} (step : t.step? here name = some next) :
    t.isDirectory here = true := by
  cases free : t.isDirectory here with
  | true => rfl
  | false => simp [step?, free] at step

/-- From a directory of two trees a step leads to one place. -/
theorem step?_congr {changed : FileTree} (there : t.isDirectory here = true)
    (still : changed.isDirectory here = true) (name : String) :
    changed.step? here name = t.step? here name := by
  rw [step?, still, step?, there]

theorem eq_directory_of_isDirectory (there : t.isDirectory place = true) :
    t.node? place = some .directory := by
  unfold isDirectory at there
  split at there
  · assumption
  · exact nomatch there

theorem isDirectory_of_node? (node : t.node? place = some .directory) :
    t.isDirectory place = true := by
  rw [isDirectory, node]

theorem step?_isName (there : t.isDirectory here = true) (plain : IsName name) :
    t.step? here name = some (here ++ [name]) := by
  simp [step?, there, plain.filled, plain.notHere, plain.notUp, plain.short]

/-- An empty part or a point leads on nowhere. -/
theorem eq_of_step?_idle {next : List String} (idle : name = "" ∨ name = ".")
    (step : t.step? here name = some next) : next = here := by
  have there := isDirectory_of_step? step
  rcases idle with rfl | rfl <;> simp_all [step?]

/-- A path that can be asked for leads where its parts lead. -/
theorem place?_eq_some_iff {path : String} :
    t.place? path = some place ↔ Path.isAccepted path = true ∧
      (Path.parts path).foldlM t.step? (t.start path) = some place := by
  rw [place?, Option.ite_none_right_eq_some]

example : FileTree.empty.place? "/tmp/../srv" = some ["srv"] := by decide

/-- A path begins at a directory. -/
theorem isBase_start (t : FileTree) (path : String) : t.isBase (t.start path) = true := by
  rw [isBase, start, List.isPrefixOf_iff_prefix]
  split
  · exact List.nil_prefix
  · exact List.prefix_refl _

/-- The path of a name begins where that of the directory does. -/
theorem start_inside (directory : String) (plain : IsName name) :
    t.start (Path.inside directory name) = t.start directory := by
  rw [start, Path.isAbsolute_inside directory plain.noSlash, start]

theorem foldlM_append_singleton (steps : List String) (last : String) :
    (steps ++ [last]).foldlM t.step? here = (steps.foldlM t.step? here).bind (t.step? · last) := by
  simp only [List.foldlM_append, List.foldlM_cons, List.foldlM_nil, bind_pure]
  rfl

/-- A path of a name leads, if anywhere, to the place of the name in the directory that the path
before it leads to. -/
theorem exists_of_place?_inside (plain : IsName name)
    (found : t.place? (Path.inside directory name) = some place) :
    ∃ here, place = here ++ [name] ∧ t.isDirectory here = true ∧
      (Path.parts directory).foldlM t.step? (t.start directory) = some here := by
  obtain ⟨before, parts, origin⟩ := Path.exists_parts_inside directory plain.noSlash
  obtain ⟨-, found⟩ := place?_eq_some_iff.mp found
  rw [parts, foldlM_append_singleton, start_inside directory plain] at found
  obtain ⟨here, leads, step⟩ := Option.bind_eq_some_iff.mp found
  have there := isDirectory_of_step? step
  rw [step?_isName there plain] at step
  refine ⟨here, (Option.some.inj step).symm, there, ?_⟩
  rcases origin with same | more
  · rw [same, leads]
  · rw [more, foldlM_append_singleton, leads]
    simp [step?, there]

/-- In a directory each name has its place. -/
theorem place?_inside (leads : t.place? directory = some place)
    (there : t.isDirectory place = true) (plain : IsName name)
    (fits : Path.size (Path.inside directory name) ≤ Path.longestPath) :
    t.place? (Path.inside directory name) = some (place ++ [name]) := by
  obtain ⟨before, parts, origin⟩ := Path.exists_parts_inside directory plain.noSlash
  obtain ⟨accepted, leads⟩ := place?_eq_some_iff.mp leads
  have arrives : before.foldlM t.step? (t.start directory) = some place := by
    rcases origin with same | more
    · rw [← same, leads]
    · rw [more, foldlM_append_singleton] at leads
      obtain ⟨last, arrives, step⟩ := Option.bind_eq_some_iff.mp leads
      rw [eq_of_step?_idle (Or.inl rfl) step, arrives]
  refine place?_eq_some_iff.mpr ⟨Path.isAccepted_inside accepted plain.noZero fits, ?_⟩
  rw [parts, start_inside directory plain, foldlM_append_singleton, arrives, Option.bind_some,
    step?_isName there plain]

/-- In a directory that is not there nothing is found. -/
theorem follow?_inside_of_missing (missing : t.pathExists directory = false)
    (usable : Path.isAccepted directory = true) (plain : IsName name) :
    t.follow? (Path.inside directory name) = none := by
  cases found : t.place? (Path.inside directory name) with
  | none => rw [follow?, found, Option.bind_none]
  | some place =>
    obtain ⟨here, -, there, leads⟩ := exists_of_place?_inside plain found
    have arrives := place?_eq_some_iff.mpr ⟨usable, leads⟩
    simp [pathExists, follow?, arrives, eq_directory_of_isDirectory there] at missing

/-- Only the names in a path lead on. -/
theorem foldlM_names {parts : List String} (leads : parts.foldlM t.step? here = some place) :
    (parts.filter fun part => part ≠ "" ∧ part ≠ ".").foldlM t.step? here = some place := by
  induction parts generalizing here with
  | nil => exact leads
  | cons part parts ih =>
    rw [List.foldlM_cons] at leads
    obtain ⟨next, step, rest⟩ := Option.bind_eq_some_iff.mp leads
    by_cases idle : part = "" ∨ part = "."
    · rw [List.filter_cons_of_neg (by simpa [or_iff_not_imp_left] using idle)]
      rw [eq_of_step?_idle idle step] at rest
      exact ih rest
    · rw [List.filter_cons_of_pos (by simpa [not_or] using idle), List.foldlM_cons]
      exact Option.bind_eq_some_iff.mpr ⟨next, step, ih rest⟩

/-- A way to a directory begins at one. -/
theorem isDirectory_of_foldlM {steps : List String} (leads : steps.foldlM t.step? here = some place)
    (there : t.isDirectory place = true) : t.isDirectory here = true := by
  cases steps with
  | nil => rwa [Option.some.inj leads]
  | cons name names =>
    rw [List.foldlM_cons] at leads
    obtain ⟨next, step, -⟩ := Option.bind_eq_some_iff.mp leads
    exact isDirectory_of_step? step

/-- Where all directories of a way are there, entering them makes none. -/
theorem enterAll_of_leads {names : List String} (leads : names.foldlM t.step? here = some place)
    (there : t.isDirectory place = true) : t.enterAll here names = (true, t) := by
  induction names generalizing here with
  | nil => rfl
  | cons name names ih =>
    rw [List.foldlM_cons] at leads
    obtain ⟨next, step, rest⟩ := Option.bind_eq_some_iff.mp leads
    have node := eq_directory_of_isDirectory (isDirectory_of_foldlM rest there)
    have entered : t.enter? here name = some (t, next) := by
      simp [enter?, step, node]
    rw [enterAll, entered]
    exact ih rest

/-- To make a directory that is there changes nothing. -/
theorem createDirectories_of_leads (leads : t.place? directory = some place)
    (there : t.isDirectory place = true) : t.createDirectories directory = (true, t) := by
  obtain ⟨accepted, arrives⟩ := place?_eq_some_iff.mp leads
  have named := foldlM_names arrives
  rw [createDirectories, if_neg (Path.ne_empty_of_isAccepted accepted), if_neg (by simp [accepted])]
  split
  · -- Without its last name the way is entered as well, and the whole path leads to a directory.
    have shorter :
        t.enterAll (t.start directory) (Path.names directory).dropLast = (true, t) := by
      rcases List.eq_nil_or_concat (Path.names directory) with empty | ⟨names, last, parted⟩
      · rw [empty]
        rfl
      · rw [List.concat_eq_append] at parted
        rw [← Path.names, parted, foldlM_append_singleton] at named
        obtain ⟨before, earlier, step⟩ := Option.bind_eq_some_iff.mp named
        rw [parted, List.dropLast_concat]
        exact enterAll_of_leads earlier (isDirectory_of_step? step)
    simp [shorter, leads, there]
  · exact enterAll_of_leads named there

theorem isBase_of_absent (absent : t.node? place = none) : t.isBase place = false := by
  refine isBase_of_not_isDirectory ?_
  rw [isDirectory, absent]

/-- To enter a name changes nothing, or makes a directory where nothing was. -/
theorem enter?_eq_some {changed : FileTree} {next : List String}
    (entered : t.enter? here name = some (changed, next)) :
    t.step? here name = some next ∧
      (changed = t ∧ t.isDirectory next = true ∨
        t.node? next = none ∧ changed = t.insert next .directory) := by
  obtain ⟨stepped, step, made⟩ := Option.bind_eq_some_iff.mp entered
  cases node : t.node? stepped with
  | none =>
    obtain ⟨rfl, rfl⟩ := Prod.mk.inj (Option.some.inj (by simpa [node] using made))
    exact ⟨step, Or.inr ⟨node, rfl⟩⟩
  | some present =>
    cases present with
    | directory =>
      obtain ⟨rfl, rfl⟩ := Prod.mk.inj (Option.some.inj (by simpa [node] using made))
      exact ⟨step, Or.inl ⟨rfl, isDirectory_of_node? node⟩⟩
    | file => simp [node] at made

/-- What is kept when a missing directory is made is kept when names are entered. -/
theorem enterAll_induction {motive : FileTree → Prop} (start : motive t)
    (make : ∀ {t : FileTree} {here next : List String} {name : String}, motive t →
      t.step? here name = some next → t.node? next = none → motive (t.insert next .directory))
    (here names : List String) : motive (t.enterAll here names).2 := by
  induction names generalizing t here with
  | nil => exact start
  | cons name names ih =>
    rw [enterAll]
    cases entered : t.enter? here name with
    | none => exact start
    | some found =>
      obtain ⟨changed, next⟩ := found
      obtain ⟨step, ⟨rfl, -⟩ | ⟨free, rfl⟩⟩ := enter?_eq_some entered
      · exact ih start next
      · exact ih (make start step free) next

theorem node?_file_enterAll (names : List String) (content : ByteArray) :
    (t.enterAll here names).2.node? place = some (.file content) ↔
      t.node? place = some (.file content) := by
  refine enterAll_induction (motive := fun changed =>
    changed.node? place = some (.file content) ↔ t.node? place = some (.file content)) Iff.rfl
    (fun same _ free => ?_) here names
  rw [node?_insert (isBase_of_absent free), ← same]
  split
  · rename_i atNext
    rw [atNext, free]
    simp
  · rfl

/-- Making directories touches no file. -/
theorem node?_file_createDirectories (t : FileTree) (directory : String) (place : List String)
    (content : ByteArray) :
    (t.createDirectories directory).2.node? place = some (.file content) ↔
      t.node? place = some (.file content) := by
  unfold createDirectories
  split
  · rfl
  · split
    · rfl
    · split
      · exact node?_file_enterAll _ content
      · exact node?_file_enterAll _ content

/-- The tree with a file at its place, after it was written at the place of a draft and moved. -/
def settle (t : FileTree) (draft place : List String) (content : ByteArray) : FileTree :=
  ((t.insert draft (.file content)).erase draft).insert place (.file content)

section Settle

variable {draft : List String} {content : ByteArray}

/-- To write a draft and to rename it is to settle the file, if both places can hold files. -/
theorem write?_rename? {draftPath path : String} (atDraft : t.filePlace? draftPath = some draft)
    (atPath : t.filePlace? path = some place) (content : ByteArray) :
    ∃ drafted, t.write? draftPath content = some drafted ∧
      drafted.rename? draftPath path = some (t.settle draft place content) := by
  obtain ⟨leadsHere, free⟩ := Option.filter_eq_some_iff.mp atDraft
  obtain ⟨leadsThere, freeThere⟩ := Option.filter_eq_some_iff.mp atPath
  have free : t.isDirectory draft = false := by simpa using free
  have inside := isBase_of_not_isDirectory free
  have kept := isDirectory_insert_file free content
  have file : (t.insert draft (.file content)).node? draft = some (.file content) := by
    rw [node?_insert inside, if_pos rfl]
  have stays : ((t.insert draft (.file content)).erase draft).filePlace? path = some place := by
    rw [filePlace?, place?_congr (isDirectory_erase_file file) rfl, place?_congr kept rfl,
      leadsThere, Option.filter_some, isDirectory_erase_file file, kept, if_pos freeThere]
  have written : t.write? draftPath content = some (t.insert draft (.file content)) := by
    rw [write?, atDraft, Option.map_some]
  refine ⟨_, written, ?_⟩
  rw [rename?, place?_congr kept rfl, leadsHere]
  simp only [Option.bind_eq_bind, Option.bind_some, file, write?, stays, Option.map_some, settle]

theorem isDirectory_settle (freeDraft : t.isDirectory draft = false)
    (free : t.isDirectory place = false) (other : List String) :
    (t.settle draft place content).isDirectory other = t.isDirectory other := by
  have file : (t.insert draft (.file content)).node? draft = some (.file content) := by
    rw [node?_insert (isBase_of_not_isDirectory freeDraft), if_pos rfl]
  have erased := isDirectory_erase_file file
  have put := isDirectory_insert_file freeDraft content
  rw [settle, isDirectory_insert_file (by rw [erased, put, free]), erased, put]

/-- A settled file is at its place, the draft is gone, and nothing else has changed. -/
theorem node?_settle (freeDraft : t.isDirectory draft = false)
    (free : t.isDirectory place = false) (other : List String) :
    (t.settle draft place content).node? other =
      if other = place then some (.file content)
      else if other = draft then none else t.node? other := by
  have draftInside : t.isBase draft = false := isBase_of_not_isDirectory freeDraft
  have erasedInside : (t.insert draft (.file content)).isBase draft = false := draftInside
  have placeInside : ((t.insert draft (.file content)).erase draft).isBase place = false :=
    isBase_of_not_isDirectory (t := t) free
  rw [settle, node?_insert placeInside, node?_erase erasedInside, node?_insert draftInside]
  by_cases atDraft : other = draft
  · simp [atDraft]
  · simp [atDraft]

theorem place?_settle (freeDraft : t.isDirectory draft = false)
    (free : t.isDirectory place = false) (path : String) :
    (t.settle draft place content).place? path = t.place? path :=
  place?_congr (isDirectory_settle freeDraft free) rfl path

end Settle

/-- The names of those files that are directly in a place. -/
def namesIn (place : List String) (files : List (List String × ByteArray)) : List String :=
  files.filterMap fun (names, _) => if names.dropLast = place then names.getLast? else none

theorem fileNames_of_leads (leads : t.place? directory = some place) :
    t.fileNames directory = namesIn place t.files := by
  rw [fileNames, leads]
  rfl

/-- A name in the list of a directory is that of a node. -/
theorem isSome_node?_of_mem_namesIn (mem : name ∈ namesIn place t.files) :
    (t.node? (place ++ [name])).isSome := by
  obtain ⟨⟨names, content⟩, file, named⟩ := List.mem_filterMap.mp mem
  obtain ⟨inPlace, last⟩ : names.dropLast = place ∧ names.getLast? = some name := by
    simpa using named
  obtain ⟨front, rfl⟩ := List.getLast?_eq_some_iff.mp last
  rw [List.dropLast_concat] at inPlace
  subst inPlace
  obtain ⟨⟨_, node⟩, entry, shape⟩ := List.mem_filterMap.mp file
  cases node with
  | directory => exact nomatch shape
  | file =>
    obtain ⟨rfl, -⟩ := Prod.mk.inj (Option.some.inj shape)
    unfold node?
    split
    · rfl
    · exact List.lookup_isSome_iff.mpr ⟨_, entry, beq_self_eq_true _⟩

theorem namesIn_cons (content : ByteArray) (files : List (List String × ByteArray)) :
    namesIn place ((place ++ [name], content) :: files) = name :: namesIn place files := by
  simp [namesIn]

theorem namesIn_filter (files : List (List String × ByteArray)) :
    namesIn place (files.filter (·.1 ≠ place ++ [name])) =
      (namesIn place files).filter (· ≠ name) := by
  induction files with
  | nil => rfl
  | cons file files ih =>
    obtain ⟨names, content⟩ := file
    rcases List.eq_nil_or_concat names with rfl | ⟨front, last, rfl⟩
    · rw [List.filter_cons_of_pos (by simp)]
      simpa [namesIn] using ih
    · rw [List.concat_eq_append]
      by_cases inPlace : front = place
      · subst inPlace
        by_cases same : last = name
        · subst same
          rw [List.filter_cons_of_neg (by simp), ih, namesIn_cons,
            List.filter_cons_of_neg (by simp)]
        · rw [List.filter_cons_of_pos (by simp [same]), namesIn_cons, namesIn_cons, ih,
            List.filter_cons_of_pos (by simp [same])]
      · rw [List.filter_cons_of_pos (by simp [inPlace])]
        simpa [namesIn, inPlace] using ih

theorem files_erase (place : List String) :
    (t.erase place).files = t.files.filter (·.1 ≠ place) := by
  rw [files, files, erase]
  induction t.entries with
  | nil => rfl
  | cons entry entries ih =>
    obtain ⟨names, node⟩ := entry
    by_cases same : names = place
    · rw [List.filter_cons_of_neg (by simp [same]), ih]
      cases node with
      | directory => simp
      | file content => simp [same]
    · rw [List.filter_cons_of_pos (by simp [same])]
      cases node with
      | directory => simpa using ih
      | file content => simpa [same] using ih

theorem files_insert (place : List String) (content : ByteArray) :
    (t.insert place (.file content)).files = (place, content) :: t.files.filter (·.1 ≠ place) := by
  rw [← files_erase]
  rfl

/-- Among the names in a directory, the draft of a settled file comes and goes, and the name of the
file is there once. -/
theorem namesIn_settle (here : List String) (draft name : String) (content : ByteArray) :
    namesIn here (t.settle (here ++ [draft]) (here ++ [name]) content).files =
      name :: ((namesIn here t.files).filter (· ≠ draft)).filter (· ≠ name) := by
  rw [settle, files_insert, namesIn_cons, namesIn_filter, files_erase, namesIn_filter, files_insert,
    namesIn_cons, namesIn_filter, List.filter_cons_of_neg (by simp), List.filter_filter]
  simp

end FileTree

end ExtensionAudit

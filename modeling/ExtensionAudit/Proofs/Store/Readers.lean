import ExtensionAudit.Proofs.Files.Watched
import ExtensionAudit.Proofs.Store.History

namespace ExtensionAudit

open FileTree (creationPoints)

namespace RecordStore

variable {store : RecordStore} {t other point : FileTree} {id : ExtensionId}
  {directory name : String} {place : List String}

/-- Readers get the same answers in both trees. -/
structure LooksAlike (store : RecordStore) (t other : FileTree) : Prop where
  get : ∀ id, answer (store.get id).run other = answer (store.get id).run t
  all : answer store.all other = answer store.all t

theorem LooksAlike.refl (store : RecordStore) (t : FileTree) : store.LooksAlike t t :=
  ⟨fun _ => rfl, rfl⟩

theorem LooksAlike.trans (alike : store.LooksAlike t point)
    (further : store.LooksAlike point other) : store.LooksAlike t other :=
  ⟨fun id => (further.get id).trans (alike.get id), further.all.trans alike.all⟩

theorem inspects_get (store : RecordStore) (id : ExtensionId) :
    Inspects [store.path id]
      (store.get id : ExceptT AuditError (StateM FileTree) (Option Record)).run := by
  refine Inspects.bind_run (Inspects.lift_run (Inspects.pathExists (List.mem_singleton_self _)))
    fun found => ?_
  cases found with
  | false => exact Inspects.pure_run none
  | true => exact (inspects_readRecord _).bind_run fun record => Inspects.pure_run (some record)

/-- The answer for an id comes from what its path leads to. -/
theorem answer_get_congr (same : other.follow? (store.path id) = t.follow? (store.path id)) :
    answer (store.get id).run other = answer (store.get id).run t := by
  obtain ⟨given, yields⟩ := inspects_get store id t
  have here := yields t fun _ _ => rfl
  have there := yields other fun path listed => by rwa [List.mem_singleton.mp listed]
  exact there.answer_eq.trans here.answer_eq.symm

/-- The names of the records in the directory, in order. -/
def recordNames (store : RecordStore) (t : FileTree) : List String :=
  ((t.fileNames store.directory).filter isRecordName).mergeSort fun a b => a ≤ b

theorem answer_all (store : RecordStore) (t : FileTree) : answer store.all t =
    if t.pathExists store.directory then
      (store.recordNames t).filterMap fun name => recordAt? t (Path.inside store.directory name)
    else [] := by
  split
  · rename_i there
    exact (yields_all there).answer_eq
  · rename_i missing
    exact (yields_all_of_missing (Bool.eq_false_iff.mpr missing)).answer_eq

/-- A path of a record leads to a place whose name ends like that of a record. -/
theorem exists_last_of_isRecordName (isRecord : isRecordName name = true)
    (leads : t.place? (Path.inside directory name) = some place) :
    ∃ front last, place = front ++ [last] ∧ fileExtension.toList <:+ last.toList := by
  obtain ⟨-, arrives⟩ := FileTree.place?_eq_some_iff.mp leads
  simp only [isRecordName, Path.hasExtension, Bool.and_eq_true] at isRecord
  obtain ⟨stem, shape⟩ := List.isSuffixOf_iff_suffix.mp isRecord.1
  obtain ⟨between, path, -⟩ := Path.toList_inside directory name
  have plain : '/' ∉ fileExtension.toList := by decide
  obtain ⟨front, last, -, parted⟩ :=
    Text.split_append_of_not_mem plain (directory.toList ++ between ++ stem)
  rw [List.append_assoc _ stem, shape, ← path] at parted
  rw [Path.parts, parted, List.map_append, List.map_cons, List.map_nil,
    FileTree.foldlM_append_singleton] at arrives
  obtain ⟨here, -, step⟩ := Option.bind_eq_some_iff.mp arrives
  have ends : fileExtension.toList <:+ (String.ofList (last ++ fileExtension.toList)).toList := by
    rw [String.toList_ofList]
    exact List.suffix_append _ _
  have differs (part : String) (plain : ¬ fileExtension.toList <:+ part.toList) :
      String.ofList (last ++ fileExtension.toList) ≠ part := by
    rintro rfl
    exact plain ends
  have spelled := FileTree.eq_of_step? ⟨differs "" (by decide), differs "." (by decide)⟩ step
  rw [FileTree.spell_singleton (differs ".." (by decide))] at spelled
  exact ⟨here, _, spelled, ends⟩

/-- A file that is no record is not among the names of records. -/
theorem filter_fileNames_put (leads : t.place? directory = some place)
    (free : t.isDirectory (place ++ [name]) = false) (noRecord : isRecordName name = false)
    (content : ByteArray) :
    ((t.insert (place ++ [name]) (.file content)).fileNames directory).filter isRecordName =
      (t.fileNames directory).filter isRecordName := by
  have leadsStill :
      (t.insert (place ++ [name]) (.file content)).place? directory = some place := by
    rw [FileTree.place?_congr (FileTree.isDirectory_insert_file free content) rfl, leads]
  rw [FileTree.fileNames_of_leads leadsStill, FileTree.fileNames_of_leads leads,
    FileTree.files_insert, FileTree.namesIn_cons, FileTree.namesIn_filter,
    List.filter_cons_of_neg (by simp [noRecord]), List.filter_filter]
  refine List.filter_congr fun other _ => ?_
  by_cases same : other = name
  · simp [same, noRecord]
  · simp [same]

/-- Under the path of a record lies what lay there without the draft. -/
theorem follow?_put_draft (leads : t.place? (store.draftPath id) = some place)
    (free : t.isDirectory place = false) (content : ByteArray)
    (isRecord : isRecordName name = true) :
    (t.insert place (.file content)).follow? (Path.inside store.directory name) =
      t.follow? (Path.inside store.directory name) := by
  rw [draftPath_eq_inside] at leads
  obtain ⟨here, rfl, -, -⟩ := FileTree.exists_of_place?_inside (isName_draftName id) leads
  rw [FileTree.follow?, FileTree.follow?,
    FileTree.place?_congr (FileTree.isDirectory_insert_file free content) rfl]
  cases found : t.place? (Path.inside store.directory name) with
  | none => rfl
  | some place =>
    obtain ⟨front, last, rfl, ends⟩ := exists_last_of_isRecordName isRecord found
    have differs : front ++ [last] ≠ here ++ [draftName id] := by
      intro same
      obtain ⟨-, rfl⟩ := List.append_singleton_inj.mp same
      exact not_suffix_draftName id ends
    rw [Option.bind_some, Option.bind_some,
      FileTree.node?_insert (FileTree.isBase_of_not_isDirectory free), if_neg differs]

/-- Readers do not see a draft, whatever it holds. -/
theorem looksAlike_put_draft (leads : t.place? (store.draftPath id) = some place)
    (free : t.isDirectory place = false) (content : ByteArray) :
    store.LooksAlike t (t.insert place (.file content)) := by
  have read : ∀ name, isRecordName name = true →
      recordAt? (t.insert place (.file content)) (Path.inside store.directory name) =
        recordAt? t (Path.inside store.directory name) := by
    intro name isRecord
    rw [recordAt?, recordAt?, FileTree.read?, FileTree.read?,
      follow?_put_draft leads free content isRecord]
  refine ⟨fun id => answer_get_congr
    (follow?_put_draft leads free content (isRecordName_fileName id)), ?_⟩
  rw [draftPath_eq_inside] at leads
  obtain ⟨here, rfl, -, arrives⟩ := FileTree.exists_of_place?_inside (isName_draftName id) leads
  rw [answer_all, answer_all, FileTree.pathExists, FileTree.pathExists, FileTree.follow?,
    FileTree.follow?, FileTree.place?_congr (FileTree.isDirectory_insert_file free content) rfl]
  cases found : t.place? store.directory with
  | none => rfl
  | some place =>
    obtain rfl := Option.some.inj ((FileTree.place?_eq_some_iff.mp found).2.symm.trans arrives)
    have differs : place ≠ place ++ [draftName id] := by simp
    rw [Option.bind_some, Option.bind_some,
      FileTree.node?_insert (FileTree.isBase_of_not_isDirectory free), if_neg differs, recordNames,
      recordNames, filter_fileNames_put found free (not_isRecordName_draftName id) content]
    split
    · refine List.filterMap_congr fun name listed => read name ?_
      exact (List.mem_filter.mp (List.mem_mergeSort.mp listed)).2
    · rfl

/-- The tree in which the directory of the store is made, and nothing else. -/
def prepared (store : RecordStore) (t : FileTree) : FileTree :=
  (t.createDirectories store.directory).2

/-- Where nothing is in the directory of the store, there is no record of any id. -/
theorem follow?_path_of_bare (bare : t.Bare store.directory)
    (accepted : Path.isAccepted store.directory = true) (id : ExtensionId) :
    t.follow? (store.path id) = none := by
  rw [path, FileTree.follow?]
  cases found : t.place? (Path.inside store.directory (fileName id)) with
  | none => rfl
  | some place =>
    obtain ⟨here, rfl, -, arrives⟩ := FileTree.exists_of_place?_inside (isName_fileName id) found
    exact bare here (FileTree.place?_eq_some_iff.mpr ⟨accepted, arrives⟩) _

/-- Where nothing is in the directory of the store, no record is listed. -/
theorem answer_all_of_bare (bare : t.Bare store.directory) : answer store.all t = [] := by
  rw [answer_all]
  split
  · rename_i there
    obtain ⟨node, followed⟩ := Option.isSome_iff_exists.mp there
    obtain ⟨here, leads, -⟩ := Option.bind_eq_some_iff.mp followed
    have noNames : t.fileNames store.directory = [] := by
      rw [FileTree.fileNames_of_leads leads, List.eq_nil_iff_forall_not_mem]
      intro name listed
      have some := FileTree.isSome_node?_of_mem_namesIn listed
      exact absurd some (by simp [bare here leads name])
    rw [recordNames, noNames, List.filter_nil, List.mergeSort_nil, List.filterMap_nil]
  · rfl

theorem looksAlike_of_bare (bare : t.Bare store.directory) (still : point.Bare store.directory)
    (accepted : Path.isAccepted store.directory = true) : store.LooksAlike t point := by
  refine ⟨fun id => answer_get_congr ?_, ?_⟩
  · rw [follow?_path_of_bare still accepted, follow?_path_of_bare bare accepted]
  · rw [answer_all_of_bare still, answer_all_of_bare bare]

section Passed

variable (formed : t.Formed) (passed : point ∈ t.creationPoints store.directory)

include formed passed

/-- While directories are made for the store, readers see no change until all of them are made. -/
theorem looksAlike_or_eq_prepared :
    store.LooksAlike t point ∨ point = store.prepared t := by
  cases present : t.pathExists store.directory with
  | true =>
    rw [FileTree.eq_of_mem_creationPoints present passed]
    exact Or.inl (LooksAlike.refl store t)
  | false =>
    by_cases arrived : ∃ here, point.place? store.directory = some here ∧
        point.isDirectory here = true
    · obtain ⟨here, leads, there⟩ := arrived
      exact Or.inr (FileTree.eq_createDirectories_of_arrived passed leads there)
    · left
      obtain ⟨accepted, -⟩ := FileTree.mem_creationPoints_iff.mp passed
      refine looksAlike_of_bare (formed.bare_of_missing present) ?_ accepted
      refine (formed.of_mem_creationPoints passed).bare_of_nowhere fun here leads => ?_
      exact Bool.eq_false_iff.mpr fun there => arrived ⟨here, leads, there⟩

/-- On a path that leads straight on readers see no change at all. -/
theorem looksAlike_of_mem_creationPoints
    (plain : t.pathExists store.directory = true ∨ t.isDirect store.directory = true) :
    store.LooksAlike t point := by
  cases present : t.pathExists store.directory with
  | true =>
    rw [FileTree.eq_of_mem_creationPoints present passed]
    exact LooksAlike.refl store t
  | false =>
    have direct := plain.resolve_left (by simp [present])
    obtain ⟨accepted, -⟩ := FileTree.mem_creationPoints_iff.mp passed
    exact looksAlike_of_bare (formed.bare_of_missing present)
      (formed.bare_of_new direct present passed) accepted

end Passed

/-- Readers do not see the directory that is made for the store, unless its path goes up again from
a directory that was missing: then it can lead to a directory that was there. -/
theorem looksAlike_prepared (formed : t.Formed)
    (plain : t.pathExists store.directory = true ∨ t.isDirect store.directory = true) :
    store.LooksAlike t (store.prepared t) := by
  rcases t.createDirectories_eq_or_mem store.directory with same | passed
  · rw [prepared, same]
    exact LooksAlike.refl store t
  · exact looksAlike_of_mem_creationPoints formed passed plain

end RecordStore

end ExtensionAudit

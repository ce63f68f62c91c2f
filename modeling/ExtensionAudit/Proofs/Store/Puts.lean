import ExtensionAudit.Proofs.Files.Inspection
import ExtensionAudit.Proofs.Store.Kept
import Mathlib.Logic.Function.Basic

namespace ExtensionAudit

namespace Record

/-- The record as if it had been made at another time. -/
def madeAt (record : Record) (time : Timestamp) : Record :=
  { record with createdAt := time }

theorem inPlaceOf_eq (record : Record) (old : Option Record) :
    record.inPlaceOf old = record.madeAt ((old.map (·.createdAt)).getD record.createdAt) := by
  cases old <;> rfl

end Record

namespace ExtensionId

variable (id : ExtensionId)

theorem isIdChar_of_mem {c : Char} (mem : c ∈ id.text.toList) : isIdChar c = true :=
  List.all_eq_true.mp id.chars_text c mem

/-- The characters of an id are of ASCII. -/
theorem utf8Size_of_isIdChar {c : Char} (idChar : isIdChar c = true) : c.utf8Size = 1 := by
  rw [Char.utf8Size_eq_one_iff]
  simp only [isIdChar, Bool.or_eq_true, Bool.and_eq_true, decide_eq_true_eq, Char.le_def] at idChar
  rcases idChar with (⟨-, upper⟩ | ⟨-, upper⟩) | ⟨-, upper⟩ <;>
    exact UInt32.le_trans upper (by decide)

theorem size_text : Path.size id.text = idLength := by
  have ones : id.text.toList.map Char.utf8Size = id.text.toList.map fun _ => 1 :=
    List.map_congr_left fun c mem => utf8Size_of_isIdChar (id.isIdChar_of_mem mem)
  rw [Path.size, ones, List.map_const', List.sum_replicate_nat, Nat.mul_one, id.length_text]

/-- An id with an ending is a name for a file. -/
theorem isName_append {ending : String} (noSlash : '/' ∉ ending.toList)
    (noZero : '\x00' ∉ ending.toList) (short : Path.size ending ≤ 200) :
    Path.IsName (id.text ++ ending) := by
  have long : 32 ≤ (id.text ++ ending).toList.length := by
    rw [String.toList_append, List.length_append, id.length_text]
    exact Nat.le_add_right _ _
  have differs (other : String) (brief : other.toList.length < 32) : id.text ++ ending ≠ other := by
    rintro rfl
    exact Nat.not_lt_of_le long brief
  refine ⟨?_, ?_, differs _ (by decide), differs _ (by decide), differs _ (by decide), ?_⟩
  · rw [String.toList_append, List.mem_append, not_or]
    exact ⟨fun mem => absurd (id.isIdChar_of_mem mem) (by decide), noSlash⟩
  · rw [String.toList_append, List.mem_append, not_or]
    exact ⟨fun mem => absurd (id.isIdChar_of_mem mem) (by decide), noZero⟩
  · rw [Path.size_append, size_text]
    simp only [idLength, Path.longestName]
    omega

end ExtensionId

namespace RecordStore

/-- The name of the file in which a record is written before it takes its place. -/
def draftName (id : ExtensionId) : String :=
  fileName id ++ ".tmp"

variable {store : RecordStore} {id other : ExtensionId}

theorem isName_fileName (id : ExtensionId) : Path.IsName (fileName id) :=
  id.isName_append (by decide) (by decide) (by decide)

theorem isName_draftName (id : ExtensionId) : Path.IsName (draftName id) := by
  rw [draftName, fileName, String.append_assoc]
  exact id.isName_append (by decide) (by decide) (by decide)

theorem size_fileName (id : ExtensionId) : Path.size (fileName id) = 37 := by
  rw [fileName, Path.size_append, id.size_text]
  decide

theorem size_draftName (id : ExtensionId) : Path.size (draftName id) = 41 := by
  rw [draftName, Path.size_append, size_fileName]
  decide

theorem length_fileName (id : ExtensionId) : (fileName id).toList.length = 37 := by
  rw [fileName, String.toList_append, List.length_append, id.length_text]
  rfl

theorem length_draftName (id : ExtensionId) : (draftName id).toList.length = 41 := by
  rw [draftName, String.toList_append, List.length_append, length_fileName]
  rfl

theorem fileName_inj : fileName id = fileName other ↔ id = other := by
  rw [fileName, fileName, String.append_left_inj]
  cases id
  cases other
  simp

theorem fileName_ne_draftName (id other : ExtensionId) : fileName id ≠ draftName other := by
  intro same
  have lengths := congrArg (·.toList.length) same
  simp only [length_fileName, length_draftName] at lengths
  exact absurd lengths (by decide)

theorem isRecordName_fileName (id : ExtensionId) : isRecordName (fileName id) = true := by
  have suffix : fileExtension.toList.isSuffixOf (fileName id).toList = true := by
    rw [List.isSuffixOf_iff_suffix, fileName, String.toList_append]
    exact List.suffix_append _ _
  have longer : fileName id ≠ fileExtension := by
    intro same
    have lengths := congrArg (·.toList.length) same
    rw [length_fileName] at lengths
    exact absurd lengths (by decide)
  simp [isRecordName, Path.hasExtension, suffix, longer]

/-- A draft has another ending than a record. -/
theorem not_suffix_draftName (id : ExtensionId) :
    ¬ fileExtension.toList <:+ (draftName id).toList := by
  rintro ⟨front, shape⟩
  have last := congrArg List.getLast? shape
  rw [draftName, String.toList_append, List.getLast?_append, List.getLast?_append] at last
  have differs : some 'n' = some 'p' := last
  exact absurd differs (by decide)

theorem not_isRecordName_draftName (id : ExtensionId) : isRecordName (draftName id) = false := by
  have suffix : fileExtension.toList.isSuffixOf (draftName id).toList = false := by
    rw [Bool.eq_false_iff, Ne, List.isSuffixOf_iff_suffix]
    exact not_suffix_draftName id
  simp [isRecordName, Path.hasExtension, suffix]

theorem draftPath_eq_inside (store : RecordStore) (id : ExtensionId) :
    store.draftPath id = Path.inside store.directory (draftName id) := by
  unfold draftPath path draftName Path.inside
  split <;> simp only [String.append_assoc]

/-- The files of the store belong into the place, and no directory stands where one of them
belongs. -/
structure Open (store : RecordStore) (t : FileTree) (here : List String) : Prop where
  path (id : ExtensionId) : t.place? (store.path id) = some (here ++ [fileName id])
  draftPath (id : ExtensionId) : t.place? (store.draftPath id) = some (here ++ [draftName id])
  freePath (id : ExtensionId) : t.isDirectory (here ++ [fileName id]) = false
  freeDraft (id : ExtensionId) : t.isDirectory (here ++ [draftName id]) = false

variable {t made : FileTree} {here : List String} {record : Record}

theorem filePlace?_of_free {path : String} {place : List String}
    (leads : t.place? path = some place) (free : t.isDirectory place = false) :
    t.filePlace? path = some place := by
  rw [FileTree.filePlace?, leads, Option.filter_some, free]
  rfl

/-- Under the path of each id lies the record that is held of it, if there is one. -/
def Records (store : RecordStore) (held : ExtensionId → Option Record) (t : FileTree) : Prop :=
  ∀ id, t.follow? (store.path id) = (held id).map fun record => .file record.text.toUTF8

/-- The records that are held are those that the store gives. -/
theorem Records.get {held : ExtensionId → Option Record} (records : store.Records held t)
    (id : ExtensionId) : Runs (store.get id) t (held id) t := by
  have found := records id
  cases record? : held id with
  | none =>
    refine get_of_absent (FileTree.yields_pathExists_iff.mpr ⟨?_, rfl⟩)
    rw [FileTree.pathExists, found, record?]
    rfl
  | some record =>
    refine get_of_read (FileTree.yields_read_iff.mpr ⟨?_, rfl⟩)
    rw [FileTree.read?, found, record?]
    rfl

theorem inspects_readRecord (path : String) :
    Inspects [path] (readRecord path : ExceptT AuditError (StateM FileTree) _).run := by
  refine Inspects.bind_run (Inspects.readText (List.mem_singleton_self _)) fun text => ?_
  cases Record.ofText? text with
  | some record => exact Inspects.pure_run record
  | none => exact Inspects.throw_run .brokenRecord

/-- The tree after a record was written as a draft and moved to its place. -/
def keep (t : FileTree) (here : List String) (record : Record) : FileTree :=
  t.settle (here ++ [draftName record.id]) (here ++ [fileName record.id]) record.text.toUTF8

theorem id_inPlaceOf (record : Record) (old : Option Record) :
    (record.inPlaceOf old).id = record.id := by
  rw [Record.inPlaceOf_eq]
  rfl

namespace Open

theorem isDirectory_keep (opened : store.Open t here) (record : Record) (place : List String) :
    (keep t here record).isDirectory place = t.isDirectory place :=
  FileTree.isDirectory_settle (opened.freeDraft record.id) (opened.freePath record.id) place

theorem place?_keep (opened : store.Open t here) (record : Record) (path : String) :
    (keep t here record).place? path = t.place? path :=
  FileTree.place?_settle (opened.freeDraft record.id) (opened.freePath record.id) path

/-- The store stays open. -/
theorem keep (opened : store.Open t here) (record : Record) :
    store.Open (keep t here record) here where
  path id := by rw [opened.place?_keep, opened.path]
  draftPath id := by rw [opened.place?_keep, opened.draftPath]
  freePath id := by rw [opened.isDirectory_keep, opened.freePath]
  freeDraft id := by rw [opened.isDirectory_keep, opened.freeDraft]

theorem node?_keep (opened : store.Open t here) (record : Record) (place : List String) :
    (RecordStore.keep t here record).node? place =
      if place = here ++ [fileName record.id] then some (.file record.text.toUTF8)
      else if place = here ++ [draftName record.id] then none else t.node? place :=
  FileTree.node?_settle (opened.freeDraft record.id) (opened.freePath record.id) place

/-- Under the id of the record lies its text, and under every other id what was there before. -/
theorem follow?_keep (opened : store.Open t here) (record : Record) (id : ExtensionId) :
    (RecordStore.keep t here record).follow? (store.path id) =
      if id = record.id then some (.file record.text.toUTF8) else t.follow? (store.path id) := by
  rw [FileTree.follow?, opened.place?_keep, opened.path, Option.bind_some, opened.node?_keep]
  have noDraft : here ++ [fileName id] ≠ here ++ [draftName record.id] := by
    simpa using fileName_ne_draftName id record.id
  by_cases same : id = record.id
  · subst same
    rw [if_pos rfl, if_pos rfl]
  · have apart : here ++ [fileName id] ≠ here ++ [fileName record.id] := by
      simpa [fileName_inj] using same
    rw [if_neg apart, if_neg noDraft, if_neg same, FileTree.follow?, opened.path, Option.bind_some]

/-- The kept record takes the place of the one that was held of its id. -/
theorem records_keep (opened : store.Open t here) {held : ExtensionId → Option Record}
    (records : store.Records held t) (record : Record) :
    store.Records (Function.update held record.id (some record))
      (RecordStore.keep t here record) := by
  intro id
  rw [opened.follow?_keep, Function.update_apply]
  split
  · rfl
  · exact records id

/-- Where the directory can be made and the earlier record can be read, a put succeeds. -/
theorem put (opened : store.Open made here) (record : Record)
    (directories : t.createDirectories store.directory = (true, made)) {found : Option Record}
    (looked : Runs (store.get record.id) made found made) :
    Runs (store.put record) t (record.inPlaceOf found)
      (RecordStore.keep made here (record.inPlaceOf found)) := by
  have atDraft := filePlace?_of_free (opened.draftPath record.id) (opened.freeDraft record.id)
  have atPath := filePlace?_of_free (opened.path record.id) (opened.freePath record.id)
  obtain ⟨drafted, written, renamed⟩ := FileTree.write?_rename? atDraft atPath
    (record.inPlaceOf found).text.toUTF8
  refine put_iff.mpr ⟨made, found, made, drafted, directories, looked, rfl,
    FileTree.yields_changeTree_iff.mpr written, FileTree.yields_changeTree_iff.mpr ?_⟩
  rw [renamed, RecordStore.keep, id_inPlaceOf]

end Open

end RecordStore

end ExtensionAudit

import ExtensionAudit.Bytes
import ExtensionAudit.Proofs.Files.Directories
import ExtensionAudit.Proofs.Store.Puts
import ExtensionAudit.Proofs.Store.Transparency
import Mathlib.Data.List.Induction
import Mathlib.Data.String.Basic

namespace ExtensionAudit

namespace Record

/-- The record of an id after the records of a history were put, one after the other: the last one
of the id, with the time at which the first was made. -/
def current (history : List Record) (id : ExtensionId) : Option Record := do
  let puts := history.filter (·.id = id)
  let first ← puts.head?
  let last ← puts.getLast?
  return last.madeAt first.createdAt

variable {history : List Record} {record : Record} {id : ExtensionId}

theorem current_append_singleton (history : List Record) (record : Record) :
    current (history ++ [record]) = Function.update (current history) record.id
      (some (record.inPlaceOf (current history record.id))) := by
  funext id
  by_cases own : id = record.id
  · subst own
    rw [Function.update_self, current, current, List.filter_append,
      List.filter_cons_of_pos (by simp)]
    rcases List.eq_nil_or_concat (history.filter (·.id = record.id)) with none | ⟨_, last, puts⟩
    · rw [none]
      rfl
    · rw [puts, List.concat_eq_append]
      simp [List.head?_append, inPlaceOf, madeAt]
  · rw [Function.update_of_ne own, current, current, List.filter_append,
      List.filter_cons_of_neg (by simpa using Ne.symm own), List.filter_nil, List.append_nil]

end Record

namespace ExtensionId

/-- The bytes of an id as text. -/
def bytes (id : ExtensionId) : List UInt8 :=
  Bytes.toList id.text.toUTF8

theorem bytes_eq_map (id : ExtensionId) : id.bytes = id.text.toList.map fun c => c.val.toUInt8 := by
  have encoded : id.bytes = id.text.toList.flatMap String.utf8EncodeChar := by
    rw [bytes, Bytes.toList, String.toUTF8, ← String.utf8Encode_toList, List.utf8Encode,
      List.data_toByteArray]
  rw [encoded, List.map_eq_flatMap]
  refine List.flatMap_congr fun c mem => ?_
  exact String.utf8EncodeChar_eq_singleton (utf8Size_of_isIdChar (id.isIdChar_of_mem mem))

theorem toUInt8_lt_of_lt {c d : Char} (small : d.utf8Size = 1) (lower : c < d) :
    c.val.toUInt8 < d.val.toUInt8 := by
  have bound := UInt32.le_iff_toNat_le.mp (Char.utf8Size_eq_one_iff.mp small)
  have below := UInt32.lt_iff_toNat_lt.mp (Char.lt_def.mp lower)
  have top : (127 : UInt32).toNat = 127 := rfl
  rw [UInt8.lt_iff_toNat_lt, UInt32.toNat_toUInt8, UInt32.toNat_toUInt8]
  omega

/-- Texts of ASCII that are equally long are in the order of their bytes, also before the same
ending. -/
theorem map_toUInt8_lt {cs ds ending : List Char} (lengths : cs.length = ds.length)
    (small : ∀ d ∈ ds, d.utf8Size = 1) (lower : cs ++ ending < ds ++ ending) :
    cs.map (·.val.toUInt8) < ds.map (·.val.toUInt8) := by
  induction cs generalizing ds with
  | nil =>
    obtain rfl := List.length_eq_zero_iff.mp lengths.symm
    exact absurd lower (List.lt_irrefl _)
  | cons c cs ih =>
    obtain ⟨d, ds, rfl⟩ := List.exists_cons_of_length_eq_add_one lengths.symm
    rw [List.cons_append, List.cons_append, List.cons_lt_cons_iff] at lower
    rw [List.map_cons, List.map_cons, List.cons_lt_cons_iff]
    rcases lower with first | ⟨rfl, rest⟩
    · exact Or.inl (toUInt8_lt_of_lt (small d List.mem_cons_self) first)
    · refine Or.inr ⟨rfl, ih (Nat.succ.inj lengths) (fun d mem => ?_) rest⟩
      exact small d (List.mem_cons_of_mem _ mem)

end ExtensionId

namespace RecordStore

/-- The order of the names of records is that of the ids. -/
theorem bytes_lt_of_fileName_lt {a b : ExtensionId} (lower : fileName a < fileName b) :
    a.bytes < b.bytes := by
  rw [ExtensionId.bytes_eq_map, ExtensionId.bytes_eq_map]
  rw [fileName, fileName, String.lt_iff_toList_lt, String.toList_append, String.toList_append]
    at lower
  refine ExtensionId.map_toUInt8_lt (by rw [a.length_text, b.length_text]) (fun c mem => ?_) lower
  exact ExtensionId.utf8Size_of_isIdChar (b.isIdChar_of_mem mem)

/-- The records in a tree are those that are held: each is in its file, and the directory lists
these files and no other records. -/
structure Holds (store : RecordStore) (held : ExtensionId → Option Record) (t : FileTree)
    (here : List String) : Prop where
  leads : t.place? store.directory = some here
  there : t.isDirectory here = true
  opened : store.Open t here
  records : store.Records held t
  own (id : ExtensionId) : ∀ record ∈ held id, record.id = id
  once : ((t.fileNames store.directory).filter isRecordName).Nodup
  listed (name : String) : name ∈ (t.fileNames store.directory).filter isRecordName ↔
    ∃ id, name = fileName id ∧ (held id).isSome

variable {store : RecordStore} {held : ExtensionId → Option Record} {t : FileTree}
  {here : List String}

/-- The names of records after one more was kept. -/
theorem recordNames_keep (opened : store.Open t here) (leads : t.place? store.directory = some here)
    (record : Record) :
    ((keep t here record).fileNames store.directory).filter isRecordName =
      fileName record.id ::
        ((t.fileNames store.directory).filter isRecordName).filter (· ≠ fileName record.id) := by
  have leadsStill : (keep t here record).place? store.directory = some here := by
    rw [opened.place?_keep, leads]
  rw [FileTree.fileNames_of_leads leadsStill, FileTree.fileNames_of_leads leads, keep,
    FileTree.namesIn_settle, List.filter_cons_of_pos (isRecordName_fileName _), List.filter_filter,
    List.filter_filter, List.filter_filter]
  congr 1
  refine List.filter_congr fun name _ => ?_
  by_cases draft : name = draftName record.id
  · simp [draft, not_isRecordName_draftName]
  · simp [draft, Bool.and_comm]

namespace Holds

theorem keep (holds : store.Holds held t here) (record : Record) :
    store.Holds (Function.update held record.id (some record))
      (RecordStore.keep t here record) here where
  leads := by rw [holds.opened.place?_keep, holds.leads]
  there := by rw [holds.opened.isDirectory_keep, holds.there]
  opened := holds.opened.keep record
  records := holds.opened.records_keep holds.records record
  own id := by
    rw [Function.update_apply]
    split
    · rename_i same
      rintro _ ⟨⟩
      exact same.symm
    · exact holds.own id
  once := by
    rw [recordNames_keep holds.opened holds.leads, List.nodup_cons]
    exact ⟨by simp, holds.once.filter _⟩
  listed name := by
    rw [recordNames_keep holds.opened holds.leads, List.mem_cons, List.mem_filter, holds.listed]
    constructor
    · rintro (rfl | ⟨⟨id, rfl, some⟩, differs⟩)
      · exact ⟨record.id, rfl, by simp⟩
      · have apart : id ≠ record.id := by simpa [fileName_inj] using differs
        exact ⟨id, rfl, by rwa [Function.update_of_ne apart]⟩
    · rintro ⟨id, rfl, some⟩
      by_cases same : id = record.id
      · exact Or.inl (by rw [same])
      · rw [Function.update_of_ne same] at some
        exact Or.inr ⟨⟨id, rfl, some⟩, by simpa [fileName_inj] using same⟩

end Holds

/-- The record in a file, if its bytes are the text of one. -/
def recordAt? (t : FileTree) (path : String) : Option Record :=
  ((t.read? path).bind String.fromUTF8?).bind Record.ofText?

theorem readRecord_iff {path : String} {record : Record} {after : FileTree} :
    Runs (readRecord path) t record after ↔ recordAt? t path = some record ∧ t = after := by
  rw [readRecord, Runs.bind_iff]
  constructor
  · rintro ⟨text, between, read, given⟩
    obtain ⟨bytes, found, decoded⟩ := Runs.readText_iff.mp read
    obtain ⟨held, rfl⟩ := FileTree.yields_read_iff.mp found
    cases parsed : Record.ofText? text with
    | none =>
      rw [parsed] at given
      exact absurd given (Runs.not_throw _)
    | some kept =>
      rw [parsed] at given
      obtain ⟨rfl, rfl⟩ := Runs.pure_iff.mp given
      exact ⟨by rw [recordAt?, held, Option.bind_some, decoded, Option.bind_some, parsed], rfl⟩
  · rintro ⟨found, rfl⟩
    obtain ⟨text, read, parsed⟩ := Option.bind_eq_some_iff.mp found
    obtain ⟨bytes, held, decoded⟩ := Option.bind_eq_some_iff.mp read
    refine ⟨text, t, Runs.readText_iff.mpr
      ⟨bytes, FileTree.yields_read_iff.mpr ⟨held, rfl⟩, decoded⟩, ?_⟩
    rw [parsed]
    exact Runs.pure_iff.mpr ⟨rfl, rfl⟩

theorem yields_readable? (t : FileTree) (path : String) :
    Yields (readable? path) t (recordAt? t path) t := by
  obtain ⟨outcome, ran⟩ := (inspects_readRecord path).exists_yields t
  refine (Yields.bind_iff _ _).mpr ⟨outcome, t, ran, Yields.pure_iff.mpr ⟨?_, rfl⟩⟩
  cases outcome with
  | ok record => exact (readRecord_iff.mp ran).1.symm
  | error fault =>
    refine (Option.eq_none_iff_forall_ne_some.mpr fun record found => ?_).symm
    have read : Runs (readRecord path) t record t := readRecord_iff.mpr ⟨found, rfl⟩
    exact nomatch (ran.unique read).1

/-- All records are read from the files of a directory that is there, in the order of their names.
-/
theorem yields_all (there : t.pathExists store.directory = true) :
    Yields store.all t
      ((((t.fileNames store.directory).filter isRecordName).mergeSort fun a b => a ≤ b).filterMap
        fun name => recordAt? t (Path.inside store.directory name)) t := by
  have looks : Yields (MonadFiles.pathExists store.directory) t true t :=
    FileTree.yields_pathExists_iff.mpr ⟨there, rfl⟩
  have lists : Yields (MonadFiles.fileNames store.directory) t (t.fileNames store.directory) t :=
    rfl
  refine (Yields.bind_iff _ _).mpr ⟨true, t, looks, ?_⟩
  refine (Yields.bind_iff _ _).mpr ⟨_, t, lists, ?_⟩
  have reads := Yields.mapM (fun name => yields_readable? t (Path.inside store.directory name))
    (((t.fileNames store.directory).filter isRecordName).mergeSort fun a b => a ≤ b)
  refine (Yields.bind_iff _ _).mpr ⟨_, t, reads, Yields.pure_iff.mpr ⟨?_, rfl⟩⟩
  rw [List.filterMap_map]
  rfl

/-- Where there is no directory, there are no records. -/
theorem yields_all_of_missing (missing : t.pathExists store.directory = false) :
    Yields store.all t [] t :=
  (Yields.bind_iff _ _).mpr
    ⟨false, t, FileTree.yields_pathExists_iff.mpr ⟨missing, rfl⟩, Yields.pure_iff.mpr ⟨rfl, rfl⟩⟩

theorem Holds.recordAt? (holds : store.Holds held t here) (id : ExtensionId) :
    RecordStore.recordAt? t (store.path id) = held id := by
  rw [RecordStore.recordAt?, FileTree.read?, holds.records id]
  cases held id with
  | none => rfl
  | some record =>
    rw [Option.map_some, Option.bind_some, Files.fromUTF8?_toUTF8, Option.bind_some,
      Record.ofText?_text]

/-- Names that are listed once stand in strict order when they are sorted. -/
theorem pairwise_lt_mergeSort {names : List String} (once : names.Nodup) :
    (names.mergeSort fun a b => a ≤ b).Pairwise (· < ·) := by
  have sorted : (names.mergeSort fun a b => a ≤ b).Pairwise (· ≤ ·) := by
    refine (List.pairwise_mergeSort (fun a b c first next => ?_) (fun a b => ?_) names).imp
      of_decide_eq_true
    · exact decide_eq_true (String.le_trans (of_decide_eq_true first) (of_decide_eq_true next))
    · simpa using String.le_total a b
  have distinct : (names.mergeSort fun a b => a ≤ b).Nodup :=
    (List.mergeSort_perm names _).nodup_iff.mpr once
  refine (sorted.and distinct).imp fun {a b} ⟨le, ne⟩ => String.not_le.mp fun ge => ?_
  exact ne (String.le_antisymm le ge)

/-- The list of the records that are held is in the order of their ids. -/
theorem Holds.all (holds : store.Holds held t here) :
    ∃ records, Yields store.all t records t ∧
      records.Pairwise (fun a b => a.id.bytes < b.id.bytes) ∧
      ∀ record, record ∈ records ↔ held record.id = some record := by
  have there : t.pathExists store.directory = true := by
    have node := FileTree.eq_directory_of_isDirectory holds.there
    simp [FileTree.pathExists, FileTree.follow?, holds.leads, node]
  refine ⟨_, yields_all there, ?_, fun record => ?_⟩
  · refine List.pairwise_filterMap.mpr ((pairwise_lt_mergeSort holds.once).imp_of_mem ?_)
    intro name next mem memNext lower a found b foundNext
    obtain ⟨id, rfl, -⟩ := (holds.listed name).mp (List.mem_mergeSort.mp mem)
    obtain ⟨later, rfl, -⟩ := (holds.listed next).mp (List.mem_mergeSort.mp memNext)
    have ofId : held id = some a := by
      rw [← holds.recordAt? id]
      exact found
    have ofLater : held later = some b := by
      rw [← holds.recordAt? later]
      exact foundNext
    rw [holds.own id a ofId, holds.own later b ofLater]
    exact bytes_lt_of_fileName_lt lower
  · rw [List.mem_filterMap]
    constructor
    · rintro ⟨name, mem, found⟩
      obtain ⟨id, rfl, -⟩ := (holds.listed name).mp (List.mem_mergeSort.mp mem)
      have ofId : held id = some record := by
        rw [← holds.recordAt? id]
        exact found
      rwa [holds.own id record ofId]
    · intro found
      refine ⟨fileName record.id, List.mem_mergeSort.mpr ?_, ?_⟩
      · exact (holds.listed _).mpr ⟨record.id, rfl, by rw [found]; rfl⟩
      · exact (holds.recordAt? record.id).trans found

/-- The tree has a directory for the store, or it has none there and one can be made. In it is
nothing that has the name of a record, and no directory stands where a draft belongs. The path of
the directory leaves room for the names of the files. -/
def StartsEmpty (store : RecordStore) (t : FileTree) : Prop :=
  Path.size store.directory + 42 ≤ Path.longestPath ∧
    ∃ made here, (t = made ∨ t.pathExists store.directory = false ∧
        t.createDirectories store.directory = (true, made)) ∧
      made.place? store.directory = some here ∧ made.isDirectory here = true ∧
      (∀ name, isRecordName name = true → made.node? (here ++ [name]) = none) ∧
      ∀ id, made.isDirectory (here ++ [draftName id]) = false

/-- The tree holds the records, or there are none and an empty directory can be made for them. -/
def Serves (store : RecordStore) (held : ExtensionId → Option Record) (t : FileTree) : Prop :=
  ∃ made here, store.Holds held made here ∧
    (t = made ∨ t.pathExists store.directory = false ∧
      t.createDirectories store.directory = (true, made) ∧ ∀ id, held id = none)

/-- A directory without records is open for the files of the store, and holds nothing. -/
theorem holds_of_empty (fits : Path.size store.directory + 42 ≤ Path.longestPath)
    (leads : t.place? store.directory = some here) (there : t.isDirectory here = true)
    (empty : ∀ name, isRecordName name = true → t.node? (here ++ [name]) = none)
    (free : ∀ id, t.isDirectory (here ++ [draftName id]) = false) :
    store.Holds (fun _ => none) t here := by
  have place {name : String} (plain : Path.IsName name) (short : Path.size name ≤ 41) :
      t.place? (Path.inside store.directory name) = some (here ++ [name]) := by
    have size := Path.size_inside_le store.directory name
    exact FileTree.place?_inside leads there plain (by omega)
  have path (id : ExtensionId) : t.place? (store.path id) = some (here ++ [fileName id]) :=
    place (isName_fileName id) (by rw [size_fileName]; decide)
  have noNames : (t.fileNames store.directory).filter isRecordName = [] := by
    rw [FileTree.fileNames_of_leads leads, List.filter_eq_nil_iff]
    intro name mem isRecord
    have present := FileTree.isSome_node?_of_mem_namesIn mem
    rw [empty name isRecord] at present
    cases present
  refine ⟨leads, there, ⟨path, fun id => ?_, fun id => ?_, free⟩, fun id => ?_,
    fun id record none => ?_, ?_, fun name => ?_⟩
  · rw [draftPath_eq_inside]
    exact place (isName_draftName id) (by rw [size_draftName])
  · rw [FileTree.isDirectory, empty _ (isRecordName_fileName id)]
  · rw [FileTree.follow?, path, Option.bind_some, empty _ (isRecordName_fileName id)]
    rfl
  · cases none
  · rw [noNames]
    exact List.nodup_nil
  · rw [noNames]
    simp

theorem StartsEmpty.serves (start : store.StartsEmpty t) : store.Serves (fun _ => none) t := by
  obtain ⟨fits, made, here, either, leads, there, empty, free⟩ := start
  refine ⟨made, here, holds_of_empty fits leads there empty free, either.imp_right ?_⟩
  exact fun ⟨missing, directories⟩ => ⟨missing, directories, fun _ => rfl⟩

namespace Serves

theorem createDirectories (serves : store.Serves held t) :
    ∃ made here, store.Holds held made here ∧
      t.createDirectories store.directory = (true, made) := by
  obtain ⟨made, here, holds, rfl | ⟨-, directories, -⟩⟩ := serves
  · exact ⟨t, here, holds, FileTree.createDirectories_of_leads holds.leads holds.there⟩
  · exact ⟨made, here, holds, directories⟩

theorem put (serves : store.Serves held t) (record : Record) :
    ∃ after, Runs (store.put record) t (record.inPlaceOf (held record.id)) after ∧
      store.Serves
        (Function.update held record.id (some (record.inPlaceOf (held record.id)))) after := by
  obtain ⟨made, here, holds, directories⟩ := serves.createDirectories
  have kept := holds.keep (record.inPlaceOf (held record.id))
  rw [id_inPlaceOf] at kept
  have stored := holds.opened.put record directories (holds.records.get record.id)
  exact ⟨_, stored, _, here, kept, Or.inl rfl⟩

theorem get (serves : store.Serves held t) (id : ExtensionId) :
    Runs (store.get id) t (held id) t := by
  obtain ⟨made, here, holds, rfl | ⟨missing, -, none⟩⟩ := serves
  · exact holds.records.get id
  · obtain ⟨accepted, -⟩ := FileTree.place?_eq_some_iff.mp holds.leads
    have records : store.Records held t := fun id => by
      rw [none, path, FileTree.follow?_inside_of_missing missing accepted (isName_fileName id)]
      rfl
    exact records.get id

theorem all (serves : store.Serves held t) :
    ∃ records, Yields store.all t records t ∧
      records.Pairwise (fun a b => a.id.bytes < b.id.bytes) ∧
      ∀ record, record ∈ records ↔ held record.id = some record := by
  obtain ⟨made, here, holds, rfl | ⟨missing, -, none⟩⟩ := serves
  · exact holds.all
  · refine ⟨[], yields_all_of_missing missing, List.Pairwise.nil, fun record => ?_⟩
    rw [none]
    simp

end Serves

/-- Each put of a history succeeds and answers the record that is kept, and what is kept in the end
are the records of the history. -/
theorem StartsEmpty.run (start : store.StartsEmpty t) (history : List Record) :
    ∃ answers after, Runs (history.mapM store.put) t answers after ∧
      answers.length = history.length ∧
      (∀ i record, history[i]? = some record →
        answers[i]? = Record.current (history.take (i + 1)) record.id) ∧
      store.Serves (Record.current history) after := by
  -- The last put of a history meets the records of those before it.
  induction history using List.reverseRecOn with
  | nil => exact ⟨[], t, Runs.pure_iff.mpr ⟨rfl, rfl⟩, rfl, by simp, start.serves⟩
  | append_singleton history record ih =>
    obtain ⟨answers, between, ran, lengths, answered, serves⟩ := ih
    obtain ⟨after, stored, servesAfter⟩ := serves.put record
    rw [← Record.current_append_singleton] at servesAfter
    refine ⟨answers ++ [record.inPlaceOf (Record.current history record.id)], after, ?_, ?_, ?_,
      servesAfter⟩
    · rw [List.mapM_append, Runs.bind_iff]
      refine ⟨answers, between, ran, (Runs.bind_iff _ _).mpr ⟨_, after, ?_,
        Runs.pure_iff.mpr ⟨rfl, rfl⟩⟩⟩
      rw [List.mapM_cons, Runs.bind_iff]
      exact ⟨_, after, stored, Runs.pure_iff.mpr ⟨rfl, rfl⟩⟩
    · simp [lengths]
    · intro i other found
      by_cases earlier : i < history.length
      · rw [List.getElem?_append_left earlier] at found
        rw [List.getElem?_append_left (by omega), answered i other found,
          List.take_append_of_le_length earlier]
      · have last : i = history.length := by
          have bound := (List.getElem?_eq_some_iff.mp found).1
          rw [List.length_append, List.length_singleton] at bound
          omega
        subst last
        rw [List.getElem?_concat_length] at found
        obtain rfl := Option.some.inj found
        rw [← lengths, List.getElem?_concat_length, lengths, List.take_of_length_le (by simp),
          Record.current_append_singleton, Function.update_self]

def evening : Timestamp :=
  { noon with second := 64800, second_range := by decide, nanosecond_range := by decide }

/-- The record of a package that asks for nothing. -/
def sampleRecord (digest : String) (now : Timestamp) : Record :=
  .ofReport sampleId (.make {} ⟨Manifest.ofMembers [], none⟩ none digest) none now

end RecordStore

end ExtensionAudit

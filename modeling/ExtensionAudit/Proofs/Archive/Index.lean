import ExtensionAudit.Manifest.Package
import ExtensionAudit.Proofs.Archive.FirstFile

namespace ExtensionAudit

namespace Directory

theorem mem_names_placeEntry {e : Entry} {index : List Entry} {name : String} :
    name ∈ (placeEntry e index).map Entry.name ↔ name = e.name ∨ name ∈ index.map Entry.name := by
  induction index with
  | nil => simp [placeEntry]
  | cons old index ih =>
    by_cases replaced : old.name = e.name
    · simp [placeEntry, replaced]
    · rw [placeEntry, if_neg replaced, List.map_cons, List.mem_cons, ih, List.map_cons,
        List.mem_cons]
      exact or_left_comm

/-- An entry takes the place of the one with its name, so no name comes to stand twice. -/
theorem nodup_names_placeEntry {e : Entry} {index : List Entry}
    (distinct : (index.map Entry.name).Nodup) : ((placeEntry e index).map Entry.name).Nodup := by
  induction index with
  | nil => simp [placeEntry]
  | cons old index ih =>
    obtain ⟨absent, later⟩ := List.nodup_cons.mp distinct
    by_cases replaced : old.name = e.name
    · rw [placeEntry, if_pos replaced, List.map_cons, ← replaced]
      exact distinct
    · rw [placeEntry, if_neg replaced, List.map_cons]
      refine List.nodup_cons.mpr ⟨fun again => ?_, ih later⟩
      rcases mem_names_placeEntry.mp again with same | old
      · exact replaced same
      · exact absent old

theorem nodup_names_entries (d : Directory) : (d.entries.map Entry.name).Nodup := by
  have run (records : List (CentralRecord × Entry)) (index : List Entry)
      (distinct : (index.map Entry.name).Nodup) :
      ((records.foldl (fun index (p : CentralRecord × Entry) => placeEntry p.2 index) index).map
        Entry.name).Nodup := by
    induction records generalizing index with
    | nil => exact distinct
    | cons p records ih => exact ih _ (nodup_names_placeEntry distinct)
  exact run d.records [] List.nodup_nil

/-- Among entries with different names, the search for the name of an entry finds the entry. -/
theorem find?_name_of_mem {index : List Entry} (distinct : (index.map Entry.name).Nodup) {e : Entry}
    (member : e ∈ index) : index.find? (·.name == e.name) = some e := by
  induction index with
  | nil => exact absurd member List.not_mem_nil
  | cons old index ih =>
    obtain ⟨absent, later⟩ := List.nodup_cons.mp distinct
    rcases List.mem_cons.mp member with rfl | inLater
    · exact List.find?_cons_of_pos (by simp)
    · have other : old.name ≠ e.name := fun same =>
        absent (same ▸ List.mem_map_of_mem inLater)
      rw [List.find?_cons_of_neg (by simpa using other), ih later inLater]

/-- The entries of the index are the last declared ones of their names. -/
theorem mem_entries_iff {d : Directory} {e : Entry} :
    e ∈ d.entries ↔ ∃ r, (d.named e.name).getLast? = some (r, e) := by
  have found := d.find?_entries e.name
  constructor
  · intro member
    rw [find?_name_of_mem d.nodup_names_entries member] at found
    obtain ⟨⟨r, last⟩, isLast, rfl⟩ := Option.map_eq_some_iff.mp found.symm
    exact ⟨r, isLast⟩
  · rintro ⟨r, isLast⟩
    rw [isLast] at found
    exact List.mem_of_find?_eq_some found

end Directory

namespace Archive

variable {a : Archive} {index : Nat} {url : String}

/-- The index of an entry leads to what the entry holds. The fault of an entry that does not open is
told of the index, any other of the path. -/
theorem readIndex_of_listed {e : Entry} (listed : a.entries[index]? = some e) :
    ∃ place, a.readIndex index =
      ((a.held e).map (Option.map (⟨e.name, ·⟩))).mapError (.unreadable place) := by
  unfold readIndex held
  rw [listed]
  dsimp only
  cases openEntry a.bytes e with
  | error fault => exact ⟨.numbered index, rfl⟩
  | ok opened =>
    obtain ⟨deflated, data⟩ := opened
    refine ⟨.named e.name, ?_⟩
    dsimp only
    cases e.isDirectory with
    | true => rfl
    | false => cases readOpened e deflated data <;> rfl

/-- Reading by an index reads the entry of the index, which has to be a file. -/
theorem readIndex_eq_some_iff {content : Content} :
    a.readIndex index = .ok (some content) ↔ ∃ e, a.entries[index]? = some e ∧
      e.isDirectory = false ∧ a.checkedContent e = .ok content.bytes ∧ e.name = content.path := by
  constructor
  · intro read
    cases listed : a.entries[index]? with
    | none => simp [readIndex, listed] at read
    | some e =>
      obtain ⟨place, byIndex⟩ := readIndex_of_listed listed
      obtain ⟨found, held, same⟩ :=
        map_eq_ok_iff.mp (mapError_eq_ok_iff.mp (byIndex.symm.trans read))
      obtain ⟨bytes, rfl, rfl⟩ := Option.map_eq_some_iff.mp same
      obtain ⟨isFile, checked⟩ := held_eq_some_iff.mp held
      exact ⟨e, rfl, isFile, checked, rfl⟩
  · rintro ⟨e, listed, isFile, checked, named⟩
    obtain ⟨place, byIndex⟩ := readIndex_of_listed listed
    rw [byIndex, held_eq_some_iff.mpr ⟨isFile, checked⟩, named]
    rfl

/-- A text file with the URL is the last declared one of its name and can be read. -/
def Shows (a : Archive) (url : String) : Prop :=
  ∃ r e content, (a.directory.named e.name).getLast? = some (r, e) ∧ e.isDirectory = false ∧
    a.checkedContent e = .ok content ∧ url ∈ Content.urls ⟨e.name, content⟩

theorem mem_urlsAt_iff : url ∈ a.urlsAt index ↔
    ∃ content, a.readIndex index = .ok (some content) ∧ url ∈ content.urls := by
  unfold urlsAt
  cases a.readIndex index with
  | error fault => simp
  | ok found => cases found <;> simp

/-- The URLs of a package are those of the last declared files of each name. -/
theorem mem_urls_iff (indexed : a.entries = a.directory.entries) : url ∈ a.urls ↔ a.Shows url := by
  simp only [urls, TextSet.mem_ofList, List.mem_flatMap, List.mem_range, mem_urlsAt_iff,
    readIndex_eq_some_iff]
  constructor
  · rintro ⟨index, -, ⟨path, bytes⟩, ⟨e, listed, isFile, read, rfl⟩, inFile⟩
    have member : e ∈ a.directory.entries := indexed ▸ List.mem_of_getElem? listed
    obtain ⟨r, isLast⟩ := Directory.mem_entries_iff.mp member
    exact ⟨r, e, bytes, isLast, isFile, read, inFile⟩
  · rintro ⟨r, e, bytes, isLast, isFile, read, inFile⟩
    have member : e ∈ a.entries := indexed ▸ Directory.mem_entries_iff.mpr ⟨r, isLast⟩
    obtain ⟨index, small, listed⟩ := List.mem_iff_getElem.mp member
    refine ⟨index, small, ⟨e.name, bytes⟩, ⟨e, ?_, isFile, read, rfl⟩, inFile⟩
    rw [List.getElem?_eq_getElem small, listed]

/-- A text that can be read by its name shows its URLs. -/
theorem shows_of_read (indexed : a.entries = a.directory.entries) {path : String}
    {content : ByteArray} (read : a.read path = .ok (some content))
    (inFile : url ∈ Content.urls ⟨path, content⟩) : a.Shows url := by
  obtain ⟨r, e, isLast, isFile, checked⟩ := (read_eq_some_iff indexed).mp read
  have name : e.name = path := (mem_named.mp (List.mem_of_getLast? isLast)).2
  exact ⟨r, e, content, by rw [name]; exact isLast, isFile, checked, by rw [name]; exact inFile⟩

end Archive

end ExtensionAudit

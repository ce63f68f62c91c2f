import ExtensionAudit.Archive.Basic

namespace ExtensionAudit

/-- The bytes of a whole record contain its name, so the walk cannot fail on it. -/
theorem CentralRecord.walk_of_startsRecord {bytes : List UInt8} (starts : startsRecord bytes = true)
    (whole : sizeAt bytes ≤ bytes.length) :
    walk bytes = (walk (bytes.drop (sizeAt bytes))).map (ofBytes bytes :: ·) := by
  have named : ¬ bytes.length < fixedSize + nameLength bytes := by
    simp only [sizeAt] at whole
    omega
  rw [walk, dif_pos starts, if_neg named]

namespace Directory

/-- One declared record is whole, means an entry, and is followed by the other declared records. -/
theorem readRecords?_succ {offset count : Nat} {bytes : List UInt8}
    {records : List (CentralRecord × Entry)}
    (read : readRecords? offset (count + 1) bytes = some records) :
    CentralRecord.startsRecord bytes = true ∧ CentralRecord.sizeAt bytes ≤ bytes.length ∧
      ∃ entry later, Entry.ofRecord? offset (CentralRecord.ofBytes bytes) = some entry ∧
        readRecords? offset count (bytes.drop (CentralRecord.sizeAt bytes)) = some later ∧
        records = (CentralRecord.ofBytes bytes, entry) :: later := by
  rw [readRecords?] at read
  split at read
  · rename_i whole
    obtain ⟨starts, room⟩ := Bool.and_eq_true_iff.mp whole
    cases meant : Entry.ofRecord? offset (CentralRecord.ofBytes bytes) with
    | none => simp [meant] at read
    | some entry =>
      simp only [meant] at read
      obtain ⟨later, tail, same⟩ := Option.map_eq_some_iff.mp read
      exact ⟨starts, of_decide_eq_true room, entry, later, rfl, tail, same.symm⟩
  · exact nomatch read

/-- Each declared record comes with the entry that it means. -/
theorem ofRecord?_of_mem_readRecords? {offset count : Nat} {bytes : List UInt8}
    {declared : List (CentralRecord × Entry)}
    (read : readRecords? offset count bytes = some declared) {r : CentralRecord} {e : Entry}
    (member : (r, e) ∈ declared) : Entry.ofRecord? offset r = some e := by
  induction count generalizing bytes declared with
  | zero =>
    cases Option.some.inj read
    exact absurd member List.not_mem_nil
  | succ count ih =>
    obtain ⟨_, _, entry, later, meant, tail, rfl⟩ := readRecords?_succ read
    rcases List.mem_cons.mp member with same | inLater
    · cases same
      exact meant
    · exact ih tail inLater

/-- The directory of an archive holds the records that are read at its place. -/
theorem readRecords?_of_ofArchive? {archive : ByteArray} {d : Directory}
    (found : ofArchive? archive = some d) :
    readRecords? d.place.archiveOffset d.place.count (Bytes.suffix archive d.place.start) =
      some d.records := by
  have ofEnd {offset : Nat} (led : ofEndRecord? archive offset = some d) :
      readRecords? d.place.archiveOffset d.place.count (Bytes.suffix archive d.place.start) =
        some d.records := by
    unfold ofEndRecord? at led
    split at led
    · dsimp only at led
      split at led
      · exact nomatch led
      · obtain ⟨records, read, rfl⟩ := Option.map_eq_some_iff.mp led
        exact read
    · exact nomatch led
  -- The search goes down from the end and stops at the first directory that can be read.
  have before (size : Nat) (last : lastBefore? archive size = some d) :
      readRecords? d.place.archiveOffset d.place.count (Bytes.suffix archive d.place.start) =
        some d.records := by
    induction size with
    | zero => exact nomatch last
    | succ offset ih =>
      unfold lastBefore? at last
      split at last
      · rename_i led
        cases Option.some.inj last
        exact ofEnd led
      · exact ih last
  exact before archive.size found

/-- An entry takes the place of the first one of its name, or comes last. -/
theorem find?_placeEntry (e : Entry) (index : List Entry) (path : String) :
    (placeEntry e index).find? (·.name == path) =
      if e.name = path then some e else index.find? (·.name == path) := by
  induction index with
  | nil => by_cases named : e.name = path <;> simp [placeEntry, named]
  | cons old index ih =>
    by_cases replaced : old.name = e.name
    · rw [placeEntry, if_pos replaced]
      by_cases named : e.name = path <;> simp [named, replaced]
    · rw [placeEntry, if_neg replaced]
      by_cases named : e.name = path
      · have other : ¬ old.name = path := fun same => replaced (same.trans named.symm)
        simp [other, ih, named]
      · by_cases found : old.name = path <;> simp [found, ih, named]

/-- The declared records whose entry has the name, in the order of the directory. -/
def named (d : Directory) (path : String) : List (CentralRecord × Entry) :=
  d.records.filter fun p => p.2.name == path

/-- The index answers with the last declared entry of a name. -/
theorem find?_entries (d : Directory) (path : String) :
    d.entries.find? (·.name == path) = (d.named path).getLast?.map Prod.snd := by
  have step (records : List (CentralRecord × Entry)) (index : List Entry) :
      (records.foldl (fun index (p : CentralRecord × Entry) => placeEntry p.2 index) index).find?
          (·.name == path) =
        ((records.filter fun p => p.2.name == path).getLast?.map Prod.snd).or
          (index.find? (·.name == path)) := by
    induction records generalizing index with
    | nil => simp
    | cons p records ih =>
      rw [List.foldl_cons, ih, find?_placeEntry]
      by_cases same : p.2.name = path
      · rw [List.filter_cons_of_pos (by simpa using same), List.getLast?_cons, if_pos same]
        cases (records.filter fun p => p.2.name == path).getLast? <;> simp
      · rw [List.filter_cons_of_neg (by simpa using same), if_neg same]
  have all := step d.records []
  rw [List.find?_nil, Option.or_none] at all
  exact all

end Directory

end ExtensionAudit

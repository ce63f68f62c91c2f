import ExtensionAudit.Proofs.Archive.Index

namespace ExtensionAudit.Archive

variable {a : Archive} {e : Entry} {index : Nat}

/-- The path of an entry leads to what the entry holds. -/
theorem read_of_mem (distinct : (a.entries.map Entry.name).Nodup) (member : e ∈ a.entries) :
    a.read e.name = (a.held e).mapError (.unreadable (.named e.name)) :=
  read_of_found (Directory.find?_name_of_mem distinct member)

/-- The path leads to what the index leads to. A fault is the same, though it may be told of the
index there and is told of the path here. -/
structure LeadsAlike (a : Archive) (index : Nat) (path : String) : Prop where
  content : ∀ content, a.readIndex index = .ok (some content) →
    content.path = path ∧ a.read path = .ok (some content.bytes)
  nothing : a.readIndex index = .ok none → a.read path = .ok none
  fault : ∀ error, a.readIndex index = .error error →
    ∃ place fault, error = .unreadable place fault ∧
      a.read path = .error (.unreadable (.named path) fault)

theorem leadsAlike_of_listed (distinct : (a.entries.map Entry.name).Nodup)
    (listed : a.entries[index]? = some e) : a.LeadsAlike index e.name := by
  have byPath := read_of_mem distinct (List.mem_of_getElem? listed)
  obtain ⟨place, byIndex⟩ := readIndex_of_listed listed
  cases held : a.held e with
  | error fault =>
    rw [held] at byPath byIndex
    refine ⟨fun content same => ?_, fun same => ?_, fun error same => ?_⟩
    · exact nomatch byIndex.symm.trans same
    · exact nomatch byIndex.symm.trans same
    · exact ⟨place, fault, (Except.error.inj (byIndex.symm.trans same)).symm, byPath⟩
  | ok found =>
    rw [held] at byPath byIndex
    refine ⟨fun content same => ?_, fun same => ?_, fun error same => ?_⟩
    · obtain ⟨bytes, isFound, rfl⟩ :=
        Option.map_eq_some_iff.mp (Except.ok.inj (byIndex.symm.trans same))
      exact ⟨rfl, byPath.trans (congrArg Except.ok isFound)⟩
    · have isNone := Option.map_eq_none_iff.mp (Except.ok.inj (byIndex.symm.trans same))
      exact byPath.trans (congrArg Except.ok isNone)
    · exact nomatch byIndex.symm.trans same

/-- A path that leads to a content is that of an entry, whose index leads there too. -/
theorem exists_listed_of_read {path : String} {bytes : ByteArray}
    (found : a.read path = .ok (some bytes)) :
    ∃ index e, a.entries[index]? = some e ∧ e.name = path ∧
      a.readIndex index = .ok (some ⟨path, bytes⟩) := by
  cases search : a.entries.find? (·.name == path) with
  | none =>
    rw [read, search] at found
    cases found
  | some e =>
    have member : e ∈ a.entries := List.mem_of_find?_eq_some search
    have named : e.name = path := by simpa using List.find?_some search
    obtain ⟨index, listed⟩ := List.mem_iff_getElem?.mp member
    have held : a.held e = .ok (some bytes) :=
      mapError_eq_ok_iff.mp ((read_of_found search).symm.trans found)
    obtain ⟨isFile, checked⟩ := held_eq_some_iff.mp held
    exact ⟨index, e, listed, named, readIndex_eq_some_iff.mpr ⟨e, listed, isFile, checked, named⟩⟩

/-- Where entries have different names, an index is the only one with the name of its entry. -/
theorem index_eq_of_name (distinct : (a.entries.map Entry.name).Nodup) {other : Nat} {f : Entry}
    (listed : a.entries[index]? = some e) (otherListed : a.entries[other]? = some f)
    (same : e.name = f.name) : index = other := by
  obtain ⟨inside, _⟩ := List.getElem?_eq_some_iff.mp listed
  refine (List.getElem?_inj (by rwa [List.length_map]) distinct).mp ?_
  rw [List.getElem?_map, List.getElem?_map, listed, otherListed, Option.map_some, Option.map_some,
    same]

/-- Each path of an opened package is resolved once. The entries have different paths, and the path
of each leads to what its index leads to. A content that is found under a path is that of an index
with the path, and no other index has a content with it. -/
theorem resolves_each_path_once {raw : ByteArray} (opened : ofPackage raw = .ok a) :
    (a.entries.map Entry.name).Nodup ∧
      (∀ index < a.size, ∃ e, a.entries[index]? = some e ∧ a.LeadsAlike index e.name) ∧
      ∀ path bytes, a.read path = .ok (some bytes) →
        ∃ index < a.size, a.readIndex index = .ok (some ⟨path, bytes⟩) ∧
          ∀ other content, a.readIndex other = .ok (some content) → content.path = path →
            other = index := by
  have distinct : (a.entries.map Entry.name).Nodup := by
    rw [(entries_ofPackage opened).1]
    exact a.directory.nodup_names_entries
  refine ⟨distinct, fun index inside => ?_, fun path bytes found => ?_⟩
  · have listed := List.getElem?_eq_getElem (l := a.entries) inside
    exact ⟨_, listed, leadsAlike_of_listed distinct listed⟩
  · obtain ⟨index, e, listed, named, byIndex⟩ := exists_listed_of_read found
    obtain ⟨inside, _⟩ := List.getElem?_eq_some_iff.mp listed
    refine ⟨index, inside, byIndex, fun other content otherRead same => ?_⟩
    obtain ⟨f, otherListed, _, _, otherNamed⟩ := readIndex_eq_some_iff.mp otherRead
    exact index_eq_of_name distinct otherListed listed (otherNamed.trans (same.trans named.symm))

/-- The raw name of two files reads as a letter with an accent. Under the letter the second file is
found, and the index has one entry for both. -/
theorem resolves_accent_once : ofPackage (twins 0x82) = .ok (openedTwins "é" 0x82) ∧
    (openedTwins "é" 0x82).read "é" = .ok (some (Bytes.ofList [])) ∧
    ∃ index < 1, (openedTwins "é" 0x82).readIndex index =
      .ok (some ⟨"é", Bytes.ofList []⟩) := by
  have checked : (openedTwins "é" 0x82).checkedContent (storedEntry "é" 0 0 32) =
      .ok (Bytes.ofList []) :=
    checkedContent_eq_ok_iff.mpr ⟨rfl, Nat.zero_le _, contentOf_secondTwin, by decide⟩
  have found : (openedTwins "é" 0x82).read "é" = .ok (some (Bytes.ofList [])) :=
    (read_eq_some_iff rfl).mpr
      ⟨storedRecord [0x82] 0 0 32, _, by decide +kernel, by decide +kernel, checked⟩
  obtain ⟨_, _, once⟩ := resolves_each_path_once ofPackage_twins_accent
  obtain ⟨index, inside, byIndex, _⟩ := once "é" _ found
  exact ⟨ofPackage_twins_accent, found, index, inside, byIndex⟩

end ExtensionAudit.Archive

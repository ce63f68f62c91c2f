import ExtensionAudit.Proofs.Archive.Index

namespace ExtensionAudit

/-- The kinds of the extra fields that stand one after the other. -/
def CentralRecord.fieldKinds (extra : List UInt8) : List Nat :=
  match extra with
  | k0 :: k1 :: l0 :: l1 :: rest =>
    Bytes.littleEndian [k0, k1] :: fieldKinds (rest.drop (Bytes.littleEndian [l0, l1]))
  | _ => []
termination_by extra.length
decreasing_by simp only [List.length_drop, List.length_cons]; omega

/-- The record itself says where its data are: it leaves no field to a 64-bit extension, and has
neither such an extension nor the extra field of a sealed entry. -/
structure CentralRecord.SpeaksForItself (r : CentralRecord) : Prop where
  notExtended : r.isExtended = false
  noWideField : 0x0001 ∉ fieldKinds r.extra
  noSealField : 0x9901 ∉ fieldKinds r.extra

namespace Entry

/-- What a draft says about the data: seal, method, sizes and offset. -/
def Draft.data (d : Draft) : Bool × UInt16 × Nat × Nat × Nat :=
  (d.isSealed, d.method, d.compressedSize, d.uncompressedSize, d.headerOffset)

theorem Draft.data_of_rename? {d changed : Draft} {content : List UInt8}
    (read : d.rename? content = some changed) : changed.data = d.data := by
  obtain ⟨rawName, _, rest⟩ := Option.bind_eq_some_iff.mp read
  obtain ⟨name, _, same⟩ := Option.bind_eq_some_iff.mp rest
  cases Option.some.inj same
  rfl

theorem Draft.data_of_recomment? {d changed : Draft} {content : List UInt8}
    (read : d.recomment? content = some changed) : changed.data = d.data := by
  obtain ⟨raw, _, rest⟩ := Option.bind_eq_some_iff.mp read
  obtain ⟨comment, _, same⟩ := Option.bind_eq_some_iff.mp rest
  cases Option.some.inj same
  rfl

/-- A field that is neither a 64-bit extension nor a seal says nothing about the data. -/
theorem Draft.data_of_field? {d changed : Draft} {kind length : Nat} {content : List UInt8}
    (read : d.field? kind length content = some changed) (notWide : kind ≠ 0x0001)
    (notSeal : kind ≠ 0x9901) : changed.data = d.data := by
  have kept {holds : Bool} (same : (if holds then some d else none) = some changed) :
      changed.data = d.data := by
    cases holds with
    | true => exact congrArg _ (Option.some.inj same).symm
    | false => exact nomatch same
  unfold field? at read
  simp only [if_neg notWide, if_neg notSeal] at read
  split at read
  · exact nomatch read
  · split at read
    · exact kept read
    · split at read
      · exact kept read
      · split at read
        · exact data_of_recomment? read
        · split at read
          · exact data_of_rename? read
          · exact congrArg _ (Option.some.inj read).symm

theorem Draft.data_of_fields? {d changed : Draft} {extra : List UInt8}
    (read : d.fields? extra = some changed) (noWide : 0x0001 ∉ CentralRecord.fieldKinds extra)
    (noSeal : 0x9901 ∉ CentralRecord.fieldKinds extra) : changed.data = d.data := by
  fun_induction Draft.fields? d extra with
  | case1 d => exact congrArg _ (Option.some.inj read).symm
  | case2 d _ => exact congrArg _ (Option.some.inj read).symm
  | case3 => exact nomatch read
  | case4 d k0 k1 l0 l1 rest length next taken ih =>
    rw [CentralRecord.fieldKinds, List.mem_cons, not_or] at noWide noSeal
    rw [ih read noWide.2 noSeal.2]
    exact data_of_field? taken (Ne.symm noWide.1) (Ne.symm noSeal.1)
  | case5 => exact nomatch read

/-- The entry has its data where the record says, in an archive that begins `archiveOffset` bytes
late, and as the record says. -/
structure HasDataOf (e : Entry) (archiveOffset : Nat) (r : CentralRecord) : Prop where
  encrypted : e.encrypted = (r.flags.toNat % 2 == 1)
  method : e.method = r.method
  checksum : e.checksum = r.checksum
  compressedSize : e.compressedSize = r.compressedSize.toNat
  uncompressedSize : e.uncompressedSize = r.uncompressedSize.toNat
  headerOffset : e.headerOffset = archiveOffset + r.localOffset.toNat

theorem hasDataOf_of_ofRecord? {archiveOffset : Nat} {r : CentralRecord} {e : Entry}
    (speaks : r.SpeaksForItself) (meant : ofRecord? archiveOffset r = some e) :
    e.HasDataOf archiveOffset r := by
  unfold ofRecord? at meant
  dsimp only at meant
  split at meant
  · cases meant
  · rename_i draft read
    have data := Draft.data_of_fields? read speaks.noWideField speaks.noSealField
    simp only [Draft.data, Prod.mk.injEq] at data
    obtain ⟨notSealed, method, compressed, uncompressed, offset⟩ := data
    split at meant
    · cases meant
    · split at meant
      · cases meant
      · cases Option.some.inj meant
        exact ⟨by simp [notSealed], method, rfl, compressed, uncompressed,
          by rw [offset, Nat.add_comm]⟩

end Entry

namespace Archive

variable {a : Archive} {r : CentralRecord} {e : Entry} {content : ByteArray}

/-- The content that is read past the index, of a record that is not marked as encrypted and that
has the checksum of the content. -/
def ReadsIntact (a : Archive) (r : CentralRecord) (content : ByteArray) : Prop :=
  a.readRecord r = .ok content ∧ r.flags.toNat % 2 = 0 ∧ Checksum.ofBytes content = r.checksum

theorem checkedContent_eq_ok_iff_readsIntact (speaks : r.SpeaksForItself)
    (data : e.HasDataOf a.directory.place.archiveOffset r) :
    a.checkedContent e = .ok content ↔ a.ReadsIntact r content := by
  have mark : e.encrypted = false ↔ r.flags.toNat % 2 = 0 := by
    rw [data.encrypted, beq_eq_false_iff_ne]
    omega
  rw [checkedContent_eq_ok_iff, ReadsIntact,
    readRecord_eq_ok_iff data.headerOffset data.method data.compressedSize, mark,
    data.uncompressedSize, data.checksum, speaks.notExtended]
  constructor
  · rintro ⟨plain, small, read, sum⟩
    exact ⟨⟨rfl, small, read⟩, plain, sum⟩
  · rintro ⟨⟨_, small, read⟩, plain, sum⟩
    exact ⟨plain, small, read, sum⟩

/-- Where a record speaks for itself, the index reads its entry exactly if it is read past the index
with the same content, is not marked as encrypted and has the checksum of the content. All declared
records of an opened package mean an entry, and a file among them is so read by its name or index if
the index keeps it. -/
theorem index_reads_intact {raw : ByteArray} (opened : ofPackage raw = .ok a) :
    (∀ r e, (r, e) ∈ a.directory.records →
      Entry.ofRecord? a.directory.place.archiveOffset r = some e) ∧
    ∀ r e, r.SpeaksForItself → Entry.ofRecord? a.directory.place.archiveOffset r = some e →
      ∀ content, (a.checkedContent e = .ok content ↔ a.ReadsIntact r content) ∧
        (∀ index, a.entries[index]? = some e →
          (a.readIndex index = .ok (some ⟨e.name, content⟩) ↔
            e.isDirectory = false ∧ a.ReadsIntact r content)) ∧
        ((a.directory.named e.name).getLast? = some (r, e) →
          (a.read e.name = .ok (some content) ↔
            e.isDirectory = false ∧ a.ReadsIntact r content)) := by
  obtain ⟨indexed, found⟩ := entries_ofPackage opened
  refine ⟨fun r e member =>
    Directory.ofRecord?_of_mem_readRecords? (Directory.readRecords?_of_ofArchive? found) member, ?_⟩
  intro r e speaks meant content
  have same : a.checkedContent e = .ok content ↔ a.ReadsIntact r content :=
    checkedContent_eq_ok_iff_readsIntact speaks (Entry.hasDataOf_of_ofRecord? speaks meant)
  refine ⟨same, fun index listed => ?_, fun last => ?_⟩
  · rw [readIndex_eq_some_iff, ← same]
    constructor
    · rintro ⟨other, atIndex, isFile, checked, _⟩
      cases Option.some.inj (listed.symm.trans atIndex)
      exact ⟨isFile, checked⟩
    · rintro ⟨isFile, checked⟩
      exact ⟨e, listed, isFile, checked, rfl⟩
  · rw [read_eq_some_iff indexed, ← same]
    constructor
    · rintro ⟨_, other, isLast, isFile, checked⟩
      cases Option.some.inj (last.symm.trans isLast)
      exact ⟨isFile, checked⟩
    · rintro ⟨isFile, checked⟩
      exact ⟨r, e, last, isFile, checked⟩

theorem storedRecord_speaksForItself (name : List UInt8) (checksum : UInt32) :
    (storedRecord name checksum 1 0).SpeaksForItself where
  notExtended := rfl
  noWideField := by simp [storedRecord, CentralRecord.fieldKinds]
  noSealField := by simp [storedRecord, CentralRecord.fieldKinds]

/-- The index keeps the second of two files with one name. The first is still read past it, and its
entry would be read with the same content. -/
theorem first_twin_reads_intact : ofPackage (twins 0x61) = .ok (openedTwins "a" 0x61) ∧
    (storedRecord [0x61] oneChecksum 1 0).SpeaksForItself ∧
    Entry.ofRecord? 0 (storedRecord [0x61] oneChecksum 1 0) =
      some (storedEntry "a" oneChecksum 1 0) ∧
    (openedTwins "a" 0x61).ReadsIntact (storedRecord [0x61] oneChecksum 1 0)
      (Bytes.ofList [0x31]) := by
  have speaks := storedRecord_speaksForItself [0x61] oneChecksum
  obtain ⟨means, reads⟩ := index_reads_intact ofPackage_twins_letter
  have meant : Entry.ofRecord? 0 (storedRecord [0x61] oneChecksum 1 0) =
      some (storedEntry "a" oneChecksum 1 0) := means _ _ List.mem_cons_self
  have sum : Checksum.ofBytes (Bytes.ofList [0x31]) = oneChecksum := by
    rw [Checksum.ofBytes_eq]
    decide +kernel
  have checked : (openedTwins "a" 0x61).checkedContent (storedEntry "a" oneChecksum 1 0) =
      .ok (Bytes.ofList [0x31]) :=
    checkedContent_eq_ok_iff.mpr ⟨rfl, by decide, contentOf_firstTwin, sum⟩
  exact ⟨ofPackage_twins_letter, speaks, meant, (reads _ _ speaks meant _).1.mp checked⟩

end Archive

end ExtensionAudit

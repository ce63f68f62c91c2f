import ExtensionAudit.Proofs.Archive.Declared

namespace ExtensionAudit

-- Powers are those of the core library, whatever else is imported.
attribute [local instance (high)] instPowNat

/-- What is dropped goes beyond the first field. -/
theorem Bytes.drop_append_of_le {field : List UInt8} {width k : Nat} (size : field.length = width)
    (rest : List UInt8) (behind : width ≤ k) : (field ++ rest).drop k = rest.drop (k - width) := by
  rw [List.drop_append, List.drop_eq_nil_of_le (size ▸ behind), List.nil_append, size]

theorem Bytes.drop_littleEndianOf {count k : Nat} (n : Nat) (rest : List UInt8)
    (behind : count ≤ k) : (littleEndianOf count n ++ rest).drop k = rest.drop (k - count) :=
  drop_append_of_le (length_littleEndianOf count n) rest behind

theorem Bytes.take_littleEndianOf (count n : Nat) (rest : List UInt8) :
    (littleEndianOf count n ++ rest).take count = littleEndianOf count n :=
  List.take_left' (length_littleEndianOf count n)

theorem Bytes.window_of_append {bytes : ByteArray} {front tail : List UInt8}
    (parts : toList bytes = front ++ tail) (k length : Nat) :
    window bytes (front.length + k) length = (tail.drop k).take length := by
  rw [window_eq, parts, List.drop_length_add_append]

namespace CentralRecord

/-- Name, extra fields and comment fit into the lengths that a record has for them. -/
structure Short (r : CentralRecord) : Prop where
  name : r.name.length < 2 ^ (16 : Nat)
  extra : r.extra.length < 2 ^ (16 : Nat)
  comment : r.comment.length < 2 ^ (16 : Nat)

theorem word16_eq {bytes : List UInt8} {start : Nat} {n : UInt16}
    (written : (bytes.drop start).take 2 = bytes16 n) : word16 bytes start = n := by
  rw [word16, written, bytes16, Bytes.littleEndian_littleEndianOf, Nat.mod_eq_of_lt n.toNat_lt,
    UInt16.ofNat_toNat]

theorem word32_eq {bytes : List UInt8} {start : Nat} {n : UInt32}
    (written : (bytes.drop start).take 4 = bytes32 n) : word32 bytes start = n := by
  rw [word32, written, bytes32, Bytes.littleEndian_littleEndianOf, Nat.mod_eq_of_lt n.toNat_lt,
    UInt32.ofNat_toNat]

theorem toNat_word16_eq {bytes : List UInt8} {start n : Nat} (small : n < 2 ^ (16 : Nat))
    (written : (bytes.drop start).take 2 = Bytes.littleEndianOf 2 n) :
    (word16 bytes start).toNat = n := by
  rw [word16, written, Bytes.littleEndian_littleEndianOf, Nat.mod_eq_of_lt small,
    UInt16.toNat_ofNat_of_lt' small]

theorem length_signature : signature.length = 4 := rfl

variable {r : CentralRecord}

/-- Behind the fixed fields of a record stand its name, extra fields and comment. -/
theorem drop_fixedSize_encode (r : CentralRecord) (rest : List UInt8) :
    (r.encode ++ rest).drop fixedSize = r.name ++ (r.extra ++ (r.comment ++ rest)) := by
  unfold encode fixedSize
  simp (disch := decide) only [bytes16, bytes32, List.append_assoc,
    Bytes.drop_append_of_le length_signature, Bytes.drop_littleEndianOf, List.drop_zero,
    Nat.reduceSub]

theorem lengths_encode (short : r.Short) (rest : List UInt8) :
    nameLength (r.encode ++ rest) = r.name.length ∧
      extraLength (r.encode ++ rest) = r.extra.length ∧
      commentLength (r.encode ++ rest) = r.comment.length := by
  refine ⟨toNat_word16_eq short.name ?_, toNat_word16_eq short.extra ?_,
    toNat_word16_eq short.comment ?_⟩
  all_goals
    unfold encode
    simp (disch := decide) only [bytes16, bytes32, List.append_assoc,
      Bytes.drop_append_of_le length_signature, Bytes.drop_littleEndianOf,
      Bytes.take_littleEndianOf, List.drop_zero, Nat.reduceSub]

theorem words_encode (r : CentralRecord) (rest : List UInt8) :
    word16 (r.encode ++ rest) 4 = r.versionMadeBy ∧
      word16 (r.encode ++ rest) 6 = r.versionNeeded ∧ word16 (r.encode ++ rest) 8 = r.flags ∧
      word16 (r.encode ++ rest) 10 = r.method ∧ word16 (r.encode ++ rest) 12 = r.time ∧
      word16 (r.encode ++ rest) 14 = r.date ∧ word32 (r.encode ++ rest) 16 = r.checksum ∧
      word32 (r.encode ++ rest) 20 = r.compressedSize ∧
      word32 (r.encode ++ rest) 24 = r.uncompressedSize ∧
      word16 (r.encode ++ rest) 34 = r.disk ∧
      word16 (r.encode ++ rest) 36 = r.internalAttributes ∧
      word32 (r.encode ++ rest) 38 = r.externalAttributes ∧
      word32 (r.encode ++ rest) 42 = r.localOffset := by
  refine ⟨word16_eq ?_, word16_eq ?_, word16_eq ?_, word16_eq ?_, word16_eq ?_, word16_eq ?_,
    word32_eq ?_, word32_eq ?_, word32_eq ?_, word16_eq ?_, word16_eq ?_, word32_eq ?_,
    word32_eq ?_⟩
  all_goals
    unfold encode
    simp (disch := decide) only [bytes16, bytes32, List.append_assoc,
      Bytes.drop_append_of_le length_signature, Bytes.drop_littleEndianOf,
      Bytes.take_littleEndianOf, List.drop_zero, Nat.reduceSub]

/-- A record that was written is read back, whatever follows. -/
theorem ofBytes_encode (short : r.Short) (rest : List UInt8) : ofBytes (r.encode ++ rest) = r := by
  obtain ⟨nameLength, extraLength, commentLength⟩ := lengths_encode short rest
  obtain ⟨madeBy, needed, flags, method, time, date, checksum, compressed, uncompressed, disk,
    internal, external, offset⟩ := words_encode r rest
  simp only [ofBytes, nameLength, extraLength, commentLength, drop_fixedSize_encode,
    List.take_left, List.drop_left, madeBy, needed, flags, method, time, date, checksum,
    compressed, uncompressed, disk, internal, external, offset]

theorem length_encode (r : CentralRecord) :
    r.encode.length = fixedSize + r.name.length + r.extra.length + r.comment.length := by
  unfold encode
  simp only [bytes16, bytes32, signature, fixedSize, List.length_append,
    Bytes.length_littleEndianOf, List.length_cons, List.length_nil]

theorem startsRecord_encode (r : CentralRecord) (rest : List UInt8) :
    startsRecord (r.encode ++ rest) = true := by
  have begins : (r.encode ++ rest).take 4 = signature := by
    unfold encode
    simp only [List.append_assoc]
    exact List.take_left' length_signature
  have room : fixedSize ≤ (r.encode ++ rest).length := by
    rw [List.length_append, length_encode]
    omega
  rw [startsRecord, begins, beq_self_eq_true, Bool.and_true, decide_eq_true_iff]
  exact room

theorem sizeAt_encode (short : r.Short) (rest : List UInt8) :
    sizeAt (r.encode ++ rest) = r.encode.length := by
  obtain ⟨nameLength, extraLength, commentLength⟩ := lengths_encode short rest
  rw [sizeAt, nameLength, extraLength, commentLength, length_encode]

theorem sizeAt_encode_le (short : r.Short) (rest : List UInt8) :
    sizeAt (r.encode ++ rest) ≤ (r.encode ++ rest).length := by
  rw [sizeAt_encode short, List.length_append]
  exact Nat.le_add_right _ _

theorem drop_sizeAt_encode (short : r.Short) (rest : List UInt8) :
    (r.encode ++ rest).drop (sizeAt (r.encode ++ rest)) = rest := by
  rw [sizeAt_encode short, List.drop_left]

/-- The walk lists records that were written one after the other, and goes on behind them. -/
theorem walk_encode {records : List CentralRecord} (short : ∀ r ∈ records, r.Short)
    (tail : List UInt8) :
    walk (records.flatMap encode ++ tail) = (walk tail).map (records ++ ·) := by
  induction records with
  | nil =>
    rw [List.flatMap_nil, List.nil_append]
    exact Option.map_id'.symm
  | cons r records ih =>
    obtain ⟨first, later⟩ := List.forall_mem_cons.mp short
    rw [List.flatMap_cons, List.append_assoc,
      walk_of_startsRecord (startsRecord_encode r _) (sizeAt_encode_le first _),
      drop_sizeAt_encode first, ofBytes_encode first, ih later, Option.map_map]
    rfl

end CentralRecord

namespace Directory

theorem readRecords?_encode {offset : Nat} {declared : List (CentralRecord × Entry)}
    (short : ∀ p ∈ declared, p.1.Short)
    (meant : ∀ p ∈ declared, Entry.ofRecord? offset p.1 = some p.2) (tail : List UInt8) :
    readRecords? offset declared.length
      ((declared.map Prod.fst).flatMap CentralRecord.encode ++ tail) = some declared := by
  induction declared with
  | nil => rfl
  | cons p declared ih =>
    obtain ⟨first, later⟩ := List.forall_mem_cons.mp short
    obtain ⟨means, others⟩ := List.forall_mem_cons.mp meant
    rw [List.map_cons, List.flatMap_cons, List.append_assoc, List.length_cons, readRecords?,
      CentralRecord.startsRecord_encode, decide_eq_true (CentralRecord.sizeAt_encode_le first _),
      CentralRecord.drop_sizeAt_encode first, CentralRecord.ofBytes_encode first, ih later others]
    simp [means]

theorem length_endSignature : endSignature.length = 4 := rfl

/-- An end record without a comment. -/
def endRecord (count size start : Nat) : List UInt8 :=
  endSignature ++ Bytes.littleEndianOf 2 0 ++ Bytes.littleEndianOf 2 0 ++
    Bytes.littleEndianOf 2 count ++ Bytes.littleEndianOf 2 count ++ Bytes.littleEndianOf 4 size ++
    Bytes.littleEndianOf 4 start ++ Bytes.littleEndianOf 2 0

theorem length_endRecord (count size start : Nat) :
    (endRecord count size start).length = endSize := by
  simp only [endRecord, List.length_append, Bytes.length_littleEndianOf]
  rfl

/-- Where nothing stands behind an end record, it leads to the directory. -/
theorem ofArchive?_of_last {archive : ByteArray} {offset : Nat} {d : Directory}
    (last : archive.size = offset + endSize) (led : ofEndRecord? archive offset = some d) :
    ofArchive? archive = some d := by
  have before (k : Nat) : lastBefore? archive (offset + k + 1) = some d := by
    induction k with
    | zero => rw [Nat.add_zero, lastBefore?, led]
    | succ k ih =>
      have noRecord : isEndRecord archive (offset + (k + 1)) = false := by
        rw [isEndRecord, Bool.and_eq_false_iff, decide_eq_false_iff_not]
        right
        omega
      rw [lastBefore?, ofEndRecord?, noRecord, if_neg (by decide)]
      exact ih
  rw [ofArchive?, last]
  exact before 21

end Directory

namespace Archive

/-- An archive of files that are written one after the other, with records that list them. -/
def written (files : List UInt8) (records : List CentralRecord) : ByteArray :=
  let directory := records.flatMap CentralRecord.encode
  Bytes.ofList (files ++ (directory ++
    Directory.endRecord records.length directory.length files.length))

/-- Where the end record of such an archive stands. -/
def endOffset (files : List UInt8) (records : List CentralRecord) : Nat :=
  files.length + (records.flatMap CentralRecord.encode).length

variable {files : List UInt8} {records : List CentralRecord}

theorem size_written (files : List UInt8) (records : List CentralRecord) :
    (written files records).size = endOffset files records + Directory.endSize := by
  rw [← Bytes.length_toList, written, Bytes.toList_ofList, List.length_append,
    List.length_append, Directory.length_endRecord, endOffset, Nat.add_assoc]

theorem exists_toList_written (files : List UInt8) (records : List CentralRecord) :
    ∃ behind, Bytes.toList (written files records) = files ++ behind :=
  ⟨_, Bytes.toList_ofList _⟩

theorem suffix_written (files : List UInt8) (records : List CentralRecord) :
    Bytes.suffix (written files records) files.length =
      records.flatMap CentralRecord.encode ++ Directory.endRecord records.length
        (records.flatMap CentralRecord.encode).length files.length := by
  rw [Bytes.suffix_eq, written, Bytes.toList_ofList, List.drop_left]

/-- The walk lists the records that were written. -/
theorem walkFrom_written (short : ∀ r ∈ records, r.Short) :
    CentralRecord.walkFrom (written files records) files.length = some records := by
  have noRecord : CentralRecord.walk (Directory.endRecord records.length
      (records.flatMap CentralRecord.encode).length files.length) = some [] := by
    rw [CentralRecord.walk, CentralRecord.startsRecord, Directory.length_endRecord]
    rfl
  rw [CentralRecord.walkFrom, suffix_written, CentralRecord.walk_encode short, noRecord,
    Option.map_some, List.append_nil]

theorem window_written (files : List UInt8) (records : List CentralRecord) (k length : Nat) :
    Bytes.window (written files records) (endOffset files records + k) length =
      ((Directory.endRecord records.length (records.flatMap CentralRecord.encode).length
        files.length).drop k).take length := by
  rw [endOffset, ← List.length_append]
  refine Bytes.window_of_append ?_ k length
  rw [written, Bytes.toList_ofList, List.append_assoc]

/-- What the end record says of an archive that was written. -/
theorem numbers_written (few : records.length < 2 ^ (16 : Nat))
    (near : files.length < 2 ^ (32 : Nat)) :
    Directory.numberAt (written files records) (endOffset files records + 4) 2 = 0 ∧
      Directory.numberAt (written files records) (endOffset files records + 6) 2 = 0 ∧
      Directory.numberAt (written files records) (endOffset files records + 8) 2 =
        records.length ∧
      Directory.numberAt (written files records) (endOffset files records + 10) 2 =
        records.length ∧
      Directory.numberAt (written files records) (endOffset files records + 16) 4 =
        files.length ∧
      Directory.numberAt (written files records) (endOffset files records + 20) 2 = 0 := by
  simp (disch := decide) only [Directory.numberAt, window_written, Directory.endRecord,
    List.append_assoc, Bytes.drop_append_of_le Directory.length_endSignature,
    Bytes.drop_littleEndianOf, Bytes.take_littleEndianOf, List.drop_zero, Nat.reduceSub,
    Bytes.littleEndian_littleEndianOf]
  exact ⟨trivial, trivial, Nat.mod_eq_of_lt few, Nat.mod_eq_of_lt few, Nat.mod_eq_of_lt near, rfl⟩

theorem isEndRecord_written (few : records.length < 2 ^ (16 : Nat))
    (near : files.length < 2 ^ (32 : Nat)) :
    Directory.isEndRecord (written files records) (endOffset files records) = true := by
  obtain ⟨-, -, -, -, -, comment⟩ := numbers_written few near
  have begins := window_written files records 0 4
  have signature : ((Directory.endRecord records.length
      (records.flatMap CentralRecord.encode).length files.length).drop 0).take 4 =
        Directory.endSignature := by
    simp only [List.drop_zero, Directory.endRecord, List.append_assoc]
    exact List.take_left' rfl
  rw [Nat.add_zero, signature] at begins
  rw [Directory.isEndRecord, Directory.hasSignature, begins, beq_self_eq_true, Bool.true_and,
    comment, Nat.add_zero, size_written, decide_eq_true (Nat.le_refl _)]

theorem isWide_written (few : records.length < 0xFFFF) (near : files.length < 0xFFFFFFFF) :
    Directory.isWide (written files records) (endOffset files records) = false := by
  obtain ⟨-, -, -, total, named, -⟩ :=
    numbers_written (Nat.lt_succ_of_lt few) (Nat.lt_succ_of_lt near)
  rw [Directory.isWide, total, named, beq_eq_false_iff_ne.mpr (Nat.ne_of_lt few),
    beq_eq_false_iff_ne.mpr (Nat.ne_of_lt near)]
  rfl

/-- The directory begins with its first record. -/
theorem firstRecord?_written (several : records ≠ []) :
    Directory.firstRecord? (written files records) files.length (endOffset files records) =
      some files.length := by
  obtain ⟨r, records, rfl⟩ := List.exists_cons_of_ne_nil several
  have behind : endOffset files (r :: records) - files.length =
      (r.encode.length + (records.flatMap CentralRecord.encode).length - 1) + 1 := by
    rw [endOffset, List.flatMap_cons, List.length_append, CentralRecord.length_encode]
    simp only [CentralRecord.fixedSize]
    omega
  have begins : Directory.hasSignature (written files (r :: records)) CentralRecord.signature
      files.length = true := by
    rw [Directory.hasSignature, Bytes.window_eq, written, Bytes.toList_ofList, List.drop_left,
      List.flatMap_cons, List.append_assoc]
    exact (Bool.and_eq_true_iff.mp (CentralRecord.startsRecord_encode r _)).2
  rw [Directory.firstRecord?, behind, Directory.firstFrom?, if_pos begins]

/-- The end record names the place of the directory. -/
theorem place?_written (several : records ≠ []) (few : records.length < 0xFFFF)
    (near : files.length < 0xFFFFFFFF) :
    Directory.place? (written files records) (endOffset files records) =
      some ⟨0, files.length, records.length⟩ := by
  obtain ⟨disk, start, count, total, named, -⟩ :=
    numbers_written (Nat.lt_succ_of_lt few) (Nat.lt_succ_of_lt near)
  have some : records.length ≠ 0 := fun none => several (List.length_eq_zero_iff.mp none)
  rw [Directory.place?, disk, start, count, total, named, firstRecord?_written several]
  simp [some]

/-- An archive that was written has the directory that was written. -/
theorem ofArchive?_written {declared : List (CentralRecord × Entry)}
    (several : declared ≠ []) (few : declared.length < 0xFFFF)
    (near : files.length < 0xFFFFFFFF) (short : ∀ p ∈ declared, p.1.Short)
    (meant : ∀ p ∈ declared, Entry.ofRecord? 0 p.1 = some p.2) :
    Directory.ofArchive? (written files (declared.map Prod.fst)) =
      some ⟨⟨0, files.length, declared.length⟩, declared⟩ := by
  have count : (declared.map Prod.fst).length < 0xFFFF := by rwa [List.length_map]
  have some : declared.map Prod.fst ≠ [] := fun none => several (List.map_eq_nil_iff.mp none)
  refine Directory.ofArchive?_of_last (size_written _ _) ?_
  rw [Directory.ofEndRecord?, isWide_written count near,
    isEndRecord_written (Nat.lt_succ_of_lt count) (Nat.lt_succ_of_lt near), if_pos rfl]
  simp only [Bool.false_eq_true, if_false, place?_written some count near, List.length_map]
  rw [suffix_written, Directory.readRecords?_encode short meant]
  rfl

theorem ofPackage_of_bare {raw : ByteArray} {d : Directory}
    (bare : Container.isContainer raw = false) (found : Directory.ofArchive? raw = some d) :
    ofPackage raw = .ok ⟨raw, d, d.entries⟩ := by
  simp [ofPackage, Container.payload, Container.header?, bare, found]

theorem isContainer_written (starts : localSignature <+: files) (records : List CentralRecord) :
    Container.isContainer (written files records) = false := by
  obtain ⟨rest, rfl⟩ := starts
  rw [Container.isContainer, Bytes.window_eq, written, Bytes.toList_ofList, List.drop_zero,
    List.append_assoc]
  rfl

/-- An archive that was written opens with the directory that was written. -/
theorem ofPackage_written {d : Directory} (starts : localSignature <+: files)
    (several : d.records ≠ []) (few : d.records.length < 0xFFFF) (near : files.length < 0xFFFFFFFF)
    (place : d.place = ⟨0, files.length, d.records.length⟩) (short : ∀ p ∈ d.records, p.1.Short)
    (meant : ∀ p ∈ d.records, Entry.ofRecord? 0 p.1 = some p.2) :
    ofPackage (written files (d.records.map Prod.fst)) =
      .ok ⟨written files (d.records.map Prod.fst), d, d.entries⟩ := by
  have found := ofArchive?_written several few near short meant
  rw [← place] at found
  exact ofPackage_of_bare (isContainer_written starts _) found

/-- The local part of a stored file. -/
def storedFile (name : List UInt8) (checksum : UInt32) (content : List UInt8) : List UInt8 :=
  localSignature ++ [20, 0, 0, 0, 0, 0, 0, 0, 0, 0] ++ CentralRecord.bytes32 checksum ++
    Bytes.littleEndianOf 4 content.length ++ Bytes.littleEndianOf 4 content.length ++
    Bytes.littleEndianOf 2 name.length ++ [0, 0] ++ name ++ content

def storedRecord (name : List UInt8) (checksum size offset : UInt32) : CentralRecord :=
  { versionMadeBy := 20, versionNeeded := 20, flags := 0, method := Entry.storedMethod, time := 0,
    date := 0, checksum, compressedSize := size, uncompressedSize := size, disk := 0,
    internalAttributes := 0, externalAttributes := 0, localOffset := offset, name,
    extra := [], comment := [] }

def storedEntry (name : String) (checksum : UInt32) (size offset : Nat) : Entry :=
  { name, encrypted := false, method := Entry.storedMethod, checksum, compressedSize := size,
    uncompressedSize := size, headerOffset := offset }

variable {a : Archive} {name content before behind : List UInt8} {checksum : UInt32} {text : String}

theorem short_letter (letter : UInt8) : [letter].length < 2 ^ (16 : Nat) :=
  Nat.one_lt_two_pow (by decide)

theorem short_storedRecord (short : name.length < 2 ^ (16 : Nat)) (checksum size offset : UInt32) :
    (storedRecord name checksum size offset).Short :=
  ⟨short, Nat.two_pow_pos 16, Nat.two_pow_pos 16⟩

/-- The record of a stored file means the entry with its name. -/
theorem ofRecord?_storedRecord (named : Text.decodeCodePage437 name = text)
    (checksum size offset : UInt32) :
    Entry.ofRecord? 0 (storedRecord name checksum size offset) =
      some (storedEntry text checksum size.toNat offset.toNat) := by
  have inside : ¬ 2 ^ (64 : Nat) ≤ offset.toNat := by
    have := offset.toNat_lt
    omega
  simp [Entry.ofRecord?, storedRecord, Entry.Draft.fields?, Entry.decodeText, named, storedEntry,
    inside, Entry.storedMethod, Entry.sealedMethod]

theorem length_storedFile (name : List UInt8) (checksum : UInt32) (content : List UInt8) :
    (storedFile name checksum content).length = localSize + name.length + content.length := by
  simp only [storedFile, localSignature, localSize, CentralRecord.bytes32, List.length_append,
    Bytes.length_littleEndianOf, List.length_cons, List.length_nil]

theorem length_localSignature : localSignature.length = 4 := rfl

theorem prefix_storedFile (name : List UInt8) (checksum : UInt32) (content rest : List UInt8) :
    localSignature <+: storedFile name checksum content ++ rest := by
  simp only [storedFile, List.append_assoc]
  exact List.prefix_append _ _

/-- Behind its header a stored file has its name and then its content. -/
theorem drop_storedFile (name : List UInt8) (checksum : UInt32) (content rest : List UInt8) :
    (storedFile name checksum content ++ rest).drop localSize = name ++ (content ++ rest) := by
  have size : (localSignature ++ [20, 0, 0, 0, 0, 0, 0, 0, 0, 0] ++
      CentralRecord.bytes32 checksum ++ Bytes.littleEndianOf 4 content.length ++
      Bytes.littleEndianOf 4 content.length ++ Bytes.littleEndianOf 2 name.length ++
      [0, 0]).length = localSize := by
    simp only [List.length_append, CentralRecord.bytes32, Bytes.length_littleEndianOf]
    rfl
  rw [storedFile, List.append_assoc, List.append_assoc, List.drop_left' size]

/-- What the header of a stored file says. -/
theorem numbers_storedFile (short : name.length < 2 ^ (16 : Nat))
    (parts : Bytes.toList a.bytes = before ++ (storedFile name checksum content ++ behind)) :
    hasLocalHeader a.bytes before.length = true ∧
      dataStart a.bytes before.length = before.length + (localSize + name.length) := by
  have signature : Directory.hasSignature a.bytes localSignature before.length = true := by
    have begins := Bytes.window_of_append parts 0 4
    rw [Nat.add_zero, List.drop_zero] at begins
    rw [Directory.hasSignature, begins, storedFile]
    simp only [List.append_assoc]
    exact beq_iff_eq.mpr (List.take_left' rfl)
  have room : before.length + localSize ≤ a.bytes.size := by
    rw [← Bytes.length_toList, parts, List.length_append, List.length_append, length_storedFile]
    omega
  have nameLength : Directory.numberAt a.bytes (before.length + 26) 2 = name.length := by
    rw [Directory.numberAt, Bytes.window_of_append parts, storedFile]
    simp (disch := decide) only [CentralRecord.bytes32, List.append_assoc,
      Bytes.drop_append_of_le length_localSignature, List.cons_append, List.nil_append,
      List.drop_succ_cons, Bytes.drop_littleEndianOf, Bytes.take_littleEndianOf, List.drop_zero,
      Nat.reduceSub, Bytes.littleEndian_littleEndianOf]
    exact Nat.mod_eq_of_lt short
  have extraLength : Directory.numberAt a.bytes (before.length + 28) 2 = 0 := by
    rw [Directory.numberAt, Bytes.window_of_append parts, storedFile]
    simp (disch := decide) only [CentralRecord.bytes32, List.append_assoc,
      Bytes.drop_append_of_le length_localSignature, List.cons_append, List.nil_append,
      List.drop_succ_cons, Bytes.drop_littleEndianOf, List.drop_zero, Nat.reduceSub]
    rfl
  refine ⟨by rw [hasLocalHeader, signature, decide_eq_true room]; rfl, ?_⟩
  rw [dataStart, nameLength, extraLength, Nat.add_zero, Nat.add_assoc]

end Archive

end ExtensionAudit

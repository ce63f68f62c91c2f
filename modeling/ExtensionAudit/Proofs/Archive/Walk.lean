import ExtensionAudit.Proofs.Archive.FirstFile

namespace ExtensionAudit

-- Powers are those of the core library, whatever else is imported.
attribute [local instance (high)] instPowNat

/-- The bytes of a field are the digits of a number that fits into the field. -/
theorem Bytes.digits_of_room {bytes : List UInt8} {start width : Nat}
    (room : start + width ≤ bytes.length) :
    littleEndian ((bytes.drop start).take width) < 256 ^ width ∧
      littleEndianOf width (littleEndian ((bytes.drop start).take width)) =
        (bytes.drop start).take width := by
  have size : ((bytes.drop start).take width).length = width := by
    rw [List.length_take, List.length_drop]
    omega
  have below := littleEndian_lt ((bytes.drop start).take width)
  have digits := littleEndianOf_littleEndian ((bytes.drop start).take width)
  rw [size] at below digits
  exact ⟨below, digits⟩

namespace CentralRecord

variable {bytes : List UInt8}

theorem bytes16_word16 {start : Nat} (room : start + 2 ≤ bytes.length) :
    bytes16 (word16 bytes start) = (bytes.drop start).take 2 := by
  obtain ⟨small, digits⟩ := Bytes.digits_of_room room
  rw [bytes16, word16, UInt16.toNat_ofNat_of_lt' small, digits]

theorem bytes32_word32 {start : Nat} (room : start + 4 ≤ bytes.length) :
    bytes32 (word32 bytes start) = (bytes.drop start).take 4 := by
  obtain ⟨small, digits⟩ := Bytes.digits_of_room room
  rw [bytes32, word32, UInt32.toNat_ofNat_of_lt' small, digits]

/-- A length that is read from a field is written as the field. -/
theorem digits_of_length {length start : Nat} (read : length = (word16 bytes start).toNat)
    (room : start + 2 ≤ bytes.length) :
    Bytes.littleEndianOf 2 length = (bytes.drop start).take 2 := by
  rw [read]
  exact bytes16_word16 room

/-- A whole record has a name, extra fields and a comment of the lengths that it gives for them. -/
theorem lengths_ofBytes (whole : sizeAt bytes ≤ bytes.length) :
    (ofBytes bytes).name.length = nameLength bytes ∧
      (ofBytes bytes).extra.length = extraLength bytes ∧
      (ofBytes bytes).comment.length = commentLength bytes := by
  simp only [sizeAt] at whole
  simp only [ofBytes, List.length_take, List.length_drop]
  omega

theorem short_ofBytes (whole : sizeAt bytes ≤ bytes.length) : (ofBytes bytes).Short := by
  obtain ⟨name, extra, comment⟩ := lengths_ofBytes whole
  refine ⟨?_, ?_, ?_⟩
  · rw [name]
    exact (word16 bytes 28).toNat_lt
  · rw [extra]
    exact (word16 bytes 30).toNat_lt
  · rw [comment]
    exact (word16 bytes 32).toNat_lt

/-- A whole record is the bytes that it takes up: nothing in them is lost. -/
theorem encode_ofBytes (starts : startsRecord bytes = true)
    (whole : sizeAt bytes ≤ bytes.length) :
    (ofBytes bytes).encode = bytes.take (sizeAt bytes) := by
  obtain ⟨room, begins⟩ := Bool.and_eq_true_iff.mp starts
  have fixed : 46 ≤ bytes.length := of_decide_eq_true room
  have signed : signature = bytes.take 4 := (beq_iff_eq.mp begins).symm
  obtain ⟨name, extra, comment⟩ := lengths_ofBytes whole
  have nameLength := digits_of_length name (by omega)
  have extraLength := digits_of_length extra (by omega)
  have commentLength := digits_of_length comment (by omega)
  unfold encode
  simp only [signed, nameLength, extraLength, commentLength]
  -- Each field begins where the one before it ends.
  simp (disch := omega) only [ofBytes, bytes16_word16, bytes32_word32, fixedSize, sizeAt,
    List.drop_drop, ← List.take_add, Nat.reduceAdd]

theorem eq_encode_append_drop (starts : startsRecord bytes = true)
    (whole : sizeAt bytes ≤ bytes.length) :
    bytes = (ofBytes bytes).encode ++ bytes.drop (sizeAt bytes) := by
  rw [encode_ofBytes starts whole, List.take_append_drop]

/-- A record begins here, and its name is cut off by the end of the bytes. -/
def CutsName (bytes : List UInt8) : Prop :=
  startsRecord bytes = true ∧ bytes.length < fixedSize + nameLength bytes

theorem walk_of_cutsName (cut : CutsName bytes) : walk bytes = none := by
  rw [walk, dif_pos cut.1, if_pos cut.2]

theorem walk_nil : walk [] = some [] := by
  rw [walk, dif_neg (by decide)]

/-- The walk fails exactly if some whole records are followed by one with its name cut off. -/
theorem walk_eq_none_iff : walk bytes = none ↔
    ∃ (records : List CentralRecord) (rest : List UInt8), (∀ r ∈ records, r.Short) ∧
      bytes = records.flatMap encode ++ rest ∧ CutsName rest := by
  constructor
  · intro fails
    fun_induction walk bytes with
    | case1 bytes starts cut => exact ⟨[], bytes, by simp, rfl, starts, cut⟩
    | case2 bytes starts named ih =>
      have failsBehind := Option.map_eq_none_iff.mp fails
      -- A record that is cut off behind its name is the last one, and nothing fails behind it.
      have whole : sizeAt bytes ≤ bytes.length := by
        refine Nat.le_of_not_lt fun cut => ?_
        rw [List.drop_eq_nil_of_le (Nat.le_of_lt cut), walk_nil] at failsBehind
        exact nomatch failsBehind
      obtain ⟨records, rest, short, parts, cut⟩ := ih failsBehind
      refine ⟨ofBytes bytes :: records, rest,
        List.forall_mem_cons.mpr ⟨short_ofBytes whole, short⟩, ?_, cut⟩
      rw [List.flatMap_cons, List.append_assoc, ← parts]
      exact eq_encode_append_drop starts whole
    | case3 bytes => exact nomatch fails
  · rintro ⟨records, rest, short, rfl, cut⟩
    rw [walk_encode short, walk_of_cutsName cut]
    rfl

end CentralRecord

namespace Directory

/-- The records that the opener read, in the order of the directory. -/
def declared (d : Directory) : List CentralRecord :=
  d.records.map Prod.fst

/-- The declared records are as many as is said, each is whole, and they are the bytes that they
are read from. -/
theorem bytes_of_readRecords? {offset count : Nat} {bytes : List UInt8}
    {records : List (CentralRecord × Entry)}
    (read : readRecords? offset count bytes = some records) :
    records.length = count ∧ (∀ r ∈ records.map Prod.fst, r.Short) ∧
      ∃ behind, bytes = (records.map Prod.fst).flatMap CentralRecord.encode ++ behind := by
  induction count generalizing bytes records with
  | zero =>
    cases Option.some.inj read
    exact ⟨rfl, by simp, bytes, rfl⟩
  | succ count ih =>
    obtain ⟨starts, whole, entry, later, _, tail, rfl⟩ := readRecords?_succ read
    obtain ⟨number, short, behind, parts⟩ := ih tail
    refine ⟨congrArg (· + 1) number,
      List.forall_mem_cons.mpr ⟨CentralRecord.short_ofBytes whole, short⟩, behind, ?_⟩
    rw [List.map_cons, List.flatMap_cons, List.append_assoc, ← parts]
    exact CentralRecord.eq_encode_append_drop starts whole

end Directory

namespace Archive

variable {a : Archive}

/-- In an opened archive the declared records are as many as is said, and stand one after the other
from the start of the directory on. The walk from there lists them first, in their order and with
all their fields, and goes on with what stands behind them. It can fail only there: if more whole
records stand there and after them one with its name cut off. -/
theorem walk_lists_declared {raw : ByteArray} (opened : ofPackage raw = .ok a) :
    a.directory.declared.length = a.directory.place.count ∧
      ∃ behind, Bytes.suffix a.bytes a.directory.place.start =
          a.directory.declared.flatMap CentralRecord.encode ++ behind ∧
        CentralRecord.walkFrom a.bytes a.directory.place.start =
          (CentralRecord.walk behind).map (a.directory.declared ++ ·) ∧
        (∀ listed, CentralRecord.walkFrom a.bytes a.directory.place.start = some listed →
          listed.take a.directory.place.count = a.directory.declared) ∧
        (CentralRecord.walkFrom a.bytes a.directory.place.start = none ↔
          ∃ (later : List CentralRecord) (rest : List UInt8), (∀ r ∈ later, r.Short) ∧
            behind = later.flatMap CentralRecord.encode ++ rest ∧ CentralRecord.CutsName rest) := by
  obtain ⟨_, found⟩ := entries_ofPackage opened
  obtain ⟨number, short, behind, parts⟩ :=
    Directory.bytes_of_readRecords? (Directory.readRecords?_of_ofArchive? found)
  have count : a.directory.declared.length = a.directory.place.count := by
    rw [Directory.declared, List.length_map, number]
  have walked : CentralRecord.walkFrom a.bytes a.directory.place.start =
      (CentralRecord.walk behind).map (a.directory.declared ++ ·) := by
    rw [CentralRecord.walkFrom, parts, CentralRecord.walk_encode short]
    rfl
  refine ⟨count, behind, parts, walked, fun listed succeeds => ?_, ?_⟩
  · rw [walked] at succeeds
    obtain ⟨later, _, rfl⟩ := Option.map_eq_some_iff.mp succeeds
    exact List.take_left' count
  · rw [walked, Option.map_eq_none_iff, CentralRecord.walk_eq_none_iff]

/-- The package with two files of one name declares both, and the walk lists both first. -/
theorem walk_lists_twins : ofPackage (twins 0x61) = .ok (openedTwins "a" 0x61) ∧
    (openedTwins "a" 0x61).directory.declared.length = 2 ∧
    ∃ listed, CentralRecord.walkFrom (twins 0x61) 63 = some listed ∧
      listed.take 2 = [storedRecord [0x61] oneChecksum 1 0, storedRecord [0x61] 0 0 32] := by
  obtain ⟨count, _, _, _, first, _⟩ := walk_lists_declared ofPackage_twins_letter
  have walked : CentralRecord.walkFrom (twins 0x61) 63 =
      some ((twinsDirectory "a" 0x61).records.map Prod.fst) := walkFrom_twins
  exact ⟨ofPackage_twins_letter, count, _, walked, first _ walked⟩

end Archive

end ExtensionAudit

import ExtensionAudit.Proofs.Archive.Walk

namespace ExtensionAudit

/-- A field of a part that contains it is a field of the whole. -/
theorem Bytes.take_drop_take {bytes : List UInt8} {start width size : Nat}
    (inside : start + width ≤ size) :
    ((bytes.take size).drop start).take width = (bytes.drop start).take width := by
  rw [List.drop_take, List.take_take, Nat.min_eq_left (by omega)]

namespace CentralRecord

variable {bytes tail : List UInt8} {records : List CentralRecord}

theorem word16_take {start size : Nat} (inside : start + 2 ≤ size) :
    word16 (bytes.take size) start = word16 bytes start := by
  rw [word16, word16, Bytes.take_drop_take inside]

theorem word32_take {start size : Nat} (inside : start + 4 ≤ size) :
    word32 (bytes.take size) start = word32 bytes start := by
  rw [word32, word32, Bytes.take_drop_take inside]

/-- What the walk takes up for a record is all that it reads of it. -/
theorem ofBytes_take_sizeAt (bytes : List UInt8) :
    ofBytes (bytes.take (sizeAt bytes)) = ofBytes bytes := by
  have size : sizeAt bytes = 46 + nameLength bytes + extraLength bytes + commentLength bytes := rfl
  have name : nameLength (bytes.take (sizeAt bytes)) = nameLength bytes := by
    rw [nameLength, nameLength, word16_take (by omega)]
  have extra : extraLength (bytes.take (sizeAt bytes)) = extraLength bytes := by
    rw [extraLength, extraLength, word16_take (by omega)]
  have comment : commentLength (bytes.take (sizeAt bytes)) = commentLength bytes := by
    rw [commentLength, commentLength, word16_take (by omega)]
  simp (disch := omega) only [ofBytes, name, extra, comment, word16_take, word32_take, fixedSize,
    List.drop_drop, Bytes.take_drop_take]

theorem startsRecord_iff :
    startsRecord bytes = true ↔ fixedSize ≤ bytes.length ∧ signature <+: bytes := by
  rw [startsRecord, Bool.and_eq_true, decide_eq_true_iff, beq_iff_eq, List.prefix_iff_eq_take,
    eq_comm (a := signature)]
  rfl

/-- The piece that the walk takes up for a record begins as the record does, and has at least its
fixed fields. -/
theorem startsRecord_take_sizeAt (starts : startsRecord bytes = true) :
    startsRecord (bytes.take (sizeAt bytes)) = true := by
  obtain ⟨room, begins⟩ := startsRecord_iff.mp starts
  have fixed : fixedSize ≤ sizeAt bytes := by
    simp only [sizeAt]
    omega
  refine startsRecord_iff.mpr ⟨?_, ?_⟩
  · rw [List.length_take]
    exact Nat.le_min.mpr ⟨fixed, room⟩
  · exact List.prefix_take_iff.mpr ⟨begins, Nat.le_trans (by decide) fixed⟩

/-- The walk takes up pieces of the bytes and leaves a rest. It lists the records of the pieces if
no record begins at the rest, and fails if one begins there whose name is cut off. -/
theorem exists_pieces (bytes : List UInt8) : ∃ (pieces : List (List UInt8)) (rest : List UInt8),
    bytes = pieces.flatten ++ rest ∧ (∀ piece ∈ pieces, startsRecord piece = true) ∧
      (walk bytes = some (pieces.map ofBytes) ∧ startsRecord rest = false ∨
        walk bytes = none ∧ CutsName rest) := by
  fun_induction walk bytes with
  | case1 bytes starts cut => exact ⟨[], bytes, rfl, by simp, Or.inr ⟨rfl, starts, cut⟩⟩
  | case2 bytes starts named ih =>
    obtain ⟨pieces, rest, parts, begin, ends⟩ := ih
    refine ⟨bytes.take (sizeAt bytes) :: pieces, rest, ?_,
      List.forall_mem_cons.mpr ⟨startsRecord_take_sizeAt starts, begin⟩, ?_⟩
    · rw [List.flatten_cons, List.append_assoc, ← parts, List.take_append_drop]
    · rcases ends with ⟨listed, behind⟩ | ⟨failed, cut⟩
      · refine Or.inl ⟨?_, behind⟩
        rw [listed, List.map_cons, ofBytes_take_sizeAt, Option.map_some]
      · refine Or.inr ⟨?_, cut⟩
        rw [failed, Option.map_none]
  | case3 bytes starts =>
    exact ⟨[], bytes, rfl, by simp, Or.inl ⟨rfl, Bool.eq_false_iff.mpr starts⟩⟩

/-- Pieces with fixed fields need room for them. -/
theorem length_le_of_pieces {pieces : List (List UInt8)}
    (begin : ∀ piece ∈ pieces, startsRecord piece = true) :
    fixedSize * pieces.length ≤ pieces.flatten.length := by
  induction pieces with
  | nil => exact Nat.zero_le _
  | cons piece pieces ih =>
    obtain ⟨first, later⟩ := List.forall_mem_cons.mp begin
    have room := (startsRecord_iff.mp first).1
    have rooms := ih later
    rw [List.length_cons, Nat.mul_succ, List.flatten_cons, List.length_append]
    omega

/-- A tail that is too short for a record, or begins otherwise, ends the walk. -/
theorem walk_of_tail (ends : tail.length < fixedSize ∨ ¬ signature <+: tail) :
    walk tail = some [] := by
  have noRecord : ¬ startsRecord tail = true := by
    rw [startsRecord_iff]
    rintro ⟨room, begins⟩
    rcases ends with short | other
    · omega
    · exact other begins
  rw [walk, dif_neg noRecord]

theorem walkFrom_encode {front : List UInt8} (short : ∀ r ∈ records, r.Short)
    (ends : tail.length < fixedSize ∨ ¬ signature <+: tail) :
    walkFrom (Bytes.ofList (front ++ records.flatMap encode ++ tail)) front.length =
      some records := by
  rw [walkFrom, Bytes.suffix_eq, Bytes.toList_ofList, List.append_assoc, List.drop_left,
    walk_encode short, walk_of_tail ends, Option.map_some, List.append_nil]

/-- Records that were written one after the other are listed in their order with all their fields,
whatever stands in front of them, if what follows begins no record. Of any bytes, from any start,
the walk takes up a piece of at least the fixed size for each record that it lists, one piece after
the other. It ends where no record begins, and fails where one begins whose name is cut off. So
there are at most as many records as fixed sizes fit behind the start. -/
theorem walk_decodes_written :
    (∀ (records : List CentralRecord) (front tail : List UInt8), (∀ r ∈ records, r.Short) →
      (tail.length < fixedSize ∨ ¬ signature <+: tail) →
      walkFrom (Bytes.ofList (front ++ records.flatMap encode ++ tail)) front.length =
        some records) ∧
    ∀ (archive : ByteArray) (start : Nat), ∃ (pieces : List (List UInt8)) (rest : List UInt8),
      Bytes.suffix archive start = pieces.flatten ++ rest ∧
      (∀ piece ∈ pieces, fixedSize ≤ piece.length ∧ signature <+: piece) ∧
      (walkFrom archive start = some (pieces.map ofBytes) ∧ startsRecord rest = false ∨
        walkFrom archive start = none ∧ CutsName rest) ∧
      ∀ listed, walkFrom archive start = some listed →
        listed.length ≤ (archive.size - start) / fixedSize := by
  refine ⟨fun records front tail short ends => walkFrom_encode short ends, fun archive start => ?_⟩
  obtain ⟨pieces, rest, parts, begin, ends⟩ := exists_pieces (Bytes.suffix archive start)
  refine ⟨pieces, rest, parts, fun piece member => startsRecord_iff.mp (begin piece member), ends,
    fun listed lists => ?_⟩
  have few : pieces.length ≤ (archive.size - start) / fixedSize := by
    have room := length_le_of_pieces begin
    have whole : archive.size - start = pieces.flatten.length + rest.length := by
      rw [← List.length_append, ← parts, Bytes.suffix_eq, List.length_drop, Bytes.length_toList]
    rw [Nat.le_div_iff_mul_le (by decide), Nat.mul_comm]
    omega
  rcases ends with ⟨all, _⟩ | ⟨failed, _⟩
  · cases Option.some.inj (all.symm.trans lists)
    rw [List.length_map]
    exact few
  · exact nomatch failed.symm.trans lists

/-- A record with extra fields and a comment, and one that leaves its size to an extension, are
listed behind some other byte and before the end record. -/
theorem walk_decodes_pair :
    walkFrom (Bytes.ofList ([0x50] ++
        [{ Archive.storedRecord [0x61, 0x2F] 7 0 9 with extra := [1, 0, 0, 0], comment := [0x63] },
          Archive.storedRecord [] 0 0xFFFFFFFF 0].flatMap encode ++ Directory.endRecord 2 97 1)) 1 =
      some [{ Archive.storedRecord [0x61, 0x2F] 7 0 9 with
          extra := [1, 0, 0, 0], comment := [0x63] },
        Archive.storedRecord [] 0 0xFFFFFFFF 0] := by
  refine walk_decodes_written.1 _ [0x50] _ ?_ (Or.inl ?_)
  · intro r member
    rcases List.mem_cons.mp member with rfl | member
    · exact ⟨by decide, by decide, by decide⟩
    · rw [List.mem_singleton.mp member]
      exact ⟨by decide, by decide, by decide⟩
  · rw [Directory.length_endRecord]
    decide

end CentralRecord

end ExtensionAudit

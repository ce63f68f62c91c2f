import ExtensionAudit.Archive.Basic

namespace ExtensionAudit

-- Powers are those of the core library, whatever else is imported.
attribute [local instance (high)] instPowNat

/-- Whatever is wrong with a package, it is called corrupt. -/
theorem ArchiveError.prefix_message (fault : ArchiveError) :
    "Corrupt archive: ".toList <+: fault.message.toList := by
  have longer {text rest : String} (starts : "Corrupt archive: ".toList <+: text.toList) :
      "Corrupt archive: ".toList <+: (text ++ rest).toList := by
    rw [String.toList_append]
    exact starts.trans (List.prefix_append _ _)
  cases fault with
  | headerTruncated size => exact longer (longer (by decide))
  | headerPastEnd headerSize size => exact longer (longer (longer (longer (by decide))))
  | notAnArchive => exact by decide
  | unreadable entry fault => exact longer (longer (by decide))

namespace Container

variable {raw : ByteArray}

/-- The size of the signed header, as the bytes of a container name it. -/
def headerSizeOf (raw : ByteArray) : Nat :=
  Bytes.littleEndian (((Bytes.toList raw).drop 8).take 4)

theorem headerSizeOf_lt (raw : ByteArray) : headerSizeOf raw < 2 ^ (32 : Nat) := by
  have size : (((Bytes.toList raw).drop 8).take 4).length ≤ 4 := List.length_take_le _ _
  have bound := Bytes.littleEndian_lt (((Bytes.toList raw).drop 8).take 4)
  calc headerSizeOf raw < 256 ^ (((Bytes.toList raw).drop 8).take 4).length := bound
    _ ≤ 256 ^ (4 : Nat) := Nat.pow_le_pow_right (by decide) size
    _ = 2 ^ (32 : Nat) := by decide

theorem isContainer_iff : isContainer raw = true ↔ mark <+: Bytes.toList raw := by
  rw [isContainer, Bytes.window_eq, List.drop_zero, beq_iff_eq, List.prefix_iff_eq_take]
  exact eq_comm

theorem header?_of_bare (bare : ¬ mark <+: Bytes.toList raw) : header? raw = .ok none := by
  have noContainer : isContainer raw = false := by
    simpa using mt isContainer_iff.mp bare
  simp [header?, noContainer]

/-- The header of a container that has room for its fixed part. -/
theorem header?_of_marked (marked : mark <+: Bytes.toList raw) (room : fixedSize ≤ raw.size) :
    ∃ version, header? raw = .ok (some ⟨version, headerSizeOf raw⟩) := by
  have isContainer : isContainer raw = true := isContainer_iff.mpr marked
  have size : Bytes.littleEndian (Bytes.window raw 8 4) = headerSizeOf raw := by
    rw [Bytes.window_eq, headerSizeOf]
  refine ⟨Bytes.littleEndian (Bytes.window raw 4 4), ?_⟩
  rw [header?, isContainer, if_neg (by simp), if_neg (Nat.not_lt.mpr room), size]

theorem payload_of_bare (bare : ¬ mark <+: Bytes.toList raw) : payload raw = .ok raw := by
  rw [payload, header?_of_bare bare]

theorem payload_of_short (marked : mark <+: Bytes.toList raw) (short : raw.size < fixedSize) :
    payload raw = .error (.headerTruncated raw.size) := by
  have isContainer : isContainer raw = true := isContainer_iff.mpr marked
  simp [payload, header?, isContainer, short]

theorem payload_of_pastEnd (marked : mark <+: Bytes.toList raw) (room : fixedSize ≤ raw.size)
    (past : raw.size < fixedSize + headerSizeOf raw) :
    payload raw = .error (.headerPastEnd (headerSizeOf raw) raw.size) := by
  obtain ⟨version, header⟩ := header?_of_marked marked room
  rw [payload, header]
  exact if_pos past

theorem payload_of_marked (marked : mark <+: Bytes.toList raw)
    (room : fixedSize + headerSizeOf raw ≤ raw.size) :
    payload raw = .ok (Bytes.ofList ((Bytes.toList raw).drop (fixedSize + headerSizeOf raw))) := by
  obtain ⟨version, header⟩ := header?_of_marked marked (Nat.le_of_add_right_le room)
  have behind : raw.extract (fixedSize + headerSizeOf raw) raw.size =
      Bytes.ofList ((Bytes.toList raw).drop (fixedSize + headerSizeOf raw)) := by
    rw [← Bytes.suffix_eq, Bytes.suffix, Bytes.ofList_toList]
  rw [payload, header, ← behind]
  exact if_neg (Nat.not_lt.mpr room)

/-- A package is refused exactly if it is a container that ends before its archive begins. -/
theorem payload_eq_error_iff : (∃ fault, payload raw = .error fault) ↔
    mark <+: Bytes.toList raw ∧
      (raw.size < fixedSize ∨ raw.size < fixedSize + headerSizeOf raw) := by
  constructor
  · rintro ⟨fault, refused⟩
    by_cases marked : mark <+: Bytes.toList raw
    · by_cases past : raw.size < fixedSize + headerSizeOf raw
      · exact ⟨marked, Or.inr past⟩
      · rw [payload_of_marked marked (Nat.le_of_not_lt past)] at refused
        exact nomatch refused
    · rw [payload_of_bare marked] at refused
      exact nomatch refused
  · rintro ⟨marked, short | past⟩
    · exact ⟨_, payload_of_short marked short⟩
    · by_cases short : raw.size < fixedSize
      · exact ⟨_, payload_of_short marked short⟩
      · exact ⟨_, payload_of_pastEnd marked (Nat.le_of_not_lt short) past⟩

variable {version : Nat} {header archive : List UInt8}

theorem length_mark : mark.length = 4 := rfl

/-- Behind its header a container has the archive that it was made around. -/
theorem drop_wrap (version : Nat) (header archive : List UInt8) :
    (wrap version header archive).drop (fixedSize + header.length) = archive := by
  have size : (mark ++ Bytes.littleEndianOf 4 version ++
      Bytes.littleEndianOf 4 header.length ++ header).length = fixedSize + header.length := by
    simp only [List.length_append, Bytes.length_littleEndianOf, length_mark, fixedSize]
  rw [wrap, List.drop_left' size]

theorem headerSizeOf_wrap (version : Nat) (archive : List UInt8)
    (small : header.length < 2 ^ (32 : Nat)) :
    headerSizeOf (Bytes.ofList (wrap version header archive)) = header.length := by
  have before : (mark ++ Bytes.littleEndianOf 4 version).length = 8 := by
    rw [List.length_append, Bytes.length_littleEndianOf, length_mark]
  have digits : (Bytes.littleEndianOf 4 header.length).length = 4 :=
    Bytes.length_littleEndianOf _ _
  rw [headerSizeOf, Bytes.toList_ofList, wrap, List.append_assoc, List.append_assoc,
    List.drop_left' before, List.take_left' digits, Bytes.littleEndian_littleEndianOf]
  exact Nat.mod_eq_of_lt small

theorem payload_wrap (version : Nat) (archive : List UInt8)
    (small : header.length < 2 ^ (32 : Nat)) :
    payload (Bytes.ofList (wrap version header archive)) = .ok (Bytes.ofList archive) := by
  have marked : mark <+: Bytes.toList (Bytes.ofList (wrap version header archive)) := by
    rw [Bytes.toList_ofList, wrap, List.append_assoc, List.append_assoc, List.append_assoc]
    exact List.prefix_append _ _
  have size := headerSizeOf_wrap version archive small
  have room : fixedSize + headerSizeOf (Bytes.ofList (wrap version header archive)) ≤
      (Bytes.ofList (wrap version header archive)).size := by
    rw [size, ← Bytes.length_toList, Bytes.toList_ofList]
    simp only [wrap, List.length_append, Bytes.length_littleEndianOf, length_mark, fixedSize]
    omega
  rw [payload_of_marked marked room, size, Bytes.toList_ofList, drop_wrap]

/-- A container opens like the bare archive in it. -/
theorem ofPackage_wrap (small : header.length < 2 ^ (32 : Nat)) (bare : ¬ mark <+: archive) :
    Archive.ofPackage (Bytes.ofList (wrap version header archive)) =
      Archive.ofPackage (Bytes.ofList archive) := by
  have unwrapped := payload_wrap version archive small
  have itself : payload (Bytes.ofList archive) = .ok (Bytes.ofList archive) :=
    payload_of_bare bare
  rw [Archive.ofPackage, Archive.ofPackage, unwrapped, itself]

end Container

end ExtensionAudit

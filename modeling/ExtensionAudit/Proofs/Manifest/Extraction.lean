import ExtensionAudit.Files.Basic
import ExtensionAudit.Proofs.Archive.Index

namespace ExtensionAudit

theorem eq_ok_of_toOption {ε α : Type} {outcome : Except ε α} {value : α}
    (same : outcome.toOption = some value) : outcome = .ok value := by
  cases outcome with
  | error fault => exact nomatch same
  | ok found => exact congrArg Except.ok (Option.some.inj same)

end ExtensionAudit

namespace ExtensionAudit.Manifest

-- Powers are those of the core library, whatever else is imported.
attribute [local instance (high)] instPowNat

variable {a : Archive} {m : Manifest} {raw : ByteArray}

/-- A manifest is read from the first file of the proper name; the URLs come from the package. -/
theorem ofArchive_eq_ok_iff : ofArchive a = .ok m ↔ ∃ bytes parsed,
    a.readFirst path = .ok (some bytes) ∧ ofBytes bytes = .ok parsed ∧
      m = { parsed with embeddedUrls := a.urls } := by
  unfold ofArchive
  cases a.readFirst path with
  | error fault => simp
  | ok found =>
    cases found with
    | none => simp
    | some bytes => cases parsed : ofBytes bytes <;> simp [parsed, eq_comm]

/-- A manifest that is well-formed and the first of its name is taken from the package. -/
theorem exists_ofArchive {bytes : ByteArray} (first : a.readFirst path = .ok (some bytes))
    (reads : (ofBytes bytes).isOk = true) : ∃ m, ofArchive a = .ok m ∧ m.embeddedUrls = a.urls := by
  cases parsed : ofBytes bytes with
  | error fault => exact nomatch (parsed ▸ reads : (Except.error fault).isOk = true)
  | ok manifest => exact ⟨_, ofArchive_eq_ok_iff.mpr ⟨_, manifest, first, parsed, rfl⟩, rfl⟩

theorem exists_text_of_ofBytes {bytes : ByteArray} {parsed : Manifest}
    (read : ofBytes bytes = .ok parsed) : ∃ text, String.fromUTF8? bytes = some text := by
  unfold ofBytes at read
  cases text : String.fromUTF8? bytes with
  | none => simp [text] at read
  | some found => exact ⟨found, rfl⟩

/-- The URLs of the manifest that is analyzed are found exactly if the last declared files of all
names show them. That is so where the walk lists fewer than two files of the name of the manifest,
and where reading by name gives the manifest that is analyzed. -/
theorem embedded_iff_shown (opened : Archive.ofPackage raw = .ok a)
    (extracted : ofArchive a = .ok m) :
    ∃ bytes text, a.readFirst path = .ok (some bytes) ∧ String.fromUTF8? bytes = some text ∧
      ((∀ url ∈ Url.literals text, url ∈ m.embeddedUrls) ↔
        ∀ url ∈ Url.literals text, a.Shows url) ∧
      ((a.recordsOf path).length < 2 ∨ a.read path = .ok (some bytes) →
        ∀ url ∈ Url.literals text, url ∈ m.embeddedUrls) := by
  obtain ⟨indexed, _⟩ := Archive.entries_ofPackage opened
  obtain ⟨bytes, parsed, first, read, rfl⟩ := ofArchive_eq_ok_iff.mp extracted
  obtain ⟨text, decoded⟩ := exists_text_of_ofBytes read
  refine ⟨bytes, text, first, decoded, ?_, fun meet url inText => ?_⟩
  · simp only [Archive.mem_urls_iff indexed]
  · have byName : a.read path = .ok (some bytes) := by
      rcases meet with few | same
      · rw [← Archive.readFirst_eq_read few, first]
      · exact same
    have inFile : url ∈ Content.urls ⟨path, bytes⟩ := by
      rw [Content.urls, decoded]
      exact inText
    exact (Archive.mem_urls_iff indexed).mpr (Archive.shows_of_read indexed byName inFile)

section Packages

variable {content first second before behind : List UInt8} {offset : Nat}

def rawPath : List UInt8 := Bytes.toList path.toUTF8

def checksum (content : List UInt8) : UInt32 := Checksum.ofBytes (Bytes.ofList content)

/-- A manifest as it is stored in a package. -/
def packedFile (content : List UInt8) : List UInt8 :=
  Archive.storedFile rawPath (checksum content) content

def packedRecord (content : List UInt8) (offset : Nat) : CentralRecord :=
  Archive.storedRecord rawPath (checksum content) (UInt32.ofNat content.length)
    (UInt32.ofNat offset)

def packedEntry (content : List UInt8) (offset : Nat) : Entry :=
  Archive.storedEntry path (checksum content) content.length offset

def loneDirectory (content : List UInt8) : Directory where
  place := ⟨0, (packedFile content).length, 1⟩
  records := [(packedRecord content 0, packedEntry content 0)]

/-- A package whose only file is a manifest. -/
def lonePackage (content : List UInt8) : ByteArray :=
  Archive.written (packedFile content) ((loneDirectory content).records.map Prod.fst)

def openedLone (content : List UInt8) : Archive :=
  ⟨lonePackage content, loneDirectory content, (loneDirectory content).entries⟩

def pairDirectory (first second : List UInt8) : Directory where
  place := ⟨0, (packedFile first ++ packedFile second).length, 2⟩
  records := [(packedRecord first 0, packedEntry first 0),
    (packedRecord second (packedFile first).length, packedEntry second (packedFile first).length)]

/-- A package in which one manifest follows another. -/
def pairPackage (first second : List UInt8) : ByteArray :=
  Archive.written (packedFile first ++ packedFile second)
    ((pairDirectory first second).records.map Prod.fst)

def openedPair (first second : List UInt8) : Archive :=
  ⟨pairPackage first second, pairDirectory first second, (pairDirectory first second).entries⟩

theorem length_rawPath : rawPath.length = 13 := by
  decide

theorem rawPath_short : rawPath.length < 2 ^ (16 : Nat) := by
  rw [length_rawPath]
  decide

theorem decode_rawPath : Text.decodeCodePage437 rawPath = path := by
  decide

theorem isFileNamed_packedRecord (content : List UInt8) (offset : Nat) :
    (packedRecord content offset).isFileNamed path = true := by
  have file : (rawPath.getLast? == some '/'.toUInt8) = false := by decide
  rw [CentralRecord.isFileNamed, CentralRecord.isDirectory]
  exact Bool.and_eq_true_iff.mpr ⟨beq_self_eq_true rawPath, congrArg not file⟩

theorem short_packedRecord (content : List UInt8) (offset : Nat) :
    (packedRecord content offset).Short :=
  Archive.short_storedRecord rawPath_short _ _ _

theorem length_packedFile (content : List UInt8) :
    (packedFile content).length = 43 + content.length := by
  rw [packedFile, Archive.length_storedFile, length_rawPath]
  rfl

theorem toNat_ofNat_length (small : content.length ≤ largestEntry) :
    (UInt32.ofNat content.length).toNat = content.length :=
  UInt32.toNat_ofNat_of_lt' (Nat.lt_of_le_of_lt small (by decide))

theorem ofRecord?_packedRecord (small : content.length ≤ largestEntry)
    (near : offset < 2 ^ (32 : Nat)) :
    Entry.ofRecord? 0 (packedRecord content offset) = some (packedEntry content offset) := by
  rw [packedRecord, Archive.ofRecord?_storedRecord decode_rawPath, toNat_ofNat_length small,
    UInt32.toNat_ofNat_of_lt' near, packedEntry]

theorem isExtended_packedRecord (small : content.length ≤ largestEntry) :
    (packedRecord content 0).isExtended = false := by
  have size : UInt32.ofNat content.length ≠ 0xFFFFFFFF := by
    intro same
    have length := congrArg UInt32.toNat same
    rw [toNat_ofNat_length small] at length
    rw [length] at small
    exact absurd small (by decide)
  simp [CentralRecord.isExtended, packedRecord, Archive.storedRecord, size]

/-- The entry of a packed manifest leads to the manifest. -/
theorem contentOf_packedEntry (small : content.length ≤ largestEntry)
    (parts : Bytes.toList a.bytes = before ++ (packedFile content ++ behind))
    (here : offset = before.length) :
    a.contentOf (packedEntry content offset) = .ok (Bytes.ofList content) :=
  Archive.contentOf_storedFile rawPath_short small parts here rfl rfl

theorem checkedContent_packedEntry (small : content.length ≤ largestEntry)
    (parts : Bytes.toList a.bytes = before ++ (packedFile content ++ behind))
    (here : offset = before.length) :
    a.checkedContent (packedEntry content offset) = .ok (Bytes.ofList content) :=
  Archive.checkedContent_eq_ok_iff.mpr ⟨rfl, small, contentOf_packedEntry small parts here, rfl⟩

theorem packedFile_starts (content rest : List UInt8) :
    Archive.localSignature <+: packedFile content ++ rest :=
  Archive.prefix_storedFile _ _ _ _

theorem isDirectory_packedEntry (content : List UInt8) (offset : Nat) :
    (packedEntry content offset).isDirectory = false := by
  simp [Entry.isDirectory, packedEntry, Archive.storedEntry, path]

theorem ofPackage_lonePackage (small : content.length ≤ largestEntry) :
    Archive.ofPackage (lonePackage content) = .ok (openedLone content) := by
  have starts := packedFile_starts content []
  rw [List.append_nil] at starts
  have near : (packedFile content).length < 0xFFFFFFFF := by
    rw [length_packedFile]
    simp only [largestEntry] at small
    omega
  exact Archive.ofPackage_written starts (List.cons_ne_nil _ _) (by simp [loneDirectory]) near rfl
    (List.forall_mem_singleton.mpr (short_packedRecord content 0))
    (List.forall_mem_singleton.mpr (ofRecord?_packedRecord small (by decide)))

theorem ofPackage_pairPackage (small : first.length ≤ largestEntry)
    (small' : second.length ≤ largestEntry) :
    Archive.ofPackage (pairPackage first second) = .ok (openedPair first second) := by
  have near : (packedFile first ++ packedFile second).length < 0xFFFFFFFF := by
    rw [List.length_append, length_packedFile, length_packedFile]
    simp only [largestEntry] at small small'
    omega
  have behind : (packedFile first).length < 0xFFFFFFFF := by
    rw [List.length_append] at near
    omega
  exact Archive.ofPackage_written (packedFile_starts _ _) (List.cons_ne_nil _ _)
    (by simp [pairDirectory]) near rfl
    (List.forall_mem_cons.mpr ⟨short_packedRecord first 0,
      List.forall_mem_singleton.mpr (short_packedRecord second _)⟩)
    (List.forall_mem_cons.mpr ⟨ofRecord?_packedRecord small (by decide),
      List.forall_mem_singleton.mpr (ofRecord?_packedRecord small' (Nat.lt_succ_of_lt behind))⟩)

theorem recordsOf_openedLone (content : List UInt8) :
    (openedLone content).recordsOf path = [packedRecord content 0] := by
  have walked : CentralRecord.walkFrom (openedLone content).bytes
      (openedLone content).directory.place.start = some [packedRecord content 0] :=
    Archive.walkFrom_written (List.forall_mem_singleton.mpr (short_packedRecord content 0))
  rw [Archive.recordsOf_of_walkFrom walked]
  exact List.filter_eq_self.mpr
    (List.forall_mem_singleton.mpr (isFileNamed_packedRecord content 0))

theorem recordsOf_openedPair (first second : List UInt8) :
    (openedPair first second).recordsOf path =
      [packedRecord first 0, packedRecord second (packedFile first).length] := by
  have walked : CentralRecord.walkFrom (openedPair first second).bytes
      (openedPair first second).directory.place.start =
        some [packedRecord first 0, packedRecord second (packedFile first).length] :=
    Archive.walkFrom_written (List.forall_mem_cons.mpr ⟨short_packedRecord first 0,
      List.forall_mem_singleton.mpr (short_packedRecord second _)⟩)
  rw [Archive.recordsOf_of_walkFrom walked]
  exact List.filter_eq_self.mpr (List.forall_mem_cons.mpr ⟨isFileNamed_packedRecord first 0,
    List.forall_mem_singleton.mpr (isFileNamed_packedRecord second _)⟩)

theorem exists_toList_openedPair (first second : List UInt8) : ∃ behind,
    Bytes.toList (openedPair first second).bytes =
      packedFile first ++ (packedFile second ++ behind) := by
  obtain ⟨behind, parts⟩ := Archive.exists_toList_written (packedFile first ++ packedFile second)
    ((pairDirectory first second).records.map Prod.fst)
  rw [List.append_assoc] at parts
  exact ⟨behind, parts⟩

theorem named_openedLone (content : List UInt8) : (openedLone content).directory.named path =
    [(packedRecord content 0, packedEntry content 0)] := by
  simp [Directory.named, openedLone, loneDirectory, packedEntry, Archive.storedEntry]

theorem named_openedPair (first second : List UInt8) :
    (openedPair first second).directory.named path =
      [(packedRecord first 0, packedEntry first 0),
        (packedRecord second (packedFile first).length,
          packedEntry second (packedFile first).length)] := by
  simp [Directory.named, openedPair, pairDirectory, packedEntry, Archive.storedEntry]

/-- A lone manifest is the one that is read first. -/
theorem readFirst_openedLone (small : content.length ≤ largestEntry) :
    (openedLone content).readFirst path = .ok (some (Bytes.ofList content)) := by
  obtain ⟨behind, parts⟩ := Archive.exists_toList_written (packedFile content)
    ((loneDirectory content).records.map Prod.fst)
  have few : ((openedLone content).recordsOf path).length < 2 := by
    rw [recordsOf_openedLone, List.length_singleton]
    decide
  rw [Archive.readFirst_eq_read few, Archive.read_eq_some_iff rfl, named_openedLone]
  exact ⟨_, _, rfl, isDirectory_packedEntry content 0,
    checkedContent_packedEntry small (parts.trans (List.nil_append _).symm) rfl⟩

/-- Of two manifests the first one is read first. -/
theorem readFirst_openedPair (second : List UInt8) (small : first.length ≤ largestEntry) :
    (openedPair first second).readFirst path = .ok (some (Bytes.ofList first)) := by
  obtain ⟨behind, parts⟩ := exists_toList_openedPair first second
  have content : (openedPair first second).contentOf (packedEntry first 0) =
      .ok (Bytes.ofList first) :=
    contentOf_packedEntry small (parts.trans (List.nil_append _).symm) rfl
  have size := toNat_ofNat_length small
  have allowed : (packedRecord first 0).uncompressedSize.toNat ≤ largestEntry :=
    Nat.le_trans (Nat.le_of_eq size) small
  have direct : (openedPair first second).readRecord (packedRecord first 0) =
      .ok (Bytes.ofList first) :=
    (Archive.readRecord_eq_ok_iff rfl rfl size.symm).mpr
      ⟨isExtended_packedRecord small, allowed, content⟩
  exact (Archive.readFirst_eq_ok_iff (recordsOf_openedPair first second) _).mpr ⟨_, rfl, direct⟩

/-- Of two manifests only the second one is searched for URLs. -/
theorem mem_urls_openedPair_iff (first : List UInt8) (small : second.length ≤ largestEntry)
    {url : String} :
    url ∈ (openedPair first second).urls ↔ url ∈ Content.urls ⟨path, Bytes.ofList second⟩ := by
  obtain ⟨behind, parts⟩ := exists_toList_openedPair first second
  have checked : (openedPair first second).checkedContent
      (packedEntry second (packedFile first).length) = .ok (Bytes.ofList second) :=
    checkedContent_packedEntry small parts rfl
  rw [Archive.mem_urls_iff rfl]
  constructor
  · rintro ⟨r, e, content, isLast, -, read, shows⟩
    have name : e.name = path := by
      rcases List.mem_cons.mp (Archive.mem_named.mp (List.mem_of_getLast? isLast)).1 with
        same | member
      · cases same
        rfl
      · cases List.mem_singleton.mp member
        rfl
    rw [name, named_openedPair] at isLast
    cases Option.some.inj isLast
    cases Except.ok.inj (checked.symm.trans read)
    exact shows
  · intro shows
    exact ⟨_, _, _, congrArg List.getLast? (named_openedPair first second),
      isDirectory_packedEntry _ _, checked, shows⟩

/-- A manifest with nothing but a URL. -/
def homepage : String := "\x7b\"homepage_url\":\"ftp://a.b\"\x7d"

def rawHomepage : List UInt8 := Bytes.toList homepage.toUTF8

/-- A manifest with nothing. -/
def rawEmpty : List UInt8 := [0x7B, 0x7D]

theorem rawHomepage_small : rawHomepage.length ≤ largestEntry := by
  have length : rawHomepage.length = 28 := by decide
  rw [length]
  decide

theorem rawEmpty_small : rawEmpty.length ≤ largestEntry := by
  decide

theorem mem_literals_homepage : "ftp://a.b" ∈ Url.literals homepage := by
  decide +kernel

theorem fromUTF8?_rawHomepage : String.fromUTF8? (Bytes.ofList rawHomepage) = some homepage :=
  Files.fromUTF8?_toUTF8 homepage

theorem isOk_rawHomepage : (ofBytes (Bytes.ofList rawHomepage)).isOk = true := by
  decide +kernel

theorem isOk_rawEmpty : (ofBytes (Bytes.ofList rawEmpty)).isOk = true := by
  decide +kernel

/-- Of two manifests the first is analyzed and the second is searched for URLs, so the URL of the
first is not found. -/
theorem first_manifest_unsearched : ∃ m,
    Archive.ofPackage (pairPackage rawHomepage rawEmpty) =
        .ok (openedPair rawHomepage rawEmpty) ∧
      ofArchive (openedPair rawHomepage rawEmpty) = .ok m ∧
      (openedPair rawHomepage rawEmpty).readFirst path =
        .ok (some (Bytes.ofList rawHomepage)) ∧
      String.fromUTF8? (Bytes.ofList rawHomepage) = some homepage ∧
      "ftp://a.b" ∈ Url.literals homepage ∧ "ftp://a.b" ∉ m.embeddedUrls := by
  have first := readFirst_openedPair rawEmpty rawHomepage_small
  obtain ⟨m, extracted, urls⟩ := exists_ofArchive first isOk_rawHomepage
  have nothing : Content.urls ⟨path, Bytes.ofList rawEmpty⟩ = [] := by decide +kernel
  refine ⟨m, ofPackage_pairPackage rawHomepage_small rawEmpty_small, extracted, first,
    fromUTF8?_rawHomepage, mem_literals_homepage, ?_⟩
  rw [urls, mem_urls_openedPair_iff rawHomepage rawEmpty_small, nothing]
  exact List.not_mem_nil

/-- The URL of a lone manifest is found. -/
theorem lone_manifest_searched : ∃ m,
    Archive.ofPackage (lonePackage rawHomepage) = .ok (openedLone rawHomepage) ∧
      ofArchive (openedLone rawHomepage) = .ok m ∧
      "ftp://a.b" ∈ Url.literals homepage ∧ "ftp://a.b" ∈ m.embeddedUrls := by
  have opened := ofPackage_lonePackage rawHomepage_small
  have alone := readFirst_openedLone rawHomepage_small
  obtain ⟨m, extracted, -⟩ := exists_ofArchive alone isOk_rawHomepage
  obtain ⟨bytes, text, first, decoded, -, meet⟩ := embedded_iff_shown opened extracted
  rw [alone] at first
  cases Option.some.inj (Except.ok.inj first)
  cases Option.some.inj (fromUTF8?_rawHomepage.symm.trans decoded)
  have few : ((openedLone rawHomepage).recordsOf path).length < 2 := by
    rw [recordsOf_openedLone, List.length_singleton]
    decide
  exact ⟨m, opened, extracted, mem_literals_homepage,
    meet (Or.inl few) _ mem_literals_homepage⟩

end Packages

end ExtensionAudit.Manifest

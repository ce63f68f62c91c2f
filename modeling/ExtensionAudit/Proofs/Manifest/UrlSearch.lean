import ExtensionAudit.Files.Basic
import ExtensionAudit.Proofs.Archive.Index
import Mathlib.Data.List.Sort

namespace ExtensionAudit

-- Powers are those of the core library, whatever else is imported.
attribute [local instance (high)] instPowNat

/-- Sets with the same members are equal. -/
theorem TextSet.eq_of_mem_iff {set other : TextSet} (same : ∀ text, text ∈ set ↔ text ∈ other) :
    set = other := by
  have items : set.items = other.items := set.ascending.eq_of_mem_iff other.ascending same
  cases set
  cases other
  cases items
  rfl

namespace Directory

theorem placeEntry_of_new {e : Entry} {index : List Entry} (new : e.name ∉ index.map Entry.name) :
    placeEntry e index = index ++ [e] := by
  induction index with
  | nil => rfl
  | cons old index ih =>
    rw [List.map_cons, List.mem_cons, not_or] at new
    rw [placeEntry, if_neg (Ne.symm new.1), ih new.2, List.cons_append]

/-- Where no name is declared twice, the index has the declared entries in their order. -/
theorem entries_of_nodup {d : Directory} (distinct : (d.records.map (·.2.name)).Nodup) :
    d.entries = d.records.map Prod.snd := by
  have run (records : List (CentralRecord × Entry)) (index : List Entry)
      (distinct : (index.map Entry.name ++ records.map (·.2.name)).Nodup) :
      records.foldl (fun index (p : CentralRecord × Entry) => placeEntry p.2 index) index =
        index ++ records.map Prod.snd := by
    induction records generalizing index with
    | nil => rw [List.foldl_nil, List.map_nil, List.append_nil]
    | cons p records ih =>
      have new : p.2.name ∉ index.map Entry.name := fun old =>
        (List.nodup_append.mp distinct).2.2 _ old _ List.mem_cons_self rfl
      have grown : ((index ++ [p.2]).map Entry.name ++ records.map (·.2.name)).Nodup := by
        rw [List.map_append, List.append_assoc]
        exact distinct
      rw [List.foldl_cons, placeEntry_of_new new, ih _ grown, List.map_cons, List.append_assoc]
      rfl
  exact run d.records [] distinct

end Directory

namespace Archive

variable {a b : Archive} {e : Entry} {url text : String}

/-- The text of an entry: of a file that can be read and is text as a whole. -/
def text? (a : Archive) (e : Entry) : Option String :=
  if e.isDirectory then none
  else
    match a.checkedContent e with
    | .error _ => none
    | .ok content => String.fromUTF8? content

/-- What makes the search pass over an entry. -/
inductive PassesOver (a : Archive) (e : Entry) : Prop
  | directory (directory : e.isDirectory = true)
  | encrypted (encrypted : e.encrypted = true)
  | unsupported (notStored : e.method ≠ Entry.storedMethod)
      (notDeflated : e.method ≠ Entry.deflatedMethod)
  | lost (lost : hasLocalHeader a.bytes e.headerOffset = false)
  | declaredSize (large : largestEntry < e.uncompressedSize)
  | actualSize (large : a.contentOf e = .error .actualSize)
  | corrupt (broken : a.contentOf e = .error .brokenData)
  | checksum (content : ByteArray) (read : a.contentOf e = .ok content)
      (wrong : Checksum.ofBytes content ≠ e.checksum)
  | binary (content : ByteArray) (read : a.contentOf e = .ok content)
      (noText : String.fromUTF8? content = none)

theorem text?_eq_some_iff : a.text? e = some text ↔ e.isDirectory = false ∧
    ∃ content, a.checkedContent e = .ok content ∧ String.fromUTF8? content = some text := by
  unfold text?
  cases e.isDirectory with
  | true => simp
  | false => cases a.checkedContent e <;> simp

theorem not_passesOver_of_text (shown : a.text? e = some text) : ¬ a.PassesOver e := by
  obtain ⟨isFile, content, checked, decoded⟩ := text?_eq_some_iff.mp shown
  obtain ⟨plain, small, read, sum⟩ := checkedContent_eq_ok_iff.mp checked
  intro passes
  cases passes with
  | directory directory => cases isFile.symm.trans directory
  | encrypted encrypted => cases plain.symm.trans encrypted
  | unsupported notStored notDeflated =>
    unfold contentOf at read
    split at read
    · cases read
    · rw [if_pos ⟨notStored, notDeflated⟩] at read
      cases read
  | lost lost =>
    rw [contentOf, lost] at read
    cases read
  | declaredSize large => exact Nat.not_lt.mpr small large
  | actualSize large => cases read.symm.trans large
  | corrupt broken => cases read.symm.trans broken
  | checksum other readOther wrong =>
    cases Except.ok.inj (read.symm.trans readOther)
    exact wrong sum
  | binary other readOther noText =>
    cases Except.ok.inj (read.symm.trans readOther)
    cases decoded.symm.trans noText

/-- What keeps the data of an entry from being read is one of the reasons to pass over it. -/
theorem passesOver_of_contentOf {fault : EntryFault} (failed : a.contentOf e = .error fault) :
    a.PassesOver e := by
  cases header : hasLocalHeader a.bytes e.headerOffset with
  | false => exact .lost header
  | true =>
    by_cases foreign : e.method ≠ Entry.storedMethod ∧ e.method ≠ Entry.deflatedMethod
    · exact .unsupported foreign.1 foreign.2
    · have data := failed
      simp only [contentOf, header, Bool.not_true, Bool.false_eq_true, if_false,
        if_neg foreign] at data
      unfold decompress at data
      split at data
      · split at data
        · cases data
        · cases Except.error.inj data
          exact .corrupt failed
        · cases Except.error.inj data
          exact .actualSize failed
      · split at data
        · cases Except.error.inj data
          exact .actualSize failed
        · cases data

/-- The search passes over exactly the entries without a text. -/
theorem text?_eq_none_iff : a.text? e = none ↔ a.PassesOver e := by
  constructor
  · intro noText
    cases isFile : e.isDirectory with
    | true => exact .directory isFile
    | false =>
      cases plain : e.encrypted with
      | true => exact .encrypted plain
      | false =>
        by_cases small : e.uncompressedSize ≤ largestEntry
        · cases read : a.contentOf e with
          | error fault => exact passesOver_of_contentOf read
          | ok content =>
            by_cases sum : Checksum.ofBytes content = e.checksum
            · have checked : a.checkedContent e = .ok content :=
                checkedContent_eq_ok_iff.mpr ⟨plain, small, read, sum⟩
              rw [text?, isFile, checked] at noText
              exact .binary content read noText
            · exact .checksum content read sum
        · exact .declaredSize (Nat.lt_of_not_le small)
  · intro passes
    cases shown : a.text? e with
    | none => rfl
    | some text => exact absurd passes (not_passesOver_of_text shown)

theorem text?_congr (alike : b.checkedContent e = a.checkedContent e) : b.text? e = a.text? e := by
  rw [text?, text?, alike]

theorem mem_contentUrls_iff {content : Content} : url ∈ content.urls ↔
    ∃ text, String.fromUTF8? content.bytes = some text ∧ url ∈ Url.literals text := by
  unfold Content.urls
  cases String.fromUTF8? content.bytes <;> simp

theorem mem_urls_iff_exists_index : url ∈ a.urls ↔ ∃ index < a.size, ∃ content text,
    a.readIndex index = .ok (some content) ∧ String.fromUTF8? content.bytes = some text ∧
      url ∈ Url.literals text := by
  simp only [urls, TextSet.mem_ofList, List.mem_flatMap, List.mem_range, mem_urlsAt_iff,
    mem_contentUrls_iff, exists_and_left]

/-- The content at an index is text exactly if it is the text of the entry. -/
theorem exists_readIndex_iff {index : Nat} (listed : a.entries[index]? = some e) :
    (∃ content, a.readIndex index = .ok (some content) ∧
      String.fromUTF8? content.bytes = some text) ↔ a.text? e = some text := by
  rw [text?_eq_some_iff]
  constructor
  · rintro ⟨content, read, decoded⟩
    obtain ⟨other, atIndex, isFile, checked, -⟩ := readIndex_eq_some_iff.mp read
    cases Option.some.inj (listed.symm.trans atIndex)
    exact ⟨isFile, content.bytes, checked, decoded⟩
  · rintro ⟨isFile, bytes, checked, decoded⟩
    exact ⟨⟨e.name, bytes⟩, readIndex_eq_some_iff.mpr ⟨e, listed, isFile, checked, rfl⟩, decoded⟩

/-- The URLs of an archive are those in the texts of its entries, wherever these are listed. -/
theorem mem_urls_iff_exists_entry : url ∈ a.urls ↔
    ∃ e ∈ a.entries, ∃ text, a.text? e = some text ∧ url ∈ Url.literals text := by
  rw [mem_urls_iff_exists_index]
  constructor
  · rintro ⟨index, inside, content, text, read, decoded, shows⟩
    have listed : a.entries[index]? = some a.entries[index] := List.getElem?_eq_getElem inside
    exact ⟨_, List.getElem_mem inside, text,
      (exists_readIndex_iff listed).mp ⟨content, read, decoded⟩, shows⟩
  · rintro ⟨e, member, text, isText, shows⟩
    obtain ⟨index, inside, here⟩ := List.mem_iff_getElem.mp member
    have listed : a.entries[index]? = some e := by rw [List.getElem?_eq_getElem inside, here]
    obtain ⟨content, read, decoded⟩ := (exists_readIndex_iff listed).mpr isText
    exact ⟨index, inside, content, text, read, decoded, shows⟩

/-- The entries of one archive are entries of another, and are read alike in both. -/
def Within (b a : Archive) : Prop :=
  ∀ e ∈ b.entries, e ∈ a.entries ∧ b.checkedContent e = a.checkedContent e

/-- No entry takes away what the others show. -/
theorem urls_subset_of_within (within : b.Within a) (found : url ∈ b.urls) : url ∈ a.urls := by
  obtain ⟨e, member, text, isText, shows⟩ := mem_urls_iff_exists_entry.mp found
  obtain ⟨listed, alike⟩ := within e member
  rw [text?_congr alike] at isText
  exact mem_urls_iff_exists_entry.mpr ⟨e, listed, text, isText, shows⟩

/-- An entry that is passed over adds nothing. -/
theorem urls_eq_of_within (within : b.Within a)
    (rest : ∀ e ∈ a.entries, e ∈ b.entries ∨ a.PassesOver e) : b.urls = a.urls := by
  refine TextSet.eq_of_mem_iff fun url => ⟨urls_subset_of_within within, fun found => ?_⟩
  obtain ⟨e, member, text, isText, shows⟩ := mem_urls_iff_exists_entry.mp found
  rcases rest e member with kept | passes
  · rw [← text?_congr (within e kept).2] at isText
    exact mem_urls_iff_exists_entry.mpr ⟨e, kept, text, isText, shows⟩
  · exact absurd passes (not_passesOver_of_text isText)

/-- The search always ends, and finds just the URLs in the contents that can be read by some index
and are text as a whole. It passes over directories, over entries that are encrypted, compressed in
another way, lost, too large or corrupt, and over contents that are no text, and over nothing else.
With fewer entries it finds no more, and with fewer that it passes over, or with the same in another
order, it finds the same. -/
theorem urls_are_exact_union (a : Archive) :
    (∀ url, url ∈ a.urls ↔ ∃ index < a.size, ∃ content text,
      a.readIndex index = .ok (some content) ∧ String.fromUTF8? content.bytes = some text ∧
        url ∈ Url.literals text) ∧
    (∀ index e, a.entries[index]? = some e → (a.PassesOver e ↔
      ∀ content, a.readIndex index = .ok (some content) →
        String.fromUTF8? content.bytes = none)) ∧
    ∀ b : Archive, b.Within a →
      (∀ url, url ∈ b.urls → url ∈ a.urls) ∧
      ((∀ e ∈ a.entries, e ∈ b.entries ∨ a.PassesOver e) → b.urls = a.urls) ∧
      (b.entries.Perm a.entries → b.urls = a.urls) := by
  refine ⟨fun url => mem_urls_iff_exists_index, fun index e listed => ?_, fun b within =>
    ⟨fun url => urls_subset_of_within within, urls_eq_of_within within, fun reordered =>
      urls_eq_of_within within fun e member => Or.inl (reordered.mem_iff.mpr member)⟩⟩
  rw [← text?_eq_none_iff]
  constructor
  · intro noText content read
    cases decoded : String.fromUTF8? content.bytes with
    | none => rfl
    | some text =>
      exact nomatch noText.symm.trans ((exists_readIndex_iff listed).mp ⟨content, read, decoded⟩)
  · intro noText
    cases isText : a.text? e with
    | none => rfl
    | some text =>
      obtain ⟨content, read, decoded⟩ := (exists_readIndex_iff listed).mpr isText
      exact nomatch (noText content read).symm.trans decoded

section Mixed

variable {records : List (CentralRecord × Entry)}

def linkText : String := "ftp://a.b"

def rawLink : List UInt8 := Bytes.toList linkText.toUTF8

def rawNoise : List UInt8 := [0xFF]

def sumOf (content : List UInt8) : UInt32 := Checksum.ofBytes (Bytes.ofList content)

def linkFile : List UInt8 := storedFile [0x61] (sumOf rawLink) rawLink

def noiseFile : List UInt8 := storedFile [0x62] (sumOf rawNoise) rawNoise

def linkRecord : CentralRecord × Entry :=
  (storedRecord [0x61] (sumOf rawLink) 9 0, storedEntry "a" (sumOf rawLink) 9 0)

def noiseRecord : CentralRecord × Entry :=
  (storedRecord [0x62] (sumOf rawNoise) 1 40, storedEntry "b" (sumOf rawNoise) 1 40)

def mixedDirectory (records : List (CentralRecord × Entry)) : Directory :=
  ⟨⟨0, (linkFile ++ noiseFile).length, records.length⟩, records⟩

/-- An archive of the two files, whose directory has the given records. -/
def mixedPackage (records : List (CentralRecord × Entry)) : ByteArray :=
  written (linkFile ++ noiseFile) ((mixedDirectory records).records.map Prod.fst)

def mixed (records : List (CentralRecord × Entry)) : Archive :=
  ⟨mixedPackage records, mixedDirectory records, (mixedDirectory records).entries⟩

theorem length_rawLink : rawLink.length = 9 := by
  decide

theorem length_linkFile : linkFile.length = 40 := by
  rw [linkFile, length_storedFile, length_rawLink]
  rfl

theorem length_noiseFile : noiseFile.length = 32 := by
  rw [noiseFile, length_storedFile]
  rfl

theorem ofPackage_mixedPackage (several : records ≠ []) (few : records.length < 0xFFFF)
    (chosen : ∀ p ∈ records, p = linkRecord ∨ p = noiseRecord) :
    ofPackage (mixedPackage records) = .ok (mixed records) := by
  have near : (linkFile ++ noiseFile).length < 0xFFFFFFFF := by
    rw [List.length_append, length_linkFile, length_noiseFile]
    decide
  have short : ∀ p ∈ (mixedDirectory records).records, p.1.Short := by
    intro p member
    rcases chosen p member with rfl | rfl <;> exact short_storedRecord (short_letter _) _ _ _
  have meant : ∀ p ∈ (mixedDirectory records).records, Entry.ofRecord? 0 p.1 = some p.2 := by
    intro p member
    rcases chosen p member with rfl | rfl
    · exact ofRecord?_storedRecord (by decide +kernel) _ _ _
    · exact ofRecord?_storedRecord (by decide +kernel) _ _ _
  exact ofPackage_written (prefix_storedFile _ _ _ _) several few near rfl short meant

/-- Where both files are, whatever the directory has. -/
theorem exists_parts_mixed (records : List (CentralRecord × Entry)) : ∃ behind,
    Bytes.toList (mixed records).bytes = linkFile ++ (noiseFile ++ behind) := by
  obtain ⟨behind, parts⟩ := exists_toList_written (linkFile ++ noiseFile)
    ((mixedDirectory records).records.map Prod.fst)
  exact ⟨behind, parts.trans (List.append_assoc _ _ _)⟩

theorem checkedContent_mixed_link (records : List (CentralRecord × Entry)) :
    (mixed records).checkedContent linkRecord.2 = .ok (Bytes.ofList rawLink) := by
  obtain ⟨behind, parts⟩ := exists_parts_mixed records
  have content : (mixed records).contentOf linkRecord.2 = .ok (Bytes.ofList rawLink) :=
    contentOf_storedFile (short_letter _) (by rw [length_rawLink]; decide)
      (parts.trans (List.nil_append _).symm) rfl rfl length_rawLink.symm
  exact checkedContent_eq_ok_iff.mpr ⟨rfl, by decide, content, rfl⟩

theorem checkedContent_mixed_noise (records : List (CentralRecord × Entry)) :
    (mixed records).checkedContent noiseRecord.2 = .ok (Bytes.ofList rawNoise) := by
  obtain ⟨behind, parts⟩ := exists_parts_mixed records
  have content : (mixed records).contentOf noiseRecord.2 = .ok (Bytes.ofList rawNoise) :=
    contentOf_storedFile (short_letter _) (by decide) parts length_linkFile.symm rfl rfl
  exact checkedContent_eq_ok_iff.mpr ⟨rfl, by decide, content, rfl⟩

theorem entries_mixed (distinct : (records.map (·.2.name)).Nodup) :
    (mixed records).entries = records.map Prod.snd :=
  Directory.entries_of_nodup distinct

/-- Whichever of the two files are listed, and in whatever order, they are read alike. -/
theorem within_mixed (distinct : (records.map (·.2.name)).Nodup)
    (chosen : ∀ p ∈ records, p = linkRecord ∨ p = noiseRecord) :
    (mixed records).Within (mixed [linkRecord, noiseRecord]) := by
  have both : (mixed [linkRecord, noiseRecord]).entries = [linkRecord.2, noiseRecord.2] :=
    entries_mixed (by decide)
  intro e member
  rw [entries_mixed distinct] at member
  obtain ⟨p, listed, rfl⟩ := List.mem_map.mp member
  rw [both]
  rcases chosen p listed with rfl | rfl
  · exact ⟨by simp, by rw [checkedContent_mixed_link, checkedContent_mixed_link]⟩
  · exact ⟨by simp, by rw [checkedContent_mixed_noise, checkedContent_mixed_noise]⟩

theorem noise_is_no_text {content : Content}
    (read : (mixed [linkRecord, noiseRecord]).readIndex 1 = .ok (some content)) :
    String.fromUTF8? content.bytes = none := by
  obtain ⟨e, listed, -, checked, -⟩ := readIndex_eq_some_iff.mp read
  rw [entries_mixed (by decide)] at listed
  cases Option.some.inj listed
  rw [← Except.ok.inj ((checkedContent_mixed_noise _).symm.trans checked)]
  decide +kernel

theorem readIndex_link : (mixed [linkRecord, noiseRecord]).readIndex 0 =
    .ok (some ⟨"a", Bytes.ofList rawLink⟩) :=
  readIndex_eq_some_iff.mpr ⟨linkRecord.2, by rw [entries_mixed (by decide)]; rfl, by decide,
    checkedContent_mixed_link _, rfl⟩

/-- The file that is no text is passed over: without it, and in the other order, the same URL is
found. -/
theorem link_found_beside_noise :
    ofPackage (mixedPackage [linkRecord, noiseRecord]) = .ok (mixed [linkRecord, noiseRecord]) ∧
      ofPackage (mixedPackage [noiseRecord, linkRecord]) = .ok (mixed [noiseRecord, linkRecord]) ∧
      "ftp://a.b" ∈ (mixed [linkRecord, noiseRecord]).urls ∧
      (mixed [linkRecord]).urls = (mixed [linkRecord, noiseRecord]).urls ∧
      (mixed [noiseRecord, linkRecord]).urls = (mixed [linkRecord, noiseRecord]).urls := by
  obtain ⟨found, passed, others⟩ := urls_are_exact_union (mixed [linkRecord, noiseRecord])
  have both : (mixed [linkRecord, noiseRecord]).entries = [linkRecord.2, noiseRecord.2] :=
    entries_mixed (by decide)
  have passes : (mixed [linkRecord, noiseRecord]).PassesOver noiseRecord.2 :=
    (passed 1 _ (by rw [both]; rfl)).mpr fun content read => noise_is_no_text read
  have alone := others (mixed [linkRecord]) (within_mixed (by decide) (by simp))
  have swapped := others (mixed [noiseRecord, linkRecord]) (within_mixed (by decide) (by simp))
  refine ⟨ofPackage_mixedPackage (by simp) (by decide) (by simp),
    ofPackage_mixedPackage (by simp) (by decide) (by simp), ?_, alone.2.1 ?_, swapped.2.2 ?_⟩
  · have inside : 0 < (mixed [linkRecord, noiseRecord]).size := by
      rw [size, both]
      decide
    exact (found "ftp://a.b").mpr ⟨0, inside, _, linkText, readIndex_link,
      Files.fromUTF8?_toUTF8 linkText, by decide +kernel⟩
  · rw [both, entries_mixed (by decide)]
    intro e member
    rcases List.mem_cons.mp member with rfl | member
    · exact Or.inl List.mem_cons_self
    · rw [List.mem_singleton.mp member]
      exact Or.inr passes
  · rw [both, entries_mixed (by decide)]
    exact List.Perm.swap _ _ _

end Mixed

end Archive

end ExtensionAudit

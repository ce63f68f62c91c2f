import ExtensionAudit.Proofs.Archive.Written

namespace ExtensionAudit

-- Powers are those of the core library, whatever else is imported.
attribute [local instance (high)] instPowNat

/-- Whether the raw name of a record is that of a file of the name. -/
def CentralRecord.isFileNamed (r : CentralRecord) (path : String) : Bool :=
  r.name == Bytes.toList path.toUTF8 && !r.isDirectory

def Entry.isFileNamed (e : Entry) (path : String) : Bool :=
  e.name == path && !e.isDirectory

/-- The declared files of a name, in the order of the directory. The name is that of the entry. -/
def Directory.files (d : Directory) (path : String) : List (CentralRecord × Entry) :=
  d.records.filter fun p => p.2.isFileNamed path

section Outcomes

variable {ε ε' α β : Type} {outcome : Except ε α}

@[simp]
theorem mapError_eq_ok_iff {f : ε → ε'} {answer : α} :
    outcome.mapError f = .ok answer ↔ outcome = .ok answer := by
  constructor
  · intro same
    cases outcome with
    | error fault => cases same
    | ok x =>
      cases same
      rfl
  · rintro rfl
    rfl

@[simp]
theorem map_eq_ok_iff {f : α → β} {answer : β} :
    outcome.map f = .ok answer ↔ ∃ x, outcome = .ok x ∧ f x = answer := by
  cases outcome <;> simp [Except.map]

end Outcomes

namespace Archive

/-- The content that an entry leads to, whatever its mark of encryption and its checksum. -/
def contentOf (a : Archive) (e : Entry) : Except EntryFault ByteArray :=
  if !hasLocalHeader a.bytes e.headerOffset then .error .lostHeader
  else if e.method ≠ Entry.storedMethod ∧ e.method ≠ Entry.deflatedMethod then
    .error .foreignMethod
  else
    let start := dataStart a.bytes e.headerOffset
    decompress (e.method == Entry.deflatedMethod)
      (a.bytes.extract start (start + e.compressedSize))

/-- The content of an entry with encryption and checksum looked at. -/
def checkedContent (a : Archive) (e : Entry) : Except EntryFault ByteArray :=
  match openEntry a.bytes e with
  | .error fault => .error fault
  | .ok (deflated, data) => readOpened e deflated data

/-- What an entry holds: a content if it is a file, and nothing if it is a directory. -/
def held (a : Archive) (e : Entry) : Except EntryFault (Option ByteArray) :=
  match openEntry a.bytes e with
  | .error fault => .error fault
  | .ok (deflated, data) =>
    if e.isDirectory then .ok none else (readOpened e deflated data).map some

/-- The first declared file of the name answers: with its content, if there is an answer, and
nothing answers when there is no such file. -/
def AnswersFirst (a : Archive) (path : String) : Prop :=
  match a.directory.files path with
  | [] => a.readFirst path = .ok none
  | (_, first) :: _ => ∀ answer, a.readFirst path = .ok answer →
      ∃ content, answer = some content ∧ a.contentOf first = .ok content

/-- The record that decides leads to the first declared file of the name. Where the walk lists
several files of the raw name, its first one decides, and there has to be a declared file. Else the
last declared entry of the name decides; if that is a directory, it has to open. -/
def DecidesForFirst (a : Archive) (path : String) : Prop :=
  match a.recordsOf path with
  | r :: _ :: _ => ∃ file files, a.directory.files path = file :: files ∧
      ∀ content, a.readRecord r = .ok content → a.contentOf file.2 = .ok content
  | _ =>
    match a.directory.files path with
    | [] => ∀ p, (a.directory.named path).getLast? = some p →
        ∃ opened, openEntry a.bytes p.2 = .ok opened
    | file :: _ => ∀ p, (a.directory.named path).getLast? = some p →
        ∀ content, a.checkedContent p.2 = .ok content → a.contentOf file.2 = .ok content

/-- Walk and opener agree on the files of a name. The walk ends, and lists no such file behind the
declared records; of the declared records it takes those for files of the name that the opener
does, and their data lie where the records say. The name is that of no directory. -/
structure AgreesOn (a : Archive) (path : String) : Prop where
  walked : ∃ behind, CentralRecord.walkFrom a.bytes a.directory.place.start =
    some (a.directory.records.map Prod.fst ++ behind) ∧ ∀ r ∈ behind, r.isFileNamed path = false
  sameFiles : ∀ p ∈ a.directory.records, p.1.isFileNamed path = p.2.isFileNamed path
  located : ∀ p ∈ a.directory.files path,
    p.2.headerOffset = a.directory.place.archiveOffset + p.1.localOffset.toNat ∧
      p.2.method = p.1.method ∧ p.2.compressedSize = p.1.compressedSize.toNat
  noDirectory : a.directory.named path = a.directory.files path

theorem mem_named {d : Directory} {path : String} {p : CentralRecord × Entry} :
    p ∈ d.named path ↔ p ∈ d.records ∧ p.2.name = path := by
  simp [Directory.named]

theorem mem_files {d : Directory} {path : String} {p : CentralRecord × Entry} :
    p ∈ d.files path ↔ p ∈ d.named path ∧ p.2.isDirectory = false := by
  simp [Directory.files, Directory.named, Entry.isFileNamed, and_assoc]

/-- All entries of one name are files, or none is. -/
theorem isDirectory_of_mem_named {d : Directory} {path : String} {p q : CentralRecord × Entry}
    (first : p ∈ d.named path) (second : q ∈ d.named path) :
    p.2.isDirectory = q.2.isDirectory := by
  rw [Entry.isDirectory, Entry.isDirectory, (mem_named.mp first).2, (mem_named.mp second).2]

variable {a : Archive} {path : String}

theorem entries_ofPackage {raw : ByteArray} (opened : ofPackage raw = .ok a) :
    a.entries = a.directory.entries ∧ Directory.ofArchive? a.bytes = some a.directory := by
  unfold ofPackage at opened
  split at opened
  · exact nomatch opened
  · split at opened
    · exact nomatch opened
    · rename_i bytes _ _ found
      cases Except.ok.inj opened
      exact ⟨rfl, found⟩

theorem held_of_file {e : Entry} (isFile : e.isDirectory = false) :
    a.held e = (a.checkedContent e).map some := by
  unfold held checkedContent
  cases openEntry a.bytes e with
  | error fault => rfl
  | ok found =>
    dsimp only
    rw [isFile]
    rfl

theorem held_eq_none_iff {e : Entry} : a.held e = .ok none ↔
    e.isDirectory = true ∧ ∃ opened, openEntry a.bytes e = .ok opened := by
  cases directory : e.isDirectory with
  | true =>
    unfold held
    cases openEntry a.bytes e <;> simp [directory]
  | false => simp [held_of_file directory]

theorem held_eq_some_iff {e : Entry} {content : ByteArray} : a.held e = .ok (some content) ↔
    e.isDirectory = false ∧ a.checkedContent e = .ok content := by
  cases directory : e.isDirectory with
  | true =>
    unfold held
    cases openEntry a.bytes e <;> simp [directory]
  | false => simp [held_of_file directory]

/-- A path leads to what the entry holds that is found under it. -/
theorem read_of_found {e : Entry} (found : a.entries.find? (·.name == path) = some e) :
    a.read path = (a.held e).mapError (.unreadable (.named path)) := by
  unfold read held
  rw [found]
  dsimp only
  cases openEntry a.bytes e with
  | error fault => rfl
  | ok opened =>
    obtain ⟨deflated, data⟩ := opened
    dsimp only
    cases e.isDirectory with
    | true => rfl
    | false => cases readOpened e deflated data <;> rfl

/-- Reading by name answers with what the last declared entry of the name holds. -/
theorem read_eq_ok_iff (indexed : a.entries = a.directory.entries) {answer : Option ByteArray} :
    a.read path = .ok answer ↔ (a.directory.named path = [] ∧ answer = none) ∨
      ∃ p, (a.directory.named path).getLast? = some p ∧ a.held p.2 = .ok answer := by
  have found := a.directory.find?_entries path
  rw [← indexed] at found
  cases last : (a.directory.named path).getLast? with
  | none =>
    rw [last] at found
    rw [read, found, List.getLast?_eq_none_iff.mp last]
    simp [eq_comm]
  | some p =>
    rw [last] at found
    have some : a.directory.named path ≠ [] := fun none => by simp [none] at last
    simp [read_of_found found, some]

/-- With no file of the name, reading by name finds nothing, unless the last directory of the name
does not open. -/
theorem read_eq_none_iff (indexed : a.entries = a.directory.entries)
    (noFile : a.directory.files path = []) :
    a.read path = .ok none ↔ ∀ p, (a.directory.named path).getLast? = some p →
      ∃ opened, openEntry a.bytes p.2 = .ok opened := by
  have directory {p : CentralRecord × Entry}
      (last : (a.directory.named path).getLast? = some p) : p.2.isDirectory = true := by
    refine eq_true_of_ne_false fun isFile => ?_
    have member := mem_files.mpr ⟨List.mem_of_getLast? last, isFile⟩
    rw [noFile] at member
    exact absurd member List.not_mem_nil
  rw [read_eq_ok_iff indexed]
  cases last : (a.directory.named path).getLast? with
  | none => simp [List.getLast?_eq_none_iff.mp last]
  | some p =>
    have some : a.directory.named path ≠ [] := fun none => by simp [none] at last
    simp [some, held_eq_none_iff, directory last]

/-- Reading by name reads the last declared entry of the name, which has to be a file. -/
theorem read_eq_some_iff (indexed : a.entries = a.directory.entries) {content : ByteArray} :
    a.read path = .ok (some content) ↔ ∃ r e, (a.directory.named path).getLast? = some (r, e) ∧
      e.isDirectory = false ∧ a.checkedContent e = .ok content := by
  simp [read_eq_ok_iff indexed, held_eq_some_iff]

/-- With a file of the name, what reading by name answers is the content of the last one. -/
theorem read_eq_ok_iff_of_file (indexed : a.entries = a.directory.entries)
    {file : CentralRecord × Entry} (isFile : file ∈ a.directory.files path)
    (answer : Option ByteArray) :
    a.read path = .ok answer ↔ ∃ p content, (a.directory.named path).getLast? = some p ∧
      a.checkedContent p.2 = .ok content ∧ answer = some content := by
  obtain ⟨isNamed, notDirectory⟩ := mem_files.mp isFile
  have plain {p : CentralRecord × Entry} (last : (a.directory.named path).getLast? = some p) :
      p.2.isDirectory = false :=
    (isDirectory_of_mem_named (List.mem_of_getLast? last) isNamed).trans notDirectory
  rw [read_eq_ok_iff indexed]
  constructor
  · rintro (⟨none, -⟩ | ⟨p, last, held⟩)
    · rw [none] at isNamed
      exact absurd isNamed List.not_mem_nil
    · cases answer with
      | none => exact nomatch (plain last).symm.trans (held_eq_none_iff.mp held).1
      | some content => exact ⟨p, content, last, (held_eq_some_iff.mp held).2, rfl⟩
  · rintro ⟨p, content, last, checked, rfl⟩
    exact Or.inr ⟨p, last, held_eq_some_iff.mpr ⟨plain last, checked⟩⟩

/-- A record whose data lie where it says leads past the index to the content of its entry, if no
field is left to an extension and the size that it declares is allowed. -/
theorem readRecord_eq_ok_iff {r : CentralRecord} {e : Entry} {content : ByteArray}
    (located : e.headerOffset = a.directory.place.archiveOffset + r.localOffset.toNat)
    (compressed : e.method = r.method) (sized : e.compressedSize = r.compressedSize.toNat) :
    a.readRecord r = .ok content ↔ r.isExtended = false ∧
      r.uncompressedSize.toNat ≤ largestEntry ∧ a.contentOf e = .ok content := by
  unfold readRecord contentOf
  rw [located, compressed, sized]
  cases extended : r.isExtended with
  | true => simp
  | false =>
    simp only [Bool.false_eq_true, if_false, true_and]
    by_cases header :
        hasLocalHeader a.bytes (a.directory.place.archiveOffset + r.localOffset.toNat)
    · have room := of_decide_eq_true (Bool.and_eq_true_iff.mp header).1
      rw [if_neg (Nat.not_lt.mpr room)]
      simp only [header, Bool.not_true, Bool.false_eq_true, if_false]
      by_cases foreign : r.method ≠ Entry.storedMethod ∧ r.method ≠ Entry.deflatedMethod
      · simp [foreign]
      · rw [if_neg foreign, if_neg foreign]
        by_cases large : largestEntry < r.uncompressedSize.toNat
        · simp [large, Nat.not_le.mpr large]
        · simp only [if_neg large, Nat.not_lt.mp large, true_and]
    · simp only [header, Bool.not_false, if_true, reduceCtorEq, and_false, iff_false]
      split <;> simp

theorem readOpened_eq_ok_iff {e : Entry} {deflated : Bool} {data content : ByteArray} :
    readOpened e deflated data = .ok content ↔ e.uncompressedSize ≤ largestEntry ∧
      decompress deflated data = .ok content ∧ Checksum.ofBytes content = e.checksum := by
  unfold readOpened
  by_cases large : largestEntry < e.uncompressedSize
  · simp [large, Nat.not_le.mpr large]
  · simp only [if_neg large, Nat.not_lt.mp large, true_and]
    cases decompress deflated data with
    | error fault => simp
    | ok bytes =>
      by_cases same : Checksum.ofBytes bytes = e.checksum
      · simp only [same, beq_self_eq_true, if_true, Except.ok.injEq]
        exact ⟨fun is => ⟨is, is ▸ same⟩, And.left⟩
      · simp only [beq_iff_eq, same, if_false, reduceCtorEq, Except.ok.injEq, false_iff]
        rintro ⟨rfl, sum⟩
        exact same sum

/-- What is read with encryption and checksum looked at is the content, of an entry that is not
encrypted, declares a size that is allowed, and has the checksum of the content. -/
theorem checkedContent_eq_ok_iff {e : Entry} {content : ByteArray} :
    a.checkedContent e = .ok content ↔ e.encrypted = false ∧ e.uncompressedSize ≤ largestEntry ∧
      a.contentOf e = .ok content ∧ Checksum.ofBytes content = e.checksum := by
  unfold checkedContent openEntry contentOf
  cases encrypted : e.encrypted with
  | true => simp
  | false =>
    by_cases lost : hasLocalHeader a.bytes e.headerOffset
    · by_cases foreign : e.method ≠ Entry.storedMethod ∧ e.method ≠ Entry.deflatedMethod
      · simp [lost, foreign]
      · simp only [lost, Bool.not_true, Bool.false_eq_true, if_false, if_neg foreign, true_and]
        exact readOpened_eq_ok_iff
    · simp [lost]

/-- Where the walk lists fewer than two files of the raw name, the index answers. -/
theorem readFirst_eq_read (few : (a.recordsOf path).length < 2) :
    a.readFirst path = a.read path := by
  unfold readFirst
  match listed : a.recordsOf path with
  | [] => rfl
  | [_] => rfl
  | _ :: _ :: _ =>
    rw [listed] at few
    simp only [List.length_cons] at few
    omega

/-- Where it lists several, the first of them answers. -/
theorem readFirst_eq_ok_iff {r later : CentralRecord} {more : List CentralRecord}
    (listed : a.recordsOf path = r :: later :: more) (answer : Option ByteArray) :
    a.readFirst path = .ok answer ↔
      ∃ content, answer = some content ∧ a.readRecord r = .ok content := by
  unfold readFirst
  rw [listed]
  cases content : a.readRecord r with
  | error fault => simp [content]
  | ok bytes => simp [content, eq_comm]

theorem answersFirst_of_several {r later : CentralRecord} {more : List CentralRecord}
    (listed : a.recordsOf path = r :: later :: more) :
    a.AnswersFirst path ↔ ∃ file files, a.directory.files path = file :: files ∧
      ∀ content, a.readRecord r = .ok content → a.contentOf file.2 = .ok content := by
  unfold AnswersFirst
  cases declared : a.directory.files path with
  | nil =>
    constructor
    · intro nothing
      obtain ⟨_, isSome, _⟩ := (readFirst_eq_ok_iff listed none).mp nothing
      exact nomatch isSome
    · rintro ⟨_, _, same, _⟩
      exact nomatch same
  | cons file files =>
    constructor
    · intro answers
      refine ⟨file, files, rfl, fun content read => ?_⟩
      obtain ⟨other, same, leads⟩ :=
        answers (some content) ((readFirst_eq_ok_iff listed _).mpr ⟨content, rfl, read⟩)
      cases Option.some.inj same
      exact leads
    · rintro ⟨_, _, same, leads⟩ answer read
      cases same
      obtain ⟨content, isSome, direct⟩ := (readFirst_eq_ok_iff listed answer).mp read
      exact ⟨content, isSome, leads content direct⟩

theorem answersFirst_of_few (indexed : a.entries = a.directory.entries)
    (few : (a.recordsOf path).length < 2) :
    a.AnswersFirst path ↔
      match a.directory.files path with
      | [] => ∀ p, (a.directory.named path).getLast? = some p →
          ∃ opened, openEntry a.bytes p.2 = .ok opened
      | file :: _ => ∀ p, (a.directory.named path).getLast? = some p →
          ∀ content, a.checkedContent p.2 = .ok content → a.contentOf file.2 = .ok content := by
  unfold AnswersFirst
  rw [readFirst_eq_read few]
  cases declared : a.directory.files path with
  | nil => exact read_eq_none_iff indexed declared
  | cons file files =>
    have isFile : file ∈ a.directory.files path := by rw [declared]; exact List.mem_cons_self
    constructor
    · intro answers p last content checked
      obtain ⟨other, same, leads⟩ := answers (some content)
        ((read_eq_ok_iff_of_file indexed isFile _).mpr ⟨p, content, last, checked, rfl⟩)
      cases Option.some.inj same
      exact leads
    · intro leads answer read
      obtain ⟨p, content, last, checked, isSome⟩ :=
        (read_eq_ok_iff_of_file indexed isFile _).mp read
      exact ⟨content, isSome, leads p last content checked⟩

theorem recordsOf_of_walkFrom {records : List CentralRecord}
    (walked : CentralRecord.walkFrom a.bytes a.directory.place.start = some records)
    (path : String) : a.recordsOf path = records.filter (·.isFileNamed path) := by
  rw [recordsOf, walked]
  rfl

/-- What the walk takes for files of the name are the declared files, in their order. -/
theorem AgreesOn.recordsOf_eq (agrees : a.AgreesOn path) :
    a.recordsOf path = (a.directory.files path).map Prod.fst := by
  obtain ⟨behind, walked, none⟩ := agrees.walked
  have declared (records : List (CentralRecord × Entry))
      (same : ∀ p ∈ records, p.1.isFileNamed path = p.2.isFileNamed path) :
      (records.map Prod.fst).filter (·.isFileNamed path) =
        (records.filter fun p => p.2.isFileNamed path).map Prod.fst := by
    rw [List.filter_map]
    exact congrArg _ (List.filter_congr fun p member => same p member)
  have nothing : behind.filter (·.isFileNamed path) = [] :=
    List.filter_eq_nil_iff.mpr fun r member => by simp [none r member]
  rw [recordsOf_of_walkFrom walked, List.filter_append, nothing, List.append_nil,
    declared _ agrees.sameFiles]
  rfl

/-- Where walk and opener agree, the record that decides is that of the first file. -/
theorem AgreesOn.decidesForFirst (agrees : a.AgreesOn path) : a.DecidesForFirst path := by
  unfold DecidesForFirst
  rw [agrees.recordsOf_eq, agrees.noDirectory]
  match declared : a.directory.files path with
  | [] =>
    intro p last
    exact nomatch last
  | [file] =>
    intro p last content checked
    cases Option.some.inj last
    exact (checkedContent_eq_ok_iff.mp checked).2.2.1
  | file :: later :: more =>
    refine ⟨file, later :: more, rfl, fun content read => ?_⟩
    have first : file ∈ a.directory.files path := by
      rw [declared]
      exact List.mem_cons_self
    obtain ⟨offset, method, size⟩ := agrees.located file first
    exact ((readRecord_eq_ok_iff offset method size).mp read).2.2

/-- The first declared file of a name answers exactly when the record that decides leads to it, and
that is so wherever walk and opener agree on the files of the name. -/
theorem answersFirst_iff_decidesForFirst {raw : ByteArray} (opened : ofPackage raw = .ok a)
    (path : String) :
    (a.AnswersFirst path ↔ a.DecidesForFirst path) ∧
      (a.AgreesOn path → a.AnswersFirst path) := by
  obtain ⟨indexed, _⟩ := entries_ofPackage opened
  have exactly : a.AnswersFirst path ↔ a.DecidesForFirst path := by
    unfold DecidesForFirst
    split
    · rename_i listed
      exact answersFirst_of_several listed
    · rename_i notSeveral
      refine answersFirst_of_few indexed ?_
      match listed : a.recordsOf path with
      | [] => simp
      | [_] => simp
      | r :: later :: more => exact absurd listed (notSeveral r later more)
  exact ⟨exactly, fun agrees => exactly.mpr agrees.decidesForFirst⟩

section Stored

variable {e : Entry} {name content before behind : List UInt8} {checksum : UInt32}

/-- The data of a stored file are its content. -/
theorem extract_storedFile
    (parts : Bytes.toList a.bytes = before ++ (storedFile name checksum content ++ behind)) :
    a.bytes.extract (before.length + (localSize + name.length))
      (before.length + (localSize + name.length) + content.length) = Bytes.ofList content := by
  rw [← Bytes.ofList_toList (a.bytes.extract _ _), ← Bytes.window, Bytes.window_of_append parts,
    ← List.drop_drop, drop_storedFile, List.drop_left, List.take_left]

/-- An entry whose data are those of a stored file leads to the content of the file. -/
theorem contentOf_storedFile (short : name.length < 2 ^ (16 : Nat))
    (small : content.length ≤ largestEntry)
    (parts : Bytes.toList a.bytes = before ++ (storedFile name checksum content ++ behind))
    (offset : e.headerOffset = before.length) (stored : e.method = Entry.storedMethod)
    (size : e.compressedSize = content.length) : a.contentOf e = .ok (Bytes.ofList content) := by
  obtain ⟨header, start⟩ := numbers_storedFile short parts
  have fits : ¬ largestEntry < (Bytes.ofList content).size := Nat.not_lt.mpr small
  rw [contentOf, offset, stored, size, header]
  simp only [start, extract_storedFile parts]
  simp [decompress, fits, Entry.storedMethod, Entry.deflatedMethod]

end Stored

def oneChecksum : UInt32 := 0x83DCEFB7

/-- An archive of two files with one raw name. The first holds the text `1`, the second nothing. -/
def twins (name : UInt8) : ByteArray :=
  Bytes.ofList (storedFile [name] oneChecksum [0x31] ++ storedFile [name] 0 [] ++
    (storedRecord [name] oneChecksum 1 0).encode ++ (storedRecord [name] 0 0 32).encode ++
    Directory.endSignature ++ [0, 0, 0, 0, 2, 0, 2, 0, 94, 0, 0, 0, 63, 0, 0, 0, 0, 0])

/-- The directory of the archive, where the raw name reads as the text. -/
def twinsDirectory (text : String) (name : UInt8) : Directory where
  place := ⟨0, 63, 2⟩
  records := [(storedRecord [name] oneChecksum 1 0, storedEntry text oneChecksum 1 0),
    (storedRecord [name] 0 0 32, storedEntry text 0 0 32)]

def openedTwins (text : String) (name : UInt8) : Archive :=
  ⟨twins name, twinsDirectory text name, (twinsDirectory text name).entries⟩

section Twins

variable {text : String} {name : UInt8}

theorem length_twinFiles (name : UInt8) :
    (storedFile [name] oneChecksum [0x31] ++ storedFile [name] 0 []).length = 63 := by
  rw [List.length_append, length_storedFile, length_storedFile]
  rfl

theorem short_twinRecords :
    ∀ r ∈ (twinsDirectory text name).records.map Prod.fst, r.Short := by
  intro r member
  rcases List.mem_cons.mp member with rfl | member
  · exact short_storedRecord (short_letter name) _ _ _
  · rw [List.mem_singleton.mp member]
    exact short_storedRecord (short_letter name) _ _ _

theorem twins_eq_written (text : String) (name : UInt8) : twins name =
    written (storedFile [name] oneChecksum [0x31] ++ storedFile [name] 0 [])
      ((twinsDirectory text name).records.map Prod.fst) := by
  have size : (((twinsDirectory text name).records.map Prod.fst).flatMap
      CentralRecord.encode).length = 94 := by
    simp only [twinsDirectory, List.map_cons, List.map_nil, List.flatMap_cons, List.flatMap_nil,
      List.length_append, CentralRecord.length_encode]
    rfl
  have ends : Directory.endSignature ++
      [0, 0, 0, 0, 2, 0, 2, 0, 94, 0, 0, 0, 63, 0, 0, 0, 0, 0] =
        Directory.endRecord 2 94 63 := by
    decide
  rw [written, length_twinFiles]
  simp only [size]
  rw [twins, List.append_assoc _ Directory.endSignature, ends]
  simp only [twinsDirectory, List.map_cons, List.map_nil, List.flatMap_cons, List.flatMap_nil,
    List.append_assoc, List.append_nil]
  rfl

theorem ofPackage_twins (named : Text.decodeCodePage437 [name] = text) :
    ofPackage (twins name) = .ok (openedTwins text name) := by
  have meant : ∀ p ∈ (twinsDirectory text name).records,
      Entry.ofRecord? 0 p.1 = some p.2 := by
    intro p member
    rcases List.mem_cons.mp member with rfl | member
    · exact ofRecord?_storedRecord named _ _ _
    · rw [List.mem_singleton.mp member]
      exact ofRecord?_storedRecord named _ _ _
  have opens := ofPackage_written
    (prefix_storedFile [name] oneChecksum [0x31] (storedFile [name] 0 []))
    (List.cons_ne_nil _ _) (by simp [twinsDirectory]) (by rw [length_twinFiles]; decide)
    (by rw [length_twinFiles]; rfl)
    (fun p member => short_twinRecords p.1 (List.mem_map_of_mem member)) meant
  rw [← twins_eq_written] at opens
  exact opens

/-- The walk lists both files. -/
theorem walkFrom_twins : CentralRecord.walkFrom (twins name) 63 =
    some ((twinsDirectory text name).records.map Prod.fst) := by
  rw [twins_eq_written text, ← length_twinFiles name]
  exact walkFrom_written short_twinRecords

theorem recordsOf_openedTwins (path : String) : (openedTwins text name).recordsOf path =
    ((twinsDirectory text name).records.map Prod.fst).filter (·.isFileNamed path) := by
  have walked : CentralRecord.walkFrom (openedTwins text name).bytes
      (openedTwins text name).directory.place.start =
        some ((twinsDirectory text name).records.map Prod.fst) := walkFrom_twins
  exact recordsOf_of_walkFrom walked path

theorem exists_behind_twins (name : UInt8) : ∃ behind, Bytes.toList (twins name) =
    storedFile [name] oneChecksum [0x31] ++ (storedFile [name] 0 [] ++ behind) :=
  ⟨_, by simp only [twins, Bytes.toList_ofList, List.append_assoc]; rfl⟩

theorem contentOf_firstTwin :
    (openedTwins text name).contentOf (storedEntry text oneChecksum 1 0) =
      .ok (Bytes.ofList [0x31]) := by
  obtain ⟨behind, parts⟩ := exists_behind_twins name
  exact contentOf_storedFile (short_letter name) (by decide)
    (parts.trans (List.nil_append _).symm) rfl rfl rfl

theorem contentOf_secondTwin :
    (openedTwins text name).contentOf (storedEntry text 0 0 32) = .ok (Bytes.ofList []) := by
  obtain ⟨behind, parts⟩ := exists_behind_twins name
  exact contentOf_storedFile (short_letter name) (by decide) parts
    (by rw [length_storedFile]; rfl) rfl rfl

end Twins

theorem ofPackage_twins_letter : ofPackage (twins 0x61) = .ok (openedTwins "a" 0x61) :=
  ofPackage_twins (by decide +kernel)

theorem ofPackage_twins_accent : ofPackage (twins 0x82) = .ok (openedTwins "é" 0x82) :=
  ofPackage_twins (by decide +kernel)

/-- In the old code page the byte `0x82` is the letter that the path names. Walk and path differ in
their bytes, so the index decides, and it keeps the second file. -/
theorem second_twin_answers : ofPackage (twins 0x82) = .ok (openedTwins "é" 0x82) ∧
    ¬ (openedTwins "é" 0x82).AnswersFirst "é" := by
  refine ⟨ofPackage_twins_accent, fun answers => ?_⟩
  have unlisted : (openedTwins "é" 0x82).recordsOf "é" = [] := by
    rw [recordsOf_openedTwins]
    decide +kernel
  have read : (openedTwins "é" 0x82).readFirst "é" = .ok (some (Bytes.ofList [])) := by
    have second : (openedTwins "é" 0x82).checkedContent (storedEntry "é" 0 0 32) =
        .ok (Bytes.ofList []) :=
      checkedContent_eq_ok_iff.mpr ⟨rfl, Nat.zero_le _, contentOf_secondTwin, by decide⟩
    have last : ((openedTwins "é" 0x82).directory.named "é").getLast? =
        some (storedRecord [0x82] 0 0 32, storedEntry "é" 0 0 32) := by
      decide +kernel
    rw [readFirst_eq_read (by rw [unlisted]; decide),
      read_eq_ok_iff_of_file rfl (mem_files.mpr ⟨List.mem_of_getLast? last, by decide +kernel⟩)]
    exact ⟨_, _, last, second, rfl⟩
  obtain ⟨content, same, leads⟩ := answers _ read
  cases Option.some.inj same
  have first : (openedTwins "é" 0x82).contentOf (storedEntry "é" oneChecksum 1 0) =
      .ok (Bytes.ofList [0x31]) := contentOf_firstTwin
  rw [first] at leads
  exact nomatch congrArg Bytes.toList (Except.ok.inj leads)

theorem letterTwins_agree : (openedTwins "a" 0x61).AgreesOn "a" where
  walked := ⟨[], walkFrom_twins.trans (by rw [List.append_nil]; rfl), by simp⟩
  sameFiles := by decide +kernel
  located := by decide +kernel
  noDirectory := by decide +kernel

theorem first_twin_answers : ofPackage (twins 0x61) = .ok (openedTwins "a" 0x61) ∧
    (openedTwins "a" 0x61).AgreesOn "a" ∧ (openedTwins "a" 0x61).AnswersFirst "a" :=
  ⟨ofPackage_twins_letter, letterTwins_agree,
    (answersFirst_iff_decidesForFirst ofPackage_twins_letter "a").2 letterTwins_agree⟩

end Archive

end ExtensionAudit

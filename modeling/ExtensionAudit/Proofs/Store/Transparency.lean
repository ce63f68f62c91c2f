import ExtensionAudit.Proofs.Manifest.Extraction
import ExtensionAudit.Proofs.Archive.FirstFile
import ExtensionAudit.Proofs.Report.Noted
import ExtensionAudit.Proofs.Store.Kept

namespace ExtensionAudit

/-- The advisor never answers, or says the same to every prompt. -/
def Advisor.Steady (advise : Advisor) : Prop :=
  ∀ prompt other, advise prompt = advise other

theorem Report.note?_eq_of_steady {advisor : Option Advisor}
    (steady : ∀ advise ∈ advisor, advise.Steady) (target : Target) (a b : Assessment) :
    note? advisor target a = note? advisor target b := by
  cases advisor with
  | none => rfl
  | some advise => exact steady advise rfl _ _

namespace Record

variable {id : ExtensionId} {report : Report} {details : Option StoreDetails} {now : Timestamp}

/-- The report on record is made from the manifest, the note and the digest alone. -/
theorem report_ofReport_make (P Q : Policy) (m : Manifest) (note : Option String)
    (digest : String) :
    (ofReport id (.make P ⟨m, details⟩ note digest) details now).report Q =
      .make Q ⟨m, details⟩ note digest := by
  have kept : ((Report.withNote (Report.assess P ⟨m, details⟩) note).note?.map (·.description)) =
      note := by
    rw [Report.note?_withNote]
    cases note <;> rfl
  have again : (ofReport id (.make P ⟨m, details⟩ note digest) details now).report Q =
      .make Q ⟨m, some (details.getD {})⟩
        ((Report.withNote (Report.assess P ⟨m, details⟩) note).note?.map (·.description)) digest :=
    rfl
  rw [again, kept]
  exact Report.make_details Q m (some (details.getD {})) details note digest

theorem report_inPlaceOf (record : Record) (old : Option Record) (policy : Policy) :
    (record.inPlaceOf old).report policy = record.report policy := by
  cases old <;> rfl

/-- The record of an analysis gives, under any policy, what the analysis gives under that policy. -/
theorem ofPackage_eq_report {P Q : Policy} {advisor : Option Advisor} {raw : ByteArray}
    (steady : ∀ advise ∈ advisor, advise.Steady)
    (analyzed : Report.ofPackage P advisor details raw = .ok report) :
    Report.ofPackage Q advisor details raw = .ok ((ofReport id report details now).report Q) := by
  unfold Report.ofPackage at analyzed ⊢
  cases package : Manifest.ofPackage raw with
  | error fault => simp [package] at analyzed
  | ok m =>
    simp only [package, Except.ok.injEq] at analyzed ⊢
    have same := Report.note?_eq_of_steady steady ⟨m, details⟩
      (Report.assess Q ⟨m, details⟩) (Report.assess P ⟨m, details⟩)
    rw [← analyzed, report_ofReport_make, same]

end Record

namespace RecordStore

/-- A change of policy does not show through the store. The analysis of a package succeeds under the
new policy if it did under the old one, and its report and its verdict are those that the new policy
makes of the record of the old analysis, and of what any lawful file system gives back of that
record. Where the operations are granted and there is no record yet, the record is kept as it is. -/
theorem transparent {P Q : Policy} {advisor : Option Advisor} {details : Option StoreDetails}
    {raw : ByteArray} {report : Report} (steady : ∀ advise ∈ advisor, advise.Steady)
    (analyzed : Report.ofPackage P advisor details raw = .ok report) (id : ExtensionId)
    (now : Timestamp) :
    ∃ fresh, Report.ofPackage Q advisor details raw = .ok fresh ∧
      ((Record.ofReport id report details now).report Q = fresh ∧
        ((Record.ofReport id report details now).report Q).judge Q = fresh.judge Q) ∧
      ∀ {σ : Type} [MonadFiles (StateM σ)] [LawfulFiles σ] (store : RecordStore) (before after : σ),
        (store.Grants (Record.ofReport id report details now) before after →
          Runs (store.put (.ofReport id report details now)) before
            (.ofReport id report details now) after) ∧
        ∀ kept, Runs (store.put (.ofReport id report details now)) before kept after →
          ∃ found, Runs (store.get id) after (some found) after ∧
            found.report Q = fresh ∧ (found.report Q).judge Q = fresh.judge Q := by
  have again : Report.ofPackage Q advisor details raw =
      .ok ((Record.ofReport id report details now).report Q) :=
    Record.ofPackage_eq_report steady analyzed
  refine ⟨_, again, ⟨rfl, rfl⟩, ?_⟩
  intro σ _ _ store before after
  refine ⟨Grants.put, ?_⟩
  intro kept stored
  obtain ⟨_, old, _, _, -, -, same, -, -⟩ := put_iff.mp stored
  have unchanged : kept.report Q = (Record.ofReport id report details now).report Q := by
    rw [same, Record.report_inPlaceOf]
  have found := get_of_put stored
  have sameId : (Record.ofReport id report details now).id = id := rfl
  rw [sameId] at found
  exact ⟨kept, found, unchanged, by rw [unchanged]⟩

/-- A package whose only file is the manifest, an empty object. -/
def emptyPackage : ByteArray :=
  let name : List UInt8 := [109, 97, 110, 105, 102, 101, 115, 116, 46, 106, 115, 111, 110]
  Bytes.ofList (Archive.storedFile name 0xA3A6BF43 [0x7B, 0x7D] ++
    (Archive.storedRecord name 0xA3A6BF43 2 0).encode ++
    Directory.endSignature ++ [0, 0, 0, 0, 1, 0, 1, 0, 59, 0, 0, 0, 45, 0, 0, 0, 0, 0])

theorem emptyPackage_eq_lonePackage :
    emptyPackage = Manifest.lonePackage Manifest.rawEmpty := by
  have name : [109, 97, 110, 105, 102, 101, 115, 116, 46, 106, 115, 111, 110] =
      Manifest.rawPath := by
    decide +kernel
  have sum : 0xA3A6BF43 = Manifest.checksum Manifest.rawEmpty := by
    rw [Manifest.checksum, Checksum.ofBytes_eq]
    decide +kernel
  have files : (Manifest.packedFile Manifest.rawEmpty).length = 45 := Manifest.length_packedFile _
  have directory : (Manifest.packedRecord Manifest.rawEmpty 0).encode.length = 59 := by
    rw [CentralRecord.length_encode]
    exact congrArg (46 + · + 0 + 0) Manifest.length_rawPath
  have ends : Directory.endSignature ++
      [0, 0, 0, 0, 1, 0, 1, 0, 59, 0, 0, 0, 45, 0, 0, 0, 0, 0] =
        Directory.endRecord 1 59 45 := by
    decide
  rw [emptyPackage, name, sum, List.append_assoc _ Directory.endSignature, ends, ← directory,
    ← files, List.append_assoc, Manifest.lonePackage, Archive.written]
  simp only [Manifest.loneDirectory, List.map_cons, List.map_nil, List.flatMap_cons,
    List.flatMap_nil, List.append_nil]
  rfl

theorem exists_manifest_emptyPackage : ∃ m, Manifest.ofPackage emptyPackage = .ok m := by
  have first := Manifest.readFirst_openedLone Manifest.rawEmpty_small
  obtain ⟨m, extracted, -⟩ := Manifest.exists_ofArchive first Manifest.isOk_rawEmpty
  refine ⟨m, ?_⟩
  rw [emptyPackage_eq_lonePackage, Manifest.ofPackage,
    Manifest.ofPackage_lonePackage Manifest.rawEmpty_small]
  exact extracted

/-- An advisor who knows one answer. -/
def calm : Advisor := fun _ => some "Risk Level: Low"

/-- The old format is no reason to worry. -/
def lenient : Policy where
  overrides := [("CRX-006", .info)]

def sampleId : ExtensionId where
  text := "abcdefghijklmnopabcdefghijklmnop"
  length_text := by decide
  chars_text := by decide

def noon : Timestamp where
  date := ⟨2025, 11, 11, by decide, by decide, by decide⟩
  second := 43200
  nanosecond := 0
  second_range := by decide
  nanosecond_range := by decide

def results : RecordStore := ⟨"results"⟩

theorem results_grants (record : Record) (sample : record.id = sampleId) :
    ∃ after, results.Grants record FileTree.empty after := by
  refine @FileTree.exists_grants FileTree.empty (FileTree.empty.put ["results"] .directory) results
    record ["tmp", "work", "results", "abcdefghijklmnopabcdefghijklmnop.json.tmp"]
    ["tmp", "work", "results", "abcdefghijklmnopabcdefghijklmnop.json"] rfl ?_ ?_ ?_
  · rw [sample]
    decide +kernel
  · rw [sample]
    decide +kernel
  · rw [sample]
    decide +kernel

/-- The lenient record of the package with an empty manifest, put into an empty tree and taken from
it, gives the report of the usual policy. -/
theorem emptyPackage_transparent :
    ∃ report fresh found after,
      Report.ofPackage lenient (some calm) none emptyPackage = .ok report ∧
      Report.ofPackage {} (some calm) none emptyPackage = .ok fresh ∧
      Runs (results.put (.ofReport sampleId report none noon)) FileTree.empty
        (.ofReport sampleId report none noon) after ∧
      Runs (results.get sampleId) after (some found) after ∧
      found.report {} = fresh ∧ (found.report {}).judge {} = fresh.judge {} := by
  obtain ⟨m, package⟩ := exists_manifest_emptyPackage
  have steady : ∀ advise ∈ some calm, advise.Steady := by
    rintro advise ⟨⟩ prompt other
    rfl
  have analyzed : ∃ report,
      Report.ofPackage lenient (some calm) none emptyPackage = .ok report := by
    rw [Report.ofPackage, package]
    exact ⟨_, rfl⟩
  obtain ⟨report, analyzed⟩ := analyzed
  obtain ⟨fresh, again, -, kept⟩ := transparent (Q := {}) steady analyzed sampleId noon
  obtain ⟨after, granted⟩ := results_grants (.ofReport sampleId report none noon) rfl
  obtain ⟨put, got⟩ := kept results FileTree.empty after
  obtain ⟨found, gives, same, verdict⟩ := got _ (put granted)
  exact ⟨report, fresh, found, after, analyzed, again, put granted, gives, same, verdict⟩

end RecordStore

end ExtensionAudit

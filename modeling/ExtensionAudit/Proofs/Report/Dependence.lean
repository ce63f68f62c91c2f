import ExtensionAudit.Proofs.Archive.Payload
import ExtensionAudit.Proofs.Manifest.Extraction
import ExtensionAudit.Proofs.Report.Noted
import ExtensionAudit.Proofs.Rule.Reported

namespace ExtensionAudit

-- Powers are those of the core library, whatever else is imported.
attribute [local instance (high)] instPowNat

open Container (wrap mark headerSizeOf payload fixedSize)

/-- No rule has the id of a note. -/
theorem Rule.noteRuleId_not_mem_ids : noteRuleId ∉ battery.map (·.info.id) := by
  decide

/-- Under every policy a finding keeps the id of its rule. -/
theorem Policy.ruleId_mem_ids {policy : Policy} {target : Target} {f : Finding}
    (counts : f ∈ policy.apply (Rule.evaluate target)) :
    f.ruleId ∈ Rule.battery.map (·.info.id) := by
  obtain ⟨reported, kept, rfl⟩ := List.mem_map.mp counts
  rw [ruleId_regrade]
  exact Rule.ruleId_mem_ids (List.mem_filter.mp kept).1

theorem Policy.ruleId_ne_noteRuleId {policy : Policy} {target : Target} {f : Finding}
    (counts : f ∈ policy.apply (Rule.evaluate target)) : f.ruleId ≠ noteRuleId :=
  fun same => Rule.noteRuleId_not_mem_ids (same ▸ ruleId_mem_ids counts)

/-- No rule looks at the URLs of the package or at the page in the store. -/
theorem Rule.evaluate_urls (m : Manifest) (urls others : TextSet)
    (page other : Option StoreDetails) :
    evaluate ⟨{ m with embeddedUrls := urls }, page⟩ =
      evaluate ⟨{ m with embeddedUrls := others }, other⟩ :=
  rfl

namespace Report

variable {policy : Policy} {advisor advisor' : Option Advisor}
  {details details' : Option StoreDetails} {raw raw' : ByteArray} {report other : Report}

/-- The findings of a report that are no notes. -/
def ruleFindings (report : Report) : List Finding :=
  report.assessment.findings.filter (·.ruleId ≠ noteRuleId)

/-- What the advisor of a run answers to its prompt, which shows the findings of the rules. -/
def answer? (report : Report) (advisor : Option Advisor) (details : Option StoreDetails) :
    Option String :=
  note? advisor ⟨report.manifest, details⟩ (.ofFindings report.ruleFindings)

theorem findings_withNote (a : Assessment) (note : Option String) :
    (withNote a note).findings = a.findings ++ note.toList.map noteFinding := by
  cases note with
  | none => exact (List.append_nil _).symm
  | some text => rfl

theorem ruleFindings_make (policy : Policy) (target : Target) (note : Option String)
    (digest : String) :
    (make policy target note digest).ruleFindings = policy.apply (Rule.evaluate target) := by
  have kept : (policy.apply (Rule.evaluate target)).filter (·.ruleId ≠ noteRuleId) =
      policy.apply (Rule.evaluate target) :=
    List.filter_eq_self.mpr fun f counts => by simpa using Policy.ruleId_ne_noteRuleId counts
  have left : (note.toList.map noteFinding).filter (·.ruleId ≠ noteRuleId) = [] :=
    List.filter_eq_nil_iff.mpr fun f isNote => by
      obtain ⟨text, -, rfl⟩ := List.mem_map.mp isNote
      simp [noteFinding]
  rw [ruleFindings, make, findings_withNote, List.filter_append, left, List.append_nil]
  exact kept

/-- A report is made from the manifest of the package, the answer to the prompt and the digest. -/
theorem ofPackage_eq_map (policy : Policy) (advisor : Option Advisor)
    (details : Option StoreDetails) (raw : ByteArray) :
    ofPackage policy advisor details raw = (Manifest.ofPackage raw).map fun m =>
      make policy ⟨m, details⟩ (note? advisor ⟨m, details⟩ (assess policy ⟨m, details⟩))
        (Digest.hex raw) := by
  unfold ofPackage
  cases Manifest.ofPackage raw <;> rfl

theorem ofPackage_eq_ok_iff : ofPackage policy advisor details raw = .ok report ↔
    ∃ m, Manifest.ofPackage raw = .ok m ∧
      make policy ⟨m, details⟩ (note? advisor ⟨m, details⟩ (assess policy ⟨m, details⟩))
        (Digest.hex raw) = report := by
  rw [ofPackage_eq_map]
  cases Manifest.ofPackage raw <;> simp [Except.map]

/-- Behind the findings of the rules a report has the answer of the advisor as a note, if there is
one, and nothing else. -/
theorem findings_eq_append_answer
    (analyzed : ofPackage policy advisor details raw = .ok report) :
    report.assessment.findings =
      report.ruleFindings ++ (report.answer? advisor details).toList.map noteFinding := by
  obtain ⟨m, -, rfl⟩ := ofPackage_eq_ok_iff.mp analyzed
  rw [answer?, ruleFindings_make]
  exact findings_withNote (assess policy ⟨m, details⟩) _

/-- Unwrapping is exact: a bare package gives itself, a container gives the bytes behind its signed
header, and exactly the containers that end before those are refused, as corrupt. So a container
around an archive leads to the error or to the report of the bare archive; only the digest is that
of the container. -/
theorem unwrapped_exactly :
    (∀ raw : ByteArray, headerSizeOf raw < 2 ^ (32 : Nat) ∧
      (¬ mark <+: Bytes.toList raw → payload raw = .ok raw) ∧
      ((∃ fault, payload raw = .error fault ∧
          "Corrupt archive: ".toList <+: fault.message.toList) ↔
        mark <+: Bytes.toList raw ∧
          (raw.size < fixedSize ∨ raw.size < fixedSize + headerSizeOf raw)) ∧
      (mark <+: Bytes.toList raw → fixedSize + headerSizeOf raw ≤ raw.size →
        payload raw =
          .ok (Bytes.ofList ((Bytes.toList raw).drop (fixedSize + headerSizeOf raw))))) ∧
      ∀ (policy : Policy) (advisor : Option Advisor) (details : Option StoreDetails)
        (version : Nat) (header archive : List UInt8),
        header.length < 2 ^ (32 : Nat) → ¬ mark <+: archive →
          ofPackage policy advisor details (Bytes.ofList (wrap version header archive)) =
            (ofPackage policy advisor details (Bytes.ofList archive)).map fun report =>
              { report with digest := Digest.hex (Bytes.ofList (wrap version header archive)) } := by
  constructor
  · intro raw
    refine ⟨Container.headerSizeOf_lt raw, Container.payload_of_bare, ?_,
      Container.payload_of_marked⟩
    rw [← Container.payload_eq_error_iff]
    simp only [ArchiveError.prefix_message, and_true]
  · intro policy advisor details version header archive small bare
    have same : Manifest.ofPackage (Bytes.ofList (wrap version header archive)) =
        Manifest.ofPackage (Bytes.ofList archive) := by
      rw [Manifest.ofPackage, Manifest.ofPackage, Container.ofPackage_wrap small bare]
    rw [ofPackage_eq_map, ofPackage_eq_map, same]
    cases Manifest.ofPackage (Bytes.ofList archive) <;> rfl

open Manifest (rawHomepage rawEmpty rawHomepage_small rawEmpty_small lonePackage openedLone
  pairPackage openedPair)

/-- A package whose first manifest is the sample is reported, whatever policy and advisor say. -/
theorem exists_report_of_homepage {a : Archive} (opened : Archive.ofPackage raw = .ok a)
    (first : a.readFirst Manifest.path = .ok (some (Bytes.ofList rawHomepage))) (policy : Policy)
    (advisor : Option Advisor) (details : Option StoreDetails) :
    ∃ report, ofPackage policy advisor details raw = .ok report := by
  obtain ⟨m, extracted, -⟩ := Manifest.exists_ofArchive first Manifest.isOk_rawHomepage
  have package : Manifest.ofPackage raw = .ok m := by
    rw [Manifest.ofPackage, opened]
    exact extracted
  rw [ofPackage_eq_map, package]
  exact ⟨_, rfl⟩

/-- A container around an archive. -/
def contained (archive : ByteArray) : ByteArray :=
  Bytes.ofList (wrap 3 [1, 2, 3] (Bytes.toList archive))

theorem pairPackage_bare (first second : List UInt8) :
    ¬ mark <+: Bytes.toList (pairPackage first second) := by
  have bare := Archive.isContainer_written (Manifest.packedFile_starts first
    (Manifest.packedFile second)) ((Manifest.pairDirectory first second).records.map Prod.fst)
  rw [← Container.isContainer_iff, pairPackage, bare]
  decide

theorem pairPackage_opens : Archive.ofPackage (pairPackage rawHomepage rawEmpty) =
    .ok (openedPair rawHomepage rawEmpty) :=
  Manifest.ofPackage_pairPackage rawHomepage_small rawEmpty_small

/-- Too few bytes behind the mark are refused. The container around two manifests is reported like
the bare package. -/
theorem contained_reported :
    (∃ fault, payload (Bytes.ofList (mark ++ [3, 0])) = .error fault ∧
        "Corrupt archive: ".toList <+: fault.message.toList) ∧
      ∃ report, ofPackage {} none none (pairPackage rawHomepage rawEmpty) = .ok report ∧
        ofPackage {} none none (contained (pairPackage rawHomepage rawEmpty)) =
          .ok { report with
            digest := Digest.hex (contained (pairPackage rawHomepage rawEmpty)) } := by
  obtain ⟨exact, transparent⟩ := unwrapped_exactly
  obtain ⟨-, -, refused, -⟩ := exact (Bytes.ofList (mark ++ [3, 0]))
  obtain ⟨report, reported⟩ := exists_report_of_homepage pairPackage_opens
    (Manifest.readFirst_openedPair rawEmpty rawHomepage_small) {} none none
  refine ⟨refused.mpr ⟨List.prefix_append _ _, Or.inl (by decide)⟩, report, reported, ?_⟩
  have same := transparent {} none none 3 [1, 2, 3]
    (Bytes.toList (pairPackage rawHomepage rawEmpty)) (by decide) (pairPackage_bare _ _)
  rw [Bytes.ofList_toList, reported] at same
  exact same

end Report

end ExtensionAudit

import ExtensionAudit.Proofs.Json.Meaning
import ExtensionAudit.Proofs.Report.Dependence
import ExtensionAudit.Report.Format
import ExtensionAudit.Store.Record

namespace ExtensionAudit

-- Powers are those of the core library, whatever else is imported.
attribute [local instance (high)] instPowNat

namespace Report.Sarif

open Json

section Plain

variable {depth : Nat}

/-- An object of one member. -/
theorem plain_one {α : Type} [Encode α] (name : String) {value : α}
    (content : (encode value).Plain depth) : (Value.object (member name value)).Plain (depth + 1) :=
  .object (by simp [member]) (List.forall_mem_singleton.mpr content)

theorem plain_text (text : String) : (encode text).Plain depth :=
  .string depth text

theorem plain_word (n : UInt64) : (encode n).Plain depth := by
  have small := n.toNat_lt
  exact .int depth (by omega) (by omega)

theorem plain_items {items : List Value} (each : ∀ item ∈ items, item.Plain depth) :
    (encode items).Plain (depth + 1) := by
  refine .array fun value listed => ?_
  obtain ⟨item, inItems, rfl⟩ := List.mem_map.mp listed
  exact each item inItems

theorem plain_descriptor (rule : RuleInfo) : (descriptor rule).Plain (depth + 2) := by
  refine .object (by simp [member]) ?_
  simp only [member, List.cons_append, List.nil_append, List.forall_mem_cons]
  exact ⟨plain_text _, plain_text _, plain_one _ (plain_text _), plain_one _ (plain_text _),
    plain_one _ (plain_text _), List.forall_mem_nil _⟩

theorem plain_noteDescriptor : noteDescriptor.Plain (depth + 2) := by
  refine .object (by simp [member]) ?_
  simp only [member, List.cons_append, List.nil_append, List.forall_mem_cons]
  exact ⟨plain_text _, plain_text _, plain_one _ (plain_text _), plain_one _ (plain_text _),
    List.forall_mem_nil _⟩

theorem plain_driver (a : Assessment) : (driver a).Plain (depth + 4) := by
  have rules : (encode (descriptors a)).Plain (depth + 3) := by
    refine plain_items fun value listed => ?_
    rcases List.mem_append.mp listed with ofRule | ofNote
    · obtain ⟨rule, -, rfl⟩ := List.mem_map.mp ofRule
      exact plain_descriptor rule.info
    · split at ofNote
      · rw [List.mem_singleton.mp ofNote]
        exact plain_noteDescriptor
      · exact absurd ofNote List.not_mem_nil
  refine .object (by simp [member]) ?_
  simp only [member, List.cons_append, List.nil_append, List.forall_mem_cons]
  exact ⟨plain_text _, plain_text _, plain_text _, rules, List.forall_mem_nil _⟩

theorem plain_result (f : Finding) : (result f).Plain (depth + 5) := by
  have located : location.Plain (depth + 3) :=
    plain_one _ (plain_one _ (plain_one _ (plain_text _)))
  refine .object (by simp [member]) ?_
  simp only [member, List.cons_append, List.nil_append, List.forall_mem_cons]
  exact ⟨plain_text _, plain_text _, plain_one _ (plain_text _),
    plain_items (List.forall_mem_singleton.mpr located), plain_one _ (.string _ _),
    List.forall_mem_nil _⟩

theorem plain_verdict (v : Verdict) : (verdict v).Plain (depth + 1) := by
  refine .object (by simp [member]) ?_
  simp only [member, List.cons_append, List.nil_append, List.forall_mem_cons]
  exact ⟨.string _ _, plain_text _, plain_text _, plain_word _, plain_word _, plain_word _,
    List.forall_mem_nil _⟩

theorem plain_run (report : Report) (target guid : String) :
    (run report target guid).Plain (depth + 7) := by
  have results : (encode (report.assessment.findings.map result)).Plain (depth + 6) := by
    refine plain_items fun value listed => ?_
    obtain ⟨f, -, rfl⟩ := List.mem_map.mp listed
    exact plain_result f
  have details : (Value.object (member "id" (Tool.name ++ "/" ++ target) ++
      member "guid" guid)).Plain (depth + 6) := by
    refine .object (by simp [member]) ?_
    simp only [member, List.cons_append, List.nil_append, List.forall_mem_cons]
    exact ⟨plain_text _, plain_text _, List.forall_mem_nil _⟩
  have advised : (encode report.risk.advised).Plain (depth + 5) := by
    cases report.risk.advised with
    | none => exact .null _
    | some level => exact plain_text level
  have properties : (Value.object (member "verdict" (verdict report.assessment.verdict) ++
      member "advisoryLevel" report.risk.advised ++
      member "sha256" report.digest)).Plain (depth + 6) := by
    refine .object (by simp [member]) ?_
    simp only [member, List.cons_append, List.nil_append, List.forall_mem_cons]
    exact ⟨plain_verdict _, advised, plain_text _, List.forall_mem_nil _⟩
  refine .object (by simp [member]) ?_
  simp only [member, List.cons_append, List.nil_append, List.forall_mem_cons]
  exact ⟨plain_one _ (plain_driver _), results, details, properties, List.forall_mem_nil _⟩

end Plain

/-- The text of a log means the log. -/
theorem ofText?_render (report : Report) (judged : PolicyVerdict) (target guid : String) :
    Value.ofText? (report.render judged .sarif target guid).toList =
      some (report.sarif target guid) := by
  refine Value.ofText?_prettyText (.object (by simp [member]) ?_)
  simp only [member, List.cons_append, List.nil_append, List.forall_mem_cons]
  exact ⟨plain_text _, plain_text _, plain_items (List.forall_mem_singleton.mpr (plain_run ..)),
    List.forall_mem_nil _⟩

/-- The value at the end of a path of names. -/
def at? (path : List String) (value : Value) : Option Value :=
  path.foldlM (fun value name => (Manifest.members? value).bind (member? · name)) value

def textAt? (path : List String) (value : Value) : Option String :=
  (at? path value).bind Manifest.string?

def itemsAt? (path : List String) (value : Value) : Option (List Value) :=
  match at? path value with
  | some (.array items) => some items
  | _ => none

/-- The run of a log that has one. -/
def run? (log : Value) : Option Value :=
  match itemsAt? ["runs"] log with
  | some [run] => some run
  | _ => none

/-- The ids of the rules that the run of a log declares. -/
def ruleIds? (log : Value) : Option (List String) := do
  (← itemsAt? ["tool", "driver", "rules"] (← run? log)).mapM (textAt? ["id"])

/-- What a result says: the rule that it refers to, its level, its severity and its message. -/
structure Statement where
  ruleId : String
  level : String
  severity : String
  message : String
deriving DecidableEq, Repr

def Statement.ofResult? (result : Value) : Option Statement := do
  return {
    ruleId := ← textAt? ["ruleId"] result
    level := ← textAt? ["level"] result
    severity := ← textAt? ["properties", "severity"] result
    message := ← textAt? ["message", "text"] result }

def statements? (log : Value) : Option (List Statement) := do
  (← itemsAt? ["results"] (← run? log)).mapM Statement.ofResult?

/-- What the result of a finding has to say. -/
def Statement.ofFinding (f : Finding) : Statement where
  ruleId := f.ruleId
  level := f.severity.sarifLevel
  severity := f.severity.name
  message := f.title ++ ": " ++ f.description

theorem run?_sarif (report : Report) (target guid : String) :
    run? (report.sarif target guid) = some (run report target guid) :=
  rfl

theorem itemsAt?_of_at? {path : List String} {value : Value} {items : List Value}
    (found : at? path value = some (encode items)) : itemsAt? path value = some items := by
  have same : encode items = .array items := congrArg Value.array (List.map_id items)
  rw [itemsAt?, found, same]

theorem ofResult?_result (f : Finding) :
    Statement.ofResult? (result f) = some (Statement.ofFinding f) :=
  rfl

/-- The ids of the rules of the battery, and that of notes behind them if there is a note. -/
def declaredIds (a : Assessment) : List String :=
  Rule.battery.map (·.info.id) ++ if a.note?.isSome then [noteRuleId] else []

theorem ruleIds?_sarif (report : Report) (target guid : String) :
    ruleIds? (report.sarif target guid) = some (declaredIds report.assessment) := by
  have rules : itemsAt? ["tool", "driver", "rules"] (run report target guid) =
      some (descriptors report.assessment) := itemsAt?_of_at? rfl
  rw [ruleIds?, run?_sarif, Option.bind_eq_bind, Option.bind_some, rules]
  rw [Option.bind_eq_bind, Option.bind_some, descriptors, declaredIds]
  cases report.assessment.note?.isSome <;> rfl

/-- The results of a log are what the findings of the report have to say, in their order. -/
theorem statements?_sarif (report : Report) (target guid : String) :
    statements? (report.sarif target guid) =
      some (report.assessment.findings.map Statement.ofFinding) := by
  have results : itemsAt? ["results"] (run report target guid) =
      some (report.assessment.findings.map result) := itemsAt?_of_at? rfl
  rw [statements?, run?_sarif, Option.bind_eq_bind, Option.bind_some, results]
  rw [Option.bind_eq_bind, Option.bind_some, List.mapM_map, Function.comp_def,
    funext ofResult?_result]
  exact List.mapM_pure

end Report.Sarif

namespace Report

open Json (Value)
open Manifest (lonePackage rawHomepage rawHomepage_small)
open Sarif (Statement declaredIds ruleIds? statements?)

/-- The reports under a policy: those on packages, whatever details and advisor there are, and those
that the policy makes of records. -/
inductive Produced (policy : Policy) : Report → Prop
  | analyzed {advisor : Option Advisor} {details : Option StoreDetails} {raw : ByteArray}
    {report : Report} (done : ofPackage policy advisor details raw = .ok report) :
    Produced policy report
  | reevaluated (record : Record) : Produced policy (record.report policy)

variable {policy : Policy} {report : Report}

theorem Produced.exists_make (produced : Produced policy report) :
    ∃ target note digest, report = make policy target note digest := by
  cases produced with
  | analyzed done =>
    obtain ⟨m, -, made⟩ := ofPackage_eq_ok_iff.mp done
    exact ⟨_, _, _, made.symm⟩
  | reevaluated record => exact ⟨_, _, _, rfl⟩

/-- The findings of a report are those of rules, which have the id of their rule, and the note. -/
theorem ruleId_of_mem_make {target : Target} {note : Option String} {digest : String}
    {f : Finding} (found : f ∈ (make policy target note digest).assessment.findings) :
    f.ruleId ∈ Rule.battery.map (·.info.id) ∨ ∃ text, note = some text ∧ f = noteFinding text := by
  rw [make, findings_withNote, List.mem_append] at found
  rcases found with counts | isNote
  · exact Or.inl (Policy.ruleId_mem_ids counts)
  · obtain ⟨text, given, rfl⟩ := List.mem_map.mp isNote
    exact Or.inr ⟨text, Option.mem_toList.mp given, rfl⟩

/-- A note among the findings is the note that the report was made with. -/
theorem noteFinding_mem_make_iff {target : Target} {note : Option String} {digest text : String} :
    noteFinding text ∈ (make policy target note digest).assessment.findings ↔
      note = some text := by
  constructor
  · intro found
    rcases ruleId_of_mem_make found with ofRule | ⟨other, given, same⟩
    · exact absurd ofRule Rule.noteRuleId_not_mem_ids
    · rw [given]
      exact congrArg (some ∘ Finding.description) same.symm
  · rintro rfl
    exact List.mem_append_right _ List.mem_cons_self

theorem note?_make {target : Target} {note : Option String} {digest : String} :
    (make policy target note digest).assessment.note? = note.map noteFinding :=
  note?_withNote policy target note

/-- The rules of the battery have different ids, and none has that of notes. -/
theorem nodup_declaredIds (a : Assessment) : (declaredIds a).Nodup := by
  unfold declaredIds
  cases a.note?.isSome <;> decide

theorem noteRuleId_mem_declaredIds_iff {a : Assessment} :
    noteRuleId ∈ declaredIds a ↔ a.note?.isSome = true := by
  rw [declaredIds, List.mem_append, or_iff_right Rule.noteRuleId_not_mem_ids]
  cases a.note?.isSome <;> simp

/-- A report is interchanged with the rules that it refers to. The text means a log that declares
rules with different ids; its results are what the findings of the report say, in their order; each
refers to a declared rule; and the rule of notes is declared exactly if a finding is a note. -/
theorem interchanged_with_its_rules (produced : Produced policy report) (judged : PolicyVerdict)
    (target guid : String) :
    ∃ log ids results,
      Value.ofText? (report.render judged .sarif target guid).toList = some log ∧
      ruleIds? log = some ids ∧ statements? log = some results ∧ ids.Nodup ∧
      results = report.assessment.findings.map Statement.ofFinding ∧
      (∀ result ∈ results, result.ruleId ∈ ids) ∧
      (noteRuleId ∈ ids ↔ ∃ text, noteFinding text ∈ report.assessment.findings) := by
  refine ⟨_, _, _, Sarif.ofText?_render report judged target guid, Sarif.ruleIds?_sarif ..,
    Sarif.statements?_sarif .., nodup_declaredIds _, rfl, fun result listed => ?_, ?_⟩
  all_goals obtain ⟨on, note, digest, rfl⟩ := produced.exists_make
  · obtain ⟨f, found, rfl⟩ := List.mem_map.mp listed
    rcases ruleId_of_mem_make found with ofRule | ⟨text, given, rfl⟩
    · exact List.mem_append_left _ ofRule
    · have noted : (make policy on note digest).assessment.note?.isSome = true := by
        rw [note?_make, given]
        rfl
      exact noteRuleId_mem_declaredIds_iff.mpr noted
  · rw [noteRuleId_mem_declaredIds_iff, note?_make, Option.isSome_map, Option.isSome_iff_exists]
    exact exists_congr fun text => noteFinding_mem_make_iff.symm

/-- A note about a package with a homepage is interchanged with the rule of notes. -/
theorem noted_package_interchanged : ∃ report log ids,
    ofPackage {} (some fun _ => some "Risk Level: Critical") none
        (lonePackage rawHomepage) = .ok report ∧
      Value.ofText? (report.render (report.judge {}) .sarif "lone" "guid").toList = some log ∧
      ruleIds? log = some ids ∧ noteRuleId ∈ ids := by
  have alone := Manifest.readFirst_openedLone rawHomepage_small
  obtain ⟨report, reported⟩ := exists_report_of_homepage
    (Manifest.ofPackage_lonePackage rawHomepage_small) alone {}
    (some fun _ => some "Risk Level: Critical") none
  obtain ⟨log, ids, _, means, declared, -, -, -, -, noted⟩ :=
    interchanged_with_its_rules (.analyzed reported) (report.judge {}) "lone" "guid"
  refine ⟨report, log, ids, reported, means, declared, noted.mpr ⟨"Risk Level: Critical", ?_⟩⟩
  rw [findings_eq_append_answer reported]
  exact List.mem_append_right _ List.mem_cons_self

end Report

end ExtensionAudit

import ExtensionAudit.Policy
import Mathlib.Data.List.Perm.Subperm

namespace ExtensionAudit

open List (Perm Subperm)

/-- The rule of a finding and its severity. -/
def Finding.grade (f : Finding) : String × Severity :=
  (f.ruleId, f.severity)

/-- The severity with which a policy counts a grade, unless it drops it. -/
def Policy.severity? (policy : Policy) (grade : String × Severity) : Option Severity :=
  if grade.1 ∈ policy.ignoredRules then none
  else some ((policy.overrides.lookup grade.1).getD grade.2)

theorem Policy.severity_regrade (policy : Policy) (f : Finding) :
    (policy.regrade f).severity = (policy.overrides.lookup f.ruleId).getD f.severity := by
  unfold regrade
  cases policy.overrides.lookup f.ruleId <;> rfl

theorem Policy.ruleId_regrade (policy : Policy) (f : Finding) :
    (policy.regrade f).ruleId = f.ruleId := by
  unfold regrade
  split <;> rfl

/-- A policy changes nothing of a finding but its severity. -/
theorem Policy.regrade_eq (policy : Policy) (f : Finding) :
    policy.regrade f = { f with severity := (policy.regrade f).severity } := by
  unfold regrade
  split <;> rfl

/-- The severities that a policy leaves come from the grades alone. -/
theorem Policy.severities_apply (policy : Policy) (findings : List Finding) :
    (policy.apply findings).map Finding.severity =
      (findings.map Finding.grade).filterMap policy.severity? := by
  unfold apply
  induction findings with
  | nil => rfl
  | cons f findings ih =>
    by_cases dropped : f.ruleId ∈ policy.ignoredRules
    · have none : policy.severity? f.grade = none := if_pos dropped
      rw [List.filter_cons_of_neg (by simp [ignores, dropped]), List.map_cons,
        List.filterMap_cons_none none, ih]
    · have counted : policy.severity? f.grade =
          some ((policy.overrides.lookup f.ruleId).getD f.severity) := if_neg dropped
      rw [List.filter_cons_of_pos (by simp [ignores, dropped]), List.map_cons, List.map_cons,
        List.map_cons, List.filterMap_cons_some counted, severity_regrade, ih]

theorem subperm_filterMap {α β : Type} {few many : List α} (f : α → Option β)
    (more : Subperm few many) : Subperm (few.filterMap f) (many.filterMap f) := by
  obtain ⟨picked, perm, sublist⟩ := more
  exact ⟨picked.filterMap f, perm.filterMap f, sublist.filterMap f⟩

theorem Severity.rank_ofCounts (high medium : Nat) :
    (ofCounts high medium).rank =
      if 3 < high then 5
      else if 1 < high then 4
      else if 1 < medium ∨ 0 < high then 3
      else if 0 < medium then 2
      else 1 := by
  rw [ofCounts, apply_ite rank, apply_ite rank, apply_ite rank, apply_ite rank]
  simp only [Bool.or_eq_true, decide_eq_true_eq]
  rfl

/-- The severity that the counts amount to does not fall when medium findings become high ones or
more findings are counted. -/
theorem Severity.ofCounts_le_of_sum {high medium high' medium' : Nat} (highs : high ≤ high')
    (both : high + medium ≤ high' + medium') : ofCounts high medium ≤ ofCounts high' medium' := by
  rw [le_iff, rank_ofCounts, rank_ofCounts]
  repeat' split
  all_goals omega

/-- More findings that count never lower the severity that the counts amount to. -/
theorem Severity.ofCounts_le {high medium high' medium' : Nat} (highs : high ≤ high')
    (mediums : medium ≤ medium') : ofCounts high medium ≤ ofCounts high' medium' :=
  ofCounts_le_of_sum highs (Nat.add_le_add highs mediums)

variable {few many : List Finding}

theorem countSeverity_eq (severity : Severity) (findings : List Finding) :
    countSeverity severity findings = (findings.map Finding.severity).count severity := by
  rw [countSeverity, List.count_eq_countP, List.countP_map]
  rfl

/-- A list with more severities has no lower verdict. -/
theorem Verdict.severity_le
    (more : Subperm (few.map Finding.severity) (many.map Finding.severity)) :
    (ofFindings few).severity ≤ (ofFindings many).severity := by
  refine Severity.ofCounts_le ?_ ?_
  · rw [countSeverity_eq, countSeverity_eq]
    exact more.count_le _
  · rw [countSeverity_eq, countSeverity_eq]
    exact more.count_le _

/-- Lists with the same severities in any order have one verdict. -/
theorem Verdict.ofFindings_eq_of_perm
    (same : Perm (few.map Finding.severity) (many.map Finding.severity)) :
    ofFindings few = ofFindings many := by
  have counts (severity : Severity) : countSeverity severity few = countSeverity severity many := by
    rw [countSeverity_eq, countSeverity_eq, same.count_eq]
  have counted : few.countP (·.severity != .info) = many.countP (·.severity != .info) := by
    have onSeverities (findings : List Finding) : findings.countP (·.severity != .info) =
        (findings.map Finding.severity).countP (· != .info) := by
      rw [List.countP_map]
      rfl
    rw [onSeverities, onSeverities, same.countP_eq]
  simp only [ofFindings, counts, counted]

/-- Under one policy more grades make no lower verdict. -/
theorem Policy.verdict_le_of_grades (policy : Policy)
    (more : Subperm (few.map Finding.grade) (many.map Finding.grade)) :
    (Verdict.ofFindings (policy.apply few)).severity ≤
      (Verdict.ofFindings (policy.apply many)).severity := by
  refine Verdict.severity_le ?_
  rw [severities_apply, severities_apply]
  exact subperm_filterMap _ more

/-- Under one policy the order of the grades makes no difference to the verdict. -/
theorem Policy.verdict_eq_of_grades (policy : Policy)
    (same : Perm (few.map Finding.grade) (many.map Finding.grade)) :
    Verdict.ofFindings (policy.apply few) = Verdict.ofFindings (policy.apply many) := by
  refine Verdict.ofFindings_eq_of_perm ?_
  rw [severities_apply, severities_apply]
  exact same.filterMap _

end ExtensionAudit

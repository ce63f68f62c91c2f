import ExtensionAudit.Proofs.Rule.Requests

namespace ExtensionAudit.Policy

open List (Sublist)
open Rule (battery evaluate)

/-- The rules that a policy ignores, in their order. -/
def ignoredBattery (policy : Policy) : List Rule :=
  battery.filter fun rule => rule.info.id ∈ policy.ignoredRules

/-- The rules that count under a policy, in their order. -/
def countedBattery (policy : Policy) : List Rule :=
  battery.filter fun rule => rule.info.id ∉ policy.ignoredRules

variable {policy stricter : Policy} {rule : Rule} {rules : List Rule} {t : Target}

theorem ignores_of_mem_findings (listed : rule ∈ battery) {f : Finding}
    (reported : f ∈ rule.findings t) :
    policy.ignores f = decide (rule.info.id ∈ policy.ignoredRules) := by
  rw [ignores, Rule.ruleId_of_mem_findings listed reported]

theorem regrade_of_mem_findings (listed : rule ∈ battery) {f : Finding}
    (reported : f ∈ rule.findings t) :
    policy.regrade f =
      { f with severity := (policy.overrides.lookup rule.info.id).getD f.severity } := by
  rw [regrade_eq, severity_regrade, Rule.ruleId_of_mem_findings listed reported]

/-- Of the findings of a rule a policy leaves none or all. -/
theorem apply_findings (listed : rule ∈ battery) :
    policy.apply (rule.findings t) =
      if rule.info.id ∈ policy.ignoredRules then []
      else (rule.findings t).map fun f =>
        { f with severity := (policy.overrides.lookup rule.info.id).getD f.severity } := by
  split
  · rename_i ignored
    have none : (rule.findings t).filter (fun f => !policy.ignores f) = [] :=
      List.filter_eq_nil_iff.mpr fun f reported => by
        simp [ignores_of_mem_findings listed reported, ignored]
    rw [apply, none, List.map_nil]
  · rename_i counted
    have all : (rule.findings t).filter (fun f => !policy.ignores f) = rule.findings t :=
      List.filter_eq_self.mpr fun f reported => by
        simp [ignores_of_mem_findings listed reported, counted]
    rw [apply, all]
    exact List.map_congr_left fun f reported => regrade_of_mem_findings listed reported

theorem ignoredCount_findings (listed : rule ∈ battery) :
    policy.ignoredCount (rule.findings t) =
      if rule.info.id ∈ policy.ignoredRules then (rule.findings t).length else 0 := by
  split
  · rename_i ignored
    exact List.countP_eq_length.mpr fun f reported => by
      simp [ignores_of_mem_findings listed reported, ignored]
  · rename_i counted
    exact List.countP_eq_zero.mpr fun f reported => by
      simp [ignores_of_mem_findings listed reported, counted]

theorem apply_append (front back : List Finding) :
    policy.apply (front ++ back) = policy.apply front ++ policy.apply back := by
  rw [apply, List.filter_append, List.map_append, ← apply, ← apply]

/-- A policy leaves of the findings of some rules what those of them report that count. -/
theorem apply_flatMap_findings (known : rules ⊆ battery) :
    policy.apply (rules.flatMap (·.findings t)) =
      (rules.filter fun rule => rule.info.id ∉ policy.ignoredRules).flatMap fun rule =>
        (rule.findings t).map fun f =>
          { f with severity := (policy.overrides.lookup rule.info.id).getD f.severity } := by
  induction rules with
  | nil => rfl
  | cons rule rules ih =>
    obtain ⟨listed, later⟩ := List.cons_subset.mp known
    rw [List.flatMap_cons, apply_append, apply_findings listed, ih later]
    by_cases ignored : rule.info.id ∈ policy.ignoredRules
    · rw [if_pos ignored, List.filter_cons_of_neg (by simpa using ignored), List.nil_append]
    · rw [if_neg ignored, List.filter_cons_of_pos (by simpa using ignored), List.flatMap_cons]

/-- A policy drops of the findings of some rules what those of them report that it ignores. -/
theorem ignoredCount_flatMap_findings (known : rules ⊆ battery) :
    policy.ignoredCount (rules.flatMap (·.findings t)) =
      ((rules.filter fun rule => rule.info.id ∈ policy.ignoredRules).flatMap
        (·.findings t)).length := by
  induction rules with
  | nil => rfl
  | cons rule rules ih =>
    obtain ⟨listed, later⟩ := List.cons_subset.mp known
    have both : policy.ignoredCount (rule.findings t ++ rules.flatMap (·.findings t)) =
        policy.ignoredCount (rule.findings t) +
          policy.ignoredCount (rules.flatMap (·.findings t)) := List.countP_append
    rw [List.flatMap_cons, both, ignoredCount_findings listed, ih later]
    by_cases ignored : rule.info.id ∈ policy.ignoredRules
    · rw [if_pos ignored, List.filter_cons_of_pos (by simpa using ignored), List.flatMap_cons,
        List.length_append]
    · rw [if_neg ignored, List.filter_cons_of_neg (by simpa using ignored), Nat.zero_add]

/-- Each finding is dropped or left. -/
theorem ignoredCount_add_length_apply (findings : List Finding) :
    policy.ignoredCount findings + (policy.apply findings).length = findings.length := by
  have kept : (policy.apply findings).length = findings.countP (fun f => !policy.ignores f) := by
    rw [apply, List.length_map, List.countP_eq_length_filter]
  rw [kept, ignoredCount, List.length_eq_countP_add_countP policy.ignores]
  simp

theorem ignores_regrade (f : Finding) : policy.ignores (policy.regrade f) = policy.ignores f := by
  rw [ignores, ruleId_regrade, ← ignores]

theorem regrade_regrade (f : Finding) :
    policy.regrade (policy.regrade f) = policy.regrade f := by
  have severity : (policy.regrade (policy.regrade f)).severity = (policy.regrade f).severity := by
    rw [severity_regrade, ruleId_regrade, severity_regrade]
    cases policy.overrides.lookup f.ruleId <;> rfl
  rw [regrade_eq policy (policy.regrade f), severity]

/-- What a policy has left it leaves as it is. -/
theorem apply_apply (findings : List Finding) :
    policy.apply (policy.apply findings) = policy.apply findings := by
  have left : (policy.apply findings).filter (fun f => !policy.ignores f) =
      policy.apply findings := by
    refine List.filter_eq_self.mpr fun g counts => ?_
    obtain ⟨f, kept, rfl⟩ := List.mem_map.mp counts
    rw [ignores_regrade]
    exact (List.mem_filter.mp kept).2
  have graded : (policy.apply findings).map policy.regrade = policy.apply findings := by
    rw [apply, List.map_map]
    exact List.map_congr_left fun f _ => regrade_regrade f
  rw [apply, left, graded]

theorem regrade_congr (same : ∀ rule, stricter.overrides.lookup rule = policy.overrides.lookup rule)
    (f : Finding) : stricter.regrade f = policy.regrade f := by
  rw [regrade, same, ← regrade]

/-- With the same severities for all rules, a policy that ignores more leaves some of the findings
that the other one leaves. -/
theorem sublist_apply (same : ∀ rule, stricter.overrides.lookup rule = policy.overrides.lookup rule)
    (more : ∀ rule ∈ policy.ignoredRules, rule ∈ stricter.ignoredRules)
    (findings : List Finding) : Sublist (stricter.apply findings) (policy.apply findings) := by
  have graded : stricter.regrade = policy.regrade := funext (regrade_congr same)
  rw [apply, apply, graded]
  refine (List.monotone_filter_right _ fun f kept => ?_).map _
  have counted : f.ruleId ∉ stricter.ignoredRules := by simpa [ignores] using kept
  simpa [ignores] using fun ignored => counted (more _ ignored)

/-- Ignoring rules is the same as not running them. A policy leaves of a target, in order, what the
rules report that it does not ignore, with another severity where it sets one for the rule; it
counts as ignored what the ignored rules report, and so each finding is ignored or left. Applied
again it changes nothing, and a policy that ignores more has no higher verdict. -/
theorem ignoring_is_not_running (policy : Policy) (t : Target) :
    policy.apply (evaluate t) =
        policy.countedBattery.flatMap (fun rule => (rule.findings t).map fun f =>
          { f with severity := (policy.overrides.lookup rule.info.id).getD f.severity }) ∧
      policy.ignoredCount (evaluate t) =
        (policy.ignoredBattery.flatMap (·.findings t)).length ∧
      policy.ignoredCount (evaluate t) + (policy.apply (evaluate t)).length =
        (evaluate t).length ∧
      (∀ findings, policy.apply (policy.apply findings) = policy.apply findings) ∧
      ∀ stricter : Policy,
        (∀ rule, stricter.overrides.lookup rule = policy.overrides.lookup rule) →
        (∀ rule ∈ policy.ignoredRules, rule ∈ stricter.ignoredRules) →
        (Report.assess stricter t).verdict.severity ≤
          (Report.assess policy t).verdict.severity := by
  refine ⟨apply_flatMap_findings fun _ => id, ignoredCount_flatMap_findings fun _ => id,
    ignoredCount_add_length_apply _, apply_apply, fun stricter same more => ?_⟩
  exact Verdict.severity_le ((sublist_apply same more (evaluate t)).map _).subperm

/-- Two high findings and one of an older format: who ignores the permissions keeps the last one,
who lowers them keeps all three, and the verdict of the first is no higher. -/
theorem ignored_permissions_verdict :
    (∀ rule ∈ TextSet.empty, rule ∈ TextSet.ofList ["CRX-001"]) ∧
      (Report.assess { ignoredRules := .ofList ["CRX-001"], overrides := [("CRX-001", .low)] }
          ⟨asking 2 ["tabs", "cookies"] [] [] [], none⟩).verdict.severity ≤
        (Report.assess { overrides := [("CRX-001", .low)] }
          ⟨asking 2 ["tabs", "cookies"] [] [] [], none⟩).verdict.severity := by
  have more : ∀ rule ∈ TextSet.empty, rule ∈ TextSet.ofList ["CRX-001"] :=
    fun _ ignored => absurd ignored List.not_mem_nil
  obtain ⟨-, -, -, -, lower⟩ := ignoring_is_not_running { overrides := [("CRX-001", .low)] }
    ⟨asking 2 ["tabs", "cookies"] [] [] [], none⟩
  exact ⟨more, lower { ignoredRules := .ofList ["CRX-001"], overrides := [("CRX-001", .low)] }
    (fun _ => rfl) more⟩

end ExtensionAudit.Policy

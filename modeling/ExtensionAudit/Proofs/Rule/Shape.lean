import ExtensionAudit.Proofs.Rule.Reported

namespace ExtensionAudit.Rule

open List (Forall₂ Subperm)

/-- The shape of the findings on a manifest. -/
structure Shape (m : Manifest) (findings : List Finding) : Prop where
  known : ∀ f ∈ findings, f.ruleId ∈
    ["CRX-001", "CRX-002", "CRX-003", "CRX-004", "CRX-005", "CRX-006", "CRX-007"]
  ordered : (findings.map Finding.ruleId).Pairwise (· ≤ ·)
  once : ∀ id ∈ ["CRX-002", "CRX-003", "CRX-004", "CRX-005", "CRX-006", "CRX-007"],
    (findings.map Finding.ruleId).count id ≤ 1
  /-- One finding for each occurrence of a permission in a table, in order. -/
  permissions : Forall₂ IsPermissionFinding
    (m.permissions.filter fun p => p ∈ highRiskNames ∨ p ∈ mediumRiskNames)
    (findings.filter (·.ruleId = "CRX-001"))
  severities : ∀ f ∈ findings, f.severity = .high ∨ f.severity = .medium
  counts : countSeverity .high findings + countSeverity .medium findings = findings.length
  total : (Verdict.ofFindings findings).total =
    (Verdict.ofFindings findings).high + (Verdict.ofFindings findings).medium
  total_length : (Verdict.ofFindings findings).total = .ofNat findings.length
  broad : (∃ f ∈ findings, f.ruleId = "CRX-003") ↔
    ∃ host ∈ m.hostPermissions, '*' ∈ host.toList ∨ "<all_urls>".toList <:+: host.toList
  older : (∃ f ∈ findings, f.ruleId = "CRX-006") ↔ m.formatVersion < 3
  /-- Two high findings about permissions stand before the one about their combination. -/
  combination : ∀ before f after, findings = before ++ f :: after → f.ruleId = "CRX-002" →
    2 ≤ before.countP fun g => g.ruleId = "CRX-001" ∧ g.severity = .high
  verdict : (∃ f ∈ findings, f.ruleId = "CRX-002") →
    .high ≤ (Verdict.ofFindings findings).severity

variable {t : Target} {rule : Rule}

theorem ascending_ids : (battery.map (·.info.id)).Pairwise (· < ·) := by
  decide

/-- The findings of a rule stand before those of later rules, so their ids ascend. -/
theorem ordered_evaluate (t : Target) :
    ((evaluate t).map Finding.ruleId).Pairwise (· ≤ ·) := by
  rw [List.pairwise_map, evaluate, List.pairwise_flatMap]
  constructor
  · intro rule listed
    refine List.pairwise_of_forall_mem_list fun f reported g reported' => ?_
    have same : f.ruleId = g.ruleId :=
      (ruleId_of_mem_findings listed reported).trans (ruleId_of_mem_findings listed reported').symm
    exact same ▸ String.le_refl _
  · refine (List.pairwise_map.mp ascending_ids).imp_of_mem ?_
    intro rule later listed listed' below f reported g reported'
    rw [ruleId_of_mem_findings listed reported, ruleId_of_mem_findings listed' reported']
    exact Std.le_of_lt below

theorem exists_ruleId_iff (listed : rule ∈ battery) :
    (∃ f ∈ evaluate t, f.ruleId = rule.info.id) ↔ rule.findings t ≠ [] := by
  rw [← filter_evaluate listed, Ne, List.filter_eq_nil_iff]
  simp

theorem count_ruleId (listed : rule ∈ battery) :
    ((evaluate t).map Finding.ruleId).count rule.info.id = (rule.findings t).length := by
  rw [← filter_evaluate listed, ← List.countP_eq_length_filter, List.count_eq_countP,
    List.countP_map]
  rfl

section Grades

variable {findings : List Finding} {condition : Bool} {grade : String × Severity}

theorem ne_nil_iff_of_grades (grades : findings.map Finding.grade = gradeIf condition grade) :
    findings ≠ [] ↔ condition = true := by
  rw [Ne, ← List.map_eq_nil_iff, grades, gradeIf]
  split <;> simp_all

theorem length_le_one_of_grades (grades : findings.map Finding.grade = gradeIf condition grade) :
    findings.length ≤ 1 := by
  rw [← List.length_map Finding.grade, grades, gradeIf]
  split <;> simp

end Grades

/-- Every rule but the first has one finding at most. -/
theorem length_findings_le_one (later : rule ∈ battery.tail) : (rule.findings t).length ≤ 1 := by
  simp only [battery, List.tail_cons, List.mem_cons, List.not_mem_nil, or_false] at later
  rcases later with rfl | rfl | rfl | rfl | rfl | rfl
  · exact length_le_one_of_grades (grades_blockingRequests t)
  · exact length_le_one_of_grades (grades_broadHosts t)
  · exact length_le_one_of_grades (grades_sensitiveDomains t)
  · exact length_le_one_of_grades (grades_broadContentScripts t)
  · exact length_le_one_of_grades (grades_olderFormat t)
  · exact length_le_one_of_grades (grades_contentSecurityPolicy t)

/-- The rule about older formats looks at the number of the format. -/
theorem exists_olderFormat_iff :
    (∃ f ∈ evaluate t, f.ruleId = "CRX-006") ↔ t.manifest.formatVersion < 3 := by
  have listed : olderFormat ∈ battery := by simp [battery]
  refine (exists_ruleId_iff listed).trans ?_
  rw [ne_nil_iff_of_grades (grades_olderFormat t), decide_eq_true_eq]

/-- Of the patterns that match everything, all but one have a star. -/
theorem isBroadHost_iff (host : String) :
    isBroadHost host = true ↔ '*' ∈ host.toList ∨ "<all_urls>".toList <:+: host.toList := by
  have star (pattern : String) (starred : '*' ∈ pattern.toList)
      (found : contains host pattern = true) : '*' ∈ host.toList :=
    (contains_iff.mp found).subset starred
  simp only [isBroadHost, matchEverything, List.any_cons, List.any_nil, Bool.or_false,
    Bool.or_eq_true]
  constructor
  · rintro (found | found | found | found | found)
    · exact Or.inl (star _ (by decide) found)
    · exact Or.inr (contains_iff.mp found)
    · exact Or.inl (star _ (by decide) found)
    · exact Or.inl (star _ (by decide) found)
    · exact Or.inl (star _ (by decide) found)
  · rintro (starred | everywhere)
    · obtain ⟨front, back, parts⟩ := List.append_of_mem starred
      have found : "*".toList <:+: host.toList := ⟨front, back, by simp [parts]⟩
      exact Or.inr (Or.inr (Or.inr (Or.inr (contains_iff.mpr found))))
    · exact Or.inr (Or.inl (contains_iff.mpr everywhere))

theorem filter_evaluate_first (t : Target) :
    (evaluate t).filter (·.ruleId = "CRX-001") = permissionRisk.findings t :=
  filter_evaluate List.mem_cons_self

/-- The findings of the first rule are those about the permissions in a table. -/
theorem forall₂_isPermissionFinding (permissions : List String) :
    Forall₂ IsPermissionFinding
      (permissions.filter fun p => p ∈ highRiskNames ∨ p ∈ mediumRiskNames)
      (permissions.filterMap permissionFinding?) := by
  induction permissions with
  | nil => exact .nil
  | cons permission permissions ih =>
    by_cases risky : permission ∈ highRiskNames ∨ permission ∈ mediumRiskNames
    · obtain ⟨f, found, reports⟩ := exists_permissionFinding risky
      rw [List.filter_cons_of_pos (by simpa using risky), List.filterMap_cons_some found]
      exact .cons reports ih
    · rw [List.filter_cons_of_neg (by simpa using risky),
        List.filterMap_cons_none (permissionFinding?_eq_none risky)]
      exact ih

theorem IsPermissionFinding.severity {permission : String} {f : Finding}
    (reports : IsPermissionFinding permission f) : f.severity = .high ∨ f.severity = .medium := by
  by_cases high : permission ∈ highRiskNames
  · exact Or.inl (reports.high high).1
  · exact Or.inr (reports.medium high).2.1

theorem severity_evaluate {f : Finding} (reported : f ∈ evaluate t) :
    f.severity = .high ∨ f.severity = .medium := by
  have graded : f.grade ∈ (evaluate t).map Finding.grade := List.mem_map_of_mem reported
  have single {condition : Bool} {id : String} {severity : Severity}
      (among : f.grade ∈ gradeIf condition (id, severity)) : f.severity = severity := by
    unfold gradeIf at among
    split at among
    · exact congrArg Prod.snd (List.mem_singleton.mp among)
    · exact absurd among List.not_mem_nil
  rw [grades_evaluate] at graded
  simp only [List.mem_append] at graded
  rcases graded with found | found | found | found | found | found | found
  · obtain ⟨permission, -, found⟩ := List.mem_filterMap.mp found
    obtain ⟨g, found, same⟩ := Option.map_eq_some_iff.mp found
    rw [← show g.severity = f.severity from congrArg Prod.snd same]
    exact (isPermissionFinding found).severity
  · exact Or.inl (single found)
  · exact Or.inl (single found)
  · exact Or.inr (single found)
  · exact Or.inl (single found)
  · exact Or.inr (single found)
  · exact Or.inl (single found)

/-- Findings that are all high or medium are counted once each. -/
theorem countSeverity_high_add_medium {findings : List Finding}
    (graded : ∀ f ∈ findings, f.severity = .high ∨ f.severity = .medium) :
    countSeverity .high findings + countSeverity .medium findings = findings.length := by
  induction findings with
  | nil => rfl
  | cons f findings ih =>
    obtain ⟨first, later⟩ := List.forall_mem_cons.mp graded
    have counted := ih later
    simp only [countSeverity, List.countP_cons, List.length_cons] at counted ⊢
    rcases first with high | medium
    · simp [high]
      omega
    · simp [medium]
      omega

/-- A verdict counts findings that are all high or medium, each of them. -/
theorem countP_ne_info {findings : List Finding}
    (graded : ∀ f ∈ findings, f.severity = .high ∨ f.severity = .medium) :
    findings.countP (·.severity != .info) = findings.length := by
  refine List.countP_eq_length.mpr fun f reported => ?_
  rcases graded f reported with high | medium
  · rw [high]; rfl
  · rw [medium]; rfl

/-- Who may see and block requests has two high findings for that alone. -/
theorem two_le_of_blocking (blocks : blockingRequests.findings t ≠ []) :
    2 ≤ (permissionRisk.findings t).countP (·.severity = .high) := by
  have both := (ne_nil_iff_of_grades (grades_blockingRequests t)).mp blocks
  simp only [Bool.and_eq_true, List.contains_iff_mem] at both
  have declared : Subperm ["webRequest", "webRequestBlocking"] t.manifest.permissions :=
    List.Nodup.subperm (by decide) (by simp [both])
  have two : 2 ≤ (["webRequest", "webRequestBlocking"].filterMap permissionFinding?).countP
      (·.severity = .high) := by decide
  exact Nat.le_trans two ((subperm_filterMap permissionFinding? declared).countP_le _)

/-- High findings about permissions, counted among all. -/
theorem countP_high_permissions (t : Target) :
    (evaluate t).countP (fun g => g.ruleId = "CRX-001" ∧ g.severity = .high) =
      (permissionRisk.findings t).countP (·.severity = .high) := by
  rw [← filter_evaluate_first, List.countP_filter]
  exact List.countP_congr fun g _ => by simp [and_comm]

/-- What follows a finding of the second rule is not about a single permission. -/
theorem two_le_before {before after : List Finding} {f : Finding}
    (parts : evaluate t = before ++ f :: after) (second : f.ruleId = "CRX-002") :
    2 ≤ before.countP fun g => g.ruleId = "CRX-001" ∧ g.severity = .high := by
  have listed : blockingRequests ∈ battery := by simp [battery]
  have blocks : blockingRequests.findings t ≠ [] :=
    (exists_ruleId_iff listed).mp ⟨f, by simp [parts], second⟩
  have later : ∀ g ∈ f :: after, g.ruleId ≠ "CRX-001" := by
    have ordered := ordered_evaluate t
    rw [parts, List.map_append, List.pairwise_append, List.map_cons, List.pairwise_cons] at ordered
    obtain ⟨-, ⟨above, -⟩, -⟩ := ordered
    rw [second] at above
    intro g member first
    rcases List.mem_cons.mp member with rfl | member
    · rw [second] at first
      exact absurd first (by decide)
    · exact absurd (first ▸ above _ (List.mem_map_of_mem member)) (by decide)
  have none : (f :: after).countP (fun g => g.ruleId = "CRX-001" ∧ g.severity = .high) = 0 :=
    List.countP_eq_zero.mpr fun g member => by simp [later g member]
  have two := two_le_of_blocking blocks
  rw [← countP_high_permissions, parts, List.countP_append, none, Nat.add_zero] at two
  exact two

theorem high_le_verdict {findings : List Finding} (two : 2 ≤ countSeverity .high findings) :
    .high ≤ (Verdict.ofFindings findings).severity := by
  have atLeast : Severity.ofCounts 2 0 ≤ (Verdict.ofFindings findings).severity :=
    Severity.ofCounts_le two (Nat.zero_le _)
  exact atLeast

/-- The rules report on every target a list of this shape. -/
theorem shape_evaluate (t : Target) : Shape t.manifest (evaluate t) := by
  have graded : ∀ f ∈ evaluate t, f.severity = .high ∨ f.severity = .medium :=
    fun _ => severity_evaluate
  have counted := countSeverity_high_add_medium graded
  have broadListed : broadHosts ∈ battery := by simp [battery]
  exact {
    known := fun f reported => ruleId_mem_ids reported
    ordered := ordered_evaluate t
    once := fun id later => by
      obtain ⟨rule, inTail, rfl⟩ : ∃ rule ∈ battery.tail, rule.info.id = id :=
        List.mem_map.mp later
      rw [count_ruleId (List.mem_of_mem_tail inTail)]
      exact length_findings_le_one inTail
    permissions := by
      rw [filter_evaluate_first]
      exact forall₂_isPermissionFinding t.manifest.permissions
    severities := graded
    counts := counted
    total := by
      simp only [Verdict.ofFindings, countP_ne_info graded, ← counted]
      exact UInt64.ofNat_add _ _
    total_length := by simp only [Verdict.ofFindings, countP_ne_info graded]
    broad := by
      refine (exists_ruleId_iff broadListed).trans ?_
      rw [ne_nil_iff_of_grades (grades_broadHosts t), List.any_eq_true]
      simp only [isBroadHost_iff]
    older := exists_olderFormat_iff
    combination := fun before f after parts second => two_le_before parts second
    verdict := fun combined => high_le_verdict <| by
      have listed : blockingRequests ∈ battery := by simp [battery]
      have two := two_le_of_blocking ((exists_ruleId_iff listed).mp combined)
      rw [← countP_high_permissions] at two
      refine Nat.le_trans two (List.countP_mono_left fun g _ high => ?_)
      simpa using (of_decide_eq_true high).2 }

end ExtensionAudit.Rule

import ExtensionAudit.Proofs.Rule.Grades
import ExtensionAudit.Rule.Battery

namespace ExtensionAudit

/-- The match patterns of all content scripts, in whatever script they stand. -/
def Manifest.matchPatterns (m : Manifest) : List String :=
  (m.contentScripts.getD []).flatMap ContentScript.patterns

namespace Rule

/-- The grade of a permission, if it is in one of the tables. -/
def permissionGrade? (permission : String) : Option (String × Severity) :=
  (permissionFinding? permission).map Finding.grade

def gradeIf (condition : Bool) (grade : String × Severity) : List (String × Severity) :=
  if condition then [grade] else []

variable (t : Target)

theorem grades_permissionRisk :
    (permissionRisk.findings t).map Finding.grade =
      t.manifest.permissions.filterMap permissionGrade? := by
  rw [permissionRisk, List.map_filterMap]
  rfl

theorem grades_blockingRequests :
    (blockingRequests.findings t).map Finding.grade =
      gradeIf (t.manifest.permissions.contains "webRequest" &&
        t.manifest.permissions.contains "webRequestBlocking") ("CRX-002", .high) := by
  simp only [blockingRequests, gradeIf]
  split <;> rfl

theorem grades_broadHosts :
    (broadHosts.findings t).map Finding.grade =
      gradeIf (t.manifest.hostPermissions.any isBroadHost) ("CRX-003", .high) := by
  simp only [broadHosts, gradeIf]
  split <;> rfl

theorem grades_sensitiveDomains :
    (sensitiveDomains.findings t).map Finding.grade =
      gradeIf (t.manifest.hostPermissions.any isSensitiveHost) ("CRX-004", .medium) := by
  simp only [sensitiveDomains, gradeIf]
  by_cases sensitive : t.manifest.hostPermissions.any isSensitiveHost
  · have listed : ¬ (t.manifest.hostPermissions.filter isSensitiveHost).isEmpty := by
      simpa using sensitive
    rw [if_pos sensitive, if_neg listed]
    rfl
  · have listed : (t.manifest.hostPermissions.filter isSensitiveHost).isEmpty := by
      simpa using sensitive
    rw [if_neg sensitive, if_pos listed]
    rfl

theorem grades_broadContentScripts :
    (broadContentScripts.findings t).map Finding.grade =
      gradeIf (t.manifest.matchPatterns.any matchEverything.contains) ("CRX-005", .high) := by
  have patterns : t.manifest.matchPatterns.any matchEverything.contains =
      (t.manifest.contentScripts.getD []).any isBroadScript := List.any_flatMap
  simp only [broadContentScripts, gradeIf, patterns]
  split <;> rfl

theorem grades_olderFormat :
    (olderFormat.findings t).map Finding.grade =
      gradeIf (t.manifest.formatVersion < 3) ("CRX-006", .medium) := by
  simp only [olderFormat, gradeIf, decide_eq_true_eq]
  split <;> rfl

/-- The two findings of this rule have one grade. -/
theorem grades_contentSecurityPolicy :
    (contentSecurityPolicy.findings t).map Finding.grade =
      gradeIf (t.manifest.contentSecurityPolicy.any fun directive =>
        contains directive wasmUnsafeEval || contains directive unsafeEval) ("CRX-007", .high) := by
  have either : (t.manifest.contentSecurityPolicy.any fun directive =>
      contains directive wasmUnsafeEval || contains directive unsafeEval) =
        (t.manifest.contentSecurityPolicy.any (contains · wasmUnsafeEval) ||
          t.manifest.contentSecurityPolicy.any (contains · unsafeEval)) := by
    rw [Bool.eq_iff_iff]
    simp only [List.any_eq_true, Bool.or_eq_true, and_or_left, exists_or]
  rw [either, gradeIf]
  cases wasm : t.manifest.contentSecurityPolicy.any (contains · wasmUnsafeEval) with
  | true =>
    simp only [contentSecurityPolicy, wasm, if_true, Bool.true_or]
    rfl
  | false =>
    simp only [contentSecurityPolicy, wasm, Bool.false_or, Bool.false_eq_true, if_false]
    split <;> rfl

/-- The grades of all rules, rule after rule. -/
theorem grades_evaluate :
    (evaluate t).map Finding.grade =
      t.manifest.permissions.filterMap permissionGrade? ++
      (gradeIf (t.manifest.permissions.contains "webRequest" &&
        t.manifest.permissions.contains "webRequestBlocking") ("CRX-002", .high) ++
      (gradeIf (t.manifest.hostPermissions.any isBroadHost) ("CRX-003", .high) ++
      (gradeIf (t.manifest.hostPermissions.any isSensitiveHost) ("CRX-004", .medium) ++
      (gradeIf (t.manifest.matchPatterns.any matchEverything.contains) ("CRX-005", .high) ++
      (gradeIf (t.manifest.formatVersion < 3) ("CRX-006", .medium) ++
      gradeIf (t.manifest.contentSecurityPolicy.any fun directive =>
        contains directive wasmUnsafeEval || contains directive unsafeEval)
          ("CRX-007", .high)))))) := by
  simp only [evaluate, battery, List.flatMap_cons, List.flatMap_nil, List.append_nil,
    List.map_append, grades_permissionRisk, grades_blockingRequests, grades_broadHosts,
    grades_sensitiveDomains, grades_broadContentScripts, grades_olderFormat,
    grades_contentSecurityPolicy]

/-- The permissions in the table of high risk. -/
def highRiskNames : List String := highRiskPermissions.map Prod.fst

/-- The permissions in the table of medium risk. -/
def mediumRiskNames : List String := mediumRiskPermissions.map Prod.fst

/-- The finding is the one about the permission: it is high if the table of high risk has the
permission, and medium if only the other one has. -/
structure IsPermissionFinding (permission : String) (f : Finding) : Prop where
  ruleId : f.ruleId = "CRX-001"
  high : permission ∈ highRiskNames →
    f.severity = .high ∧ f.title = "High-Risk Permission: " ++ permission
  medium : permission ∉ highRiskNames → permission ∈ mediumRiskNames ∧
    f.severity = .medium ∧ f.title = "Medium-Risk Permission: " ++ permission

theorem exists_lookup_iff {table : List (String × String)} {permission : String} :
    (∃ reason, table.lookup permission = some reason) ↔ permission ∈ table.map Prod.fst := by
  rw [← Option.isSome_iff_exists, List.lookup_isSome_iff, List.mem_map]
  exact exists_congr fun entry => and_congr_right fun _ => beq_iff_eq.trans eq_comm

theorem lookup_eq_none {table : List (String × String)} {permission : String}
    (absent : permission ∉ table.map Prod.fst) : table.lookup permission = none :=
  Option.eq_none_iff_forall_ne_some.mpr fun reason found =>
    absent (exists_lookup_iff.mp ⟨reason, found⟩)

/-- A permission in a table has its finding. -/
theorem exists_permissionFinding {permission : String}
    (risky : permission ∈ highRiskNames ∨ permission ∈ mediumRiskNames) :
    ∃ f, permissionFinding? permission = some f ∧ IsPermissionFinding permission f := by
  by_cases high : permission ∈ highRiskNames
  · obtain ⟨reason, found⟩ := exists_lookup_iff.mpr high
    simp only [permissionFinding?, found]
    exact ⟨_, rfl, rfl, fun _ => ⟨rfl, rfl⟩, absurd high⟩
  · have medium : permission ∈ mediumRiskNames := risky.resolve_left high
    obtain ⟨reason, found⟩ := exists_lookup_iff.mpr medium
    simp only [permissionFinding?, lookup_eq_none high, found]
    exact ⟨_, rfl, rfl, fun absent => absurd absent high, fun _ => ⟨medium, rfl, rfl⟩⟩

theorem permissionFinding?_eq_none {permission : String}
    (harmless : ¬ (permission ∈ highRiskNames ∨ permission ∈ mediumRiskNames)) :
    permissionFinding? permission = none := by
  obtain ⟨notHigh, notMedium⟩ := not_or.mp harmless
  simp only [permissionFinding?, lookup_eq_none notHigh, lookup_eq_none notMedium]

theorem isPermissionFinding {permission : String} {f : Finding}
    (found : permissionFinding? permission = some f) : IsPermissionFinding permission f := by
  by_cases risky : permission ∈ highRiskNames ∨ permission ∈ mediumRiskNames
  · obtain ⟨g, same, reports⟩ := exists_permissionFinding risky
    obtain rfl := Option.some.inj (found.symm.trans same)
    exact reports
  · exact nomatch found.symm.trans (permissionFinding?_eq_none risky)

variable {t} {rule : Rule}

/-- A rule signs all its findings with its id. -/
theorem ruleId_of_mem_findings (listed : rule ∈ battery) {f : Finding}
    (reported : f ∈ rule.findings t) : f.ruleId = rule.info.id := by
  simp only [battery, List.mem_cons, List.not_mem_nil, or_false] at listed
  rcases listed with rfl | rfl | rfl | rfl | rfl | rfl | rfl
  · obtain ⟨permission, -, found⟩ := List.mem_filterMap.mp reported
    exact (isPermissionFinding found).ruleId
  -- Each of the others reports its one finding under its condition, or nothing.
  all_goals
    simp only [blockingRequests, broadHosts, sensitiveDomains, broadContentScripts, olderFormat,
      contentSecurityPolicy] at reported
    repeat' split at reported
    all_goals
      first
      | exact absurd reported List.not_mem_nil
      | obtain rfl := List.mem_singleton.mp reported
        rfl

/-- A finding has the id of a rule. -/
theorem ruleId_mem_ids {f : Finding} (reported : f ∈ evaluate t) :
    f.ruleId ∈ battery.map (·.info.id) := by
  obtain ⟨rule, listed, found⟩ := List.mem_flatMap.mp reported
  rw [ruleId_of_mem_findings listed found]
  exact List.mem_map_of_mem listed

theorem nodup_ids : (battery.map (·.info.id)).Nodup := by
  decide

/-- The findings with the id of a rule are those that the rule reports. -/
theorem filter_evaluate (listed : rule ∈ battery) :
    (evaluate t).filter (·.ruleId = rule.info.id) = rule.findings t := by
  have others {rules : List Rule} (known : rules ⊆ battery) (absent : rule.info.id ∉
      rules.map (·.info.id)) :
      (rules.flatMap (·.findings t)).filter (·.ruleId = rule.info.id) = [] := by
    refine List.filter_eq_nil_iff.mpr fun f reported => ?_
    obtain ⟨other, inRules, found⟩ := List.mem_flatMap.mp reported
    rw [ruleId_of_mem_findings (known inRules) found]
    exact fun same => absent (List.mem_map.mpr ⟨other, inRules, by simpa using same⟩)
  have own : (rule.findings t).filter (·.ruleId = rule.info.id) = rule.findings t :=
    List.filter_eq_self.mpr fun f reported => by
      simpa using ruleId_of_mem_findings listed reported
  obtain ⟨before, after, parts⟩ := List.append_of_mem listed
  have distinct := nodup_ids
  rw [parts, List.map_append, List.map_cons, List.nodup_append] at distinct
  obtain ⟨-, later, apart⟩ := distinct
  have notBefore : rule.info.id ∉ before.map (·.info.id) := fun earlier =>
    apart _ earlier _ List.mem_cons_self rfl
  rw [evaluate, parts, List.flatMap_append, List.flatMap_cons, List.filter_append,
    List.filter_append, others (by simp [parts]) notBefore,
    others (by simp [parts]) (List.nodup_cons.mp later).1, own]
  simp

end Rule

end ExtensionAudit

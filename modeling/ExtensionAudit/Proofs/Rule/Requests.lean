import ExtensionAudit.Proofs.Rule.Reported
import ExtensionAudit.Report

namespace ExtensionAudit

open List (Perm Subperm)

/-- Whatever the manifest asks for, the other one asks for as well: each permission at least as
often, each host, match pattern and directive somewhere. The other format is no newer. -/
structure Manifest.AsksNoMoreThan (m other : Manifest) : Prop where
  permissions : ∀ permission,
    m.permissions.count permission ≤ other.permissions.count permission
  hosts : m.hostPermissions ⊆ other.hostPermissions
  patterns : m.matchPatterns ⊆ other.matchPatterns
  directives : m.contentSecurityPolicy ⊆ other.contentSecurityPolicy
  format : other.formatVersion ≤ m.formatVersion

/-- Both manifests ask for the same in any order. -/
structure Manifest.Rearranges (m other : Manifest) : Prop where
  permissions : Perm m.permissions other.permissions
  hosts : Perm m.hostPermissions other.hostPermissions
  patterns : Perm m.matchPatterns other.matchPatterns
  directives : Perm m.contentSecurityPolicy other.contentSecurityPolicy
  format : m.formatVersion = other.formatVersion

namespace Manifest

variable {m other : Manifest}

theorem Rearranges.symm (same : m.Rearranges other) : other.Rearranges m :=
  ⟨same.permissions.symm, same.hosts.symm, same.patterns.symm, same.directives.symm,
    same.format.symm⟩

theorem Rearranges.asksNoMoreThan (same : m.Rearranges other) : m.AsksNoMoreThan other where
  permissions permission := Nat.le_of_eq (same.permissions.count_eq permission)
  hosts := same.hosts.subset
  patterns := same.patterns.subset
  directives := same.directives.subset
  format := by rw [same.format]; exact Int64.le_refl _

end Manifest

namespace Rule

theorem any_of_subset {few many : List String} {p : String → Bool} (more : few ⊆ many)
    (found : few.any p = true) : many.any p = true := by
  obtain ⟨item, member, holds⟩ := List.any_eq_true.mp found
  exact List.any_eq_true.mpr ⟨item, more member, holds⟩

theorem subperm_gradeIf {narrow wide : Bool} (grade : String × Severity)
    (widens : narrow = true → wide = true) :
    Subperm (gradeIf narrow grade) (gradeIf wide grade) := by
  cases narrow with
  | false => exact List.nil_subperm
  | true => rw [widens rfl]

/-- Rule by rule, a manifest that asks for more has at least the same grades. -/
theorem subperm_grades {m other : Manifest} (more : m.AsksNoMoreThan other)
    (details details' : Option StoreDetails) :
    Subperm ((evaluate ⟨m, details⟩).map Finding.grade)
      ((evaluate ⟨other, details'⟩).map Finding.grade) := by
  have permissions : Subperm m.permissions other.permissions :=
    List.subperm_ext_iff.mpr fun permission _ => more.permissions permission
  rw [grades_evaluate, grades_evaluate]
  refine (subperm_filterMap _ permissions).append <| (subperm_gradeIf _ ?_).append <|
    (subperm_gradeIf _ (any_of_subset more.hosts)).append <|
    (subperm_gradeIf _ (any_of_subset more.hosts)).append <|
    (subperm_gradeIf _ (any_of_subset more.patterns)).append <|
    (subperm_gradeIf _ ?_).append (subperm_gradeIf _ (any_of_subset more.directives))
  · simp only [Bool.and_eq_true, List.contains_iff_mem]
    exact fun ⟨seen, blocked⟩ => ⟨permissions.subset seen, permissions.subset blocked⟩
  · simp only [decide_eq_true_eq]
    exact Int64.lt_of_le_of_lt more.format

end Rule

namespace Policy

/-- A manifest that asks for more has no lower verdict under any policy, and passes none that one
asking for less fails. The order of what is asked for makes no difference to the verdict. -/
theorem verdict_le_of_asksNoMoreThan (policy : Policy) :
    (∀ m other : Manifest, m.AsksNoMoreThan other → ∀ details details',
      (Report.assess policy ⟨m, details⟩).verdict.severity ≤
          (Report.assess policy ⟨other, details'⟩).verdict.severity ∧
        ∀ ignored ignored',
          (policy.judge (Report.assess policy ⟨m, details⟩) ignored).passed = false →
            (policy.judge (Report.assess policy ⟨other, details'⟩) ignored').passed = false) ∧
    ∀ m other : Manifest, m.Rearranges other → ∀ details details',
      (Report.assess policy ⟨m, details⟩).verdict =
        (Report.assess policy ⟨other, details'⟩).verdict := by
  refine ⟨fun m other more details details' => ?_, fun m other same details details' => ?_⟩
  · have lower : (Report.assess policy ⟨m, details⟩).verdict.severity ≤
        (Report.assess policy ⟨other, details'⟩).verdict.severity :=
      policy.verdict_le_of_grades (Rule.subperm_grades more details details')
    refine ⟨lower, fun _ _ fails => ?_⟩
    simp only [judge, decide_eq_false_iff_not, Severity.lt_iff] at fails ⊢
    rw [Severity.le_iff] at lower
    omega
  · refine policy.verdict_eq_of_grades ?_
    exact (Rule.subperm_grades same.asksNoMoreThan details details').antisymm
      (Rule.subperm_grades same.symm.asksNoMoreThan details' details)

/-- A manifest with these requests and nothing else. -/
def asking (format : Int64) (permissions hosts patterns directives : List String) : Manifest :=
  { formatVersion := format, declaredVersion := none, name := none, version := none,
    description := none, permissions, optionalPermissions := [], hostPermissions := hosts,
    contentScripts := some [⟨patterns, []⟩], contentSecurityPolicy := directives,
    embeddedUrls := TextSet.empty, background := none, webAccessibleResources := [] }

/-- Tabs alone pass at the usual threshold; tabs twice with a broad host and an older format do
not, in whatever order. -/
theorem tabs_twice_and_everywhere :
    (asking 3 ["tabs"] [] ["a"] []).AsksNoMoreThan
        (asking 2 ["tabs", "storage", "tabs"] ["*"] ["b", "a"] []) ∧
      (Report.assess {} ⟨asking 3 ["tabs"] [] ["a"] [], none⟩).verdict.severity ≤
        (Report.assess {} ⟨asking 2 ["tabs", "storage", "tabs"] ["*"] ["b", "a"] [],
          none⟩).verdict.severity ∧
      (asking 2 ["tabs", "storage", "tabs"] ["*"] ["b", "a"] []).Rearranges
        (asking 2 ["storage", "tabs", "tabs"] ["*"] ["a", "b"] []) ∧
      (Report.assess {} ⟨asking 2 ["tabs", "storage", "tabs"] ["*"] ["b", "a"] [], none⟩).verdict =
        (Report.assess {} ⟨asking 2 ["storage", "tabs", "tabs"] ["*"] ["a", "b"] [],
          none⟩).verdict := by
  have more : (asking 3 ["tabs"] [] ["a"] []).AsksNoMoreThan
      (asking 2 ["tabs", "storage", "tabs"] ["*"] ["b", "a"] []) :=
    { permissions := fun permission =>
        List.Sublist.count_le permission (by decide : ["tabs"].Sublist ["tabs", "storage", "tabs"])
      hosts := List.nil_subset _
      patterns := by decide
      directives := List.nil_subset _
      format := by decide }
  have same : (asking 2 ["tabs", "storage", "tabs"] ["*"] ["b", "a"] []).Rearranges
      (asking 2 ["storage", "tabs", "tabs"] ["*"] ["a", "b"] []) :=
    ⟨Perm.swap _ _ _, Perm.refl _, by decide, Perm.refl _, rfl⟩
  obtain ⟨monotone, rearranged⟩ := verdict_le_of_asksNoMoreThan {}
  exact ⟨more, (monotone _ _ more none none).1, same, rearranged _ _ same none none⟩

end Policy

end ExtensionAudit

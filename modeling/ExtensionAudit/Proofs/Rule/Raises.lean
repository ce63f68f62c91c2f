import ExtensionAudit.Proofs.Rule.Grades

namespace ExtensionAudit

open List (Forall₂)

/-- The severity is kept, or it is raised by a step that is allowed. -/
def Severity.RaisedBy (allowed : Severity → Severity → Prop) (s t : Severity) : Prop :=
  s ≤ t ∧ (s = t ∨ allowed s t)

/-- The same finding but for its severity, which is kept or raised. -/
def Finding.RaisedBy (allowed : Severity → Severity → Prop) (f g : Finding) : Prop :=
  g = { f with severity := g.severity } ∧ f.severity.RaisedBy allowed g.severity

/-- The policy with the severity of one rule set anew. -/
def Policy.override (policy : Policy) (rule : String) (severity : Severity) : Policy :=
  { policy with overrides := (rule, severity) :: policy.overrides }

variable {allowed : Severity → Severity → Prop}

theorem Severity.RaisedBy.refl (s : Severity) : s.RaisedBy allowed s :=
  ⟨Nat.le_refl _, Or.inl rfl⟩

/-- A high finding that is raised stays high, if it must not become critical. -/
theorem Severity.RaisedBy.eq_high {t : Severity} (raised : RaisedBy allowed .high t)
    (kept : ¬ allowed .high .critical) : t = .high := by
  obtain ⟨above, same | step⟩ := raised
  · exact same.symm
  · cases t with
    | high => rfl
    | critical => exact absurd step kept
    | _ => exact absurd above (by decide)

/-- A medium finding that is raised stays medium or becomes high, if it must not become critical. -/
theorem Severity.RaisedBy.eq_medium_or_high {t : Severity} (raised : RaisedBy allowed .medium t)
    (kept : ¬ allowed .medium .critical) : t = .medium ∨ t = .high := by
  obtain ⟨above, same | step⟩ := raised
  · exact Or.inl same.symm
  · cases t with
    | medium => exact Or.inl rfl
    | high => exact Or.inr rfl
    | critical => exact absurd step kept
    | _ => exact absurd above (by decide)

theorem countSeverity_cons (severity : Severity) (f : Finding) (findings : List Finding) :
    countSeverity severity (f :: findings) =
      countSeverity severity findings + if f.severity = severity then 1 else 0 := by
  simp only [countSeverity, List.countP_cons, beq_iff_eq]

variable {findings raised : List Finding}

/-- Where nothing is lost to the count, raised findings have at least as many high ones, and at
least as many high and medium ones together. -/
theorem countSeverity_le_of_raisedBy (high : ¬ allowed .high .critical)
    (medium : ¬ allowed .medium .critical)
    (raises : Forall₂ (Finding.RaisedBy allowed) findings raised) :
    countSeverity .high findings ≤ countSeverity .high raised ∧
      countSeverity .high findings + countSeverity .medium findings ≤
        countSeverity .high raised + countSeverity .medium raised := by
  -- Finding by finding. A medium one may become high, so only the sum of both counts is kept.
  induction raises with
  | nil => exact ⟨Nat.le_refl _, Nat.le_refl _⟩
  | @cons f g _ _ first _ ih =>
    obtain ⟨highs, both⟩ := ih
    have step := first.2
    simp only [countSeverity_cons]
    cases before : f.severity with
    | high =>
      rw [before] at step
      rw [step.eq_high high]
      simp
      omega
    | medium =>
      rw [before] at step
      rcases step.eq_medium_or_high medium with after | after
      · rw [after]
        simp
        omega
      · rw [after]
        simp
        omega
    | _ =>
      simp
      omega

/-- Where nothing is lost to the count, the verdict on raised findings is no lower. -/
theorem Verdict.severity_le_of_raisedBy (high : ¬ allowed .high .critical)
    (medium : ¬ allowed .medium .critical)
    (raises : Forall₂ (Finding.RaisedBy allowed) findings raised) :
    (ofFindings findings).severity ≤ (ofFindings raised).severity := by
  obtain ⟨highs, both⟩ := countSeverity_le_of_raisedBy high medium raises
  exact Severity.ofCounts_le_of_sum highs both

namespace Policy

variable {policy : Policy} {rule : String} {severity : Severity}

theorem regrade_override (f : Finding) :
    (policy.override rule severity).regrade f =
      if f.ruleId = rule then { f with severity } else policy.regrade f := by
  by_cases own : f.ruleId = rule
  · simp [regrade, override, own]
  · simp [regrade, override, own, List.lookup_cons, beq_false_of_ne own]

/-- An override changes no finding but those of its rule, and of those the severity alone. -/
theorem raisedBy_override
    (raises : ∀ f ∈ findings, policy.ignores f = false → f.ruleId = rule →
      (policy.regrade f).severity.RaisedBy allowed severity) :
    Forall₂ (Finding.RaisedBy allowed) (policy.apply findings)
      ((policy.override rule severity).apply findings) := by
  simp only [apply, List.forall₂_map_left_iff, List.forall₂_map_right_iff]
  refine List.forall₂_same.mpr fun f kept => ?_
  obtain ⟨reported, counts⟩ := List.mem_filter.mp kept
  rw [regrade_override]
  by_cases own : f.ruleId = rule
  · rw [if_pos own]
    refine ⟨?_, raises f reported (by simpa using counts) own⟩
    rw [regrade_eq policy f]
  · rw [if_neg own]
    exact ⟨rfl, Severity.RaisedBy.refl _⟩

/-- A verdict that is no lower fails the threshold as well. -/
theorem passed_judge_eq_false_of_le {other : Policy} {a b : Assessment} {ignored ignored' : Nat}
    (threshold : other.failOn = policy.failOn) (lower : a.verdict.severity ≤ b.verdict.severity)
    (fails : (policy.judge a ignored).passed = false) :
    (other.judge b ignored').passed = false := by
  simp only [judge, decide_eq_false_iff_not, Severity.lt_iff, threshold] at fails ⊢
  rw [Severity.le_iff] at lower
  omega

end Policy

namespace Verdict

/-- A finding with nothing but a severity. -/
def sample (severity : Severity) : Finding where
  ruleId := "CRX-001"
  severity
  title := ""
  description := ""

/-- Raises of severity never lower a verdict, and no override that raises the findings of a rule
lets a failing scan pass, exactly if neither a high nor a medium finding may become critical. -/
theorem never_falls_iff (allowed : Severity → Severity → Prop) :
    (¬ allowed .high .critical ∧ ¬ allowed .medium .critical) ↔
      (∀ findings raised, Forall₂ (Finding.RaisedBy allowed) findings raised →
        (ofFindings findings).severity ≤ (ofFindings raised).severity) ∧
      ∀ (policy : Policy) (rule : String) (severity : Severity) (findings : List Finding),
        (∀ f ∈ findings, policy.ignores f = false → f.ruleId = rule →
          (policy.regrade f).severity.RaisedBy allowed severity) →
        ∀ ignored ignored',
          (policy.judge (.ofFindings (policy.apply findings)) ignored).passed = false →
            ((policy.override rule severity).judge
              (.ofFindings ((policy.override rule severity).apply findings)) ignored').passed =
                false := by
  constructor
  · rintro ⟨high, medium⟩
    refine ⟨fun findings raised => severity_le_of_raisedBy high medium, ?_⟩
    intro policy rule severity findings raises ignored ignored' fails
    have lower := severity_le_of_raisedBy high medium (Policy.raisedBy_override raises)
    exact Policy.passed_judge_eq_false_of_le rfl lower fails
  · rintro ⟨never, -⟩
    -- One finding that goes from high or medium to critical lowers the verdict to minimal.
    have falls {s : Severity} (step : allowed s .critical) (below : s ≤ .critical) :
        (ofFindings [sample s]).severity ≤ (ofFindings [sample .critical]).severity :=
      never _ _ (.cons ⟨rfl, below, Or.inr step⟩ .nil)
    exact ⟨fun step => absurd (falls step (by decide)) (by decide),
      fun step => absurd (falls step (by decide)) (by decide)⟩

/-- Where nothing becomes critical, a low and a medium finding that are raised have no lower
verdict, and a policy that makes the medium one high fails them as before. -/
theorem raised_to_high_fails :
    (ofFindings [sample .low, sample .medium]).severity ≤
        (ofFindings [sample .medium, sample .high]).severity ∧
      ((Policy.judge { failOn := .low } (.ofFindings [sample .medium]) 0).passed = false →
        (Policy.judge ((Policy.override { failOn := .low } "CRX-001" .high))
          (.ofFindings ((Policy.override { failOn := .low } "CRX-001" .high).apply
            [sample .medium])) 0).passed = false) := by
  obtain ⟨verdicts, policies⟩ :=
    (never_falls_iff fun _ t => t ≠ .critical).mp ⟨fun no => no rfl, fun no => no rfl⟩
  refine ⟨verdicts _ _ (.cons ⟨rfl, by decide, Or.inr (by decide)⟩
    (.cons ⟨rfl, by decide, Or.inr (by decide)⟩ .nil)), ?_⟩
  refine policies { failOn := .low } "CRX-001" .high [sample .medium] ?_ 0 0
  intro f reported _ _
  rw [List.mem_singleton.mp reported]
  exact ⟨by decide, Or.inr (by decide)⟩

/-- Four high findings fail at the usual threshold. Made critical, by a policy or in the list, they
have the lowest verdict of all and pass. -/
theorem four_critical_pass :
    (∀ f ∈ List.replicate 4 (sample .high),
      (Policy.regrade {} f).severity ≤ .critical) ∧
      Policy.apply (Policy.override {} "CRX-001" .critical) (List.replicate 4 (sample .high)) =
        List.replicate 4 (sample .critical) ∧
      (ofFindings (List.replicate 4 (sample .high))).severity = .critical ∧
      (ofFindings (List.replicate 4 (sample .critical))).severity = .minimal ∧
      (Policy.judge {} (.ofFindings (List.replicate 4 (sample .high))) 0).passed = false ∧
      (Policy.judge (Policy.override {} "CRX-001" .critical)
        (.ofFindings (List.replicate 4 (sample .critical))) 0).passed = true := by
  decide

end Verdict

end ExtensionAudit

import ExtensionAudit.Proofs.Report.Notes

namespace ExtensionAudit

variable {rules : List Finding} {before notes : List String} {a : Assessment}

theorem countSeverity_append_note (s : Severity) (findings : List Finding) (text : String)
    (counted : s ≠ .info) :
    countSeverity s (findings ++ [noteFinding text]) = countSeverity s findings := by
  rw [countSeverity, List.countP_append, List.countP_singleton, if_neg, Nat.add_zero, countSeverity]
  simpa [noteFinding] using counted.symm

/-- The verdict on findings does not see a note behind them. -/
theorem Verdict.ofFindings_append_note (findings : List Finding) (text : String) :
    ofFindings (findings ++ [noteFinding text]) = ofFindings findings := by
  have total : (findings ++ [noteFinding text]).countP (·.severity != .info) =
      findings.countP (·.severity != .info) := by
    rw [List.countP_append, List.countP_singleton]
    rfl
  rw [ofFindings, countSeverity_append_note .high findings text (by decide),
    countSeverity_append_note .medium findings text (by decide), total, ofFindings]

/-- A finding is a remark or is counted. -/
theorem length_eq_countP_add_countSeverity (findings : List Finding) :
    findings.length = findings.countP (·.severity != .info) + countSeverity .info findings := by
  rw [countSeverity, findings.length_eq_countP_add_countP (·.severity != .info)]
  exact congrArg (_ + ·) (List.countP_congr fun f _ => by simp)

/-- Behind the findings of the rules stand the notes, and the verdict is the one on all of them. -/
structure Noted (rules : List Finding) (notes : List String) (a : Assessment) : Prop where
  findings : a.findings = rules ++ notes.map noteFinding
  verdict : a.verdict = .ofFindings a.findings

namespace Noted

theorem ofFindings (rules : List Finding) : Noted rules [] (.ofFindings rules) where
  findings := (List.append_nil rules).symm
  verdict := rfl

theorem addNote (noted : Noted rules before a) (text : String) :
    Noted rules (before ++ [text]) (a.addNote text) where
  findings := by
    rw [Assessment.addNote, noted.findings, List.map_append, List.map_singleton, List.append_assoc]
  verdict := by
    rw [Assessment.addNote, Verdict.ofFindings_append_note]
    exact noted.verdict

theorem foldl (noted : Noted rules before a) (notes : List String) :
    Noted rules (before ++ notes) (notes.foldl Assessment.addNote a) := by
  induction notes generalizing before a with
  | nil => rwa [List.append_nil]
  | cons text notes ih =>
    have next := ih (noted.addNote text)
    rwa [List.append_assoc, List.singleton_append] at next

theorem length_eq (noted : Noted rules notes a) :
    .ofNat a.findings.length = a.verdict.total + .ofNat (countSeverity .info a.findings) := by
  rw [noted.verdict, length_eq_countP_add_countSeverity, UInt64.ofNat_add]
  rfl

/-- The first note is found behind findings that are none. -/
theorem note?_eq (noted : Noted rules notes a)
    (passed : rules.find? (fun f => f.severity == .info && f.title == noteTitle) = none) :
    a.note? = notes.head?.map noteFinding := by
  rw [Assessment.note?, noted.findings, List.find?_append, passed, Option.none_or]
  cases notes <;> rfl

end Noted

namespace Report

theorem noted_foldl (policy : Policy) (target : Target) (notes : List String) :
    Noted (policy.apply (Rule.evaluate target)) notes
      (notes.foldl Assessment.addNote (assess policy target)) :=
  (Noted.ofFindings _).foldl notes

/-- The note is found behind the findings, even where a policy has made them remarks. -/
theorem note?_withNote (policy : Policy) (target : Target) (note : Option String) :
    (withNote (assess policy target) note).note? = note.map noteFinding := by
  have passed := policy.find?_note_eq_none target
  cases note with
  | none => exact (noted_foldl policy target []).note?_eq passed
  | some text => exact (noted_foldl policy target [text]).note?_eq passed

end Report

end ExtensionAudit

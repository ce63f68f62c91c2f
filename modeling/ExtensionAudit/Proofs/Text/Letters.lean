import ExtensionAudit.Text.Case

namespace ExtensionAudit.Text

/-- A character of an expansion, the character that lies so far away as a run says, or the character
itself, if no run covers it. -/
theorem mem_otherCase {runs : List CaseRun} {expansions : List (Nat × List Nat)} {c d : Char}
    (given : d ∈ otherCase runs expansions c) :
    (∃ entry ∈ expansions, ∃ code ∈ entry.2, d = Char.ofNat code) ∨
      (∃ run ∈ runs, run.covers c.toNat ∧ d = Char.ofNat (c.toNat + run.shift).toNat) ∨
        d = c ∧ ∀ run ∈ runs, ¬ run.covers c.toNat := by
  unfold otherCase at given
  split at given
  · rename_i codes found
    obtain ⟨code, listed, rfl⟩ := List.mem_map.mp given
    obtain ⟨before, after, parts, -⟩ := List.lookup_eq_some_iff.mp found
    exact Or.inl ⟨(c.toNat, codes), by simp [parts], code, listed, rfl⟩
  · split at given
    · rename_i run found
      obtain rfl := List.mem_singleton.mp given
      have covered := List.find?_some (p := fun run : CaseRun => run.covers c.toNat) found
      exact Or.inr (Or.inl ⟨run, List.mem_of_find?_eq_some found, covered, rfl⟩)
    · rename_i absent
      obtain rfl := List.mem_singleton.mp given
      exact Or.inr (Or.inr ⟨rfl, List.find?_eq_none.mp absent⟩)

theorem CaseRun.covers_iff {run : CaseRun} {n : Nat} :
    run.covers n ↔ run.first ≤ n ∧ n ≤ run.last ∧ (n - run.first) % run.step = 0 := by
  simp [covers, and_assoc]

/-- A number is the code of a character, or it stands for the character zero. -/
theorem toNat_ofNat_eq {n : Nat} (other : 0 < (Char.ofNat n).toNat) : (Char.ofNat n).toNat = n := by
  by_cases valid : n.isValidChar
  · rw [Char.ofNat, dif_pos valid]
    rfl
  · rw [Char.ofNat, dif_neg valid] at other
    exact absurd other (by decide)

/-- A character between two bounds that no expansion and no run leads to comes from itself alone. -/
theorem eq_of_mem_otherCase {runs : List CaseRun} {expansions : List (Nat × List Nat)} {c d : Char}
    {low high : Nat} (positive : 0 < low) (above : low ≤ d.toNat) (below : d.toNat ≤ high)
    (unexpanded : ∀ entry ∈ expansions, ∀ code ∈ entry.2, code < low ∨ high < code)
    (unshifted : ∀ run ∈ runs, run.last + run.shift < low ∨ high < run.first + run.shift)
    (given : d ∈ otherCase runs expansions c) : d = c ∧ ∀ run ∈ runs, ¬ run.covers c.toNat := by
  rcases mem_otherCase given with ⟨entry, listed, code, inEntry, rfl⟩ |
    ⟨run, listed, covered, rfl⟩ | kept
  · have same := toNat_ofNat_eq (Nat.lt_of_lt_of_le positive above)
    have apart := unexpanded entry listed code inEntry
    omega
  · have same := toNat_ofNat_eq (Nat.lt_of_lt_of_le positive above)
    have apart := unshifted run listed
    have within := CaseRun.covers_iff.mp covered
    omega
  · exact kept

/-- The tables of lower case lead to no capital letter of ASCII, and lead each of them away. -/
theorem isUpper_not_mem_lowerChar {c d : Char} (upper : d.isUpper = true) : d ∉ lowerChar c := by
  have unexpanded : ∀ entry ∈ lowerExpansions, ∀ code ∈ entry.2, code < 65 ∨ 90 < code := by
    decide +kernel
  have unshifted : ∀ run ∈ lowerRuns, run.last + run.shift < 65 ∨ 90 < run.first + run.shift := by
    decide +kernel
  have bounds : 65 ≤ d.toNat ∧ d.toNat ≤ 90 := by
    have range : 'A'.val ≤ d.val ∧ d.val ≤ 'Z'.val := of_decide_eq_true upper
    exact ⟨UInt32.le_iff_toNat_le.mp range.1, UInt32.le_iff_toNat_le.mp range.2⟩
  intro given
  obtain ⟨rfl, uncovered⟩ :=
    eq_of_mem_otherCase (by decide) bounds.1 bounds.2 unexpanded unshifted given
  refine uncovered ⟨0x41, 0x5A, 1, 32⟩ List.mem_cons_self (CaseRun.covers_iff.mpr ?_)
  exact ⟨bounds.1, bounds.2, Nat.mod_one _⟩

theorem isUpper_not_mem_lower {cs : List Char} {d : Char} (upper : d.isUpper = true) :
    d ∉ lower cs := by
  suffices absent : ∀ before, d ∉ lowerAfter before cs from absent []
  induction cs with
  | nil => exact fun _ => List.not_mem_nil
  | cons c rest ih =>
    intro before
    rw [lowerAfter, List.mem_append, not_or]
    refine ⟨?_, ih (c :: before)⟩
    split
    · intro sigma
      have isSigma : d = 'ς' ∨ d = 'σ' := by
        split at sigma <;> simp_all
      rcases isSigma with rfl | rfl <;> exact absurd upper (by decide)
    · exact isUpper_not_mem_lowerChar upper

/-- A blank in the upper case of a character is that character. -/
theorem eq_of_blank_mem_upperChar {c d : Char} (blank : isBlank d = true)
    (given : d ∈ upperChar c) : d = c := by
  have unexpanded : ∀ range ∈ blankRanges, ∀ entry ∈ upperExpansions, ∀ code ∈ entry.2,
      code < range.1 ∨ range.2 < code := by
    decide +kernel
  have unshifted : ∀ range ∈ blankRanges, ∀ run ∈ upperRuns,
      run.last + run.shift < range.1 ∨ range.2 < run.first + run.shift := by
    decide +kernel
  have positive : ∀ range ∈ blankRanges, 0 < range.1 := by decide
  obtain ⟨range, listed, lower, upper⟩ := inRanges_iff.mp blank
  exact (eq_of_mem_otherCase (positive range listed) lower upper (unexpanded range listed)
    (unshifted range listed) given).1

end ExtensionAudit.Text

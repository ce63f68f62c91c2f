import Mathlib.Data.Nat.Digits.Defs

namespace ExtensionAudit.Text

/-- What holds of the characters of a written text is decided on the list of them. -/
theorem forall_mem_written {p : Char → Bool} {text : String} {cs : List Char}
    (same : text = String.ofList cs) (all : cs.all p = true) : ∀ c ∈ text.toList, p c = true := by
  rw [same, String.toList_ofList]
  exact List.all_eq_true.mp all

theorem not_mem_written {c : Char} {text : String} {cs : List Char}
    (same : text = String.ofList cs) (absent : c ∉ cs) : c ∉ text.toList := by
  rw [same, String.toList_ofList]
  exact absent

theorem not_mem_append {c : Char} {first second : String} (absent : c ∉ first.toList)
    (absent' : c ∉ second.toList) : c ∉ (first ++ second).toList := by
  rw [String.toList_append, List.mem_append, not_or]
  exact ⟨absent, absent'⟩

/-- The text of a number is made of digits. -/
theorem not_mem_natRepr {c : Char} (other : c.isDigit = false) (n : Nat) : c ∉ n.repr.toList := by
  rw [Nat.toList_repr]
  intro listed
  rw [Nat.isDigit_of_mem_toDigits (by decide) (by decide) listed] at other
  exact nomatch other

theorem not_mem_intRepr {c : Char} (other : c.isDigit = false) (unsigned : c ≠ '-') (n : Int) :
    c ∉ n.repr.toList := by
  cases n with
  | ofNat n => exact not_mem_natRepr other n
  | negSucc n => exact not_mem_append (by simpa using unsigned) (not_mem_natRepr other _)

end ExtensionAudit.Text

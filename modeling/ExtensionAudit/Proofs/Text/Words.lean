import ExtensionAudit.Text.Occurs
import Mathlib.Data.List.Infix

namespace ExtensionAudit

variable {word : List Char}

theorem prefix_append_cons_iff {separator : Char} (absent : separator ∉ word)
    (before after : List Char) :
    word <+: before ++ separator :: after ↔ word <+: before := by
  refine ⟨fun starts => ?_, fun starts => starts.trans (List.prefix_append _ _)⟩
  induction before generalizing word with
  | nil =>
    cases word with
    | nil => exact List.nil_prefix
    | cons c word =>
      obtain ⟨rfl, -⟩ := List.cons_prefix_cons.mp starts
      exact absurd List.mem_cons_self absent
  | cons b before ih =>
    cases word with
    | nil => exact List.nil_prefix
    | cons c word =>
      obtain ⟨rfl, rest⟩ := List.cons_prefix_cons.mp starts
      have absent : separator ∉ word := fun later => absent (by simp [later])
      exact List.cons_prefix_cons.mpr ⟨rfl, ih absent rest⟩

/-- A word does not go over a character that is not in it. -/
theorem infix_append_cons_iff {separator : Char} (absent : separator ∉ word) (filled : word ≠ [])
    (before after : List Char) :
    word <:+: before ++ separator :: after ↔ word <:+: before ∨ word <:+: after := by
  induction before with
  | nil =>
    have starts := prefix_append_cons_iff absent [] after
    rw [List.nil_append] at starts ⊢
    rw [List.infix_cons_iff, starts]
    simp [filled]
  | cons b before ih =>
    have starts := prefix_append_cons_iff absent (b :: before) after
    rw [List.cons_append] at starts ⊢
    rw [List.infix_cons_iff, starts, ih, List.infix_cons_iff, or_assoc]

/-- A word does not begin where its first character is not. -/
theorem infix_append_iff_of_head {first : Char} (begins : word.head? = some first)
    {before : List Char} (absent : first ∉ before) (after : List Char) :
    word <:+: before ++ after ↔ word <:+: after := by
  induction before with
  | nil => rfl
  | cons b before ih =>
    have passed : ¬ word <+: b :: (before ++ after) := by
      intro starts
      obtain ⟨word, rfl⟩ := List.head?_eq_some_iff.mp begins
      obtain ⟨rfl, -⟩ := List.cons_prefix_cons.mp starts
      exact absent List.mem_cons_self
    rw [List.cons_append, List.infix_cons_iff,
      ih fun later => absent (List.mem_cons_of_mem _ later)]
    exact or_iff_right passed

end ExtensionAudit

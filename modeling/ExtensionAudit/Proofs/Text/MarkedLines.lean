import ExtensionAudit.Proofs.Text.Words
import ExtensionAudit.Text.Column
import ExtensionAudit.Text.Split

namespace ExtensionAudit.Text

/-- The lines of a text that begin with the mark. -/
def markedLines (mark cs : List Char) : List (List Char) :=
  (split '\n' cs).filter mark.isPrefixOf

/-- The mark behind a line feed. -/
def BreaksInto (mark cs : List Char) : Prop := '\n' :: mark <:+: cs

instance (mark cs : List Char) : Decidable (BreaksInto mark cs) :=
  inferInstanceAs (Decidable (_ <:+: _))

variable {mark : List Char}

theorem markedLines_append (before after : List Char) :
    markedLines mark (before ++ '\n' :: after) =
      markedLines mark before ++ markedLines mark after := by
  rw [markedLines, split_append, List.filter_append]
  rfl

/-- One line is marked if it begins with the mark. -/
theorem markedLines_of_not_mem {cs : List Char} (single : '\n' ∉ cs) :
    markedLines mark cs = if mark.isPrefixOf cs then [cs] else [] := by
  rw [markedLines, split_of_not_mem single, List.filter_singleton, cond_eq_ite]

theorem markedLines_ofLines (filled : mark ≠ []) (lines : List String) :
    markedLines mark (ofLines lines).toList =
      lines.flatMap fun line => markedLines mark line.toList := by
  induction lines with
  | nil =>
    rw [markedLines_of_not_mem (by simp [ofLines]), if_neg]
    · rfl
    · simpa [ofLines] using filled
  | cons line lines ih =>
    have parted : (ofLines (line :: lines)).toList =
        line.toList ++ '\n' :: (ofLines lines).toList := by
      simp [ofLines, String.join_cons]
    rw [parted, markedLines_append, ih, List.flatMap_cons]

/-- What is written into a line brings no marked line, unless it begins with the mark or holds it
behind a line feed. -/
theorem markedLines_eq_nil_iff (single : '\n' ∉ mark) (cs : List Char) :
    markedLines mark cs = [] ↔ ¬ mark <+: cs ∧ ¬ BreaksInto mark cs := by
  induction size : cs.length using Nat.strong_induction_on generalizing cs with
  | _ n ih =>
    by_cases feed : '\n' ∈ cs
    · obtain ⟨before, after, rfl, absent⟩ := List.eq_append_cons_of_mem feed
      have shorter : after.length < n := by
        rw [List.length_append, List.length_cons] at size
        omega
      -- The mark behind a line feed begins at the first one or further on.
      have breaks : BreaksInto mark (before ++ '\n' :: after) ↔
          mark <+: after ∨ BreaksInto mark after := by
        rw [BreaksInto, infix_append_iff_of_head rfl absent, List.infix_cons_iff,
          List.cons_prefix_cons, and_iff_right rfl, BreaksInto]
      have first : markedLines mark before = [] ↔ ¬ mark <+: before ++ '\n' :: after := by
        rw [markedLines_of_not_mem absent, prefix_append_cons_iff single,
          ← List.isPrefixOf_iff_prefix]
        simp
      rw [markedLines_append, List.append_eq_nil_iff, first, ih _ shorter after rfl, breaks, not_or]
    · have whole : ¬ BreaksInto mark cs := fun breaks => feed (breaks.subset List.mem_cons_self)
      rw [markedLines_of_not_mem feed, ← List.isPrefixOf_iff_prefix]
      simp [whole]

end ExtensionAudit.Text

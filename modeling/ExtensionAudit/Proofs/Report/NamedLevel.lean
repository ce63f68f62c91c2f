import ExtensionAudit.Advice
import ExtensionAudit.Proofs.Text.Trim
import ExtensionAudit.Proofs.Text.Words

namespace ExtensionAudit.Risk

open Text (Blank Surrounds words isBlank)

/-- The text up to the first line feed. -/
def firstLine (cs : List Char) : List Char := cs.takeWhile (· ≠ '\n')

/-- Not empty and without blanks. -/
def IsWord (level : String) : Prop :=
  level.toList ≠ [] ∧ ∀ c ∈ level.toList, isBlank c = false

theorem exists_split_eq (cs : List Char) : ∃ later, Text.split '\n' cs = firstLine cs :: later := by
  induction cs with
  | nil => exact ⟨[], rfl⟩
  | cons c cs ih =>
    obtain ⟨later, parts⟩ := ih
    by_cases feed : c = '\n'
    · refine ⟨Text.split '\n' cs, ?_⟩
      rw [Text.split_cons, if_pos feed, firstLine, List.takeWhile_cons_of_neg (by simpa using feed)]
    · refine ⟨later, ?_⟩
      rw [Text.split_cons_of_ne feed parts, firstLine, firstLine,
        List.takeWhile_cons_of_pos (by simpa using feed)]

theorem dropReturn_cases (line : List Char) :
    Text.dropReturn line = line ∨ line = Text.dropReturn line ++ ['\r'] := by
  unfold Text.dropReturn
  split
  · rename_i returned
    exact Or.inr (List.dropLast_append_getLast? '\r' returned).symm
  · exact Or.inl rfl

/-- The lines begin with the first one, which may have lost a carriage return. -/
theorem lines_cases (cs : List Char) :
    (Text.lines cs = [] ∧ firstLine cs = []) ∨ ∃ first later, Text.lines cs = first :: later ∧
      (firstLine cs = first ∨ firstLine cs = first ++ ['\r']) := by
  obtain ⟨later, parts⟩ := exists_split_eq cs
  rw [Text.lines, parts]
  cases later with
  | nil =>
    cases line : firstLine cs with
    | nil => exact Or.inl ⟨rfl, rfl⟩
    | cons c rest => exact Or.inr ⟨c :: rest, [], rfl, Or.inl rfl⟩
  | cons next more =>
    refine Or.inr ⟨_, _, rfl, ?_⟩
    exact (dropReturn_cases (firstLine cs)).imp Eq.symm id

theorem levelOfNote?_of_no_mark {note : String} (other : ¬ levelMark <+: firstLine note.toList) :
    levelOfNote? note = none := by
  unfold levelOfNote?
  rcases lines_cases note.toList with ⟨none, -⟩ | ⟨first, later, lines, whole⟩
  · rw [none]
  · have unmarked : ¬ levelMark <+: first := by
      rcases whole with same | returned
      · rwa [same] at other
      · exact fun begins => other (returned ▸ begins.trans (List.prefix_append _ _))
    rw [lines]
    exact if_neg (mt List.isPrefixOf_iff_prefix.mp unmarked)

/-- Behind the mark the first line is trimmed. -/
theorem levelOfNote?_of_mark {note : String} {rest : List Char}
    (marked : firstLine note.toList = levelMark ++ rest) :
    levelOfNote? note =
      if Text.trim rest = [] then none else some (String.ofList (Text.trim rest)) := by
  rcases lines_cases note.toList with ⟨-, empty⟩ | ⟨first, later, lines, whole⟩
  · rw [marked] at empty
    exact absurd (List.append_eq_nil_iff.mp empty).1 (by decide)
  -- A carriage return behind the line is not part of the mark, and is trimmed with the rest.
  obtain ⟨kept, rfl, same⟩ : ∃ kept, first = levelMark ++ kept ∧
      Text.trim kept = Text.trim rest := by
    rw [marked] at whole
    rcases whole with same | returned
    · exact ⟨rest, same.symm, rfl⟩
    · have begins : levelMark <+: first ++ ['\r'] := returned ▸ List.prefix_append _ _
      obtain ⟨kept, rfl⟩ := (prefix_append_cons_iff (by decide) first []).mp begins
      rw [List.append_assoc, List.append_cancel_left_eq] at returned
      refine ⟨kept, rfl, ?_⟩
      rw [returned, Text.trim_append_blank (List.forall_mem_singleton.mpr (by decide))]
  have begins : levelMark.isPrefixOf (levelMark ++ kept) = true :=
    List.isPrefixOf_iff_prefix.mpr (List.prefix_append _ _)
  unfold levelOfNote?
  rw [lines]
  simp only [begins, if_true, List.drop_left, same]
  cases Text.trim rest <;> rfl

/-- A note names a level on its first line, behind the mark. The level is what stands there between
blanks. There is none exactly if there is no word, and it is a word, or none, exactly if there is at
most one word. -/
theorem level_reaches_to_last_word (note : String) :
    (¬ levelMark <+: firstLine note.toList → levelOfNote? note = none) ∧
      ∀ rest, firstLine note.toList = levelMark ++ rest →
        (∀ level, levelOfNote? note = some level ↔ Surrounds rest level.toList) ∧
        (levelOfNote? note = none ↔ words rest = []) ∧
        ((∀ level, levelOfNote? note = some level → IsWord level) ↔
          (words rest).length ≤ 1) := by
  refine ⟨levelOfNote?_of_no_mark, fun rest marked => ?_⟩
  rw [levelOfNote?_of_mark marked]
  -- Blanks alone are no level; anything else is trimmed to what its words reach over.
  by_cases none : Text.trim rest = []
  · have wordless : words rest = [] := Text.words_eq_nil_iff.mpr (Text.trim_eq_nil_iff.mp none)
    rw [if_pos none, wordless]
    refine ⟨fun level => ?_, iff_of_true rfl rfl, iff_of_true (fun _ named => nomatch named) ?_⟩
    · rw [Text.surrounds_iff, none]
      exact iff_of_false (fun named => nomatch named) fun filled => filled.2 filled.1.symm
    · exact Nat.zero_le 1
  · have surrounds := Text.surrounds_trim none
    have filled : words rest ≠ [] := by
      rwa [Ne, Text.words_eq_nil_iff, ← Text.trim_eq_nil_iff]
    rw [if_neg none]
    refine ⟨fun level => ?_, iff_of_false (Option.some_ne_none _) filled, ?_⟩
    · rw [Text.surrounds_iff, Option.some_inj]
      constructor
      · rintro rfl
        rw [String.toList_ofList]
        exact ⟨rfl, none⟩
      · rintro ⟨same, -⟩
        rw [same, String.ofList_toList]
    · have ⟨_, _, _, _, _, bounded⟩ := surrounds
      rw [surrounds.words_eq, bounded.length_words_le_one_iff]
      constructor
      · intro law
        have word := (law _ rfl).2
        rwa [String.toList_ofList] at word
      · rintro visible _ ⟨⟩
        rw [IsWord, String.toList_ofList]
        exact ⟨none, visible⟩

/-- A level after another blank than a space, on a line that ends with a carriage return. -/
theorem level_after_wide_blank :
    levelOfNote? "Risk Level:\u2003low \r\nAsks for much." = some "low" := by
  have named := (level_reaches_to_last_word "Risk Level:\u2003low \r\nAsks for much.").2
    "\u2003low \r".toList (by decide +kernel)
  refine (named.1 "low").mpr (Text.surrounds_iff.mpr ?_)
  decide +kernel

/-- What follows the word is named with it. -/
theorem remark_is_named :
    levelOfNote? "Risk Level: High (unknown publisher)" = some "High (unknown publisher)" ∧
      ¬ IsWord "High (unknown publisher)" := by
  refine ⟨by decide +kernel, fun word => ?_⟩
  exact nomatch word.2 ' ' (by decide +kernel)

end ExtensionAudit.Risk

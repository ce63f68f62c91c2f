import ExtensionAudit.Text.Split

namespace ExtensionAudit.Text

/-- A line that was ended by a line feed loses the carriage return before it. -/
def dropReturn (line : List Char) : List Char :=
  if line.getLast? = some '\r' then line.dropLast else line

def endedLines : List (List Char) → List (List Char)
  | [] => []
  | [last] => if last.isEmpty then [] else [last]
  | line :: later => dropReturn line :: endedLines later

/-- A line ends at a line feed, or at a carriage return and a line feed; what follows the last line
feed is a line unless it is empty. -/
def lines (cs : List Char) : List (List Char) :=
  endedLines (split '\n' cs)

theorem dropReturn_subset (line : List Char) : dropReturn line ⊆ line := by
  unfold dropReturn
  split
  · exact List.dropLast_subset line
  · exact List.Subset.refl line

/-- Every line is a piece between line feeds, perhaps without its last character. -/
theorem exists_subset_of_mem_endedLines {parts : List (List Char)} {line : List Char}
    (member : line ∈ endedLines parts) : ∃ part ∈ parts, line ⊆ part := by
  fun_induction endedLines parts with
  | case1 => simp at member
  | case2 => simp at member
  | case3 last => exact ⟨last, by simp, by simp_all⟩
  | case4 first later _ ih =>
    rcases List.mem_cons.mp member with rfl | inLater
    · exact ⟨first, by simp, dropReturn_subset first⟩
    · obtain ⟨part, inParts, subset⟩ := ih inLater
      exact ⟨part, by simp [inParts], subset⟩

/-- No line holds a line feed. -/
theorem not_mem_of_mem_lines {cs line : List Char} (member : line ∈ lines cs) : '\n' ∉ line := by
  obtain ⟨part, inParts, subset⟩ := exists_subset_of_mem_endedLines member
  intro feed
  exact not_mem_of_mem_split inParts (subset feed)

end ExtensionAudit.Text

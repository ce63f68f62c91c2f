namespace ExtensionAudit.Text

/-- The pieces between separators; there is always at least one. -/
def split (separator : Char) (cs : List Char) : List (List Char) :=
  cs.foldr (fun c parts => if c = separator then [] :: parts else
    match parts with
    | [] => [[c]]
    | part :: later => (c :: part) :: later) [[]]

variable {separator : Char}

theorem split_nil : split separator [] = [[]] := rfl

theorem split_cons (c : Char) (cs : List Char) :
    split separator (c :: cs) = if c = separator then [] :: split separator cs else
      match split separator cs with
      | [] => [[c]]
      | part :: later => (c :: part) :: later := rfl

theorem split_ne_nil (cs : List Char) : split separator cs ≠ [] := by
  cases cs with
  | nil => simp [split_nil]
  | cons c cs =>
    rw [split_cons]
    split
    · simp
    · split <;> simp

/-- A character that is no separator goes to the first piece. -/
theorem split_cons_of_ne {c : Char} (ne : c ≠ separator) {cs part : List Char}
    {later : List (List Char)} (parts : split separator cs = part :: later) :
    split separator (c :: cs) = (c :: part) :: later := by
  rw [split_cons, if_neg ne, parts]

theorem not_mem_of_mem_split {cs piece : List Char} (member : piece ∈ split separator cs) :
    separator ∉ piece := by
  induction cs generalizing piece with
  | nil => simp_all [split_nil]
  | cons c cs ih =>
    by_cases same : c = separator
    · rw [split_cons, if_pos same] at member
      rcases List.mem_cons.mp member with rfl | later
      · simp
      · exact ih later
    · obtain ⟨part, later, parts⟩ := List.exists_cons_of_ne_nil (split_ne_nil cs)
      rw [split_cons_of_ne same parts] at member
      rcases List.mem_cons.mp member with rfl | inLater
      · have : separator ∉ part := ih (by simp [parts])
        simp [this, Ne.symm same]
      · exact ih (by simp [parts, inLater])

/-- A separator between two texts separates their pieces. -/
theorem split_append (before after : List Char) :
    split separator (before ++ separator :: after) =
      split separator before ++ split separator after := by
  induction before with
  | nil => simp [split_cons, split_nil]
  | cons c before ih =>
    obtain ⟨part, later, parts⟩ := List.exists_cons_of_ne_nil (split_ne_nil before)
    by_cases same : c = separator
    · rw [List.cons_append, split_cons, if_pos same, ih, split_cons, if_pos same, List.cons_append]
    · rw [parts, List.cons_append] at ih
      rw [List.cons_append, split_cons_of_ne same ih, split_cons_of_ne same parts, List.cons_append]

/-- A text without separators is one piece. -/
theorem split_of_not_mem {cs : List Char} (absent : separator ∉ cs) :
    split separator cs = [cs] := by
  induction cs with
  | nil => rfl
  | cons c cs ih =>
    rw [List.mem_cons, not_or] at absent
    exact split_cons_of_ne (Ne.symm absent.1) (ih absent.2)

/-- What is put behind a text goes to its last piece, if no separator is in it. -/
theorem split_append_of_not_mem {ending : List Char} (absent : separator ∉ ending)
    (cs : List Char) : ∃ front last, split separator cs = front ++ [last] ∧
      split separator (cs ++ ending) = front ++ [last ++ ending] := by
  induction cs with
  | nil => exact ⟨[], [], rfl, split_of_not_mem absent⟩
  | cons c cs ih =>
    obtain ⟨front, last, parts, more⟩ := ih
    by_cases same : c = separator
    · refine ⟨[] :: front, last, ?_, ?_⟩
      · rw [split_cons, if_pos same, parts, List.cons_append]
      · rw [List.cons_append, split_cons, if_pos same, more, List.cons_append]
    · cases front with
      | nil => exact ⟨[], c :: last, split_cons_of_ne same parts, split_cons_of_ne same more⟩
      | cons part front =>
        exact ⟨(c :: part) :: front, last, split_cons_of_ne same parts, split_cons_of_ne same more⟩

end ExtensionAudit.Text

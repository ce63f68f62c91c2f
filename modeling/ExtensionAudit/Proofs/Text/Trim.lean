import ExtensionAudit.Text.Blank

namespace ExtensionAudit.Text

variable {cs core gap after : List Char}

/-- Nothing but blanks. -/
def Blank (cs : List Char) : Prop := ∀ c ∈ cs, isBlank c = true

/-- The first and the last character are no blanks. -/
def Bounded (core : List Char) : Prop :=
  (∃ c, core.head? = some c ∧ isBlank c = false) ∧
    ∃ c, core.getLast? = some c ∧ isBlank c = false

/-- The text is the core and blanks around it. -/
def Surrounds (cs core : List Char) : Prop :=
  ∃ gap after, cs = gap ++ core ++ after ∧ Blank gap ∧ Blank after ∧ Bounded core

/-- The pieces between blanks that are not empty. -/
def words (cs : List Char) : List (List Char) :=
  (cs.splitOnP isBlank).filter fun word => !word.isEmpty

theorem blank_nil : Blank [] := fun _ listed => absurd listed List.not_mem_nil

theorem Blank.reverse (blank : Blank cs) : Blank cs.reverse :=
  fun c listed => blank c (List.mem_reverse.mp listed)

theorem trimStart_append (blank : Blank gap) (cs : List Char) :
    trimStart (gap ++ cs) = trimStart cs :=
  List.dropWhile_append_of_pos blank

theorem trimEnd_append (blank : Blank after) (cs : List Char) :
    trimEnd (cs ++ after) = trimEnd cs := by
  rw [trimEnd, List.reverse_append, trimStart_append blank.reverse, trimEnd]

theorem exists_eq_append_trimStart (cs : List Char) :
    ∃ gap, cs = gap ++ trimStart cs ∧ Blank gap :=
  ⟨cs.takeWhile isBlank, List.takeWhile_append_dropWhile.symm,
    List.all_eq_true.mp List.all_takeWhile⟩

theorem exists_eq_trimEnd_append (cs : List Char) :
    ∃ after, cs = trimEnd cs ++ after ∧ Blank after := by
  obtain ⟨gap, parted, blank⟩ := exists_eq_append_trimStart cs.reverse
  refine ⟨gap.reverse, ?_, blank.reverse⟩
  rw [trimEnd, ← List.reverse_append, ← parted, List.reverse_reverse]

theorem isBlank_head_trimStart {c : Char} (first : (trimStart cs).head? = some c) :
    isBlank c = false := by
  have stopped := List.head?_dropWhile_not isBlank cs
  rw [trimStart] at first
  rwa [first] at stopped

theorem isBlank_getLast_trimEnd {c : Char} (last : (trimEnd cs).getLast? = some c) :
    isBlank c = false := by
  rw [trimEnd, List.getLast?_reverse] at last
  exact isBlank_head_trimStart last

theorem trimStart_of_head {c : Char} (first : cs.head? = some c) (visible : isBlank c = false) :
    trimStart cs = cs := by
  obtain ⟨rest, rfl⟩ := List.head?_eq_some_iff.mp first
  exact trimStart_cons rest visible

theorem trimEnd_of_getLast {c : Char} (last : cs.getLast? = some c) (visible : isBlank c = false) :
    trimEnd cs = cs := by
  rw [← List.head?_reverse] at last
  rw [trimEnd, trimStart_of_head last visible, List.reverse_reverse]

theorem surrounds_trim (filled : trim cs ≠ []) : Surrounds cs (trim cs) := by
  obtain ⟨gap, front, blank⟩ := exists_eq_append_trimStart cs
  obtain ⟨after, back, blank'⟩ := exists_eq_trimEnd_append (trimStart cs)
  refine ⟨gap, after, ?_, blank, blank', ⟨?_, ?_⟩⟩
  · rw [List.append_assoc, trim, ← back, ← front]
  · obtain ⟨c, rest, begins⟩ := List.exists_cons_of_ne_nil filled
    have first : (trimStart cs).head? = some c := by
      rw [back, ← trim, begins, List.cons_append, List.head?_cons]
    exact ⟨c, by rw [begins, List.head?_cons], isBlank_head_trimStart first⟩
  · have last := List.getLast?_eq_some_getLast filled
    exact ⟨_, last, isBlank_getLast_trimEnd last⟩

/-- Trimming leaves all that stands between the blanks at the ends. -/
theorem surrounds_iff : Surrounds cs core ↔ trim cs = core ∧ core ≠ [] := by
  constructor
  · rintro ⟨gap, after, rfl, blank, blank', ⟨c, first, visible⟩, ⟨d, last, visible'⟩⟩
    have starts : (core ++ after).head? = some c := by
      rw [List.head?_append, first, Option.some_or]
    refine ⟨?_, ?_⟩
    · rw [trim, List.append_assoc, trimStart_append blank, trimStart_of_head starts visible,
        trimEnd_append blank', trimEnd_of_getLast last visible']
    · rintro rfl
      exact Option.some_ne_none c first.symm
  · rintro ⟨rfl, filled⟩
    exact surrounds_trim filled

theorem trim_eq_nil_iff : trim cs = [] ↔ Blank cs := by
  rw [trim, trimEnd_eq_nil_iff]
  constructor
  · intro rest
    obtain ⟨gap, parted, blank⟩ := exists_eq_append_trimStart cs
    rw [parted]
    intro c listed
    rcases List.mem_append.mp listed with before | behind
    · exact blank c before
    · exact rest c behind
  · intro blank
    rw [trimStart_eq_nil_iff.mpr blank]
    exact blank_nil

theorem trim_append_blank (blank : Blank after) (cs : List Char) :
    trim (cs ++ after) = trim cs := by
  by_cases none : trim cs = []
  · rw [none, trim_eq_nil_iff]
    intro c listed
    exact (List.mem_append.mp listed).elim (trim_eq_nil_iff.mp none c) (blank c)
  · obtain ⟨gap, ending, parted, front, back, bounded⟩ := surrounds_trim none
    refine (surrounds_iff.mp ⟨gap, ending ++ after, ?_, front, ?_, bounded⟩).1
    · rw [← List.append_assoc, ← parted]
    · exact fun c listed => (List.mem_append.mp listed).elim (back c) (blank c)

/-- A blank parts the words before it from those behind it. -/
theorem words_append_cons {b : Char} (blank : isBlank b = true) (before after : List Char) :
    words (before ++ b :: after) = words before ++ words after := by
  rw [words, List.splitOnP_append_cons _ _ blank, List.filter_append, words, words]

theorem words_cons_of_blank {b : Char} (blank : isBlank b = true) (cs : List Char) :
    words (b :: cs) = words cs :=
  words_append_cons blank [] cs

theorem words_cons_ne_nil {c : Char} (visible : isBlank c = false) (cs : List Char) :
    words (c :: cs) ≠ [] := by
  obtain ⟨part, later, parts⟩ := List.exists_cons_of_ne_nil (List.splitOnP_ne_nil isBlank cs)
  rw [words, List.splitOnP_cons_eq_if_modifyHead, if_neg (by simp [visible]), parts]
  simp

theorem words_eq_nil_iff : words cs = [] ↔ Blank cs := by
  induction cs with
  | nil => exact iff_of_true rfl blank_nil
  | cons c cs ih =>
    rw [Blank, List.forall_mem_cons]
    cases blank : isBlank c with
    | true => rw [words_cons_of_blank blank, ih, and_iff_right rfl, Blank]
    | false => exact iff_of_false (words_cons_ne_nil blank cs) fun all => nomatch all.1

theorem words_of_no_blank (filled : cs ≠ []) (visible : ∀ c ∈ cs, isBlank c = false) :
    words cs = [cs] := by
  rw [words, List.splitOnP_eq_singleton visible]
  simpa using filled

theorem words_blank_append (blank : Blank gap) (cs : List Char) :
    words (gap ++ cs) = words cs := by
  induction gap with
  | nil => rfl
  | cons b gap ih =>
    obtain ⟨first, rest⟩ := List.forall_mem_cons.mp blank
    rw [List.cons_append, words_cons_of_blank first, ih rest]

theorem words_append_blank (blank : Blank after) (cs : List Char) :
    words (cs ++ after) = words cs := by
  cases after with
  | nil => rw [List.append_nil]
  | cons b after =>
    obtain ⟨first, rest⟩ := List.forall_mem_cons.mp blank
    rw [words_append_cons first, words_eq_nil_iff.mpr rest, List.append_nil]

theorem Surrounds.words_eq (surrounds : Surrounds cs core) : words cs = words core := by
  obtain ⟨gap, after, rfl, blank, blank', -⟩ := surrounds
  rw [words_append_blank blank', words_blank_append blank]

/-- Between visible characters at both ends there is one word exactly if there is no blank. -/
theorem Bounded.length_words_le_one_iff (bounded : Bounded core) :
    (words core).length ≤ 1 ↔ ∀ c ∈ core, isBlank c = false := by
  obtain ⟨⟨first, begins, visible⟩, ⟨last, ends, visible'⟩⟩ := bounded
  constructor
  · intro few c listed
    rw [Bool.eq_false_iff]
    intro blank
    -- A blank would part a word at the beginning from one at the end.
    obtain ⟨before, after, rfl⟩ := List.append_of_mem listed
    have front : words before ≠ [] := by
      cases before with
      | nil =>
        obtain rfl : c = first := Option.some.inj begins
        rw [blank] at visible
        exact nomatch visible
      | cons d before =>
        obtain rfl : d = first := Option.some.inj begins
        exact words_cons_ne_nil visible before
    have back : words after ≠ [] := by
      intro none
      have all : isBlank last = true := by
        rw [List.getLast?_append, List.getLast?_cons, Option.some_or] at ends
        rw [← Option.some.inj ends]
        cases shown : after.getLast? with
        | none => exact blank
        | some d => exact words_eq_nil_iff.mp none d (List.mem_of_getLast? shown)
      rw [all] at visible'
      exact nomatch visible'
    have lengths := List.length_pos_iff.mpr front
    have lengths' := List.length_pos_iff.mpr back
    rw [words_append_cons blank, List.length_append] at few
    omega
  · intro visible
    have filled : core ≠ [] := by
      rintro rfl
      exact nomatch begins
    exact Nat.le_of_eq (congrArg List.length (words_of_no_blank filled visible))

end ExtensionAudit.Text

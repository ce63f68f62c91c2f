namespace ExtensionAudit.Text

/-- The ranges of the property White_Space. -/
def blankRanges : List (Nat × Nat) :=
  [(0x9, 0xD), (0x20, 0x20), (0x85, 0x85), (0xA0, 0xA0), (0x1680, 0x1680), (0x2000, 0x200A),
    (0x2028, 0x2029), (0x202F, 0x202F), (0x205F, 0x205F), (0x3000, 0x3000)]

def inRanges (ranges : List (Nat × Nat)) (n : Nat) : Bool :=
  ranges.any fun (first, last) => first ≤ n && n ≤ last

def isBlank (c : Char) : Bool :=
  inRanges blankRanges c.toNat

def trimStart (cs : List Char) : List Char :=
  cs.dropWhile isBlank

def trimEnd (cs : List Char) : List Char :=
  (trimStart cs.reverse).reverse

def trim (cs : List Char) : List Char :=
  trimEnd (trimStart cs)

theorem inRanges_iff {ranges : List (Nat × Nat)} {n : Nat} :
    inRanges ranges n = true ↔ ∃ range ∈ ranges, range.1 ≤ n ∧ n ≤ range.2 := by
  simp [inRanges]

/-- No visible character of ASCII is a blank. -/
theorem isBlank_of_visible {c : Char} (first : 0x20 < c.toNat) (last : c.toNat < 0x7F) :
    isBlank c = false := by
  rw [Bool.eq_false_iff]
  intro blank
  obtain ⟨range, listed, lower, upper⟩ := inRanges_iff.mp blank
  simp only [blankRanges, List.mem_cons, List.not_mem_nil, or_false] at listed
  rcases listed with rfl | rfl | rfl | rfl | rfl | rfl | rfl | rfl | rfl | rfl <;>
    simp only at lower upper <;> omega

theorem isBlank_of_isDigit {c : Char} (digit : c.isDigit) : isBlank c = false := by
  have bounds : 48 ≤ c.toNat ∧ c.toNat ≤ 57 := by
    simpa [Char.isDigit, UInt32.le_iff_toNat_le] using digit
  exact isBlank_of_visible (by omega) (by omega)

theorem trimStart_cons {c : Char} (cs : List Char) (visible : isBlank c = false) :
    trimStart (c :: cs) = c :: cs := by
  simp [trimStart, visible]

/-- Text without blanks is trimmed already. -/
theorem trim_of_no_blank {cs : List Char} (visible : ∀ c ∈ cs, isBlank c = false) :
    trim cs = cs := by
  have start : ∀ cs : List Char, (∀ c ∈ cs, isBlank c = false) → trimStart cs = cs := by
    intro cs visible
    cases cs with
    | nil => rfl
    | cons c cs => exact trimStart_cons cs (visible c (by simp))
  rw [trim, start cs visible, trimEnd, start cs.reverse (by simpa using visible),
    List.reverse_reverse]

theorem trimStart_eq_nil_iff {cs : List Char} :
    trimStart cs = [] ↔ ∀ c ∈ cs, isBlank c = true := by
  unfold trimStart
  induction cs with
  | nil => simp
  | cons c cs ih => by_cases blank : isBlank c <;> simp [blank, ih]

theorem trimEnd_eq_nil_iff {cs : List Char} : trimEnd cs = [] ↔ ∀ c ∈ cs, isBlank c = true := by
  rw [trimEnd, List.reverse_eq_nil_iff, trimStart_eq_nil_iff]
  simp

end ExtensionAudit.Text

import ExtensionAudit.Json.Decode

namespace ExtensionAudit.Json

-- Powers are those of the core library, whatever else is imported.
attribute [local instance (high)] instPowNat

/-- A reader goes on with what the reader before it has found. -/
theorem bind_of_eq_some {α β : Type} {o : Option α} {a : α} {next : α → Option β}
    (found : o = some a) : o >>= next = next a := by
  rw [found]
  rfl

theorem hexFour?_hexDigit {n : Nat} (control : n < 32) :
    hexFour? '0' '0' (hexDigit (n / 16)) (hexDigit (n % 16)) = some n := by
  revert n
  decide

theorem Unit.ofCode_toNat {c : Char} (control : c.toNat < 32) : Unit.ofCode c.toNat = .char c := by
  have low : ¬ 0xD800 ≤ c.toNat := by omega
  simp [Unit.ofCode, low]

/-- A character that needs no escape is read as it stands. -/
theorem readUnits_cons {c : Char} (units : List Unit) (rest : List Char) (noQuote : c ≠ '"')
    (noEscape : c ≠ '\\') (visible : ¬ c.toNat < 0x20) :
    readUnits units (c :: rest) = readUnits (.char c :: units) rest := by
  rw [readUnits.eq_def]
  split
  · contradiction
  · rename_i same
    exact absurd (List.cons.inj same).1 noQuote
  · rename_i same
    exact absurd (List.cons.inj same).1 noEscape
  · rename_i same
    exact absurd (List.cons.inj same).1 noEscape
  · rename_i same
    obtain ⟨rfl, rfl⟩ := List.cons.inj same
    exact if_neg visible

theorem readUnits_escapeChar (c : Char) (units : List Unit) (rest : List Char) :
    readUnits units (escapeChar c ++ rest) = readUnits (.char c :: units) rest := by
  unfold escapeChar
  split
  · subst c
    rfl
  split
  · subst c
    rfl
  split
  · subst c
    rfl
  split
  · subst c
    rfl
  split
  · subst c
    rfl
  split
  · subst c
    rfl
  split
  · subst c
    rfl
  split
  · rename_i control
    have code := hexFour?_hexDigit control
    have unit := Unit.ofCode_toNat control
    simp only [List.cons_append, List.nil_append, readUnits, code, unit]
  · rename_i noQuote noEscape _ _ _ _ _ visible
    exact readUnits_cons units rest noQuote noEscape visible

/-- The reader goes over escaped characters one by one and stops at the closing quote. -/
theorem readUnits_flatMap_escapeChar (cs : List Char) (units : List Unit) (rest : List Char) :
    readUnits units (cs.flatMap escapeChar ++ '"' :: rest) =
      some (units.reverse ++ cs.map .char, rest) := by
  induction cs generalizing units with
  | nil => simp [readUnits]
  | cons c cs ih =>
    rw [List.flatMap_cons, List.append_assoc, readUnits_escapeChar, ih]
    simp

theorem joinUnits?_map_char (cs : List Char) : joinUnits? (cs.map .char) = some cs := by
  induction cs with
  | nil => rfl
  | cons c cs ih => rw [List.map_cons, joinUnits?, ih, Option.map_some]

theorem quoted_append (text : String) (rest : List Char) :
    quoted text ++ rest = '"' :: (text.toList.flatMap escapeChar ++ '"' :: rest) := by
  simp [quoted]

/-- What stands after the opening quote of a text is read as the text. -/
theorem readString_quoted (text : String) (rest : List Char) :
    readString (text.toList.flatMap escapeChar ++ '"' :: rest) = some (some text, rest) := by
  rw [readString, readUnits_flatMap_escapeChar, List.reverse_nil, List.nil_append, Option.map_some]
  simp only [joinUnits?_map_char, Option.map_some, String.ofList_toList]

theorem digitsValue_eq_ofDigitChars (ds : List Char) :
    digitsValue ds = Nat.ofDigitChars 10 ds 0 := by
  simp only [digitsValue, Nat.ofDigitChars_eq_foldl, Nat.mul_comm]

theorem digitsValue_natText (n : Nat) : digitsValue (natText n) = n := by
  rw [digitsValue_eq_ofDigitChars]
  exact Nat.ofDigitChars_ten_toDigits

theorem isDigit_of_mem_natText {n : Nat} {c : Char} (member : c ∈ natText n) : c.isDigit :=
  Nat.isDigit_of_mem_toDigits (by omega) (by omega) member

/-- No digit stands at the beginning. -/
def NoDigitFirst (cs : List Char) : Prop :=
  ∀ c ∈ cs.head?, c.isDigit = false

/-- Digits are taken up to the first character that is none. -/
theorem takeDigits_append {ds rest : List Char} (digits : ∀ c ∈ ds, c.isDigit)
    (ends : NoDigitFirst rest) : takeDigits (ds ++ rest) = (ds, rest) := by
  have stops : rest.takeWhile Char.isDigit = [] ∧ rest.dropWhile Char.isDigit = rest := by
    cases rest with
    | nil => exact ⟨rfl, rfl⟩
    | cons c rest =>
      have none : c.isDigit = false := ends c rfl
      simp [none]
  rw [takeDigits, List.takeWhile_append_of_pos digits, List.dropWhile_append_of_pos digits, stops.1,
    stops.2, List.append_nil]

/-- A zero is the first digit of zero alone. -/
theorem natText_eq_zero_cons {n : Nat} {ds : List Char} (text : natText n = '0' :: ds) :
    ds = [] := by
  induction n using Nat.strongRecOn generalizing ds with
  | ind n ih =>
    by_cases small : n < 10
    · rw [natText, Nat.toDigits_of_lt_base small] at text
      exact (List.cons.inj text).2.symm
    · have front : n / 10 < n := by omega
      rw [natText, Nat.toDigits_of_base_le (by omega) (by omega)] at text
      cases first : Nat.toDigits 10 (n / 10) with
      | nil => exact absurd first Nat.toDigits_ne_nil
      | cons d front' =>
        rw [first] at text
        obtain ⟨rfl, -⟩ := List.cons.inj text
        have alone := ih (n / 10) front first
        have zero : n / 10 = 0 := by
          have value := digitsValue_natText (n / 10)
          rw [natText, first, alone] at value
          exact value.symm
        omega

theorem readWhole_natText {n : Nat} {rest : List Char} (ends : NoDigitFirst rest) :
    readWhole (natText n ++ rest) = some (natText n, rest) := by
  rw [readWhole, takeDigits_append (fun _ => isDigit_of_mem_natText) ends]
  split
  · rename_i empty
    exact absurd (Prod.mk.inj empty).1 Nat.toDigits_ne_nil
  · rename_i zero
    exact nomatch natText_eq_zero_cons (Prod.mk.inj zero).1
  · rename_i same
    obtain ⟨rfl, rfl⟩ := Prod.mk.inj same
    rfl

/-- Nothing that could belong to a number stands at the beginning. -/
def EndsNumber (cs : List Char) : Prop :=
  ∀ c ∈ cs.head?, c.isDigit = false ∧ c ≠ '.' ∧ c ≠ 'e' ∧ c ≠ 'E'

theorem EndsNumber.noDigitFirst {cs : List Char} (ends : EndsNumber cs) : NoDigitFirst cs :=
  fun c first => (ends c first).1

theorem readFraction_of_endsNumber {cs : List Char} (ends : EndsNumber cs) :
    readFraction cs = some (none, cs) := by
  unfold readFraction
  split
  · exact absurd rfl (ends '.' rfl).2.1
  · rfl

theorem readExponent_of_endsNumber {cs : List Char} (ends : EndsNumber cs) :
    readExponent cs = some (none, cs) := by
  cases cs with
  | nil => rfl
  | cons c cs =>
    obtain ⟨-, -, notLower, notUpper⟩ := ends c rfl
    simp [readExponent, notLower, notUpper]

theorem readUnsigned_natText {n : Nat} {rest : List Char} (negative : Bool)
    (ends : EndsNumber rest) :
    readUnsigned negative (natText n ++ rest) = some (⟨negative, natText n, none, none⟩, rest) := by
  have whole := readWhole_natText (n := n) ends.noDigitFirst
  have fraction := readFraction_of_endsNumber ends
  have exponent := readExponent_of_endsNumber ends
  refine (bind_of_eq_some whole).trans ?_
  refine (bind_of_eq_some fraction).trans ?_
  exact (bind_of_eq_some exponent).trans rfl

/-- The first character of a number is a digit. -/
theorem exists_natText_eq_cons (n : Nat) : ∃ c ds, natText n = c :: ds ∧ c.isDigit := by
  cases text : natText n with
  | nil => exact absurd text Nat.toDigits_ne_nil
  | cons c ds => exact ⟨c, ds, rfl, isDigit_of_mem_natText (n := n) (by simp [text])⟩

/-- An integer is read with its digits and without fraction or exponent. -/
theorem readNumber_intText (n : Int) {rest : List Char} (ends : EndsNumber rest) :
    readNumber (intText n ++ rest) = some (.ofInt n, rest) := by
  cases n with
  | ofNat n =>
    have plain : readNumber (natText n ++ rest) = readUnsigned false (natText n ++ rest) := by
      obtain ⟨c, ds, text, digit⟩ := exists_natText_eq_cons n
      rw [text, List.cons_append, readNumber]
      rintro _ same
      obtain ⟨rfl, -⟩ := List.cons.inj same
      exact absurd digit (by decide)
    rw [intText, plain, readUnsigned_natText false ends]
    simp [NumberText.ofInt]
  | negSucc n =>
    rw [intText, List.cons_append, readNumber, readUnsigned_natText true ends]
    simp [NumberText.ofInt]

/-- A number keeps its integer in its digits as long as it fits into 64 bits. -/
theorem NumberText.int?_ofInt {n : Int} (least : -2 ^ (63 : Nat) ≤ n)
    (greatest : n < 2 ^ (64 : Nat)) : (NumberText.ofInt n).int? = some n := by
  have size := digitsValue_natText n.natAbs
  by_cases negative : n < 0
  · have positive : (0 < n.natAbs && n.natAbs ≤ 2 ^ (63 : Nat)) = true := by
      rw [Bool.and_eq_true, decide_eq_true_eq, decide_eq_true_eq]
      omega
    have value : -(n.natAbs : Int) = n := by omega
    simp only [int?, ofInt, Option.isSome_none, Bool.or_self, size, decide_eq_true negative,
      if_true, if_pos positive, value]
    rfl
  · have fits : n.natAbs ≤ greatestWord := by
      rw [greatestWord]
      omega
    have value : (n.natAbs : Int) = n := by omega
    simp only [int?, ofInt, Option.isSome_none, Bool.or_self, size, decide_eq_false negative,
      if_pos fits, value]
    rfl

end ExtensionAudit.Json

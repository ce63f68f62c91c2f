import ExtensionAudit.Proofs.Json.Scalars

namespace ExtensionAudit.Json

theorem skipSpace_newLine (level : Nat) (cs : List Char) :
    skipSpace (newLine level ++ cs) = skipSpace cs := by
  have blank : ∀ c ∈ newLine level, isSpace c := by
    intro c member
    rcases List.mem_cons.mp member with rfl | inIndent
    · rfl
    · rw [List.eq_of_mem_replicate inIndent]
      rfl
  exact List.dropWhile_append_of_pos blank

theorem skipSpace_cons {c : Char} (cs : List Char) (visible : isSpace c = false) :
    skipSpace (c :: cs) = c :: cs := by
  simp [skipSpace, visible]

theorem endsNumber_nil : EndsNumber [] := by
  simp [EndsNumber]

theorem endsNumber_newLine (level : Nat) (cs : List Char) : EndsNumber (newLine level ++ cs) := by
  simp [EndsNumber, newLine]

theorem endsNumber_comma (cs : List Char) : EndsNumber (',' :: cs) := by
  simp [EndsNumber]

/-- The reader gets from the value's text, wherever it stands, to the value's tree and to what comes
after. Each step of the reader uses up a character, so that the text's length is fuel enough. -/
def Value.ReadsBack (value : Value) : Prop :=
  ∀ (level fuel : Nat) (rest : List Char), (value.prettyAt level).length ≤ fuel →
    EndsNumber rest → readValue fuel (value.prettyAt level ++ rest) = some (value.toSyntax, rest)

/-- No value begins with a closing bracket. -/
theorem skipSpace_ne_bracket {fuel : Nat} {cs : List Char} {read : Syntax × List Char}
    (found : readValue fuel cs = some read) (rest : List Char) : skipSpace cs ≠ ']' :: rest := by
  intro bracket
  cases fuel with
  | zero => exact nomatch found
  | succ fuel =>
    have fails : readNumber (']' :: rest) = none := rfl
    simp [readValue, bracket, fails] at found

theorem Value.readsBack_null : Value.null.ReadsBack := by
  intro level fuel rest enough _
  cases fuel with
  | zero => exact absurd enough (by simp [prettyAt, nullText])
  | succ fuel =>
    simp [prettyAt, nullText, readValue, skipSpace, isSpace, toSyntax]

theorem Value.readsBack_bool (value : Bool) : (Value.bool value).ReadsBack := by
  intro level fuel rest enough _
  cases fuel with
  | zero => cases value <;> exact absurd enough (by simp [prettyAt, boolText])
  | succ fuel =>
    cases value <;> simp [prettyAt, boolText, readValue, skipSpace, isSpace, toSyntax]

theorem Value.readsBack_string (text : String) : (Value.string text).ReadsBack := by
  intro level fuel rest enough _
  cases fuel with
  | zero => exact absurd enough (by simp [prettyAt, quoted])
  | succ fuel =>
    rw [prettyAt, quoted_append, readValue, skipSpace_cons _ rfl]
    simp [readString_quoted, toSyntax]

/-- Text that begins with a sign or a digit is read as a number. -/
theorem readValue_number {c : Char} {cs : List Char} (fuel : Nat) (first : c = '-' ∨ c.isDigit) :
    readValue (fuel + 1) (c :: cs) =
      (readNumber (c :: cs)).map fun (text, rest) => (.number text, rest) := by
  have other : isSpace c = false ∧ c ≠ 'n' ∧ c ≠ 't' ∧ c ≠ 'f' ∧ c ≠ '"' ∧ c ≠ '[' ∧ c ≠ '{' := by
    refine ⟨?_, ?_, ?_, ?_, ?_, ?_, ?_⟩
    · rcases first with rfl | digit
      · rfl
      · rw [Bool.eq_false_iff]
        intro space
        simp only [isSpace, Bool.or_eq_true, beq_iff_eq] at space
        rcases space with ((rfl | rfl) | rfl) | rfl <;> exact absurd digit (by decide)
    all_goals
      rintro rfl
      rcases first with same | digit
      · exact absurd same (by decide)
      · exact absurd digit (by decide)
  obtain ⟨visible, n, t, f, quote, bracket, brace⟩ := other
  rw [readValue, skipSpace_cons cs visible]
  split <;> rename_i same <;> try obtain ⟨rfl, -⟩ := List.cons.inj same
  all_goals first | contradiction | rfl

theorem Value.readsBack_int (n : Int) : (Value.number (.int n)).ReadsBack := by
  intro level fuel rest enough ends
  have begins : ∃ c cs, intText n = c :: cs ∧ (c = '-' ∨ c.isDigit) := by
    cases n with
    | ofNat n =>
      obtain ⟨c, ds, text, digit⟩ := exists_natText_eq_cons n
      exact ⟨c, ds, text, .inr digit⟩
    | negSucc n => exact ⟨'-', _, rfl, .inl rfl⟩
  obtain ⟨c, cs, text, first⟩ := begins
  cases fuel with
  | zero => exact absurd enough (by simp [prettyAt, Number.text, text])
  | succ fuel =>
    have number := readNumber_intText n ends
    rw [text, List.cons_append] at number
    rw [prettyAt, Number.text, text, List.cons_append, readValue_number fuel first, number]
    rfl

theorem Value.readsBack_array_nil : (Value.array []).ReadsBack := by
  intro level fuel rest enough _
  cases fuel with
  | zero => exact absurd enough (by simp [prettyAt])
  | succ fuel =>
    simp [prettyAt, readValue, skipSpace, isSpace, toSyntax, toSyntaxItems]

theorem Value.readsBack_object_nil : (Value.object []).ReadsBack := by
  intro level fuel rest enough _
  cases fuel with
  | zero => exact absurd enough (by simp [prettyAt])
  | succ fuel =>
    simp [prettyAt, readValue, skipSpace, isSpace, toSyntax, toSyntaxMembers]

/-- A value on a line of its own is read back. -/
theorem Value.ReadsBack.readValue_newLine {value : Value} (reads : value.ReadsBack)
    {level fuel : Nat} {rest : List Char} (enough : (value.prettyAt level).length ≤ fuel)
    (ends : EndsNumber rest) :
    readValue fuel (newLine level ++ (value.prettyAt level ++ rest)) =
      some (value.toSyntax, rest) := by
  rw [readValue_congr fuel (skipSpace_newLine level _)]
  exact reads level fuel rest enough ends

/-- The items of an array are read back, after those that were read before. -/
theorem readItems_prettyItems {items : List Value} (filled : items ≠ [])
    (each : ∀ item ∈ items, item.ReadsBack) {level fuel : Nat} (read : List Syntax) (outer : Nat)
    (rest : List Char) (enough : (Value.prettyItems level items).length ≤ fuel) :
    readItems fuel read (Value.prettyItems level items ++ (newLine outer ++ ']' :: rest)) =
      some (.array (read.reverse ++ Value.toSyntaxItems items), rest) := by
  induction items generalizing read fuel with
  | nil => exact absurd rfl filled
  | cons item items ih =>
    have reads := each item (by simp)
    cases fuel with
    | zero => cases items <;> exact absurd enough (by simp [Value.prettyItems, newLine])
    | succ fuel =>
      cases items with
      | nil =>
        have fits : (item.prettyAt level).length ≤ fuel := by
          simp only [Value.prettyItems, newLine, List.length_append, List.length_cons] at enough
          omega
        have value := reads.readValue_newLine fits (endsNumber_newLine outer (']' :: rest))
        rw [Value.prettyItems, List.append_assoc, readItems, value]
        simp [skipSpace_newLine, skipSpace_cons, isSpace, Value.toSyntaxItems]
      | cons next items =>
        simp only [Value.prettyItems, newLine, List.length_append, List.length_cons] at enough
        have fits : (item.prettyAt level).length ≤ fuel := by omega
        have later : (Value.prettyItems level (next :: items)).length ≤ fuel := by omega
        have value := reads.readValue_newLine fits (endsNumber_comma
          (Value.prettyItems level (next :: items) ++ (newLine outer ++ ']' :: rest)))
        have others := ih (by simp) (fun other member => each other (by simp [member]))
          (item.toSyntax :: read) later
        rw [Value.prettyItems, List.append_assoc, List.append_assoc, List.cons_append, readItems,
          value]
        · simp [skipSpace_cons, isSpace, others, Value.toSyntaxItems]
        · simp

theorem skipSpace_skipSpace (cs : List Char) : skipSpace (skipSpace cs) = skipSpace cs := by
  induction cs with
  | nil => rfl
  | cons c cs ih =>
    cases space : isSpace c with
    | true =>
      have step : skipSpace (c :: cs) = skipSpace cs := List.dropWhile_cons_of_pos space
      rw [step, ih]
    | false => rw [skipSpace_cons cs space, skipSpace_cons cs space]

/-- Where items can be read, the array is not empty and they are read. -/
theorem readValue_of_readItems {fuel : Nat} {cs : List Char} {read : Syntax × List Char}
    (found : readItems fuel [] cs = some read) : readValue (fuel + 1) ('[' :: cs) = some read := by
  have filled : ∀ rest, skipSpace cs ≠ ']' :: rest := by
    cases fuel with
    | zero => exact nomatch found
    | succ fuel =>
      rw [readItems] at found
      cases first : readValue fuel cs with
      | none => simp [first] at found
      | some item => exact skipSpace_ne_bracket first
  rw [readValue, skipSpace_cons cs rfl]
  -- The array is not closed at once, by `filled`.
  simp only
  rw [readItems_congr fuel [] (skipSpace_skipSpace cs)]
  exact found

/-- Where members can be read, the object is not empty and they are read. -/
theorem readValue_of_readMembers {fuel : Nat} {cs : List Char} {read : Syntax × List Char}
    (found : readMembers fuel [] cs = some read) :
    readValue (fuel + 1) ('{' :: cs) = some read := by
  have filled : ∀ rest, skipSpace cs ≠ '}' :: rest := by
    intro rest brace
    cases fuel with
    | zero => exact nomatch found
    | succ fuel => simp [readMembers, brace] at found
  rw [readValue, skipSpace_cons cs rfl]
  simp only
  rw [readMembers_congr fuel [] (skipSpace_skipSpace cs)]
  exact found

theorem Value.readsBack_array {items : List Value} (each : ∀ item ∈ items, item.ReadsBack) :
    (Value.array items).ReadsBack := by
  cases items with
  | nil => exact readsBack_array_nil
  | cons item items =>
    intro level fuel rest enough _
    cases fuel with
    | zero => exact absurd enough (by simp [prettyAt])
    | succ fuel =>
      have fits : (prettyItems (level + 1) (item :: items)).length ≤ fuel := by
        simp only [prettyAt, List.length_append, List.length_cons] at enough
        omega
      have reads := readItems_prettyItems (by simp) each [] level rest fits
      rw [List.reverse_nil, List.nil_append] at reads
      have text : (array (item :: items)).prettyAt level ++ rest =
          '[' :: (prettyItems (level + 1) (item :: items) ++ (newLine level ++ ']' :: rest)) := by
        simp [prettyAt]
      rw [text, readValue_of_readItems reads, toSyntax]

/-- A key on a line of its own is read, and then the value behind it. -/
theorem readMembers_key {value : Value} (reads : value.ReadsBack) (key : String)
    {level fuel : Nat} {rest : List Char} (enough : (value.prettyAt level).length ≤ fuel)
    (ends : EndsNumber rest) :
    skipSpace (newLine level ++ (quoted key ++ ':' :: ' ' :: (value.prettyAt level ++ rest))) =
        '"' :: (key.toList.flatMap escapeChar ++
          '"' :: ':' :: ' ' :: (value.prettyAt level ++ rest)) ∧
      readValue fuel (' ' :: (value.prettyAt level ++ rest)) = some (value.toSyntax, rest) := by
  refine ⟨?_, ?_⟩
  · rw [skipSpace_newLine, quoted_append, skipSpace_cons _ rfl]
  · rw [readValue_congr fuel (by rfl : _ = skipSpace (value.prettyAt level ++ rest))]
    exact reads level fuel rest enough ends

/-- A member with a comma behind it is read, and the reader goes on with the next one. -/
theorem readMembers_next {value : Value} (reads : value.ReadsBack) (key : String)
    {level fuel : Nat} (read : List (Option String × Syntax)) {rest more : List Char}
    (enough : (value.prettyAt level).length ≤ fuel) (ends : EndsNumber rest)
    (next : skipSpace rest = ',' :: more) :
    readMembers (fuel + 1) read
        (newLine level ++ (quoted key ++ ':' :: ' ' :: (value.prettyAt level ++ rest))) =
      readMembers fuel ((some key, value.toSyntax) :: read) more := by
  obtain ⟨begins, content⟩ := readMembers_key reads key enough ends
  have colon : skipSpace (':' :: ' ' :: (value.prettyAt level ++ rest)) =
      ':' :: ' ' :: (value.prettyAt level ++ rest) := skipSpace_cons _ rfl
  simp only [readMembers, begins, readString_quoted, colon, content, next]

/-- A member with the closing brace behind it is read as the last one. -/
theorem readMembers_last {value : Value} (reads : value.ReadsBack) (key : String)
    {level fuel : Nat} (read : List (Option String × Syntax)) {rest more : List Char}
    (enough : (value.prettyAt level).length ≤ fuel) (ends : EndsNumber rest)
    (last : skipSpace rest = '}' :: more) :
    readMembers (fuel + 1) read
        (newLine level ++ (quoted key ++ ':' :: ' ' :: (value.prettyAt level ++ rest))) =
      some (.object ((some key, value.toSyntax) :: read).reverse, more) := by
  obtain ⟨begins, content⟩ := readMembers_key reads key enough ends
  have colon : skipSpace (':' :: ' ' :: (value.prettyAt level ++ rest)) =
      ':' :: ' ' :: (value.prettyAt level ++ rest) := skipSpace_cons _ rfl
  simp only [readMembers, begins, readString_quoted, colon, content, last]

/-- The members of an object are read back, after those that were read before. -/
theorem readMembers_prettyMembers {members : List (String × Value)} (filled : members ≠ [])
    (each : ∀ member ∈ members, member.2.ReadsBack) {level fuel : Nat}
    (read : List (Option String × Syntax)) (outer : Nat) (rest : List Char)
    (enough : (Value.prettyMembers level members).length ≤ fuel) :
    readMembers fuel read
        (Value.prettyMembers level members ++ (newLine outer ++ '}' :: rest)) =
      some (.object (read.reverse ++ Value.toSyntaxMembers members), rest) := by
  -- On the members: behind the last one stands the closing brace, behind each other one a comma.
  induction members generalizing read fuel with
  | nil => exact absurd rfl filled
  | cons member members ih =>
    obtain ⟨key, value⟩ := member
    have reads : value.ReadsBack := each (key, value) (by simp)
    cases fuel with
    | zero => cases members <;> exact absurd enough (by simp [Value.prettyMembers, newLine])
    | succ fuel =>
      cases members with
      | nil =>
        have fits : (value.prettyAt level).length ≤ fuel := by
          simp only [Value.prettyMembers, newLine, List.length_append, List.length_cons] at enough
          omega
        have closes : skipSpace (newLine outer ++ '}' :: rest) = '}' :: rest := by
          rw [skipSpace_newLine, skipSpace_cons rest rfl]
        have step := readMembers_last reads key read fits (endsNumber_newLine outer ('}' :: rest))
          closes
        simp only [Value.prettyMembers, List.append_assoc, List.cons_append]
        rw [step]
        simp [Value.toSyntaxMembers]
      | cons next members =>
        simp only [Value.prettyMembers, newLine, List.length_append, List.length_cons] at enough
        have fits : (value.prettyAt level).length ≤ fuel := by omega
        have later : (Value.prettyMembers level (next :: members)).length ≤ fuel := by omega
        have step := readMembers_next reads key read fits (endsNumber_comma
          (Value.prettyMembers level (next :: members) ++ (newLine outer ++ '}' :: rest)))
          (skipSpace_cons _ rfl)
        have others := ih (by simp) (fun other member => each other (by simp [member]))
          ((some key, value.toSyntax) :: read) later
        rw [Value.prettyMembers]
        · simp only [List.append_assoc, List.cons_append]
          rw [step, others]
          simp [Value.toSyntaxMembers]
        · simp

theorem Value.readsBack_object {members : List (String × Value)}
    (each : ∀ member ∈ members, member.2.ReadsBack) : (Value.object members).ReadsBack := by
  cases members with
  | nil => exact readsBack_object_nil
  | cons member members =>
    intro level fuel rest enough _
    cases fuel with
    | zero => exact absurd enough (by simp [prettyAt])
    | succ fuel =>
      have fits : (prettyMembers (level + 1) (member :: members)).length ≤ fuel := by
        simp only [prettyAt, List.length_append, List.length_cons] at enough
        omega
      have reads := readMembers_prettyMembers (by simp) each [] level rest fits
      rw [List.reverse_nil, List.nil_append] at reads
      have text : (object (member :: members)).prettyAt level ++ rest =
          '\x7b' :: (prettyMembers (level + 1) (member :: members) ++
            (newLine level ++ '\x7d' :: rest)) := by
        simp [prettyAt]
      rw [text, readValue_of_readMembers reads, toSyntax]

/-- Every number in the value is an integer. -/
inductive Value.Whole : Value → Prop
  | null : Whole .null
  | bool (value : Bool) : Whole (.bool value)
  | int (n : Int) : Whole (.number (.int n))
  | string (text : String) : Whole (.string text)
  | array {items : List Value} (each : ∀ item ∈ items, item.Whole) : Whole (.array items)
  | object {members : List (String × Value)} (each : ∀ member ∈ members, member.2.Whole) :
    Whole (.object members)

theorem Value.Whole.readsBack {value : Value} (whole : value.Whole) : value.ReadsBack := by
  induction whole with
  | null => exact readsBack_null
  | bool value => exact readsBack_bool value
  | int n => exact readsBack_int n
  | string text => exact readsBack_string text
  | array _ ih => exact readsBack_array ih
  | object _ ih => exact readsBack_object ih

/-- The indented text of a value without doubles is the text of the value's tree. -/
theorem Syntax.ofText?_prettyText {value : Value} (whole : value.Whole) :
    Syntax.ofText? value.prettyText.toList = some value.toSyntax := by
  have reads := whole.readsBack 0 (2 * (value.prettyAt 0).length + 2) [] (by omega) endsNumber_nil
  rw [List.append_nil] at reads
  rw [Syntax.ofText?, Value.prettyText, String.toList_ofList, reads]
  rfl

end ExtensionAudit.Json

import ExtensionAudit.Proofs.Json.Scalars
import ExtensionAudit.Proofs.Text.Words

namespace ExtensionAudit

/-- Letters and hyphens behind a single quote, with or without more single quotes. -/
def IsQuotedWord (word : List Char) : Prop :=
  word.head? = some '\x27' ∧ ∀ c ∈ word, c = '\x27' ∨ c = '-' ∨ c.isLower = true

variable {word : List Char}

theorem IsQuotedWord.ne_nil (quoted : IsQuotedWord word) : word ≠ [] := by
  rintro rfl
  exact nomatch quoted.1

/-- A character that can be no part of a quoted word. -/
def Separates (c : Char) : Prop :=
  c ≠ '\x27' ∧ c ≠ '-' ∧ c.isLower = false

instance (c : Char) : Decidable (Separates c) := inferInstanceAs (Decidable (_ ∧ _ ∧ _))

theorem IsQuotedWord.not_mem (quoted : IsQuotedWord word) {c : Char} (apart : Separates c) :
    c ∉ word := by
  intro listed
  rcases quoted.2 c listed with rfl | rfl | lower
  · exact apart.1 rfl
  · exact apart.2.1 rfl
  · rw [apart.2.2] at lower
    exact nomatch lower

/-- A quoted word does not begin before its quote. -/
theorem IsQuotedWord.infix_append_iff (quoted : IsQuotedWord word) {before : List Char}
    (noQuote : '\x27' ∉ before) (after : List Char) :
    word <:+: before ++ after ↔ word <:+: after :=
  infix_append_iff_of_head quoted.1 noQuote after

theorem IsQuotedWord.not_infix (quoted : IsQuotedWord word) {text : List Char}
    (noQuote : '\x27' ∉ text) : ¬ word <:+: text := by
  intro occurs
  have listed : '\x27' ∈ word := List.mem_of_mem_head? quoted.1
  exact noQuote (occurs.subset listed)

namespace Json

theorem hexDigit_ne_quote {n : Nat} (small : n < 16) : hexDigit n ≠ '\x27' := by
  revert n
  decide

/-- A character is written as it is, or it is no part of a word and written without a quote. -/
theorem escapeChar_cases (c : Char) :
    escapeChar c = [c] ∨
      Separates c ∧ ∃ more, escapeChar c = '\\' :: more ∧ '\x27' ∉ more := by
  unfold escapeChar
  -- The characters with a letter of their own, one after the other.
  iterate 7
    split
    · subst c
      exact Or.inr ⟨by decide, _, rfl, by decide⟩
  split
  · rename_i control
    refine Or.inr ⟨⟨?_, ?_, ?_⟩, _, rfl, ?_⟩
    · rintro rfl
      exact absurd control (by decide)
    · rintro rfl
      exact absurd control (by decide)
    · rw [Bool.eq_false_iff]
      intro lower
      have least : 97 ≤ c.toNat := of_decide_eq_true (Bool.and_eq_true_iff.mp lower).1
      omega
    · have high : c.toNat / 16 < 16 := by omega
      have low : c.toNat % 16 < 16 := Nat.mod_lt _ (by decide)
      simp [(hexDigit_ne_quote high).symm, (hexDigit_ne_quote low).symm]
  · exact Or.inl rfl

theorem prefix_flatMap_escapeChar_iff (plain : ∀ c, Separates c → c ∉ word) (text : List Char) :
    word <+: text.flatMap escapeChar ↔ word <+: text := by
  induction text generalizing word with
  | nil => rfl
  | cons c text ih =>
    cases word with
    | nil => simp
    | cons d word =>
      have later : ∀ c, Separates c → c ∉ word := fun c apart listed =>
        plain c apart (by simp [listed])
      rw [List.flatMap_cons, List.cons_prefix_cons]
      rcases escapeChar_cases c with same | ⟨apart, more, escaped, -⟩
      · rw [same, List.singleton_append, List.cons_prefix_cons, ih later]
      · have noSlash : d ≠ '\\' := by
          rintro rfl
          exact plain '\\' (by decide) (by simp)
        have differs : d ≠ c := by
          rintro rfl
          exact plain d apart (by simp)
        simp [escaped, noSlash, differs]

/-- Escapes neither break a quoted word apart nor make one. -/
theorem infix_flatMap_escapeChar_iff (quoted : IsQuotedWord word) (text : List Char) :
    word <:+: text.flatMap escapeChar ↔ word <:+: text := by
  induction text with
  | nil => rfl
  | cons c text ih =>
    rw [List.flatMap_cons]
    rcases escapeChar_cases c with same | ⟨apart, more, escaped, noQuote⟩
    · have starts := prefix_flatMap_escapeChar_iff (fun _ => quoted.not_mem) (c :: text)
      rw [List.flatMap_cons, same, List.singleton_append] at starts
      rw [same, List.singleton_append, List.infix_cons_iff, List.infix_cons_iff, starts, ih]
    · have within := infix_append_cons_iff (quoted.not_mem apart) quoted.ne_nil [] text
      rw [List.nil_append] at within
      have front : '\x27' ∉ '\\' :: more := by simp [noQuote]
      rw [escaped, quoted.infix_append_iff front, ih, within]
      simp [quoted.ne_nil]

theorem quote_not_mem_natText (n : Nat) : '\x27' ∉ natText n := by
  intro listed
  exact absurd (isDigit_of_mem_natText listed) (by decide)

theorem quote_not_mem_intText (n : Int) : '\x27' ∉ intText n := by
  cases n with
  | ofNat n => exact quote_not_mem_natText n
  | negSucc n => simp [intText, quote_not_mem_natText]

theorem quote_not_mem_decimalText (d : Decimal) : '\x27' ∉ d.text := by
  have digits (n : Nat) : '\x27' ∉ Nat.toDigits 10 n := quote_not_mem_natText n
  have first (k n : Nat) : '\x27' ∉ (Nat.toDigits 10 n).take k := fun listed =>
    digits n (List.mem_of_mem_take listed)
  have last (k n : Nat) : '\x27' ∉ (Nat.toDigits 10 n).drop k := fun listed =>
    digits n (List.mem_of_mem_drop listed)
  simp only [Decimal.text]
  split_ifs
  all_goals simp [digits, first, last, -List.drop_one]

theorem quote_not_mem_numberText (n : Number) : '\x27' ∉ n.text := by
  cases n with
  | int n => exact quote_not_mem_intText n
  | double d =>
    rw [Number.text, Double.text]
    repeat' split
    all_goals simp [quote_not_mem_decimalText]

/-- The text is a string or a key somewhere inside the value. -/
inductive Value.Holds : Value → String → Prop
  | string (text : String) : Holds (.string text) text
  | item {items : List Value} {item : Value} {text : String} (listed : item ∈ items)
    (within : item.Holds text) : Holds (.array items) text
  | key {members : List (String × Value)} {key : String} {value : Value}
    (listed : (key, value) ∈ members) : Holds (.object members) key
  | member {members : List (String × Value)} {key text : String} {value : Value}
    (listed : (key, value) ∈ members) (within : value.Holds text) : Holds (.object members) text

/-- A quoted word occurs in a text inside the value. -/
def Value.Mentions (value : Value) (word : List Char) : Prop :=
  ∃ text, value.Holds text ∧ word <:+: text.toList

theorem Value.mentions_string_iff (text : String) :
    (Value.string text).Mentions word ↔ word <:+: text.toList := by
  constructor
  · rintro ⟨_, ⟨⟩, occurs⟩
    exact occurs
  · exact fun occurs => ⟨text, .string text, occurs⟩

theorem Value.mentions_array_iff (items : List Value) :
    (Value.array items).Mentions word ↔ ∃ item ∈ items, item.Mentions word := by
  constructor
  · rintro ⟨text, ⟨⟩ | ⟨listed, within⟩, occurs⟩
    exact ⟨_, listed, text, within, occurs⟩
  · rintro ⟨item, listed, text, within, occurs⟩
    exact ⟨text, .item listed within, occurs⟩

theorem Value.mentions_object_iff (members : List (String × Value)) :
    (Value.object members).Mentions word ↔
      ∃ member ∈ members, word <:+: member.1.toList ∨ member.2.Mentions word := by
  constructor
  · rintro ⟨text, holds, occurs⟩
    cases holds with
    | key listed => exact ⟨_, listed, Or.inl occurs⟩
    | member listed within => exact ⟨_, listed, Or.inr ⟨text, within, occurs⟩⟩
  · rintro ⟨⟨key, value⟩, listed, occurs | ⟨text, within, occurs⟩⟩
    · exact ⟨key, .key listed, occurs⟩
    · exact ⟨text, .member listed within, occurs⟩

/-- Between a sign that opens and one that closes, a word occurs where it occurs inside. -/
theorem infix_enclosed_iff (quoted : IsQuotedWord word) {opening closing : Char}
    (opens : Separates opening) (closes : Separates closing) (text : List Char) :
    word <:+: opening :: text ++ [closing] ↔ word <:+: text := by
  have front := infix_append_cons_iff (quoted.not_mem opens) quoted.ne_nil [] (text ++ [closing])
  have back := infix_append_cons_iff (quoted.not_mem closes) quoted.ne_nil text []
  rw [List.nil_append] at front
  rw [List.cons_append, front, back]
  simp [quoted.ne_nil]

theorem infix_quoted_iff (quotedWord : IsQuotedWord word) (text : String) :
    word <:+: quoted text ↔ word <:+: text.toList := by
  rw [quoted, infix_enclosed_iff quotedWord (by decide) (by decide),
    infix_flatMap_escapeChar_iff quotedWord]

theorem Value.not_mentions {value : Value} (bare : ∀ text, ¬ value.Holds text) :
    ¬ value.Mentions word := fun ⟨text, holds, _⟩ => bare text holds

/-- Where there is no text inside, and no quote outside, the word occurs nowhere. -/
theorem Value.infix_iff_of_bare (quotedWord : IsQuotedWord word) (value : Value)
    (bare : ∀ text, ¬ value.Holds text) {text : List Char} (noQuote : '\x27' ∉ text) :
    word <:+: text ↔ value.Mentions word :=
  iff_of_false (quotedWord.not_infix noQuote) (Value.not_mentions bare)

mutual

/-- A quoted word occurs in the compact text of a value exactly if it occurs in a text inside. -/
theorem Value.infix_compact_iff (quotedWord : IsQuotedWord word) :
    ∀ value : Value, word <:+: value.compact ↔ value.Mentions word
  | .null => by
    rw [Value.compact]
    exact Value.infix_iff_of_bare quotedWord .null (fun _ => nofun) (by decide)
  | .bool value => by
    rw [Value.compact]
    have noQuote : '\x27' ∉ boolText value := by cases value <;> decide
    exact Value.infix_iff_of_bare quotedWord (.bool value) (fun _ => nofun) noQuote
  | .number value => by
    rw [Value.compact]
    exact Value.infix_iff_of_bare quotedWord (.number value) (fun _ => nofun)
      (quote_not_mem_numberText value)
  | .string text => by
    rw [Value.compact, infix_quoted_iff quotedWord, Value.mentions_string_iff]
  | .array items => by
    rw [Value.compact, infix_enclosed_iff quotedWord (by decide) (by decide),
      Value.infix_compactItems_iff quotedWord items, Value.mentions_array_iff]
  | .object members => by
    rw [Value.compact, infix_enclosed_iff quotedWord (by decide) (by decide),
      Value.infix_compactMembers_iff quotedWord members, Value.mentions_object_iff]

theorem Value.infix_compactItems_iff (quotedWord : IsQuotedWord word) :
    ∀ items : List Value,
      word <:+: Value.compactItems items ↔ ∃ item ∈ items, item.Mentions word
  | [] => by simp [Value.compactItems, quotedWord.ne_nil]
  | [item] => by
    rw [Value.compactItems, Value.infix_compact_iff quotedWord item]
    simp
  | item :: next :: items => by
    rw [Value.compactItems,
      infix_append_cons_iff (quotedWord.not_mem (by decide)) quotedWord.ne_nil,
      Value.infix_compact_iff quotedWord item,
      Value.infix_compactItems_iff quotedWord (next :: items)]
    · simp
    · simp

theorem Value.infix_compactMembers_iff (quotedWord : IsQuotedWord word) :
    ∀ members : List (String × Value),
      word <:+: Value.compactMembers members ↔
        ∃ member ∈ members, word <:+: member.1.toList ∨ member.2.Mentions word
  | [] => by simp [Value.compactMembers, quotedWord.ne_nil]
  | [(key, value)] => by
    rw [Value.compactMembers,
      infix_append_cons_iff (quotedWord.not_mem (by decide)) quotedWord.ne_nil,
      infix_quoted_iff quotedWord, Value.infix_compact_iff quotedWord value]
    simp
  | (key, value) :: next :: members => by
    rw [Value.compactMembers,
      infix_append_cons_iff (quotedWord.not_mem (by decide)) quotedWord.ne_nil,
      infix_append_cons_iff (quotedWord.not_mem (by decide)) quotedWord.ne_nil,
      infix_quoted_iff quotedWord, Value.infix_compact_iff quotedWord value,
      Value.infix_compactMembers_iff quotedWord (next :: members)]
    · simp
    · simp

end

end Json

end ExtensionAudit

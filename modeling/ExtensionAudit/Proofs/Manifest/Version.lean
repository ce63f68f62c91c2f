import ExtensionAudit.Manifest.Authored
import ExtensionAudit.Proofs.Json.Meaning
import ExtensionAudit.Proofs.Rule.Shape

namespace ExtensionAudit.Manifest

-- Powers are those of the core library, whatever else is imported.
attribute [local instance (high)] instPowNat

open Json (Value setMember intText natText)
open Rule (evaluate)

/-- The normal form of the members, with the version declared as the value. -/
def declaring (version : Value) (root : List (String × Value)) : Manifest :=
  ofMembers (setMember "manifest_version" version root)

theorem lookup_setMember (key : String) (value : Value) (members : List (String × Value)) :
    (setMember key value members).lookup key = some value := by
  induction members with
  | nil => simp [setMember]
  | cons member members ih =>
    obtain ⟨name, old⟩ := member
    unfold setMember
    split
    · rename_i same
      simp [same]
    · rename_i differs
      rw [List.lookup_cons, beq_false_of_ne (Ne.symm differs)]
      exact ih

theorem formatVersion_declaring (version : Value) (root : List (String × Value)) :
    (declaring version root).formatVersion = formatVersionOf version := by
  rw [declaring, ofMembers, lookup_setMember]
  rfl

theorem toInt_ofInt {n : Int} (least : -2 ^ (63 : Nat) ≤ n) (greatest : n < 2 ^ (63 : Nat)) :
    (Int64.ofInt n).toInt = n :=
  Int64.toInt_ofInt_of_le least greatest

/-- A number outside 64 bits counts as the nearest word. -/
theorem toInt_clampWord (n : Int) :
    (clampWord n).toInt = max (-2 ^ (63 : Nat)) (min n (2 ^ (63 : Nat) - 1)) := by
  rw [clampWord, toInt_ofInt (by omega) (by omega)]

theorem takeWhile_natText (n : Nat) : (natText n).takeWhile Char.isDigit = natText n := by
  have whole : Json.takeDigits (natText n ++ []) = (natText n, []) :=
    Json.takeDigits_append (fun _ => Json.isDigit_of_mem_natText) (fun _ => nofun)
  rw [List.append_nil] at whole
  exact congrArg Prod.fst whole

theorem trimStart_intText (n : Int) : Text.trimStart (intText n) = intText n := by
  cases n with
  | ofNat n =>
    obtain ⟨c, ds, text, digit⟩ := Json.exists_natText_eq_cons n
    rw [intText, text]
    exact Text.trimStart_cons ds (Text.isBlank_of_isDigit digit)
  | negSucc n => exact Text.trimStart_cons _ (by decide)

theorem natText_ne_cons {sign : Char} (noDigit : sign.isDigit = false) (n : Nat)
    (ds : List Char) : natText n ≠ sign :: ds := by
  intro text
  have digit := Json.isDigit_of_mem_natText (n := n) (c := sign) (by simp [text])
  rw [noDigit] at digit
  exact nomatch digit

/-- The text of an integer is read as the integer if its size has at most 63 bits, and else as zero.
The size is read before the sign, so the least word is one of those that are not read. -/
theorem toInt_leadingInteger_intText (n : Int) :
    (leadingInteger (intText n)).toInt =
      if -2 ^ (63 : Nat) < n ∧ n < 2 ^ (63 : Nat) then n else 0 := by
  rw [leadingInteger, trimStart_intText]
  cases n with
  | ofNat n =>
    simp only [intText]
    split
    · rename_i text
      exact absurd text (natText_ne_cons (by decide) _ _)
    · rename_i text
      exact absurd text (natText_ne_cons (by decide) _ _)
    · rw [takeWhile_natText, Json.digitsValue_natText, Int.ofNat_eq_natCast]
      by_cases fits : n < 2 ^ (63 : Nat)
      · rw [if_pos fits, if_pos (by omega), toInt_ofInt (by omega) (by omega)]
      · rw [if_neg fits, if_neg (by omega)]
        rfl
  | negSucc n =>
    simp only [intText, takeWhile_natText, Json.digitsValue_natText]
    by_cases fits : n + 1 < 2 ^ (63 : Nat)
    · rw [if_pos fits, if_pos (by omega), toInt_ofInt (by omega) (by omega)]
      omega
    · rw [if_neg fits, if_neg (by omega)]
      rfl

/-- The members with the version as a number. -/
def declaringNumber (n : Int) : List (String × Value) → Manifest :=
  declaring (.number (.int n))

/-- The members with the version as the text of the number. -/
def declaringText (n : Int) : List (String × Value) → Manifest :=
  declaring (.string (String.ofList (intText n)))

theorem toInt_declaringNumber (n : Int) (root : List (String × Value)) :
    (declaringNumber n root).formatVersion.toInt =
      max (-2 ^ (63 : Nat)) (min n (2 ^ (63 : Nat) - 1)) := by
  rw [declaringNumber, formatVersion_declaring, formatVersionOf, toInt_clampWord]

theorem toInt_declaringText (n : Int) (root : List (String × Value)) :
    (declaringText n root).formatVersion.toInt =
      if -2 ^ (63 : Nat) < n ∧ n < 2 ^ (63 : Nat) then n else 0 := by
  rw [declaringText, formatVersion_declaring, formatVersionOf, String.toList_ofList,
    toInt_leadingInteger_intText]

/-- The number of a format is below three as a word if it is so as an integer. -/
theorem formatVersion_lt_three_iff (m : Manifest) :
    m.formatVersion < 3 ↔ m.formatVersion.toInt < 3 :=
  Int64.lt_iff_toInt_lt

/-- For every integer that the text of a manifest can give exactly, the version declared as a
number is the integer, or the word nearest to it, and declared as a text it is the integer, or zero.
So both forms give one version exactly if the size of the integer has at most 63 bits, and the rule
about older formats tells the two apart exactly if the integer is too large for a word. -/
theorem declared_alike_iff {n : Int} (least : -2 ^ (63 : Nat) ≤ n) (greatest : n < 2 ^ (64 : Nat))
    (root : List (String × Value)) (details : Option StoreDetails) :
    Value.ofText? (intText n) = some (.number (.int n)) ∧
      (declaringNumber n root).formatVersion.toInt =
        max (-2 ^ (63 : Nat)) (min n (2 ^ (63 : Nat) - 1)) ∧
      (declaringText n root).formatVersion.toInt =
        (if -2 ^ (63 : Nat) < n ∧ n < 2 ^ (63 : Nat) then n else 0) ∧
      ((declaringText n root).formatVersion = (declaringNumber n root).formatVersion ↔
        -2 ^ (63 : Nat) < n ∧ n < 2 ^ (63 : Nat)) ∧
      (((∃ f ∈ evaluate ⟨declaringText n root, details⟩, f.ruleId = "CRX-006") ↔
          ∃ f ∈ evaluate ⟨declaringNumber n root, details⟩, f.ruleId = "CRX-006") ↔
        n < 2 ^ (63 : Nat)) := by
  have number := toInt_declaringNumber n root
  have text := toInt_declaringText n root
  have read : Value.ofText? (Value.prettyText (.number (.int n))).toList =
      some (.number (.int n)) := Value.ofText?_prettyText (.int _ least greatest)
  refine ⟨by simpa [Value.prettyText, Value.prettyAt, Json.Number.text] using read, number, text,
    ?_, ?_⟩
  · rw [← Int64.toInt_inj, number, text]
    split <;> omega
  · rw [Rule.exists_olderFormat_iff, Rule.exists_olderFormat_iff, formatVersion_lt_three_iff,
      formatVersion_lt_three_iff, number, text]
    split <;> omega

/-- The greatest word is the same version in both forms, and no older one. -/
theorem greatest_word_declared_alike :
    (2 ^ (63 : Nat) - 1 : Int) < 2 ^ (64 : Nat) ∧
      (declaringText (2 ^ (63 : Nat) - 1) [("name", .null)]).formatVersion =
        (declaringNumber (2 ^ (63 : Nat) - 1) [("name", .null)]).formatVersion ∧
      ((∃ f ∈ evaluate ⟨declaringText (2 ^ (63 : Nat) - 1) [("name", .null)], none⟩,
          f.ruleId = "CRX-006") ↔
        ∃ f ∈ evaluate ⟨declaringNumber (2 ^ (63 : Nat) - 1) [("name", .null)], none⟩,
          f.ruleId = "CRX-006") := by
  obtain ⟨-, -, -, versions, rules⟩ := declared_alike_iff (n := 2 ^ (63 : Nat) - 1) (by decide)
    (by decide) [("name", .null)] none
  exact ⟨by decide, versions.mpr (by decide), rules.mpr (by decide)⟩

/-- The next integer is the greatest word as a number but zero as a text, which alone is reported as
an older version; the least word is zero as a text. -/
theorem wide_text_is_zero :
    (declaring (.number (.int 9223372036854775808)) []).formatVersion = 9223372036854775807 ∧
      (declaring (.string "9223372036854775808") []).formatVersion = 0 ∧
      (∀ f ∈ evaluate ⟨declaring (.number (.int 9223372036854775808)) [], none⟩,
        f.ruleId ≠ "CRX-006") ∧
      (∃ f ∈ evaluate ⟨declaring (.string "9223372036854775808") [], none⟩,
        f.ruleId = "CRX-006") ∧
      (declaring (.number (.int (-9223372036854775808))) []).formatVersion =
        -9223372036854775808 ∧
      (declaring (.string "-9223372036854775808") []).formatVersion = 0 := by
  decide +kernel

end ExtensionAudit.Manifest

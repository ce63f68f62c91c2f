import ExtensionAudit.Proofs.Json.Scalars
import ExtensionAudit.Time.Text

namespace ExtensionAudit.Timestamp

-- Powers are those of the core library, whatever else is imported.
attribute [local instance (high)] instPowNat

open Text (trimStart trimStart_cons isBlank isBlank_of_isDigit)
open Json (NoDigitFirst bind_of_eq_some)

theorem isDigit_of_mem_padded {width n : Nat} {c : Char} (member : c ∈ padded width n) :
    c.isDigit := by
  rcases List.mem_append.mp member with zero | digit
  · rw [List.eq_of_mem_replicate zero]
    rfl
  · exact Nat.isDigit_of_mem_toDigits (by omega) (by omega) digit

theorem numberOf_padded (width n : Nat) : numberOf (padded width n) = n := by
  have fold : ∀ ds, numberOf ds = Nat.ofDigitChars 10 ds 0 := fun ds => by
    simp only [numberOf, Nat.ofDigitChars_eq_foldl, Nat.mul_comm]
  rw [fold, padded, Nat.ofDigitChars_append, Nat.ofDigitChars_replicate_zero, Nat.mul_zero,
    Nat.ofDigitChars_ten_toDigits]

theorem length_padded {width n : Nat} (positive : 0 < width) (fits : n < 10 ^ width) :
    (padded width n).length = width := by
  have short := (Nat.length_toDigits_le_iff (b := 10) (by omega) positive).mpr fits
  simp only [padded, List.length_append, List.length_replicate]
  omega

theorem padded_ne_nil (width n : Nat) : padded width n ≠ [] := by
  simp [padded, Nat.toDigits_ne_nil]

theorem isDigit_of_padded_append {width n : Nat} {c : Char} {rest cs : List Char}
    (text : padded width n ++ rest = c :: cs) : c.isDigit := by
  cases front : padded width n with
  | nil => exact absurd front (padded_ne_nil width n)
  | cons d ds =>
    rw [front, List.cons_append] at text
    obtain ⟨rfl, -⟩ := List.cons.inj text
    exact isDigit_of_mem_padded (by rw [front]; simp)

/-- Digits are read as far as allowed, or up to the first character that is none. -/
theorem readDigits_append {most : Nat} {ds rest : List Char} (digits : ∀ c ∈ ds, c.isDigit)
    (filled : ds ≠ []) (fits : ds.length ≤ most)
    (ends : ds.length = most ∨ NoDigitFirst rest) :
    readDigits most (ds ++ rest) = some (ds, rest) := by
  have stops : (rest.take (most - ds.length)).takeWhile Char.isDigit = [] := by
    rcases ends with whole | noDigit
    · rw [whole, Nat.sub_self, List.take_zero, List.takeWhile_nil]
    · cases rest with
      | nil => simp
      | cons c rest =>
        have none : c.isDigit = false := noDigit c rfl
        cases most - ds.length <;> simp [none]
  have taken : ((ds ++ rest).take most).takeWhile Char.isDigit = ds := by
    rw [List.take_append, List.take_of_length_le fits, List.takeWhile_append_of_pos digits, stops,
      List.append_nil]
  rw [readDigits, taken]
  split
  · exact absurd rfl filled
  · rw [List.drop_left]

theorem trimStart_padded (width n : Nat) (rest : List Char) :
    trimStart (padded width n ++ rest) = padded width n ++ rest := by
  cases text : padded width n ++ rest with
  | nil => rfl
  | cons c cs => exact trimStart_cons cs (isBlank_of_isDigit (isDigit_of_padded_append text))

theorem readTwo_padded {n : Nat} (fits : n < 100) (rest : List Char) :
    readTwo (padded 2 n ++ rest) = some (n, rest) := by
  have length : (padded 2 n).length = 2 := length_padded (by omega) fits
  have digits : readDigits 2 (padded 2 n ++ rest) = some (padded 2 n, rest) :=
    readDigits_append (fun _ => isDigit_of_mem_padded) (padded_ne_nil 2 n) (by omega) (.inl length)
  simp only [readTwo, trimStart_padded, digits, Option.map_some, numberOf_padded]

/-- A year is read with its sign, up to the mark after it. -/
theorem readYear_yearText (year : Int) (rest : List Char) :
    readYear (yearText year ++ '-' :: rest) = some (year, '-' :: rest) := by
  have ends : NoDigitFirst ('-' :: rest) := by simp [NoDigitFirst]
  have digits : ∀ n c, c ∈ padded 4 n → c.isDigit := fun _ _ => isDigit_of_mem_padded
  by_cases plain : 0 ≤ year ∧ year ≤ 9999
  · have fits : year.toNat < 10 ^ 4 := by omega
    have length : (padded 4 year.toNat).length = 4 := length_padded (by omega) fits
    have read : readDigits 4 (padded 4 year.toNat ++ '-' :: rest) =
        some (padded 4 year.toNat, '-' :: rest) :=
      readDigits_append (digits _) (padded_ne_nil _ _) (by omega) (.inl length)
    have value : ((year.toNat : Nat) : Int) = year := by omega
    rw [yearText, if_pos plain, readYear, trimStart_padded]
    split
    · rename_i text
      exact absurd (isDigit_of_padded_append text) (by decide)
    · rename_i text
      exact absurd (isDigit_of_padded_append text) (by decide)
    · simp only [read, Option.map_some, numberOf_padded, value]
  · have read : ∀ n, readDigits (padded 4 n ++ '-' :: rest).length (padded 4 n ++ '-' :: rest) =
        some (padded 4 n, '-' :: rest) := fun n =>
      readDigits_append (digits n) (padded_ne_nil _ _) (by simp) (.inr ends)
    by_cases negative : year < 0
    · have value : -((year.natAbs : Nat) : Int) = year := by omega
      rw [yearText, if_neg plain, if_pos negative, List.cons_append, readYear,
        trimStart_cons _ (by decide)]
      simp only [read, Option.map_some, numberOf_padded, value]
    · have value : ((year.natAbs : Nat) : Int) = year := by omega
      rw [yearText, if_neg plain, if_neg negative, List.cons_append, readYear,
        trimStart_cons _ (by decide)]
      simp only [read, Option.map_some, numberOf_padded, value]

theorem readMark_cons {mark : Char} (rest : List Char) (visible : isBlank mark = false) :
    readMark mark (mark :: rest) = some rest := by
  simp [readMark, trimStart_cons rest visible]

/-- The decimals that are written stand for all nanoseconds. -/
theorem readNanos_fractionText {nanos : Nat} (fits : nanos < nanosPerSecond) :
    readNanos (fractionText nanos ++ ['Z']) = some (nanos, ['Z']) := by
  have bound : nanos < 1000000000 := fits
  have read : ∀ width n, 0 < width → width ≤ 9 → n < 10 ^ width →
      readNanos ('.' :: padded width n ++ ['Z']) = some (n * 10 ^ (9 - width), ['Z']) := by
    intro width n positive most small
    have length := length_padded positive small
    have ends : NoDigitFirst ['Z'] := by simp [NoDigitFirst]
    have digits : readDigits 9 (padded width n ++ ['Z']) = some (padded width n, ['Z']) :=
      readDigits_append (fun _ => isDigit_of_mem_padded) (padded_ne_nil _ _) (by omega) (.inr ends)
    simp [readNanos, digits, numberOf_padded, length]
  unfold fractionText
  split
  · subst nanos
    rfl
  split
  · rw [read 3 _ (by omega) (by omega) (by omega)]
    have whole : nanos / 1000000 * 10 ^ (9 - 3) = nanos := by omega
    rw [whole]
  split
  · rw [read 6 _ (by omega) (by omega) (by omega)]
    have whole : nanos / 1000 * 10 ^ (9 - 6) = nanos := by omega
    rw [whole]
  · rw [read 9 _ (by omega) (by omega) (by omega)]
    simp

/-- Hour, minute and second give the second of the day again; the second `60` of a leap second gives
the last second of its minute and the nanoseconds that go past it. -/
theorem timeOfDay?_parts (t : Timestamp) :
    timeOfDay? (t.second / 3600) (t.second / 60 % 60)
        (t.second % 60 + t.nanosecond / nanosPerSecond) =
      some (t.second, t.nanosecond / nanosPerSecond * nanosPerSecond) := by
  have day : t.second < 86400 := t.second_range
  have clock : t.second / 3600 < 24 ∧ t.second / 60 % 60 < 60 := by omega
  have nanos : t.nanosecond < 1000000000 ∨
      t.second % 60 = 59 ∧ t.nanosecond < 2 * 1000000000 := t.nanosecond_range
  by_cases leap : t.nanosecond < 1000000000
  · have none : t.nanosecond / nanosPerSecond = 0 := Nat.div_eq_of_lt leap
    have usual : t.second % 60 < 60 := by omega
    have second : t.second / 3600 * 3600 + t.second / 60 % 60 * 60 + t.second % 60 = t.second := by
      omega
    rw [none, timeOfDay?, if_pos clock, Nat.add_zero, if_pos usual, second, Nat.zero_mul]
  · have one : t.nanosecond / nanosPerSecond = 1 := by
      simp only [nanosPerSecond]
      omega
    have late : t.second % 60 + 1 = 60 := by omega
    have second : t.second / 3600 * 3600 + t.second / 60 % 60 * 60 + 59 = t.second := by omega
    rw [one, late, timeOfDay?, if_pos clock, if_neg (Nat.lt_irrefl 60), if_pos rfl, second,
      Nat.one_mul]

theorem ofLocal?_zero (t : Timestamp) : ofLocal? t.date t.second t.nanosecond 0 = some t := by
  have second := t.second_range
  have inDay : (t.second : Int) - 0 < secondsPerDay := by omega
  have moved : ((t.second : Int) - 0).toNat = t.second := by omega
  simp only [ofLocal?, if_neg (by omega : ¬ (t.second : Int) - 0 < 0), if_pos inDay, moved]
  exact make?_self t

/-- The reader takes a text in the form of the writer apart into its numbers. -/
theorem ofChars?_parts {year : Int} {month day hour minute second nanos : Nat}
    (months : month < 100) (days : day < 100) (hours : hour < 100) (minutes : minute < 100)
    (seconds : second < 100) (decimals : nanos < nanosPerSecond) :
    ofChars? (yearText year ++ '-' :: (padded 2 month ++ '-' :: (padded 2 day ++ 'T' ::
        (padded 2 hour ++ ':' :: (padded 2 minute ++ ':' :: (padded 2 second ++
          (fractionText nanos ++ ['Z']))))))) =
      (Date.make? year month day).bind fun date =>
        (timeOfDay? hour minute second).bind fun time =>
          ofLocal? date time.1 (time.2 + nanos) 0 := by
  have dash : isBlank '-' = false := by decide
  have colon : isBlank ':' = false := by decide
  have separator : ∀ rest, readSeparator ('T' :: rest) = some rest := fun _ => rfl
  have offset : readOffset (trimStart ['Z']) = some (0, []) := rfl
  have inDay : ((trimStart []).isEmpty && (0 : Int).natAbs < secondsPerDay) = true := by decide
  refine (bind_of_eq_some (readYear_yearText year _)).trans ?_
  refine (bind_of_eq_some (readMark_cons _ dash)).trans ?_
  refine (bind_of_eq_some (readTwo_padded months _)).trans ?_
  refine (bind_of_eq_some (readMark_cons _ dash)).trans ?_
  refine (bind_of_eq_some (readTwo_padded days _)).trans ?_
  refine (bind_of_eq_some (separator _)).trans ?_
  refine (bind_of_eq_some (readTwo_padded hours _)).trans ?_
  refine (bind_of_eq_some (readMark_cons _ colon)).trans ?_
  refine (bind_of_eq_some (readTwo_padded minutes _)).trans ?_
  refine (bind_of_eq_some (readMark_cons _ colon)).trans ?_
  refine (bind_of_eq_some (readTwo_padded seconds _)).trans ?_
  refine (bind_of_eq_some (readNanos_fractionText decimals)).trans ?_
  refine (bind_of_eq_some offset).trans ?_
  simp only [inDay, if_true]
  rfl

/-- Every timestamp is read back from its text. -/
theorem ofText?_text (t : Timestamp) : ofText? t.text = some t := by
  have second : t.second < 86400 := t.second_range
  have nanos : t.nanosecond < 1000000000 ∨
      t.second % 60 = 59 ∧ t.nanosecond < 2 * 1000000000 := t.nanosecond_range
  have month := t.date.month_range
  have day : t.date.day ≤ 31 := by
    have range := t.date.day_range.2
    unfold daysInMonth at range
    split at range
    · split at range <;> omega
    · split at range <;> omega
  have seconds : t.second % 60 + t.nanosecond / nanosPerSecond < 100 := by
    simp only [nanosPerSecond]
    omega
  have decimals : t.nanosecond % nanosPerSecond < nanosPerSecond := Nat.mod_lt _ (by decide)
  have sum : t.nanosecond / nanosPerSecond * nanosPerSecond + t.nanosecond % nanosPerSecond =
      t.nanosecond := Nat.div_add_mod' ..
  have parts := @ofChars?_parts t.date.year t.date.month t.date.day (t.second / 3600)
    (t.second / 60 % 60) _ _ (by omega) (by omega) (by omega) (by omega) seconds decimals
  rw [Date.make?_self, Option.bind_some, timeOfDay?_parts, Option.bind_some, sum,
    ofLocal?_zero] at parts
  rw [ofText?, text, String.toList_ofList, ← parts]
  simp only [chars, List.append_assoc, List.cons_append]

end ExtensionAudit.Timestamp

import ExtensionAudit.Proofs.Rollup.Levels
import ExtensionAudit.Proofs.Rollup.Table
import ExtensionAudit.Rollup.Text

namespace ExtensionAudit

open RecordStore (sampleRecord noon)

/-- The names of the severities of risk. -/
def LevelCounts.names : List String :=
  [Severity.critical, .high, .medium, .low, .minimal].map Severity.name

/-- The level that is shown is the name of a severity of risk. -/
def Risk.IsCounted (r : Risk) : Prop := r.shownLevel ∈ LevelCounts.names

instance (r : Risk) : Decidable r.IsCounted :=
  inferInstanceAs (Decidable (_ ∈ _))

namespace LevelCounts

theorem total_add (counts : LevelCounts) (level : String) :
    (counts.add level).total = counts.total + if level ∈ names then 1 else 0 := by
  unfold add
  split
  case h_6 critical high medium low minimal =>
    have other : level ∉ names := by
      simpa [names, Severity.name] using And.intro critical ⟨high, medium, low, minimal⟩
    rw [if_neg other, Nat.add_zero]
  all_goals
    rw [if_pos (by decide)]
    simp only [total]
    omega

theorem total_foldl_add (levels : List String) (counts : LevelCounts) :
    (levels.foldl add counts).total = counts.total + levels.countP (· ∈ names) :=
  foldl_add_of_step total (· ∈ names)
    (fun counts level => by simp only [total_add, decide_eq_true_eq]) levels counts

end LevelCounts

namespace Rollup

variable {records : List Record} {now : Timestamp} {count : Nat} {rollup : Rollup}

/-- The sum of the counts is the number of the records that are counted. -/
theorem total_of_ofRecords? (made : ofRecords? records now count = some rollup) :
    rollup.levels.total = records.countP fun record => record.risk.IsCounted := by
  obtain ⟨start, -, rfl⟩ := ofRecords?_eq_some_iff.mp made
  rw [LevelCounts.total_foldl_add, List.countP_map]
  exact Nat.zero_add _

/-- What the two numbers say about the records. The first leaves out what is not counted, so it is
the number of records only if all are; neither is greater than that. -/
structure Accounts (records : List Record) (start : Instant) (stored recent : Nat) : Prop where
  stored_eq : stored = records.countP fun record => record.risk.IsCounted
  recent_eq : recent = records.countP fun record => start ≤ record.createdAt.instant
  complete_iff : stored = records.length ↔ ∀ record ∈ records, record.risk.IsCounted
  stored_le : stored ≤ records.length
  recent_le : recent ≤ records.length

theorem accounts_of_ofRecords? {start : Instant} (begins : now.daysBefore? recentDays = some start)
    (made : ofRecords? records now count = some rollup) :
    Accounts records start rollup.levels.total rollup.recent where
  stored_eq := total_of_ofRecords? made
  recent_eq := by
    obtain ⟨start', begins', rfl⟩ := ofRecords?_eq_some_iff.mp made
    obtain rfl := Option.some.inj (begins.symm.trans begins')
    rfl
  complete_iff := by
    rw [total_of_ofRecords? made, List.countP_eq_length]
    simp only [decide_eq_true_eq]
  stored_le := total_of_ofRecords? made ▸ List.countP_le_length
  recent_le := by
    obtain ⟨start', -, rfl⟩ := ofRecords?_eq_some_iff.mp made
    exact List.countP_le_length

/-- A number can be told from its digits and what stands behind them, if that begins with no
digit. -/
theorem repr_append_inj {a b : Nat} {rest rest' : List Char} (ends : Json.NoDigitFirst rest)
    (ends' : Json.NoDigitFirst rest')
    (same : a.repr.toList ++ rest = b.repr.toList ++ rest') : a = b ∧ rest = rest' := by
  have parted (n : Nat) {rest : List Char} (ends : Json.NoDigitFirst rest) :
      Json.takeDigits (n.repr.toList ++ rest) = (Json.natText n, rest) := by
    rw [Nat.toList_repr]
    exact Json.takeDigits_append (fun _ => Json.isDigit_of_mem_natText) ends
  have both := (parted a ends).symm.trans (same ▸ parted b ends')
  obtain ⟨digits, behind⟩ := Prod.mk.inj both
  have values := congrArg Json.digitsValue digits
  rw [Json.digitsValue_natText, Json.digitsValue_natText] at values
  exact ⟨values, behind⟩

/-- The second line of the text says how many results are stored, and how many are recent. -/
def Prints (text : String) (stored recent : Nat) : Prop :=
  ∃ rest, text.toList = "\n  ".toList ++ (stored.repr.toList ++ (" stored result(s), ".toList ++
    (recent.repr.toList ++ (" in the last 30 days\n".toList ++ rest))))

theorem prints_text (rollup : Rollup) :
    Prints rollup.text rollup.levels.total rollup.recent := by
  refine ⟨(Text.ofLines ("" :: ((levelRows rollup.levels).map levelLine ++
    ["", "  Requesting <all_urls>: " ++ Nat.repr rollup.allSites] ++
    tableLines rollup.mostFindings ++ [""]))).toList, ?_⟩
  simp [text, textLines, Text.ofLines, String.join_cons]

/-- A text prints one pair of numbers at most. -/
theorem prints_iff (rollup : Rollup) (stored recent : Nat) :
    Prints rollup.text stored recent ↔ stored = rollup.levels.total ∧ recent = rollup.recent := by
  obtain ⟨rest, printed⟩ := prints_text rollup
  have blank {text : List Char} (begins : text.head? = some ' ') (behind : List Char) :
      Json.NoDigitFirst (text ++ behind) := by
    rw [Json.NoDigitFirst, List.head?_append, begins]
    rintro c ⟨⟩
    rfl
  constructor
  · rintro ⟨rest', printed'⟩
    have same := List.append_cancel_left (printed'.symm.trans printed)
    obtain ⟨total, behind⟩ := repr_append_inj (blank rfl _) (blank rfl _) same
    obtain ⟨late, -⟩ :=
      repr_append_inj (blank rfl _) (blank rfl _) (List.append_cancel_left behind)
    exact ⟨total, late⟩
  · rintro ⟨rfl, rfl⟩
    exact ⟨rest, printed⟩

/-- As of every moment with thirty days before it there is a rollup, and its text prints one pair
of numbers: how many records show a level that is the name of a severity of risk, and how many are
recent. -/
theorem printed_accounts (records : List Record) (now : Timestamp) (count : Nat)
    (late : (Date.first.dayNumber + recentDays) * secondsPerDay ≤
      now.instant.seconds + if now.isLeap then 1 else 0) :
    ∃ start rollup stored recent, now.daysBefore? recentDays = some start ∧
      ofRecords? records now count = some rollup ∧ Accounts records start stored recent ∧
      ∀ a b, Prints rollup.text a b ↔ a = stored ∧ b = recent := by
  obtain ⟨start, begins⟩ := (now.exists_daysBefore?_iff recentDays).mpr late
  obtain ⟨rollup, made⟩ : ∃ rollup, ofRecords? records now count = some rollup :=
    exists_ofRecords?_iff.mpr ⟨start, begins⟩
  exact ⟨start, rollup, _, _, begins, made, accounts_of_ofRecords? begins made, prints_iff rollup⟩

/-- The record of a package whose note names a level of its own. -/
def spicyRecord : Record :=
  .ofReport RecordStore.sampleId
    (.make {} ⟨Manifest.ofMembers [], none⟩ (some "Risk Level: Spicy\nAsks for little.") "") none
    noon

theorem thirtyDaysBefore_noon :
    noon.daysBefore? recentDays =
      some ⟨noon.instant.seconds - recentDays * secondsPerDay, noon.instant.nanosecond⟩ := by
  rfl

/-- Of two recent records one shows a severity. -/
theorem spicy_and_plain_printed : ∃ rollup,
    ofRecords? [spicyRecord, sampleRecord "1" noon] noon 5 = some rollup ∧
      Prints rollup.text 1 2 := by
  obtain ⟨start, rollup, stored, recent, begins, made, accounts, printed⟩ :=
    printed_accounts [spicyRecord, sampleRecord "1" noon] noon 5 (by decide)
  obtain rfl := Option.some.inj (thirtyDaysBefore_noon.symm.trans begins)
  refine ⟨rollup, made, (printed 1 2).mpr ⟨?_, ?_⟩⟩
  · rw [accounts.stored_eq]
    decide +kernel
  · rw [accounts.recent_eq]
    decide +kernel

/-- A stored result is not counted if its level is a word of its own, recent as it is. -/
theorem spicy_result_is_missing : ∃ rollup,
    ofRecords? [spicyRecord] noon 5 = some rollup ∧ Prints rollup.text 0 1 ∧
      ∀ recent, ¬ Prints rollup.text [spicyRecord].length recent := by
  obtain ⟨rollup, made⟩ : ∃ rollup, ofRecords? [spicyRecord] noon 5 = some rollup :=
    exists_ofRecords?_iff.mpr ⟨_, thirtyDaysBefore_noon⟩
  have accounts := accounts_of_ofRecords? thirtyDaysBefore_noon made
  have none : rollup.levels.total = 0 := by
    rw [accounts.stored_eq]
    decide +kernel
  have one : rollup.recent = 1 := by
    rw [accounts.recent_eq]
    decide +kernel
  refine ⟨rollup, made, (prints_iff rollup 0 1).mpr ⟨none.symm, one.symm⟩, fun recent shown => ?_⟩
  obtain ⟨stored, -⟩ := (prints_iff rollup 1 recent).mp shown
  exact nomatch stored.trans none

end Rollup

end ExtensionAudit

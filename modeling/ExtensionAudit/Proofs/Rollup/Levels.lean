import ExtensionAudit.Proofs.Store.Transparency
import ExtensionAudit.Rollup

namespace ExtensionAudit

open Text (isBlank)

/-- The words for a severity that are not its name. -/
def Severity.otherWords : List String := ["none", "med", "crit"]

/-- Without blanks around it, and none of the other words in any letter case. -/
def Risk.IsPlain (level : String) : Prop :=
  Text.trim level.toList = level.toList ∧
    String.ofList (Text.lower level.toList) ∉ Severity.otherWords

instance (level : String) : Decidable (Risk.IsPlain level) :=
  inferInstanceAs (Decidable (_ ∧ _))

/-- A word for a severity, with a capital, is the name of that severity or of none. -/
theorem Severity.capital_eq_name_iff {word : String} {s : Severity} (listed : (word, s) ∈ words)
    {cs : List Char} (lowered : Text.lower cs = word.toList) (t : Severity) :
    String.ofList (Text.capitalize cs) = t.name ↔ t = s ∧ word ∉ otherWords := by
  rw [Text.capitalize, lowered]
  simp only [words, List.mem_cons, Prod.mk.injEq, List.not_mem_nil, or_false] at listed
  rcases listed with ⟨rfl, rfl⟩ | ⟨rfl, rfl⟩ | ⟨rfl, rfl⟩ | ⟨rfl, rfl⟩ | ⟨rfl, rfl⟩ | ⟨rfl, rfl⟩ |
    ⟨rfl, rfl⟩ | ⟨rfl, rfl⟩ | ⟨rfl, rfl⟩ <;> cases t <;> decide +kernel

theorem Severity.isBlank_of_mem_name {s : Severity} {c : Char} (listed : c ∈ s.name.toList) :
    isBlank c = false := by
  have visible : s.name.toList.all (!isBlank ·) = true := by cases s <;> decide
  simpa using List.all_eq_true.mp visible c listed

namespace Risk

variable {r : Risk} {level : String} {s : Severity}

/-- A level that is shown as the name of a severity has no blanks around it. -/
theorem trim_of_capitalize (shown : String.ofList (Text.capitalize level.toList) = s.name) :
    Text.trim level.toList = level.toList := by
  refine Text.trim_of_no_blank fun c listed => Bool.eq_false_iff.mpr fun blank => ?_
  have kept := Text.mem_capitalize_of_blank blank listed
  rw [← String.toList_ofList (l := Text.capitalize level.toList), shown] at kept
  rw [Severity.isBlank_of_mem_name kept] at blank
  exact nomatch blank

/-- A level that is read as a severity is shown as its name if it is plain, and else as no name. -/
theorem shownLevel_eq_name_iff (given : r.advised = some level)
    (denotes : r.advisedSeverity? = some s) (t : Severity) :
    r.shownLevel = t.name ↔ t = s ∧ IsPlain level := by
  rw [advisedSeverity?, given, Option.bind_some, Severity.ofWord?] at denotes
  obtain ⟨before, after, parted, -⟩ := List.lookup_eq_some_iff.mp denotes
  have listed : (String.ofList (Text.lower (Text.trim level.toList)), s) ∈ Severity.words := by
    rw [parted]
    simp
  rw [shownLevel, given]
  constructor
  · intro shown
    have trimmed := trim_of_capitalize shown
    rw [trimmed] at listed
    obtain ⟨same, plain⟩ :=
      (Severity.capital_eq_name_iff listed String.toList_ofList.symm t).mp shown
    exact ⟨same, trimmed, plain⟩
  · rintro ⟨same, trimmed, plain⟩
    rw [trimmed] at listed
    exact (Severity.capital_eq_name_iff listed String.toList_ofList.symm t).mpr ⟨same, plain⟩

end Risk

namespace LevelCounts

/-- The count of a severity. Remarks have none. -/
def of (counts : LevelCounts) : Severity → Nat
  | .info => 0
  | .minimal => counts.minimal
  | .low => counts.low
  | .medium => counts.medium
  | .high => counts.high
  | .critical => counts.critical

/-- A level counts for the severity whose name it is. -/
theorem of_add (counts : LevelCounts) (level : String) {s : Severity} (counted : s ≠ .info) :
    (counts.add level).of s = counts.of s + if level = s.name then 1 else 0 := by
  unfold add
  split
  case h_6 critical high medium low minimal =>
    have other : level ≠ s.name := by
      rintro rfl
      cases s <;> simp_all [Severity.name]
    rw [if_neg other, Nat.add_zero]
  all_goals cases s <;> simp_all [of, Severity.name]

/-- A number that each fitting level raises by one has grown by the number of those that fit. -/
theorem foldl_add_of_step (number : LevelCounts → Nat) (fits : String → Bool)
    (step : ∀ counts level,
      number (counts.add level) = number counts + if fits level then 1 else 0)
    (levels : List String) (counts : LevelCounts) :
    number (levels.foldl add counts) = number counts + levels.countP fits := by
  induction levels generalizing counts with
  | nil => rfl
  | cons level levels ih =>
    rw [List.foldl_cons, ih, step, List.countP_cons, Nat.add_assoc,
      Nat.add_comm (levels.countP fits)]

theorem of_foldl_add (levels : List String) (counts : LevelCounts) {s : Severity}
    (counted : s ≠ .info) :
    (levels.foldl add counts).of s = counts.of s + levels.count s.name :=
  foldl_add_of_step (·.of s) (· == s.name)
    (fun counts level => by simp only [of_add counts level counted, beq_iff_eq]) levels counts

end LevelCounts

namespace Rollup

/-- A severity counts the records that show its name. -/
theorem of_levels {records : List Record} {now : Timestamp} {count : Nat} {rollup : Rollup}
    (made : ofRecords? records now count = some rollup) {s : Severity} (counted : s ≠ .info) :
    rollup.levels.of s = (records.map (·.risk.shownLevel)).count s.name := by
  obtain ⟨start, -, rfl⟩ := ofRecords?_eq_some_iff.mp made
  have empty : ({} : LevelCounts).of s = 0 := by cases s <;> rfl
  rw [LevelCounts.of_foldl_add _ _ counted, empty, Nat.zero_add]

end Rollup

/-- Where the advised level of a record is read as a severity, it is shown as that severity's name
if it is plain, and only then; and the record adds to the count of that severity if the level is
plain, and else to none. -/
theorem Risk.agrees_if_plain {r : Risk} {level : String} {s : Severity}
    (given : r.advised = some level) (denotes : r.advisedSeverity? = some s) :
    (r.shownLevel = s.name ↔ IsPlain level) ∧
      ∀ (before after : List Record) (record : Record) (now : Timestamp) (count : Nat)
        (rollup : Rollup), record.risk = r →
        Rollup.ofRecords? (before ++ after) now count = some rollup →
        ∃ fuller, Rollup.ofRecords? (before ++ record :: after) now count = some fuller ∧
          ∀ bucket, bucket ≠ .info → fuller.levels.of bucket =
            rollup.levels.of bucket + if bucket = s ∧ IsPlain level then 1 else 0 := by
  have shown := shownLevel_eq_name_iff given denotes
  refine ⟨(shown s).trans (and_iff_right rfl),
    fun before after record now count rollup same made => ?_⟩
  obtain ⟨fuller, madeFuller⟩ : ∃ fuller,
      Rollup.ofRecords? (before ++ record :: after) now count = some fuller :=
    Rollup.exists_ofRecords?_iff.mpr (Rollup.exists_ofRecords?_iff.mp ⟨rollup, made⟩)
  refine ⟨fuller, madeFuller, fun bucket counted => ?_⟩
  rw [Rollup.of_levels madeFuller counted, Rollup.of_levels made counted, List.map_append,
    List.map_append, List.map_cons, List.count_append, List.count_append, List.count_cons, same,
    Nat.add_assoc]
  simp only [beq_iff_eq, shown bucket]

/-- A record whose note names a level in capitals is counted as high. -/
def Rollup.shoutedRecord : Record :=
  .ofReport RecordStore.sampleId
    (.make {} ⟨Manifest.ofMembers [], none⟩ (some "Risk Level: HIGH\nAsks for much.") "") none
    RecordStore.noon

theorem Rollup.shouted_level_is_counted :
    shoutedRecord.risk.advised = some "HIGH" ∧
      shoutedRecord.risk.advisedSeverity? = some .high ∧ Risk.IsPlain "HIGH" ∧
      shoutedRecord.risk.shownLevel = "High" ∧
      ∃ rollup fuller, ofRecords? [] RecordStore.noon 5 = some rollup ∧
        ofRecords? [shoutedRecord] RecordStore.noon 5 = some fuller ∧
        fuller.levels.high = rollup.levels.high + 1 := by
  have given : shoutedRecord.risk.advised = some "HIGH" := by decide +kernel
  have denotes : shoutedRecord.risk.advisedSeverity? = some .high := by decide +kernel
  have plain : Risk.IsPlain "HIGH" := by decide +kernel
  obtain ⟨shown, counted⟩ := Risk.agrees_if_plain given denotes
  obtain ⟨fuller, made, more⟩ := counted [] [] shoutedRecord RecordStore.noon 5 _ rfl rfl
  refine ⟨given, denotes, plain, shown.mpr plain, _, fuller, rfl, made, ?_⟩
  exact more .high (by decide)

/-- Another word for a severity is shown, and counted, as it is, and so are blanks around a word. -/
theorem Risk.other_word_shown_as_written :
    advisedSeverity? ⟨.low, some "med"⟩ = some .medium ∧
      shownLevel ⟨.low, some "med"⟩ = "Med" ∧ "Med" ≠ Severity.name .medium ∧
      LevelCounts.add {} "Med" = {} ∧
      advisedSeverity? ⟨.low, some " high"⟩ = some .high ∧
      shownLevel ⟨.low, some " high"⟩ = " high" ∧ " high" ≠ Severity.name .high ∧
      LevelCounts.add {} " high" = {} := by
  decide +kernel

end ExtensionAudit

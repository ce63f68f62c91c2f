import ExtensionAudit.Proofs.Store.History
import ExtensionAudit.Rollup
import Mathlib.Data.List.Forall2

namespace ExtensionAudit

open List (Forall₂)
open RecordStore (sampleRecord noon)

namespace Rollup

/-- The rows show the records at the positions, most findings first and else in the order of the
list, and no record that is left out goes before one that is shown. -/
structure IsStableTop (records : List Record) (count : Nat) (positions : List Nat)
    (rows : List RollupRow) : Prop where
  length : rows.length = min count records.length
  distinct : positions.Nodup
  /-- The findings of a record are those of the rules and the notes, without the verdict. -/
  shown : Forall₂ (fun position row => ∃ record, records[position]? = some record ∧
    row.id = record.id ∧ row.name = record.name ∧ row.image = record.image ∧
    row.findings = record.assessment.findings.length) positions rows
  descending : rows.Pairwise fun earlier later => later.findings ≤ earlier.findings
  stable : (positions.zip rows).Pairwise fun earlier later =>
    earlier.2.findings = later.2.findings → earlier.1 < later.1
  leftOut : ∀ position record, records[position]? = some record → position ∉ positions →
    ∀ last ∈ (positions.zip rows).getLast?,
      record.assessment.findings.length ≤ last.2.findings ∧
        (record.assessment.findings.length = last.2.findings → last.1 < position)

/-- More findings go first. -/
def goesFirst (a b : RollupRow) : Bool := b.findings ≤ a.findings

/-- More findings go before, and of as many the earlier position. -/
def Ahead (a b : RollupRow × Nat) : Prop :=
  b.1.findings ≤ a.1.findings ∧ (a.1.findings = b.1.findings → a.2 < b.2)

/-- The rows with their positions, ranked. -/
def ranked (records : List Record) : List (RollupRow × Nat) :=
  (records.map row).zipIdx.mergeSort (List.zipIdxLE goesFirst)

variable (records : List Record) (count : Nat)

theorem ranked_perm : (ranked records).Perm (records.map row).zipIdx :=
  List.mergeSort_perm _ _

theorem length_ranked : (ranked records).length = records.length := by
  rw [(ranked_perm records).length_eq, List.length_zipIdx, List.length_map]

/-- Ranking the rows with their positions is a stable sort of the rows. -/
theorem topRows_eq : topRows records count = ((ranked records).take count).map Prod.fst := by
  rw [List.map_take]
  exact congrArg (List.take count) List.mergeSort_zipIdx.symm

variable {records} in
theorem mem_ranked_iff {r : RollupRow} {position : Nat} :
    (r, position) ∈ ranked records ↔
      ∃ record, records[position]? = some record ∧ row record = r := by
  rw [(ranked_perm records).mem_iff, List.mem_zipIdx_iff_getElem?, List.getElem?_map,
    Option.map_eq_some_iff]

theorem nodup_positions : ((ranked records).map Prod.snd).Nodup := by
  rw [((ranked_perm records).map Prod.snd).nodup_iff, List.zipIdx_map_snd]
  exact List.nodup_range'

theorem pairwise_ahead : (ranked records).Pairwise Ahead := by
  have ordered : (ranked records).Pairwise fun a b => List.zipIdxLE goesFirst a b = true :=
    List.pairwise_mergeSort
      (List.zipIdxLE_trans fun a b c => by simp only [goesFirst, decide_eq_true_eq]; omega)
      (List.zipIdxLE_total fun a b => by
        simp only [goesFirst, Bool.or_eq_true, decide_eq_true_eq]; omega) _
  have apart : (ranked records).Pairwise fun a b => a.2 ≠ b.2 :=
    List.pairwise_map.mp (nodup_positions records)
  refine (ordered.and apart).imp fun {a b} both => ?_
  obtain ⟨before, differs⟩ := both
  simp only [List.zipIdxLE, goesFirst, decide_eq_true_eq] at before
  unfold Ahead
  split at before
  · split at before
    · simp only [decide_eq_true_eq] at before
      omega
    · omega
  · exact nomatch before

/-- The positions of the records that are shown. -/
def topPositions : List Nat := ((ranked records).take count).map Prod.snd

theorem zip_topPositions :
    (topPositions records count).zip (topRows records count) =
      ((ranked records).take count).map Prod.swap := by
  rw [topRows_eq, topPositions, List.zip_map']
  rfl

theorem isStableTop_topRows :
    IsStableTop records count (topPositions records count) (topRows records count) where
  length := by rw [topRows_eq, List.length_map, List.length_take, length_ranked]
  distinct := (nodup_positions records).sublist ((List.take_sublist _ _).map _)
  shown := by
    rw [topRows_eq, topPositions, List.forall₂_map_left_iff, List.forall₂_map_right_iff]
    refine List.forall₂_same.mpr fun entry taken => ?_
    obtain ⟨record, found, same⟩ := mem_ranked_iff.mp (List.mem_of_mem_take taken)
    refine ⟨record, found, ?_⟩
    rw [← same]
    exact ⟨rfl, rfl, rfl, rfl⟩
  descending := by
    rw [topRows_eq, List.pairwise_map]
    exact ((pairwise_ahead records).sublist (List.take_sublist _ _)).imp And.left
  stable := by
    rw [zip_topPositions, List.pairwise_map]
    exact ((pairwise_ahead records).sublist (List.take_sublist _ _)).imp And.right
  leftOut := by
    intro position record found absent last isLast
    rw [zip_topPositions, List.getLast?_map, Option.mem_def, Option.map_eq_some_iff] at isLast
    obtain ⟨entry, isLast, rfl⟩ := isLast
    -- The record is ranked, and not among those that are taken, so it comes after all of them.
    have ordered := pairwise_ahead records
    rw [← List.take_append_drop count (ranked records), List.pairwise_append] at ordered
    have listed : (row record, position) ∈ ranked records :=
      mem_ranked_iff.mpr ⟨record, found, rfl⟩
    rw [← List.take_append_drop count (ranked records), List.mem_append] at listed
    rcases listed with taken | dropped
    · exact absurd (List.mem_map_of_mem taken) absent
    · obtain ⟨fewer, later⟩ := ordered.2.2 entry (List.mem_of_getLast? isLast) _ dropped
      exact ⟨fewer, fun same => later same.symm⟩

end Rollup

/-- So many days lie before a moment exactly if the first date is that far away. A leap second
counts with the second after it. -/
theorem Timestamp.exists_daysBefore?_iff (t : Timestamp) (days : Nat) :
    (∃ start, t.daysBefore? days = some start) ↔
      (Date.first.dayNumber + days) * secondsPerDay ≤
        t.instant.seconds + if t.isLeap then 1 else 0 := by
  have left : (if t.isLeap then ⟨t.instant.seconds + 1, t.instant.nanosecond - nanosPerSecond⟩
      else t.instant : Instant).seconds = t.instant.seconds + if t.isLeap then 1 else 0 := by
    cases t.isLeap
    · exact (Int.add_zero _).symm
    · rfl
  simp only [daysBefore?, left, secondsPerDay]
  by_cases near : (t.instant.seconds + if t.isLeap then 1 else 0) - days * (86400 : Nat) <
      Date.first.dayNumber * (86400 : Nat)
  · simp only [if_pos near, reduceCtorEq, exists_false, false_iff]
    omega
  · simp only [if_neg near, Option.some.injEq, exists_eq', true_iff]
    omega

namespace Rollup

theorem mostFindings_of_ofRecords? {records : List Record} {now : Timestamp} {count : Nat}
    {rollup : Rollup} (made : ofRecords? records now count = some rollup) :
    rollup.mostFindings = topRows records count := by
  obtain ⟨start, -, rfl⟩ := ofRecords?_eq_some_iff.mp made
  rfl

/-- For any records and any length, the rollup as of a moment has a table that is the stable top of
the records, exactly if the moment is at least as many days after the first date as records count as
recent; before, there is no rollup at all. -/
theorem stable_top_iff (records : List Record) (now : Timestamp) (count : Nat) :
    (∃ rollup positions, ofRecords? records now count = some rollup ∧
        IsStableTop records count positions rollup.mostFindings) ↔
      (Date.first.dayNumber + recentDays) * secondsPerDay ≤
        now.instant.seconds + if now.isLeap then 1 else 0 := by
  rw [← now.exists_daysBefore?_iff, ← exists_ofRecords?_iff]
  constructor
  · rintro ⟨rollup, -, made, -⟩
    exact ⟨rollup, made⟩
  · rintro ⟨rollup, made⟩
    refine ⟨rollup, topPositions records count, made, ?_⟩
    rw [mostFindings_of_ofRecords? made]
    exact isStableTop_topRows records count

/-- A noon in the first month that dates can have. -/
def earlyNoon : Timestamp :=
  { noon with date := { Date.first with day := 15, day_range := by decide } }

/-- As of that noon there is no rollup of a record, although its table would have one row. -/
theorem early_noon_has_no_table :
    topRows [sampleRecord "1" noon] 5 = [row (sampleRecord "1" noon)] ∧
      ofRecords? [sampleRecord "1" noon] earlyNoon 5 = none ∧
      ¬ ∃ rollup positions, ofRecords? [sampleRecord "1" noon] earlyNoon 5 = some rollup ∧
        IsStableTop [sampleRecord "1" noon] 5 positions rollup.mostFindings := by
  have absent : ofRecords? [sampleRecord "1" noon] earlyNoon 5 = none := rfl
  refine ⟨by simp [topRows], absent, ?_⟩
  rintro ⟨rollup, -, made, -⟩
  exact nomatch absent.symm.trans made

end Rollup

end ExtensionAudit

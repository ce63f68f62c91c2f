import ExtensionAudit.Store.Record

namespace ExtensionAudit

structure LevelCounts where
  critical : Nat := 0
  high : Nat := 0
  medium : Nat := 0
  low : Nat := 0
  minimal : Nat := 0
deriving DecidableEq

namespace LevelCounts

/-- Counts a level; a level that is none of the five is not counted. -/
def add (counts : LevelCounts) (level : String) : LevelCounts :=
  match level with
  | "Critical" => { counts with critical := counts.critical + 1 }
  | "High" => { counts with high := counts.high + 1 }
  | "Medium" => { counts with medium := counts.medium + 1 }
  | "Low" => { counts with low := counts.low + 1 }
  | "Minimal" => { counts with minimal := counts.minimal + 1 }
  | _ => counts

def total (counts : LevelCounts) : Nat :=
  counts.critical + counts.high + counts.medium + counts.low + counts.minimal

end LevelCounts

structure RollupRow where
  id : ExtensionId
  name : Option String
  image : Option String
  findings : Nat
deriving DecidableEq

/-- How many records show each level of risk, which have the most findings, and how many are recent
or ask for every site. -/
structure Rollup where
  levels : LevelCounts
  mostFindings : List RollupRow
  recent : Nat
  allSites : Nat
  generatedAt : Timestamp
deriving DecidableEq

namespace Rollup

def row (record : Record) : RollupRow where
  id := record.id
  name := record.name
  image := record.image
  findings := record.assessment.findings.length

/-- The rows of the records with the most findings, the most first; rows with as many keep the order
of the records. -/
def topRows (records : List Record) (count : Nat) : List RollupRow :=
  ((records.map row).mergeSort fun a b => b.findings ≤ a.findings).take count

def recentDays : Nat := 30

/-- Whether a record asks for every site by the one pattern for that. -/
def asksForAllSites (record : Record) : Bool :=
  record.manifest.permissions.contains "<all_urls>" ||
    record.manifest.hostPermissions.contains "<all_urls>"

/-- The rollup as of now; nothing when now is too close to the first date. -/
def ofRecords? (records : List Record) (now : Timestamp) (count : Nat) : Option Rollup :=
  match now.daysBefore? recentDays with
  | none => none
  | some start => some {
      levels := (records.map fun r => r.risk.shownLevel).foldl LevelCounts.add {}
      mostFindings := topRows records count
      recent := records.countP fun r => start ≤ r.createdAt.instant
      allSites := records.countP asksForAllSites
      generatedAt := now }

theorem ofRecords?_eq_some_iff {records : List Record} {now : Timestamp} {count : Nat}
    {rollup : Rollup} :
    ofRecords? records now count = some rollup ↔
      ∃ start, now.daysBefore? recentDays = some start ∧ rollup = {
        levels := (records.map fun r => r.risk.shownLevel).foldl LevelCounts.add {}
        mostFindings := topRows records count
        recent := records.countP fun r => start ≤ r.createdAt.instant
        allSites := records.countP asksForAllSites
        generatedAt := now } := by
  unfold ofRecords?
  cases now.daysBefore? recentDays with
  | none => simp
  | some start =>
    simp only [Option.some.injEq, exists_eq_left']
    exact eq_comm

/-- Whether there is a rollup depends on now alone. -/
theorem exists_ofRecords?_iff {records : List Record} {now : Timestamp} {count : Nat} :
    (∃ rollup, ofRecords? records now count = some rollup) ↔
      ∃ start, now.daysBefore? recentDays = some start := by
  simp only [ofRecords?_eq_some_iff]
  rw [exists_comm]
  exact exists_congr fun start => exists_and_left.trans (and_iff_left ⟨_, rfl⟩)

open Json

instance : Encode LevelCounts where
  encode c := .object (member "critical" c.critical ++ member "high" c.high ++
    member "medium" c.medium ++ member "low" c.low ++ member "minimal" c.minimal)

instance : Encode RollupRow where
  encode r := .object (member "extension_id" r.id ++ member "extension_name" r.name ++
    member "extension_image" r.image ++ member "finding_count" r.findings)

instance : Encode Rollup where
  encode r := .object (
    member "severity_counts" r.levels ++
    member "spiciest" r.mostFindings ++
    member "scans_last_30_days" r.recent ++
    member "all_urls_count" r.allSites ++
    member "generated_at" r.generatedAt)

end Rollup

end ExtensionAudit

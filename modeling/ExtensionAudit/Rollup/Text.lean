import ExtensionAudit.Rollup
import ExtensionAudit.Text.Column

namespace ExtensionAudit.Rollup

/-- The levels in falling order, each with its number of records. -/
def levelRows (counts : LevelCounts) : List (String × Nat) :=
  [("Critical", counts.critical), ("High", counts.high), ("Medium", counts.medium),
    ("Low", counts.low), ("Minimal", counts.minimal)]

def levelLine : String × Nat → String
  | (label, count) => "  " ++ Text.padEnd 10 label ++ " " ++ Nat.repr count

def rowLine (row : RollupRow) : String :=
  "  " ++ Text.padStart 4 (Nat.repr row.findings) ++ "  " ++ row.id.text ++ "  " ++
    row.name.getD "-"

def tableLines (rows : List RollupRow) : List String :=
  if rows.isEmpty then [] else "" :: "  Most findings:" :: rows.map rowLine

def textLines (rollup : Rollup) : List String :=
  ["",
    "  " ++ Nat.repr rollup.levels.total ++ " stored result(s), " ++ Nat.repr rollup.recent ++
      " in the last 30 days",
    ""] ++
  (levelRows rollup.levels).map levelLine ++
  ["", "  Requesting <all_urls>: " ++ Nat.repr rollup.allSites] ++
  tableLines rollup.mostFindings ++ [""]

def text (rollup : Rollup) : String :=
  Text.ofLines rollup.textLines

end ExtensionAudit.Rollup

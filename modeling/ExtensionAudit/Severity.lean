import ExtensionAudit.Json.Decode
import ExtensionAudit.Text.Case

namespace ExtensionAudit

/-- How serious a finding is. `info` is a remark and never counts toward a verdict. -/
inductive Severity where
  | info
  | minimal
  | low
  | medium
  | high
  | critical
deriving DecidableEq, Repr

namespace Severity

def rank : Severity → Nat
  | info => 0
  | minimal => 1
  | low => 2
  | medium => 3
  | high => 4
  | critical => 5

instance : LE Severity := ⟨fun a b => a.rank ≤ b.rank⟩

instance : LT Severity := ⟨fun a b => a.rank < b.rank⟩

instance (a b : Severity) : Decidable (a ≤ b) := inferInstanceAs (Decidable (a.rank ≤ b.rank))

instance (a b : Severity) : Decidable (a < b) := inferInstanceAs (Decidable (a.rank < b.rank))

theorem le_iff {a b : Severity} : a ≤ b ↔ a.rank ≤ b.rank := Iff.rfl

theorem lt_iff {a b : Severity} : a < b ↔ a.rank < b.rank := Iff.rfl

def name : Severity → String
  | info => "Info"
  | minimal => "Minimal"
  | low => "Low"
  | medium => "Medium"
  | high => "High"
  | critical => "Critical"

/-- The words that people use for a severity, in lower case. -/
def words : List (String × Severity) :=
  [("info", info), ("minimal", minimal), ("none", minimal), ("low", low), ("medium", medium),
    ("med", medium), ("high", high), ("critical", critical), ("crit", critical)]

/-- Reads one of the words in any letter case, with blanks around it. -/
def ofWord? (word : String) : Option Severity :=
  words.lookup (String.ofList (Text.lower (Text.trim word.toList)))

/-- Reads a name as it is written in data: its first letter may also be small. -/
def ofName? : String → Option Severity
  | "Info" | "info" => some info
  | "Minimal" | "minimal" => some minimal
  | "Low" | "low" => some low
  | "Medium" | "medium" => some medium
  | "High" | "high" => some high
  | "Critical" | "critical" => some critical
  | _ => none

theorem ofName?_name (s : Severity) : ofName? s.name = some s := by
  cases s <;> rfl

instance : Json.Encode Severity := ⟨fun s => .string s.name⟩

/-- A name, or an object whose only member is the name with null. -/
instance : Json.Decode Severity where
  decode?
    | .string text => text.bind ofName?
    | .object [(key, .null)] => key.bind ofName?
    | _ => none

end Severity

end ExtensionAudit

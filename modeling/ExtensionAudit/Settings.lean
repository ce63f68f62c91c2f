import ExtensionAudit.Files.Basic
import ExtensionAudit.Policy
import ExtensionAudit.Store.Record
import ExtensionAudit.Text.Column
import ExtensionAudit.Toml.Reader

namespace ExtensionAudit

structure StoreSettings where
  directory : String := ".crxaudit/results"
  /-- The age up to which a forced scan still reuses a record. -/
  maxAgeHours : Int := 24
  topRows : Nat := 5
deriving DecidableEq

structure Settings where
  policy : Policy := {}
  store : StoreSettings := {}
deriving DecidableEq

namespace Toml

/-- The fields of a structure: those of a table by name, the items of an array in order. A date has
none of the fields. -/
def Node.fields? (names : List String) : Node → Option Members
  | .table _ members | .inline members => some members
  | .array items => some (names.zip items)
  | .tables elements => some (names.zip (elements.map (.table .declared)))
  | .dateTime => some []
  | _ => none

def Node.members? : Node → Option Members
  | .table _ members | .inline members => some members
  | _ => none

def Node.isEmpty : Node → Bool
  | .table _ [] | .inline [] | .array [] => true
  | _ => false

def Node.text? : Node → Option String
  | .string text => some text
  | _ => none

def Node.texts? : Node → Option (List String)
  | .array items => items.mapM Node.text?
  | _ => none

def Node.integer? : Node → Option Int
  | .integer n => some n
  | _ => none

def Node.natural? (node : Node) : Option Nat :=
  (node.integer?.filter (0 ≤ ·)).map Int.toNat

def field? {α : Type} (members : Members) (name : String) (default : α) (read : Node → Option α) :
    Option α :=
  match members.lookup name with
  | none => some default
  | some node => read node

end Toml

open Toml (Node field?)

/-- A severity by its name, or by a table whose only key is the name and leads to nothing. -/
def Severity.ofNode? (node : Node) : Option Severity :=
  match node.text?, node.members? with
  | some name, _ => ofName? name
  | none, some [(name, content)] => if content.isEmpty then ofName? name else none
  | none, _ => none

def Policy.overridesOfNode? (node : Node) : Option (List (String × Severity)) := do
  (← node.members?).mapM fun (rule, severity) => (Severity.ofNode? severity).map (rule, ·)

def Policy.ofNode? (node : Node) : Option Policy := do
  let given ← node.fields? Policy.fields
  return {
    failOn := ← field? given "fail_on" .high Severity.ofNode?
    ignoredRules := ← field? given "ignore_rules" TextSet.empty fun node =>
      node.texts?.map TextSet.ofList
    overrides := ← field? given "overrides" [] Policy.overridesOfNode? }

namespace StoreSettings

def fields : List String := ["dir", "max_age_hours", "top_n"]

def ofNode? (node : Node) : Option StoreSettings := do
  let given ← node.fields? fields
  let usual : StoreSettings := {}
  return {
    directory := ← field? given "dir" usual.directory Node.text?
    maxAgeHours := ← field? given "max_age_hours" usual.maxAgeHours Node.integer?
    topRows := ← field? given "top_n" usual.topRows Node.natural? }

/-- How long records stay fresh; nothing when that is too long for a span of time. -/
def freshness? (s : StoreSettings) : Option Freshness :=
  Freshness.ofHours? s.maxAgeHours

end StoreSettings

namespace Settings

/-- Where settings are looked for when no other file is named. -/
def usualPath : String := ".crxaudit.toml"

def ofRoot? (root : Toml.Members) : Option Settings := do
  return {
    policy := ← field? root "policy" {} Policy.ofNode?
    store := ← field? root "store" {} StoreSettings.ofNode? }

/-- Reads settings. An age must not be negative. -/
def ofText (text : String) : Except AuditError Settings :=
  match (Toml.rootOfText? text.toList).bind ofRoot? with
  | none => .error .brokenSettings
  | some settings =>
    if settings.store.maxAgeHours < 0 then .error (.negativeAge settings.store.maxAgeHours)
    else .ok settings

/-- The settings in a file, or the defaults if there is no such file. -/
def load {m : Type → Type} [Monad m] [MonadFiles m] (path : String) :
    ExceptT AuditError m Settings := do
  if ← (MonadFiles.pathExists path : m Bool) then
    match ofText (← Files.readText path) with
    | .ok settings => return settings
    | .error fault => throw fault
  else return {}

def starter : String := Text.ofLines [
  "# crxaudit configuration",
  "",
  "[policy]",
  "# Minimum verdict to fail the scan (minimal, low, medium, high, critical).",
  "fail_on = \"high\"",
  "",
  "# Rule IDs to ignore entirely.",
  "# ignore_rules = [\"CRX-006\"]",
  "",
  "# Per-rule severity overrides.",
  "# [policy.overrides]",
  "# \"CRX-004\" = \"low\"",
  "",
  "[store]",
  "dir = \".crxaudit/results\"",
  "# Forced rescans reuse results younger than this.",
  "max_age_hours = 24",
  "top_n = 5"]

end Settings

end ExtensionAudit

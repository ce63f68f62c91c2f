import ExtensionAudit.CommandLine.Command
import ExtensionAudit.Report.Format
import ExtensionAudit.Rollup.Text
import ExtensionAudit.Scan

namespace ExtensionAudit.CommandLine

structure Outcome where
  code : Nat
  output : String := ""
  /-- Lines for the reader beside the output. -/
  remarks : List String := []

namespace Outcome

def addRemarks (remarks : List String) (o : Outcome) : Outcome :=
  { o with remarks := remarks ++ o.remarks }

/-- The exit code of a program that stops at once. -/
def abortCode : Nat := 101

def failureCode : Nat := 2

def ofFailure : AuditError → Outcome
  | .spanOverflow => { code := abortCode }
  | fault => { code := failureCode, remarks := ["Error: " ++ fault.message] }

def ofResult : Except AuditError Outcome → Outcome
  | .ok o => o
  | .error fault => ofFailure fault

end Outcome

/-- What the world outside says: the time, and an identifier never given before. -/
structure Surroundings where
  now : Timestamp
  guid : String

def ruleLine (id name severity description : String) : String :=
  Text.padEnd 10 id ++ " " ++ Text.padEnd 36 name ++ " " ++ Text.padEnd 10 severity ++ " " ++
    description

def ruleTable (rules : List RuleInfo) : String :=
  Text.ofLines (ruleLine "ID" "NAME" "SEVERITY" "DESCRIPTION" ::
    String.ofList (List.replicate 90 '-') ::
    rules.map fun r => ruleLine r.id r.name r.defaultSeverity.name r.description)

def rules : List RuleInfo :=
  Rule.battery.map (·.info)

def listRules (format : String) : Outcome where
  code := 0
  output := if format = "json" then (Json.encode rules).prettyText ++ "\n" else ruleTable rules

variable {m : Type → Type} [Monad m] [MonadFiles m]

/-- Writes the starter settings, unless there are settings already. -/
def init (force : Bool) : ExceptT AuditError m Outcome := do
  let there ← (MonadFiles.pathExists Settings.usualPath : m Bool)
  if there && !force then
    return {
      code := 1
      remarks := [Settings.usualPath ++ " already exists. Use --force to overwrite."] }
  else
    Files.writeText Settings.usualPath Settings.starter
    return { code := 0, output := "Created " ++ Settings.usualPath ++ "\n" }

def stats (settingsPath : Option String) (format : String) (around : Surroundings) :
    ExceptT AuditError m Outcome := do
  let settings ← Settings.load (settingsPath.getD Settings.usualPath)
  let store : RecordStore := ⟨settings.store.directory⟩
  let records ← (store.all : m (List Record))
  match Rollup.ofRecords? records around.now settings.store.topRows with
  | none => throw .spanOverflow
  | some rollup =>
    return {
      code := 0
      output :=
        if format = "json" then (Json.encode rollup).prettyText ++ "\n" else rollup.text }

/-- The format that a word names, with a remark if it names none. -/
def formatOf (word : String) : ReportFormat × List String :=
  match ReportFormat.ofWord? word with
  | some format => (format, [])
  | none => (.text, ["Warning: unknown format '" ++ word ++ "', using console"])

/-- The threshold that a word names, with a remark if it names none. -/
def failOnOf (word : Option String) : Option Severity × List String :=
  match word with
  | none => (none, [])
  | some word =>
    match Severity.ofWord? word with
    | some severity => (some severity, [])
    | none => (none, ["Warning: unknown severity '" ++ word ++ "', using config default"])

def idOf (text : String) : Except AuditError ExtensionId :=
  (ExtensionId.ofText text).mapError .invalidId

/-- Scans a package and reports on it, on the output or into a file. The exit code is 1 when the
policy fails the package. -/
def scan (options : ScanOptions) (format : ReportFormat) (failOn : Option Severity)
    (around : Surroundings) : ExceptT AuditError m Outcome := do
  let id ← options.id.mapM fun text => (ExceptT.mk (pure (idOf text)) : ExceptT AuditError m _)
  let found ← Scan.run {
    path := options.path
    settingsPath := options.settings
    failOn
    detailsPath := options.details
    notePath := options.note
    id
    useStore := options.useStore
    force := options.force } around.now
  let text := found.report.render found.verdict format found.target around.guid
  let code := if found.verdict.passed then 0 else 1
  match options.output with
  | none => return { code, output := text }
  | some path =>
    Files.writeText path text
    return { code }

def Command.run (around : Surroundings) : Command → m Outcome
  | .version => return { code := 0, output := Tool.name ++ " " ++ Tool.version ++ "\n" }
  | .listRules format => return CommandLine.listRules format
  | .init force => return .ofResult (← (CommandLine.init force).run)
  | .stats settings format => return .ofResult (← (CommandLine.stats settings format around).run)
  | .scan options => do
    let (format, formatRemarks) := formatOf options.format
    let (failOn, failOnRemarks) := failOnOf options.failOn
    let outcome := Outcome.ofResult (← (CommandLine.scan options format failOn around).run)
    return outcome.addRemarks (formatRemarks ++ failOnRemarks)

def run (texts : List String) (around : Surroundings) : m Outcome :=
  match Command.ofTexts? texts with
  | none => return { code := Outcome.failureCode }
  | some command => command.run around

end ExtensionAudit.CommandLine

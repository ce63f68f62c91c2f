import ExtensionAudit.Settings
import ExtensionAudit.Store.Directory

namespace ExtensionAudit

structure ScanRequest where
  path : String
  settingsPath : Option String := none
  /-- A threshold in place of that of the settings. -/
  failOn : Option Severity := none
  detailsPath : Option String := none
  notePath : Option String := none
  id : Option ExtensionId := none
  useStore : Bool := false
  /-- Whether a record that is too old must not be served. -/
  force : Bool := false

structure ScanResult where
  target : String
  report : Report
  verdict : PolicyVerdict
  /-- Whether the report was made from a record. -/
  reused : Bool

namespace Scan

def targetName (path : String) : String :=
  (Path.fileName? path).getD "unknown"

/-- The settings with the threshold that was asked for. -/
def effectivePolicy (settings : Settings) (failOn : Option Severity) : Policy :=
  { settings.policy with failOn := failOn.getD settings.policy.failOn }

def result (path : String) (policy : Policy) (reused : Bool) (report : Report) : ScanResult where
  target := targetName path
  report
  verdict := report.judge policy
  reused

variable {m : Type → Type} [Monad m] [MonadFiles m]

def details (path : String) : ExceptT AuditError m StoreDetails := do
  match (Json.Syntax.ofText? (← Files.readText path).toList).bind Json.decode? with
  | some details => return details
  | none => throw .brokenDetails

/-- The note in a file; a blank one, or one that cannot be read, is none. -/
def note? (path : String) : m (Option String) := do
  return (← (Files.readText path).run).toOption.filter fun text =>
    !(Text.trim text.toList).isEmpty

/-- An advisor who has the note in a file ready. -/
def advisor (path : String) : m Advisor := do
  let note ← note? path
  return fun _ => note

def analyze (request : ScanRequest) (policy : Policy) :
    ExceptT AuditError m (Option StoreDetails × Report) := do
  let details ← request.detailsPath.mapM details
  let advisor ← request.notePath.mapM fun path => (advisor path : m Advisor)
  match Report.ofPackage policy advisor details (← Files.readBytes request.path) with
  | .ok report => return (details, report)
  | .error fault => throw (.package fault)

/-- A scan that keeps no records. -/
def withoutStore (request : ScanRequest) (policy : Policy) : ExceptT AuditError m ScanResult := do
  let (_, report) ← analyze request policy
  return result request.path policy false report

/-- A scan that serves the record of an extension, or makes a new one. -/
def withStore (request : ScanRequest) (settings : Settings) (policy : Policy) (id : ExtensionId)
    (now : Timestamp) : ExceptT AuditError m ScanResult := do
  let store : RecordStore := ⟨settings.store.directory⟩
  match settings.store.freshness? with
  | none => throw .spanOverflow
  | some freshness =>
    match ← store.lookup freshness id now request.force with
    | some record => return result request.path policy true (record.report policy)
    | none =>
      let (details, report) ← analyze request policy
      let _ ← store.put (.ofReport id report details now)
      return result request.path policy false report

/-- Serves the record on file if it may be served again; else analyzes the package and keeps a new
record. -/
def run (request : ScanRequest) (now : Timestamp) : ExceptT AuditError m ScanResult := do
  let settings ← Settings.load (request.settingsPath.getD Settings.usualPath)
  let policy := effectivePolicy settings request.failOn
  match request.useStore, request.id with
  | false, _ => withoutStore request policy
  | true, none => throw .missingId
  | true, some id => withStore request settings policy id now

end Scan

end ExtensionAudit

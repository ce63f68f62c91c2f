import ExtensionAudit.Proofs.Files.Inspection
import ExtensionAudit.Scan

namespace ExtensionAudit

/-- The paths that a scan is told to read. -/
def ScanRequest.paths (request : ScanRequest) : List String :=
  request.settingsPath.getD Settings.usualPath ::
    (request.detailsPath.toList ++ request.notePath.toList ++ [request.path])

namespace Inspects

variable {α β : Type} {paths : List String}

/-- What is looked up for an optional item, if it is there. -/
theorem mapM_run {action : α → ExceptT AuditError (StateM FileTree) β} {item? : Option α}
    (each : ∀ item ∈ item?, Inspects paths (action item).run) :
    Inspects paths (item?.mapM action).run := by
  cases item? with
  | none => exact pure_run none
  | some item => exact bind_run (each item rfl) fun found => pure_run (some found)

end Inspects

theorem Settings.inspects_load (path : String) :
    Inspects [path] (load path : ExceptT AuditError (StateM FileTree) Settings).run := by
  have listed : path ∈ [path] := List.mem_singleton_self path
  refine Inspects.bind_run (Inspects.lift_run (Inspects.pathExists listed)) fun found => ?_
  cases found with
  | false => exact Inspects.pure_run ({} : Settings)
  | true =>
    refine Inspects.bind_run (Inspects.readText listed) fun text => ?_
    cases ofText text with
    | ok settings => exact Inspects.pure_run settings
    | error fault => exact Inspects.throw_run fault

namespace Scan

variable {request : ScanRequest} {policy : Policy}

theorem inspects_details (path : String) :
    Inspects [path] (details path : ExceptT AuditError (StateM FileTree) StoreDetails).run := by
  refine Inspects.bind_run (Inspects.readText (List.mem_singleton_self path)) fun text => ?_
  cases ((Json.Syntax.ofText? text.toList).bind Json.decode? : Option StoreDetails) with
  | some page => exact Inspects.pure_run page
  | none => exact Inspects.throw_run .brokenDetails

theorem inspects_advisor (path : String) :
    Inspects [path] (advisor path : StateM FileTree Advisor) := by
  have note : Inspects [path] (note? path : StateM FileTree (Option String)) :=
    Inspects.bind (Inspects.readText (List.mem_singleton_self path)) fun _ => Inspects.pure _
  exact note.bind fun note => Inspects.pure fun _ => note

/-- An analysis reads the details, the note and the package. -/
theorem inspects_analyze (request : ScanRequest) (policy : Policy) :
    Inspects request.paths
      (analyze request policy : ExceptT AuditError (StateM FileTree) _).run := by
  have details : Inspects request.paths
      (request.detailsPath.mapM details : ExceptT AuditError (StateM FileTree) _).run := by
    refine Inspects.mapM_run fun path given => (inspects_details path).mono ?_
    simp [ScanRequest.paths, Option.mem_def.mp given]
  have advisor : Inspects request.paths (request.notePath.mapM fun path =>
      (advisor path : StateM FileTree Advisor) : ExceptT AuditError (StateM FileTree) _).run := by
    refine Inspects.mapM_run fun path given => Inspects.lift_run ((inspects_advisor path).mono ?_)
    simp [ScanRequest.paths, Option.mem_def.mp given]
  have package : Inspects request.paths
      (Files.readBytes request.path : ExceptT AuditError (StateM FileTree) ByteArray).run :=
    Inspects.readBytes (by simp [ScanRequest.paths])
  refine details.bind_run fun page => advisor.bind_run fun advise => package.bind_run fun raw => ?_
  cases Report.ofPackage policy advise page raw with
  | ok report => exact Inspects.pure_run (page, report)
  | error fault => exact Inspects.throw_run (.package fault)

theorem inspects_load (request : ScanRequest) :
    Inspects request.paths (Settings.load (request.settingsPath.getD Settings.usualPath) :
      ExceptT AuditError (StateM FileTree) Settings).run :=
  (Settings.inspects_load _).mono (by simp [ScanRequest.paths])

/-- A scan that keeps no records reads what it is told to and changes nothing. -/
theorem inspects_run (apart : request.useStore = false) (now : Timestamp) :
    Inspects request.paths
      (run request now : ExceptT AuditError (StateM FileTree) ScanResult).run := by
  refine (inspects_load request).bind_run fun settings => ?_
  rw [apart]
  exact (inspects_analyze request _).bind_run fun _ => Inspects.pure_run _

end Scan

end ExtensionAudit

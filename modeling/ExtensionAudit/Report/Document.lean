import ExtensionAudit.Report

namespace ExtensionAudit.Report

open Json

def document (report : Report) (judged : PolicyVerdict) (target : String) : Value :=
  .object (
    member "target" target ++
    member "sha256" report.digest ++
    member "manifest" report.manifest ++
    member "findings" report.assessment ++
    member "risk" report.risk ++
    member "policy" judged)

end ExtensionAudit.Report

import ExtensionAudit.Report
import ExtensionAudit.Rule.Battery
import ExtensionAudit.Tool

namespace ExtensionAudit

/-- The level that a severity has among results. -/
def Severity.sarifLevel : Severity → String
  | .critical | .high => "error"
  | .medium => "warning"
  | .low | .minimal | .info => "note"

namespace Report.Sarif

open Json

def schema : String :=
  "https://docs.oasis-open.org/sarif/sarif/v2.1.0/errata01/os/schemas/sarif-schema-2.1.0.json"

def message (text : String) : Value :=
  .object (member "text" text)

def configuration (level : String) : Value :=
  .object (member "level" level)

def descriptor (rule : RuleInfo) : Value :=
  .object (
    member "id" rule.id ++
    member "name" rule.name ++
    member "shortDescription" (message rule.name) ++
    member "fullDescription" (message rule.description) ++
    member "defaultConfiguration" (configuration rule.defaultSeverity.sarifLevel))

/-- What is said about notes, which no rule makes. -/
def noteDescriptor : Value :=
  .object (
    member "id" noteRuleId ++
    member "name" noteTitle ++
    member "shortDescription" (message noteTitle) ++
    member "defaultConfiguration" (configuration Severity.info.sarifLevel))

def descriptors (a : Assessment) : List Value :=
  Rule.battery.map (fun rule => descriptor rule.info) ++
    if a.note?.isSome then [noteDescriptor] else []

/-- Every result is located at the manifest. -/
def location : Value :=
  .object (member "physicalLocation"
    (Value.object (member "artifactLocation" (Value.object (member "uri" Manifest.path)))))

def result (f : Finding) : Value :=
  .object (
    member "ruleId" f.ruleId ++
    member "level" f.severity.sarifLevel ++
    member "message" (message (f.title ++ ": " ++ f.description)) ++
    member "locations" [location] ++
    member "properties" (Value.object (member "severity" f.severity)))

def driver (a : Assessment) : Value :=
  .object (
    member "name" Tool.name ++
    member "version" Tool.version ++
    member "semanticVersion" Tool.version ++
    member "rules" (descriptors a))

def verdict (v : Verdict) : Value :=
  .object (
    member "severity" v.severity ++
    member "title" v.title ++
    member "description" v.description ++
    member "high" v.high ++
    member "medium" v.medium ++
    member "total" v.total)

/-- The one run of a report; `guid` tells it from all other runs. -/
def run (report : Report) (target guid : String) : Value :=
  .object (
    member "tool" (Value.object (member "driver" (driver report.assessment))) ++
    member "results" (report.assessment.findings.map result) ++
    member "automationDetails"
      (Value.object (member "id" (Tool.name ++ "/" ++ target) ++ member "guid" guid)) ++
    member "properties"
      (Value.object (
        member "verdict" (verdict report.assessment.verdict) ++
        member "advisoryLevel" report.risk.advised ++
        member "sha256" report.digest)))

end Report.Sarif

open Json in
def Report.sarif (report : Report) (target guid : String) : Value :=
  .object (
    member "$schema" Report.Sarif.schema ++
    member "version" "2.1.0" ++
    member "runs" [Report.Sarif.run report target guid])

end ExtensionAudit

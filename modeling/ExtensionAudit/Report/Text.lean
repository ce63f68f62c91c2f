import ExtensionAudit.Report
import ExtensionAudit.Text.Column

namespace ExtensionAudit.Report

/-- The tag of a severity; all tags have one width. -/
def severityTag : Severity → String
  | .critical => "[CRITICAL]"
  | .high => "[HIGH]    "
  | .medium => "[MEDIUM]  "
  | .low => "[LOW]     "
  | .minimal => "[MINIMAL] "
  | .info => "[INFO]    "

/-- Text that belongs to the line above it is set in. -/
def inset : String := Text.blanks 13

def findingLines (f : Finding) : List String :=
  ("  " ++ severityTag f.severity ++ " " ++ f.ruleId ++ " " ++ f.title) ::
    (Text.lines f.description.toList).map (fun line => inset ++ String.ofList line) ++ [""]

/-- The findings, or the remark that there are none. -/
def bodyLines (a : Assessment) : List String :=
  if a.findings.isEmpty then ["  No security findings detected.", ""]
  else
    ["  " ++ Nat.repr a.findings.length ++ " finding(s) detected:", ""] ++
      a.findings.flatMap findingLines

/-- The level of risk; both levels where the advised one and the verdict differ. -/
def riskLine (r : Risk) : String :=
  if r.disagrees then
    "  Risk level: " ++ r.shownLevel ++ " / " ++ r.verdict.name ++ " (advisory / computed)"
  else "  Risk level: " ++ r.shownLevel

def resultLine (judged : PolicyVerdict) : String :=
  "  Result: " ++ (if judged.passed then "PASS" else "FAIL") ++
    " (threshold: " ++ judged.threshold.name ++ ", verdict: " ++ judged.verdict.name ++ ")"

/-- The findings that the policy dropped, if any. -/
def ignoredLines (judged : PolicyVerdict) : List String :=
  if judged.ignoredFindings = 0 then []
  else ["  " ++ Nat.repr judged.ignoredFindings ++ " finding(s) ignored by policy"]

def textLines (report : Report) (judged : PolicyVerdict) : List String :=
  let overall := report.assessment.verdict
  ["",
    "  " ++ severityTag overall.severity ++ " " ++ overall.title,
    inset ++ overall.description,
    "",
    "  " ++ report.manifest.name.getD "(unnamed)" ++ " " ++ report.manifest.version.getD "?" ++
      " (manifest v" ++ Int.repr report.manifest.formatVersion.toInt ++ ")",
    "  sha256 " ++ report.digest,
    ""] ++
  bodyLines report.assessment ++
  ["  Embedded URLs: " ++ Nat.repr report.manifest.embeddedUrls.size,
    riskLine report.risk,
    resultLine judged] ++
  ignoredLines judged ++ [""]

def text (report : Report) (judged : PolicyVerdict) : String :=
  Text.ofLines (report.textLines judged)

end ExtensionAudit.Report

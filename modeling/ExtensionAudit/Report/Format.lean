import ExtensionAudit.Report.Document
import ExtensionAudit.Report.Sarif
import ExtensionAudit.Report.Text
import ExtensionAudit.Text.Case

namespace ExtensionAudit

inductive ReportFormat where
  | text
  | json
  | sarif
deriving DecidableEq, Repr

namespace ReportFormat

/-- The words for a format, in lower case; the first for each is its name. -/
def words : List (String × ReportFormat) :=
  [("console", text), ("text", text), ("json", json), ("sarif", sarif)]

def ofWord? (word : String) : Option ReportFormat :=
  words.lookup (String.ofList (Text.lower word.toList))

def name : ReportFormat → String
  | text => "console"
  | json => "json"
  | sarif => "sarif"

end ReportFormat

def Report.render (report : Report) (judged : PolicyVerdict) (format : ReportFormat)
    (target guid : String) : String :=
  match format with
  | .text => report.text judged
  | .json => (report.document judged target).prettyText
  | .sarif => (report.sarif target guid).prettyText

end ExtensionAudit

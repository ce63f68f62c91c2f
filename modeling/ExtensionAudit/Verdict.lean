import ExtensionAudit.Finding

namespace ExtensionAudit

/-- The severity that the numbers of high and medium findings amount to. -/
def Severity.ofCounts (high medium : Nat) : Severity :=
  if 3 < high then .critical
  else if 1 < high then .high
  else if 1 < medium || 0 < high then .medium
  else if 0 < medium then .low
  else .minimal

/-- A verdict: the severity, the numbers of high and medium findings, and the number of all findings
that are more than remarks. -/
structure Verdict where
  severity : Severity
  high : UInt64
  medium : UInt64
  total : UInt64
deriving DecidableEq, Repr

def countSeverity (severity : Severity) (findings : List Finding) : Nat :=
  findings.countP (·.severity == severity)

namespace Verdict

def ofFindings (findings : List Finding) : Verdict :=
  let high := countSeverity .high findings
  let medium := countSeverity .medium findings
  { severity := .ofCounts high medium
    high := .ofNat high
    medium := .ofNat medium
    total := .ofNat (findings.countP (·.severity != .info)) }

def title (v : Verdict) : String :=
  "Overall Risk: " ++ v.severity.name

def description (v : Verdict) : String :=
  "Based on " ++ Nat.repr v.total.toNat ++
    " total findings, ranked without considering overall context, including " ++
    Nat.repr v.high.toNat ++ " high-risk and " ++ Nat.repr v.medium.toNat ++
    " medium-risk findings."

def finding (v : Verdict) : Finding where
  ruleId := "OVERALL"
  severity := v.severity
  title := v.title
  description := v.description

open Json

def fields : List String := ["severity", "high", "medium", "total"]

instance : Encode Verdict where
  encode v := .object (member "severity" v.severity ++ member "high" v.high ++
    member "medium" v.medium ++ member "total" v.total)

instance : Decode Verdict where
  decode? tree := do
    let given ← Fields.ofSyntax? fields tree
    return {
      severity := ← given.required "severity"
      high := ← given.required "high"
      medium := ← given.required "medium"
      total := ← given.required "total" }

end Verdict

/-- The rule id and the title of a note. -/
def noteRuleId : String := "ADVISORY"

def noteTitle : String := "AI Context Analysis"

def noteFinding (text : String) : Finding where
  ruleId := noteRuleId
  severity := .info
  title := noteTitle
  description := text

/-- Findings in order, notes last, with the verdict on the findings. -/
structure Assessment where
  verdict : Verdict
  findings : List Finding
deriving DecidableEq

namespace Assessment

def ofFindings (findings : List Finding) : Assessment :=
  { verdict := .ofFindings findings, findings }

/-- Adds a note. The verdict stays as it is. -/
def addNote (a : Assessment) (text : String) : Assessment :=
  { a with findings := a.findings ++ [noteFinding text] }

/-- The first note: the first remark with the title of a note. -/
def note? (a : Assessment) : Option Finding :=
  a.findings.find? fun f => f.severity == .info && f.title == noteTitle

def flat (a : Assessment) : List Finding :=
  a.verdict.finding :: a.findings

open Json

instance : Encode Assessment where
  encode a := .object (member "verdict" a.verdict ++ member "findings" a.findings)

instance : Decode Assessment where
  decode? tree := do
    let given ← Fields.ofSyntax? ["verdict", "findings"] tree
    return { verdict := ← given.required "verdict", findings := ← given.required "findings" }

end Assessment

end ExtensionAudit

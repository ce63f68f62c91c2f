import ExtensionAudit.Verdict

namespace ExtensionAudit

/-- Which rules count, how severe their findings are, and from which verdict on a scan fails. -/
structure Policy where
  /-- The least verdict that fails a scan. -/
  failOn : Severity := .high
  ignoredRules : TextSet := TextSet.empty
  /-- The severity that the findings of a rule get. -/
  overrides : List (String × Severity) := []
deriving DecidableEq

structure PolicyVerdict where
  passed : Bool
  verdict : Severity
  threshold : Severity
  ignoredFindings : Nat
deriving DecidableEq

namespace Policy

def ignores (policy : Policy) (f : Finding) : Bool :=
  decide (f.ruleId ∈ policy.ignoredRules)

def regrade (policy : Policy) (f : Finding) : Finding :=
  match policy.overrides.lookup f.ruleId with
  | some severity => { f with severity }
  | none => f

/-- The findings that count, with the severities that count. -/
def apply (policy : Policy) (findings : List Finding) : List Finding :=
  (findings.filter fun f => !policy.ignores f).map policy.regrade

def ignoredCount (policy : Policy) (findings : List Finding) : Nat :=
  findings.countP policy.ignores

def judge (policy : Policy) (a : Assessment) (ignored : Nat) : PolicyVerdict where
  passed := a.verdict.severity < policy.failOn
  verdict := a.verdict.severity
  threshold := policy.failOn
  ignoredFindings := ignored

open Json

def fields : List String := ["fail_on", "ignore_rules", "overrides"]

def overrides? : Syntax → Option (List (String × Severity))
  | .object members => members.mapM fun (key, tree) => do return (← key, ← decode? tree)
  | _ => none

instance : Encode Policy where
  encode p := .object (member "fail_on" p.failOn ++ member "ignore_rules" p.ignoredRules ++
    [("overrides", .object (p.overrides.map fun (rule, severity) => (rule, encode severity)))])

instance : Decode Policy where
  decode? tree := do
    let given ← Fields.ofSyntax? fields tree
    return {
      failOn := ← given.orElse "fail_on" .high
      ignoredRules := ← given.orElse "ignore_rules" TextSet.empty
      overrides := ← match given.given.lookup "overrides" with
        | none => some []
        | some tree => overrides? tree }

end Policy

open Json in
instance : Encode PolicyVerdict where
  encode v := .object (member "pass" v.passed ++ member "verdict" v.verdict ++
    member "fail_threshold" v.threshold ++ member "ignored_findings" v.ignoredFindings)

end ExtensionAudit

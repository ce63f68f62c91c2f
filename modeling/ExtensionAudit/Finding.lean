import ExtensionAudit.Severity

namespace ExtensionAudit

/-- What a rule, the aggregate or an advisor says about a package. -/
structure Finding where
  ruleId : String
  severity : Severity
  title : String
  description : String
deriving DecidableEq, Repr

namespace Finding

def fields : List String := ["rule_id", "severity", "title", "description"]

open Json in
instance : Encode Finding where
  encode f := .object (member "rule_id" f.ruleId ++ member "severity" f.severity ++
    member "title" f.title ++ member "description" f.description)

open Json in
instance : Decode Finding where
  decode? tree := do
    let given ← Fields.ofSyntax? fields tree
    return {
      ruleId := ← given.required "rule_id"
      severity := ← given.required "severity"
      title := ← given.required "title"
      description := ← given.required "description" }

end Finding

end ExtensionAudit

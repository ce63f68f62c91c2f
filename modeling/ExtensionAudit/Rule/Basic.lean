import ExtensionAudit.Finding
import ExtensionAudit.Manifest.Basic
import ExtensionAudit.StoreDetails

namespace ExtensionAudit

/-- Everything that a rule may look at. -/
structure Target where
  manifest : Manifest
  details : Option StoreDetails := none

structure RuleInfo where
  id : String
  name : String
  description : String
  defaultSeverity : Severity
deriving DecidableEq, Repr

structure Rule where
  info : RuleInfo
  findings : Target → List Finding

open Json in
instance : Encode RuleInfo where
  encode r := .object (member "id" r.id ++ member "name" r.name ++
    member "description" r.description ++ member "default_severity" r.defaultSeverity)

end ExtensionAudit

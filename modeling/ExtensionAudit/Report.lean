import ExtensionAudit.Advice
import ExtensionAudit.Digest
import ExtensionAudit.Manifest.Package
import ExtensionAudit.Policy
import ExtensionAudit.Rule.Battery

namespace ExtensionAudit

/-- What is said of a package: its manifest, the findings under a policy with their verdict, a note
if an advisor gave one, and the digest of the package. -/
structure Report where
  manifest : Manifest
  assessment : Assessment
  risk : Risk
  digest : String
  ignoredFindings : Nat
deriving DecidableEq

namespace Report

/-- The findings that a policy leaves of those on a target, with their verdict. -/
def assess (policy : Policy) (target : Target) : Assessment :=
  .ofFindings (policy.apply (Rule.evaluate target))

/-- The note of an advisor on a target, if there is an advisor and it answers. -/
def note? (advisor : Option Advisor) (target : Target) (a : Assessment) : Option String :=
  match advisor with
  | none => none
  | some advise => advise (Advice.prompt target.manifest target.details a)

/-- The assessment with the note at its end, if there is one. -/
def withNote (a : Assessment) : Option String → Assessment
  | none => a
  | some text => a.addNote text

def make (policy : Policy) (target : Target) (note : Option String) (digest : String) : Report :=
  let assessment := withNote (assess policy target) note
  { manifest := target.manifest
    assessment
    risk := .ofAssessment assessment
    digest
    ignoredFindings := policy.ignoredCount (Rule.evaluate target) }

/-- The report on a package. An advisor that does not answer is no failure. -/
def ofPackage (policy : Policy) (advisor : Option Advisor) (details : Option StoreDetails)
    (raw : ByteArray) : Except PackageError Report :=
  match Manifest.ofPackage raw with
  | .error fault => .error fault
  | .ok manifest =>
    let target : Target := { manifest, details }
    .ok (make policy target (note? advisor target (assess policy target)) (Digest.hex raw))

def judge (report : Report) (policy : Policy) : PolicyVerdict :=
  policy.judge report.assessment report.ignoredFindings

open Json in
instance : Encode Report where
  encode r := .object (
    member "manifest" r.manifest ++
    member "findings" r.assessment ++
    member "risk" r.risk ++
    member "sha256" r.digest ++
    member "ignored_findings" r.ignoredFindings)

end Report

end ExtensionAudit

import ExtensionAudit.Report
import ExtensionAudit.Store.ExtensionId
import ExtensionAudit.Time.Text

namespace ExtensionAudit

open Json in
instance : Encode Timestamp := ⟨fun t => .string t.text⟩

open Json in
instance : Decode Timestamp where
  decode? tree := do Timestamp.ofText? (← decode? tree)

/-- A report that is kept under the id of an extension. -/
structure Record where
  id : ExtensionId
  name : Option String
  image : Option String
  manifest : Manifest
  details : StoreDetails
  assessment : Assessment
  risk : Risk
  digest : String
  createdAt : Timestamp
  updatedAt : Timestamp
deriving DecidableEq

namespace Record

def ofReport (id : ExtensionId) (report : Report) (details : Option StoreDetails)
    (now : Timestamp) : Record :=
  let page := details.getD {}
  { id
    name := page.name <|> report.manifest.name
    image := page.image
    manifest := report.manifest
    details := page
    assessment := report.assessment
    risk := report.risk
    digest := report.digest
    createdAt := now
    updatedAt := now }

/-- The report that a policy makes of the manifest on record. The note on record is kept. -/
def report (record : Record) (policy : Policy) : Report :=
  Report.make policy { manifest := record.manifest, details := some record.details }
    (record.assessment.note?.map (·.description)) record.digest

open Json

def fields : List String :=
  ["extension_id", "extension_name", "extension_image", "manifest", "extension_details",
    "security_findings", "risk", "sha256", "created_at", "updated_at"]

instance : Encode Record where
  encode r := .object (
    member "extension_id" r.id ++
    memberIfSome "extension_name" r.name ++
    memberIfSome "extension_image" r.image ++
    member "manifest" r.manifest ++
    member "extension_details" r.details ++
    member "security_findings" r.assessment ++
    member "risk" r.risk ++
    member "sha256" r.digest ++
    member "created_at" r.createdAt ++
    member "updated_at" r.updatedAt)

instance : Decode Record where
  decode? tree := do
    let given ← Fields.ofSyntax? fields tree
    return {
      id := ← given.required "extension_id"
      name := ← given.optional "extension_name"
      image := ← given.optional "extension_image"
      manifest := ← given.required "manifest"
      details := ← given.orElse "extension_details" {}
      assessment := ← given.required "security_findings"
      risk := ← given.required "risk"
      digest := ← given.required "sha256"
      createdAt := ← given.required "created_at"
      updatedAt := ← given.required "updated_at" }

def age (record : Record) (now : Timestamp) : Int :=
  now.nanosSince record.updatedAt

end Record

/-- How long a record stays fresh, in nanoseconds. -/
structure Freshness where
  maxAge : Int
deriving DecidableEq

namespace Freshness

def nanosPerHour : Int := 3600 * nanosPerSecond

/-- The most hours that a span of time can have: as many as have milliseconds of 64 bits. -/
def mostHours : Int := 2562047788015

def ofHours? (hours : Int) : Option Freshness :=
  if -mostHours ≤ hours ∧ hours ≤ mostHours then some ⟨hours * nanosPerHour⟩ else none

def usual : Freshness := ⟨24 * nanosPerHour⟩

/-- A record is served again unless a new one is forced and it is too old. -/
def reuses (freshness : Freshness) (record : Record) (now : Timestamp) (force : Bool) : Bool :=
  !(force && freshness.maxAge < record.age now)

end Freshness

end ExtensionAudit

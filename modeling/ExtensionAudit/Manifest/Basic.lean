import ExtensionAudit.Json.Decode

namespace ExtensionAudit

/-- Files that run in the pages that match. -/
structure ContentScript where
  patterns : List String
  scripts : List String
deriving DecidableEq

structure Background where
  serviceWorker : Option String
  scripts : List String
deriving DecidableEq

/-- The manifest of an extension in normal form: every list is present, and the URLs that were found
in the package are attached. -/
structure Manifest where
  /-- The declared version of the format as a number; zero if there is none. -/
  formatVersion : Int64
  /-- The same version as it was written. -/
  declaredVersion : Option String
  name : Option String
  version : Option String
  description : Option String
  permissions : List String
  optionalPermissions : List String
  hostPermissions : List String
  contentScripts : Option (List ContentScript)
  contentSecurityPolicy : List String
  embeddedUrls : TextSet
  background : Option Background
  webAccessibleResources : List String
deriving DecidableEq

open Json

instance : Encode ContentScript where
  encode s := .object (member "matches" s.patterns ++ member "js" s.scripts)

instance : Decode ContentScript where
  decode? tree := do
    let given ← Fields.ofSyntax? ["matches", "js"] tree
    return { patterns := ← given.orElse "matches" [], scripts := ← given.orElse "js" [] }

/-- The service worker, or else the scripts with commas between them. -/
def Background.summary (b : Background) : String :=
  match b.serviceWorker with
  | some worker => worker
  | none => ", ".intercalate b.scripts

instance : Encode Background where
  encode b := .object (memberIfSome "service_worker" b.serviceWorker ++ member "scripts" b.scripts)

instance : Decode Background where
  decode? tree := do
    let given ← Fields.ofSyntax? ["service_worker", "scripts"] tree
    return {
      serviceWorker := ← given.optional "service_worker"
      scripts := ← given.orElse "scripts" [] }

namespace Manifest

def fields : List String :=
  ["manifest_version", "declared_version", "name", "version", "description", "permissions",
    "optional_permissions", "host_permissions", "content_scripts", "content_security_policy",
    "embedded_urls", "background", "web_accessible_resources"]

/-- The content scripts are written as null when there are none; other absent members are left
out. -/
instance : Encode Manifest where
  encode m := .object (
    member "manifest_version" m.formatVersion ++
    memberIfSome "declared_version" m.declaredVersion ++
    memberIfSome "name" m.name ++
    memberIfSome "version" m.version ++
    memberIfSome "description" m.description ++
    member "permissions" m.permissions ++
    member "optional_permissions" m.optionalPermissions ++
    member "host_permissions" m.hostPermissions ++
    member "content_scripts" m.contentScripts ++
    member "content_security_policy" m.contentSecurityPolicy ++
    member "embedded_urls" m.embeddedUrls ++
    memberIfSome "background" m.background ++
    member "web_accessible_resources" m.webAccessibleResources)

instance : Decode Manifest where
  decode? tree := do
    let given ← Fields.ofSyntax? fields tree
    return {
      formatVersion := ← given.orElse "manifest_version" 0
      declaredVersion := ← given.optional "declared_version"
      name := ← given.optional "name"
      version := ← given.optional "version"
      description := ← given.optional "description"
      permissions := ← given.orElse "permissions" []
      optionalPermissions := ← given.orElse "optional_permissions" []
      hostPermissions := ← given.orElse "host_permissions" []
      contentScripts := ← given.optional "content_scripts"
      contentSecurityPolicy := ← given.orElse "content_security_policy" []
      embeddedUrls := ← given.orElse "embedded_urls" TextSet.empty
      background := ← given.optional "background"
      webAccessibleResources := ← given.orElse "web_accessible_resources" [] }

end Manifest

end ExtensionAudit

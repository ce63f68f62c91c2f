import ExtensionAudit.Manifest.Basic
import ExtensionAudit.Text.Blank

namespace ExtensionAudit

-- Powers are those of the core library, whatever else is imported.
attribute [local instance (high)] instPowNat

inductive ManifestError where
  | missing
  | malformed
  | notAnObject
deriving DecidableEq, Repr

namespace ManifestError

def message : ManifestError → String
  | missing => "manifest.json not found in extension"
  | malformed => "Invalid manifest JSON"
  | notAnObject => "Invalid manifest JSON: manifest root is not a JSON object"

end ManifestError

namespace Manifest

open Json (Value Number)

def clampWord (n : Int) : Int64 :=
  Int64.ofInt (max (-2 ^ (63 : Nat)) (min n (2 ^ (63 : Nat) - 1)))

/-- The number that the digits at the start of a text denote, after blanks and a sign. Digits that
denote no integer of 64 bits count as zero, as do missing ones. -/
def leadingInteger (cs : List Char) : Int64 :=
  let size (ds : List Char) : Int :=
    let n := Json.digitsValue (ds.takeWhile Char.isDigit)
    if n < 2 ^ (63 : Nat) then n else 0
  match Text.trimStart cs with
  | '-' :: ds => Int64.ofInt (-(size ds))
  | '+' :: ds => Int64.ofInt (size ds)
  | ds => Int64.ofInt (size ds)

/-- The version of the format: an integer, the integer part of a number, or the number at the start
of a text. Everything else is zero. -/
def formatVersionOf : Value → Int64
  | .number (.int n) => clampWord n
  | .number (.double d) => clampWord d.truncate
  | .string text => leadingInteger text.toList
  | _ => 0

/-- A string as it is, any other value but null as compact JSON. -/
def displayText? : Value → Option String
  | .string text => some text
  | .null => none
  | value => some value.compactText

def string? : Value → Option String
  | .string text => some text
  | _ => none

def members? : Value → Option (List (String × Value))
  | .object members => some members
  | _ => none

/-- The strings of an array; other items are passed over. -/
def stringsOf : Option Value → List String
  | some (.array items) => items.filterMap string?
  | _ => []

/-- The objects of an array as content scripts. -/
def contentScriptsOf? : Value → Option (List ContentScript)
  | .array items => some <| (items.filterMap members?).map fun script =>
      { patterns := stringsOf (script.lookup "matches")
        scripts := stringsOf (script.lookup "js") }
  | _ => none

/-- A member of a structured policy as one directive. -/
def directive (name : String) : Value → String
  | .string text => name ++ ": " ++ text
  | value => name ++ ": " ++ value.compactText

/-- A structured policy has a directive for each member, in authored order; any other policy is one
directive. -/
def directivesOf : Option Value → List String
  | none | some .null | some (.bool false) => []
  | some (.object members) => members.map fun (name, value) => directive name value
  | some (.string text) => [text]
  | some value => [value.compactText]

def backgroundOf? : Value → Option Background
  | .object members => some
      { serviceWorker := (members.lookup "service_worker").bind string?
        scripts := stringsOf (members.lookup "scripts") }
  | _ => none

/-- A web accessible resource is a path, or a group of paths. -/
def resourcePaths : Value → List String
  | .string path => [path]
  | .object group => stringsOf (group.lookup "resources")
  | _ => []

def resourcesOf : Option Value → List String
  | some (.array items) => items.flatMap resourcePaths
  | _ => []

/-- The normal form of the members of a manifest, without embedded URLs. -/
def ofMembers (root : List (String × Value)) : Manifest where
  formatVersion := ((root.lookup "manifest_version").map formatVersionOf).getD 0
  declaredVersion := (root.lookup "manifest_version").bind displayText?
  name := (root.lookup "name").bind displayText?
  version := (root.lookup "version").bind displayText?
  description := (root.lookup "description").bind displayText?
  permissions := stringsOf (root.lookup "permissions")
  optionalPermissions := stringsOf (root.lookup "optional_permissions")
  hostPermissions := stringsOf (root.lookup "host_permissions")
  contentScripts := (root.lookup "content_scripts").bind contentScriptsOf?
  contentSecurityPolicy := directivesOf (root.lookup "content_security_policy")
  embeddedUrls := TextSet.empty
  background := (root.lookup "background").bind backgroundOf?
  webAccessibleResources := resourcesOf (root.lookup "web_accessible_resources")

/-- A byte order mark at the start is no part of the text. -/
def dropMark : List Char → List Char
  | '\uFEFF' :: cs => cs
  | cs => cs

/-- Members of an unexpected shape count as absent, so that only a text which is no JSON object is
refused. -/
def ofBytes (bytes : ByteArray) : Except ManifestError Manifest :=
  match (String.fromUTF8? bytes).bind fun text => Value.ofText? (dropMark text.toList) with
  | none => .error .malformed
  | some (.object root) => .ok (ofMembers root)
  | some _ => .error .notAnObject

end Manifest

end ExtensionAudit

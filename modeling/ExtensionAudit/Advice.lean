import ExtensionAudit.Manifest.Basic
import ExtensionAudit.StoreDetails
import ExtensionAudit.Url
import ExtensionAudit.Verdict
import ExtensionAudit.Text.Lines

namespace ExtensionAudit

/-- Someone who may answer a prompt with a note. -/
def Advisor : Type := String → Option String

/-- The verdict of the rules, and the level that a note names. -/
structure Risk where
  verdict : Severity
  advised : Option String
deriving DecidableEq

namespace Risk

def levelMark : List Char := "Risk Level:".toList

/-- The text after the mark on the first line of a note, without the blanks around it. -/
def levelOfNote? (note : String) : Option String :=
  match Text.lines note.toList with
  | [] => none
  | first :: _ =>
    if levelMark.isPrefixOf first then
      match Text.trim (first.drop levelMark.length) with
      | [] => none
      | level => some (String.ofList level)
    else none

def ofAssessment (a : Assessment) : Risk where
  verdict := a.verdict.severity
  advised := a.note?.bind fun f => levelOfNote? f.description

def advisedSeverity? (r : Risk) : Option Severity :=
  r.advised.bind Severity.ofWord?

/-- The level to show: the advised one as a word with a capital, else the verdict. -/
def shownLevel (r : Risk) : String :=
  match r.advised with
  | some level => String.ofList (Text.capitalize level.toList)
  | none => r.verdict.name

def disagrees (r : Risk) : Bool :=
  match r.advisedSeverity? with
  | some severity => severity != r.verdict
  | none => false

open Json

instance : Encode Risk where
  encode r := .object (member "verdict" r.verdict ++ memberIfSome "advisory_level" r.advised)

instance : Decode Risk where
  decode? tree := do
    let given ← Fields.ofSyntax? ["verdict", "advisory_level"] tree
    return {
      verdict := ← given.required "verdict"
      advised := ← given.optional "advisory_level" }

end Risk

namespace Advice

def orEmpty (text : Option String) : String := text.getD ""

/-- A finding as the prompt shows it, addresses in its description redacted. -/
def promptFinding (f : Finding) : String :=
  f.severity.name ++ ": " ++ f.title ++ "\n" ++ Url.redact f.description

def scriptPatterns (m : Manifest) : String :=
  "; ".intercalate ((m.contentScripts.getD []).map fun s => ", ".intercalate s.patterns)

/-- What an advisor gets to read: the extension, its technical details and the findings so far. -/
def prompt (m : Manifest) (details : Option StoreDetails) (a : Assessment) : String :=
  let page := details.getD {}
  "Analyze this Chrome extension:\n\n" ++
  "Extension Details:\n" ++
  "Name: " ++ orEmpty (page.name <|> m.name) ++ "\n" ++
  "Version: " ++ orEmpty m.version ++ "\n" ++
  "Description: " ++ orEmpty m.description ++ "\n" ++
  "Manifest Version: " ++ Int.repr m.formatVersion.toInt ++ "\n" ++
  "Size: " ++ orEmpty page.size ++ "\n" ++
  "Users: " ++ orEmpty page.users ++ "\n" ++
  "Last Updated: " ++ orEmpty page.lastUpdated ++ "\n" ++
  "Rating: " ++ orEmpty page.rating ++ " (" ++ orEmpty page.ratingCount ++ " reviews)\n" ++
  "Author: " ++ orEmpty page.author ++ "\n" ++
  "Developer Info: " ++ orEmpty page.developerInfo ++ "\n\n" ++
  "Technical Details:\n" ++
  "Permissions: " ++ ", ".intercalate m.permissions ++ "\n" ++
  "Host Permissions: " ++ ", ".intercalate m.hostPermissions ++ "\n" ++
  "Content Scripts: " ++ scriptPatterns m ++ "\n" ++
  "Background Scripts: " ++ orEmpty (m.background.map Background.summary) ++ "\n" ++
  "Web Accessible Resources: " ++ ", ".intercalate m.webAccessibleResources ++ "\n" ++
  "CSP: " ++ "; ".intercalate m.contentSecurityPolicy ++ "\n\n" ++
  "Security Findings:\n" ++
  "\n\n".intercalate (a.flat.map promptFinding) ++ "\n"

end Advice

end ExtensionAudit

import ExtensionAudit.CommandLine.Arguments

namespace ExtensionAudit.CommandLine

structure ScanOptions where
  path : String
  id : Option String
  details : Option String
  note : Option String
  settings : Option String
  format : String
  failOn : Option String
  output : Option String
  useStore : Bool
  force : Bool

inductive Command where
  | version
  | scan (options : ScanOptions)
  | listRules (format : String)
  | init (force : Bool)
  | stats (settings : Option String) (format : String)

namespace Command

def idOption : OptionInfo := { name := "id" }

def detailsOption : OptionInfo := { name := "metadata" }

def noteOption : OptionInfo := { name := "advisory-file" }

def settingsOption : OptionInfo := { name := "config", letter := some 'c' }

def formatOption : OptionInfo := { name := "format", letter := some 'f' }

def failOnOption : OptionInfo := { name := "fail-on" }

def outputOption : OptionInfo := { name := "output", letter := some 'o' }

def storeFlag : OptionInfo := { name := "store", hasValue := false }

def forceFlag : OptionInfo := { name := "force", hasValue := false }

/-- The value of an option that names a file: it must not be empty. -/
def pathValue? (a : Arguments) (info : OptionInfo) : Option (Option String) :=
  match a.value? info.name with
  | some "" => none
  | value => some value

def scan? (a : Arguments) : Option Command := do
  let path ← match a.words with
    | [path] => if path.isEmpty then none else some path
    | _ => none
  return .scan {
    path
    id := a.value? idOption.name
    details := ← pathValue? a detailsOption
    note := ← pathValue? a noteOption
    settings := ← pathValue? a settingsOption
    format := (a.value? formatOption.name).getD "console"
    failOn := a.value? failOnOption.name
    output := ← pathValue? a outputOption
    useStore := a.hasFlag storeFlag.name
    force := a.hasFlag forceFlag.name }

def wordless? (options : List OptionInfo) (texts : List String) : Option Arguments :=
  (Arguments.ofTexts? options texts).filter (·.words.isEmpty)

/-- The version is asked for by an argument of its own; nothing after it is looked at. -/
def asksVersion (text : String) : Bool :=
  text == "--version" || ['-', 'V'].isPrefixOf text.toList

def ofTexts? : List String → Option Command
  | [] => none
  | "scan" :: rest =>
    (Arguments.ofTexts? [idOption, detailsOption, noteOption, settingsOption, formatOption,
      failOnOption, outputOption, storeFlag, forceFlag] rest).bind scan?
  | "list-rules" :: rest => do
    let a ← wordless? [formatOption] rest
    return .listRules ((a.value? formatOption.name).getD "table")
  | "init" :: rest => do
    let a ← wordless? [forceFlag] rest
    return .init (a.hasFlag forceFlag.name)
  | "stats" :: rest => do
    let a ← wordless? [settingsOption, formatOption] rest
    return .stats (← pathValue? a settingsOption) ((a.value? formatOption.name).getD "console")
  | text :: _ => if asksVersion text then some .version else none

end Command

end ExtensionAudit.CommandLine

namespace ExtensionAudit.CommandLine

structure OptionInfo where
  name : String
  /-- A letter that stands for the name after a single dash. -/
  letter : Option Char := none
  /-- Whether it has a value; else it is a flag. -/
  hasValue : Bool := true

/-- What a command line gives: options in the order of their appearance, and words. -/
structure Arguments where
  values : List (String × String) := []
  flags : List String := []
  words : List String := []
deriving DecidableEq, Repr

namespace Arguments

def value? (a : Arguments) (name : String) : Option String :=
  a.values.lookup name

def hasFlag (a : Arguments) (name : String) : Bool :=
  a.flags.contains name

def gives (a : Arguments) (name : String) : Bool :=
  (a.value? name).isSome || a.hasFlag name

/-- Adds an option that was not given yet. -/
def addValue? (a : Arguments) (name value : String) : Option Arguments :=
  if a.gives name then none else some { a with values := a.values ++ [(name, value)] }

def addFlag? (a : Arguments) (name : String) : Option Arguments :=
  if a.gives name then none else some { a with flags := a.flags ++ [name] }

def addWord (a : Arguments) (word : String) : Arguments :=
  { a with words := a.words ++ [word] }

/-- An argument that starts with a dash is an option, unless it is only a dash. -/
inductive Piece where
  | word (text : String)
  | endOfOptions
  /-- `--name` or `--name=value`. -/
  | long (name : String) (value : Option String)
  /-- `-l` or `-lvalue` or `-l=value`. -/
  | short (letter : Char) (value : Option String)

def Piece.ofText (text : String) : Piece :=
  match text.toList with
  | ['-', '-'] => .endOfOptions
  | '-' :: '-' :: rest =>
    match rest.dropWhile (· ≠ '=') with
    | _ :: value => .long (String.ofList (rest.takeWhile (· ≠ '='))) (some (String.ofList value))
    | [] => .long (String.ofList rest) none
  | '-' :: letter :: rest =>
    match rest with
    | [] => .short letter none
    | '=' :: value => .short letter (some (String.ofList value))
    | value => .short letter (some (String.ofList value))
  | _ => .word text

def Piece.option? (options : List OptionInfo) : Piece → Option (OptionInfo × Option String)
  | .long name value => (options.find? (·.name == name)).map (·, value)
  | .short letter value => (options.find? (·.letter == some letter)).map (·, value)
  | _ => none

/-- Reads arguments. An option may wait for its value in `pending`: the next argument has to be a
word then. -/
def read? (options : List OptionInfo) (pending : Option String) (a : Arguments) :
    List String → Option Arguments
  | [] => if pending.isSome then none else some a
  | text :: rest =>
    match pending, Piece.ofText text with
    | some name, .word value => (a.addValue? name value).bind fun a => read? options none a rest
    | some _, _ => none
    | none, .word word => read? options none (a.addWord word) rest
    | none, .endOfOptions => some { a with words := a.words ++ rest }
    | none, piece =>
      match piece.option? options with
      | none => none
      | some (info, value) =>
        if info.hasValue then
          match value with
          | some value => (a.addValue? info.name value).bind fun a => read? options none a rest
          | none => read? options (some info.name) a rest
        else if value.isSome then none
        else (a.addFlag? info.name).bind fun a => read? options none a rest

def ofTexts? (options : List OptionInfo) (texts : List String) : Option Arguments :=
  read? options none {} texts

end Arguments

end ExtensionAudit.CommandLine

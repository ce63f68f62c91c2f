import ExtensionAudit.Json.Value

namespace ExtensionAudit.Json

def hexDigit (n : Nat) : Char :=
  if n < 10 then Char.ofNat ('0'.toNat + n) else Char.ofNat ('a'.toNat + (n - 10))

/-- A character inside a string. Control characters without a letter of their own get four
hexadecimal digits. -/
def escapeChar (c : Char) : List Char :=
  if c = '"' then ['\\', '"']
  else if c = '\\' then ['\\', '\\']
  else if c = '\x08' then ['\\', 'b']
  else if c = '\x0c' then ['\\', 'f']
  else if c = '\n' then ['\\', 'n']
  else if c = '\r' then ['\\', 'r']
  else if c = '\t' then ['\\', 't']
  else if c.toNat < 0x20 then
    ['\\', 'u', '0', '0', hexDigit (c.toNat / 16), hexDigit (c.toNat % 16)]
  else [c]

def quoted (text : String) : List Char :=
  '"' :: text.toList.flatMap escapeChar ++ ['"']

def natText (n : Nat) : List Char :=
  Nat.toDigits 10 n

def intText : Int → List Char
  | .ofNat n => natText n
  | .negSucc n => '-' :: natText (n + 1)

def Number.text : Number → List Char
  | .int n => intText n
  | .double d => d.text

def boolText (value : Bool) : List Char :=
  if value then ['t', 'r', 'u', 'e'] else ['f', 'a', 'l', 's', 'e']

def nullText : List Char := ['n', 'u', 'l', 'l']

mutual

def Value.compact : Value → List Char
  | .null => nullText
  | .bool value => boolText value
  | .number value => value.text
  | .string text => quoted text
  | .array items => '[' :: Value.compactItems items ++ [']']
  | .object members => '{' :: Value.compactMembers members ++ ['}']

def Value.compactItems : List Value → List Char
  | [] => []
  | [item] => item.compact
  | item :: items => item.compact ++ ',' :: Value.compactItems items

def Value.compactMembers : List (String × Value) → List Char
  | [] => []
  | [(key, value)] => quoted key ++ ':' :: value.compact
  | (key, value) :: members =>
    quoted key ++ ':' :: value.compact ++ ',' :: Value.compactMembers members

end

/-- A line feed and two spaces for each level. -/
def newLine (level : Nat) : List Char :=
  '\n' :: List.replicate (2 * level) ' '

mutual

/-- The indented form of a value that stands at the given level. -/
def Value.prettyAt (level : Nat) : Value → List Char
  | .null => nullText
  | .bool value => boolText value
  | .number value => value.text
  | .string text => quoted text
  | .array [] => ['[', ']']
  | .array (item :: items) =>
    '[' :: Value.prettyItems (level + 1) (item :: items) ++ newLine level ++ [']']
  | .object [] => ['{', '}']
  | .object (member :: members) =>
    '{' :: Value.prettyMembers (level + 1) (member :: members) ++ newLine level ++ ['}']

/-- The items, each on a line of its own, with a comma after all but the last. -/
def Value.prettyItems (level : Nat) : List Value → List Char
  | [] => []
  | [item] => newLine level ++ item.prettyAt level
  | item :: items => newLine level ++ item.prettyAt level ++ ',' :: Value.prettyItems level items

def Value.prettyMembers (level : Nat) : List (String × Value) → List Char
  | [] => []
  | [(key, value)] => newLine level ++ quoted key ++ ':' :: ' ' :: value.prettyAt level
  | (key, value) :: members =>
    newLine level ++ quoted key ++ ':' :: ' ' :: value.prettyAt level ++
      ',' :: Value.prettyMembers level members

end

def Value.compactText (value : Value) : String :=
  String.ofList value.compact

def Value.prettyText (value : Value) : String :=
  String.ofList (value.prettyAt 0)

end ExtensionAudit.Json

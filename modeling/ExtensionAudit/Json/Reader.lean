import ExtensionAudit.Json.Syntax

namespace ExtensionAudit.Json

def isSpace (c : Char) : Bool :=
  c == ' ' || c == '\t' || c == '\n' || c == '\r'

def skipSpace (cs : List Char) : List Char :=
  cs.dropWhile isSpace

def hexDigit? (c : Char) : Option Nat :=
  if '0' ≤ c && c ≤ '9' then some (c.toNat - '0'.toNat)
  else if 'a' ≤ c && c ≤ 'f' then some (c.toNat - 'a'.toNat + 10)
  else if 'A' ≤ c && c ≤ 'F' then some (c.toNat - 'A'.toNat + 10)
  else none

def hexFour? (a b c d : Char) : Option Nat := do
  return (((← hexDigit? a) * 16 + (← hexDigit? b)) * 16 + (← hexDigit? c)) * 16 + (← hexDigit? d)

/-- The character of a one-letter escape. -/
def simpleEscape? : Char → Option Char
  | '"' => some '"'
  | '\\' => some '\\'
  | '/' => some '/'
  | 'b' => some '\x08'
  | 'f' => some '\x0c'
  | 'n' => some '\n'
  | 'r' => some '\r'
  | 't' => some '\t'
  | _ => none

/-- What a string holds: characters, and the halves of surrogate pairs that escapes name. -/
inductive Unit where
  | char (c : Char)
  | surrogate (code : Nat)

def Unit.ofCode (code : Nat) : Unit :=
  if 0xD800 ≤ code && code < 0xE000 then .surrogate code else .char (Char.ofNat code)

/-- Reads up to the closing quote; the units read so far are in reverse order. -/
def readUnits (units : List Unit) : List Char → Option (List Unit × List Char)
  | [] => none
  | '"' :: rest => some (units.reverse, rest)
  | '\\' :: 'u' :: a :: b :: c :: d :: rest =>
    match hexFour? a b c d with
    | some code => readUnits (.ofCode code :: units) rest
    | none => none
  | '\\' :: c :: rest =>
    match simpleEscape? c with
    | some named => readUnits (.char named :: units) rest
    | none => none
  | c :: rest => if c.toNat < 0x20 then none else readUnits (.char c :: units) rest

/-- The characters of the units, an upper and a lower half together making one. -/
def joinUnits? : List Unit → Option (List Char)
  | [] => some []
  | .char c :: rest => (joinUnits? rest).map (c :: ·)
  | .surrogate high :: .surrogate low :: rest =>
    if high < 0xDC00 && 0xDC00 ≤ low then
      (joinUnits? rest).map
        (Char.ofNat (0x10000 + (high - 0xD800) * 0x400 + (low - 0xDC00)) :: ·)
    else none
  | .surrogate _ :: _ => none

/-- Reads the rest of a string whose opening quote has been read. -/
def readString (cs : List Char) : Option (Option String × List Char) :=
  (readUnits [] cs).map fun (units, rest) => ((joinUnits? units).map String.ofList, rest)

def takeDigits (cs : List Char) : List Char × List Char :=
  (cs.takeWhile Char.isDigit, cs.dropWhile Char.isDigit)

def digitsValue (ds : List Char) : Nat :=
  ds.foldl (fun n d => n * 10 + (d.toNat - '0'.toNat)) 0

/-- At least one digit, and no zero before another digit. -/
def readWhole (cs : List Char) : Option (List Char × List Char) :=
  match takeDigits cs with
  | ([], _) => none
  | ('0' :: _ :: _, _) => none
  | (ds, rest) => some (ds, rest)

def readFraction : List Char → Option (Option (List Char) × List Char)
  | '.' :: cs =>
    match takeDigits cs with
    | ([], _) => none
    | (ds, rest) => some (some ds, rest)
  | cs => some (none, cs)

def readExponentDigits (negative : Bool) (cs : List Char) : Option (Option Int × List Char) :=
  match takeDigits cs with
  | ([], _) => none
  | (ds, rest) =>
    let size : Int := digitsValue ds
    some (some (if negative then -size else size), rest)

def readExponent : List Char → Option (Option Int × List Char)
  | c :: cs =>
    if c = 'e' || c = 'E' then
      match cs with
      | '+' :: cs => readExponentDigits false cs
      | '-' :: cs => readExponentDigits true cs
      | cs => readExponentDigits false cs
    else some (none, c :: cs)
  | [] => some (none, [])

def readUnsigned (negative : Bool) (cs : List Char) : Option (NumberText × List Char) := do
  let (whole, cs) ← readWhole cs
  let (fraction, cs) ← readFraction cs
  let (exponent, cs) ← readExponent cs
  return (⟨negative, whole, fraction, exponent⟩, cs)

def readNumber : List Char → Option (NumberText × List Char)
  | '-' :: cs => readUnsigned true cs
  | cs => readUnsigned false cs

mutual

/-- Reads one value and the blanks before it. Every step that goes deeper or further uses up one
unit of fuel; a text has fewer such steps than characters. -/
def readValue : Nat → List Char → Option (Syntax × List Char)
  | 0, _ => none
  | fuel + 1, cs =>
    match skipSpace cs with
    | 'n' :: 'u' :: 'l' :: 'l' :: rest => some (.null, rest)
    | 't' :: 'r' :: 'u' :: 'e' :: rest => some (.bool true, rest)
    | 'f' :: 'a' :: 'l' :: 's' :: 'e' :: rest => some (.bool false, rest)
    | '"' :: rest => (readString rest).map fun (text, rest) => (.string text, rest)
    | '[' :: rest =>
      match skipSpace rest with
      | ']' :: rest => some (.array [], rest)
      | rest => readItems fuel [] rest
    | '{' :: rest =>
      match skipSpace rest with
      | '}' :: rest => some (.object [], rest)
      | rest => readMembers fuel [] rest
    | rest => (readNumber rest).map fun (text, rest) => (.number text, rest)

/-- Reads the items of an array up to its closing bracket; those read are in reverse order. -/
def readItems : Nat → List Syntax → List Char → Option (Syntax × List Char)
  | 0, _, _ => none
  | fuel + 1, items, cs =>
    match readValue fuel cs with
    | none => none
    | some (item, rest) =>
      match skipSpace rest with
      | ',' :: rest => readItems fuel (item :: items) rest
      | ']' :: rest => some (.array (item :: items).reverse, rest)
      | _ => none

/-- Reads the members of an object up to its closing brace; those read are in reverse order. -/
def readMembers : Nat → List (Option String × Syntax) → List Char → Option (Syntax × List Char)
  | 0, _, _ => none
  | fuel + 1, members, cs =>
    match skipSpace cs with
    | '"' :: rest =>
      match readString rest with
      | none => none
      | some (key, rest) =>
        match skipSpace rest with
        | ':' :: rest =>
          match readValue fuel rest with
          | none => none
          | some (value, rest) =>
            match skipSpace rest with
            | ',' :: rest => readMembers fuel ((key, value) :: members) rest
            | '}' :: rest => some (.object ((key, value) :: members).reverse, rest)
            | _ => none
        | _ => none
    | _ => none

end

/-- Blanks before a value are passed over. -/
theorem readValue_congr {cs other : List Char} (fuel : Nat)
    (same : skipSpace cs = skipSpace other) :
    readValue fuel cs = readValue fuel other := by
  cases fuel with
  | zero => rfl
  | succ fuel => rw [readValue, readValue, same]

/-- Blanks before an item are passed over. -/
theorem readItems_congr {cs other : List Char} (fuel : Nat) (read : List Syntax)
    (same : skipSpace cs = skipSpace other) :
    readItems fuel read cs = readItems fuel read other := by
  cases fuel with
  | zero => rfl
  | succ fuel => rw [readItems, readItems, readValue_congr fuel same]

/-- Blanks before a member are passed over. -/
theorem readMembers_congr {cs other : List Char} (fuel : Nat)
    (read : List (Option String × Syntax)) (same : skipSpace cs = skipSpace other) :
    readMembers fuel read cs = readMembers fuel read other := by
  cases fuel with
  | zero => rfl
  | succ fuel => rw [readMembers, readMembers, same]

def Syntax.ofText? (cs : List Char) : Option Syntax :=
  match readValue (2 * cs.length + 2) cs with
  | some (value, rest) => if (skipSpace rest).isEmpty then some value else none
  | none => none

end ExtensionAudit.Json

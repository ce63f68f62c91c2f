import ExtensionAudit.Toml.Scalar

namespace ExtensionAudit.Toml

/-- Line ends of two characters become line feeds. A carriage return anywhere else is refused, as
any control character is. -/
def unifyLineEnds : List Char → List Char
  | '\r' :: '\n' :: rest => '\n' :: unifyLineEnds rest
  | c :: rest => c :: unifyLineEnds rest
  | [] => []

def isBlank (c : Char) : Bool := c == ' ' || c == '\t'

/-- Whether a character may stand in comments and strings. -/
def isPlain (c : Char) : Bool :=
  c == '\t' || (0x20 ≤ c.toNat && c.toNat ≠ 0x7F)

def skipBlanks (cs : List Char) : List Char :=
  cs.dropWhile isBlank

/-- Passes over blanks, line feeds and comments. -/
def skipLines (inComment : Bool) : List Char → List Char
  | [] => []
  | c :: rest =>
    if c = '\n' then skipLines false rest
    else if inComment then if isPlain c then skipLines true rest else c :: rest
    else if isBlank c then skipLines false rest
    else if c = '#' then skipLines true rest
    else c :: rest

/-- Goes to the next line: after a statement only blanks and a comment may stand. -/
def nextLine? (cs : List Char) : Option (List Char) :=
  let cs := match skipBlanks cs with
    | '#' :: rest => rest.dropWhile isPlain
    | rest => rest
  match cs with
  | [] => some []
  | '\n' :: rest => some rest
  | _ => none

def basicQuote : Char := '"'

def literalQuote : Char := '\x27'

def codePoint? (ds : List Char) : Option Char :=
  if ds.all isHexDigit then
    let code := baseValue 16 ds
    if code.isValidChar then some (Char.ofNat code) else none
  else none

def escaped? : Char → Option Char
  | 'b' => some '\x08'
  | 't' => some '\t'
  | 'n' => some '\n'
  | 'f' => some '\x0c'
  | 'r' => some '\r'
  | '"' => some '"'
  | '\\' => some '\\'
  | _ => none

/-- After one quote of a string with three quotes: whether it ends here. Up to two quotes before the
last three belong to the string. -/
def closing? (quote : Char) (cs : List Char) : Option (List Char × List Char) :=
  let more := min 4 (cs.takeWhile (· == quote)).length
  if more < 2 then none else some (List.replicate (more - 2) quote, cs.drop more)

/-- Whether the line ends behind blanks. -/
def endsLine (cs : List Char) : Bool :=
  (skipBlanks cs).head? == some '\n'

/-- Reads the rest of a basic string; `text` is what was read, in reverse order. In one of several
lines a backslash at the end of a line joins it to the next character that is no blank, and while
`joining` blanks and line feeds are passed over. -/
def readBasic (several joining : Bool) (text : List Char) :
    List Char → Option (String × List Char)
  | [] => none
  | '\\' :: 'u' :: a :: b :: c :: d :: rest =>
    match codePoint? [a, b, c, d] with
    | some named => readBasic several false (named :: text) rest
    | none => none
  | '\\' :: 'U' :: a :: b :: c :: d :: e :: f :: g :: h :: rest =>
    match codePoint? [a, b, c, d, e, f, g, h] with
    | some named => readBasic several false (named :: text) rest
    | none => none
  | '\\' :: c :: rest =>
    match escaped? c with
    | some named => readBasic several false (named :: text) rest
    | none => if several && endsLine (c :: rest) then readBasic several true text rest else none
  | '"' :: rest =>
    if several then
      match closing? basicQuote rest with
      | some (quotes, rest) => some (String.ofList (text.reverse ++ quotes), rest)
      | none => readBasic several false (basicQuote :: text) rest
    else some (String.ofList text.reverse, rest)
  | c :: rest =>
    if joining && (isBlank c || c == '\n') then readBasic several true text rest
    else if isPlain c || (several && c == '\n') then readBasic several false (c :: text) rest
    else none

/-- Reads the rest of a literal string, which knows no escapes. -/
def readLiteral (several : Bool) (text : List Char) : List Char → Option (String × List Char)
  | [] => none
  | c :: rest =>
    if c = literalQuote then
      if several then
        match closing? literalQuote rest with
        | some (quotes, rest) => some (String.ofList (text.reverse ++ quotes), rest)
        | none => readLiteral several (c :: text) rest
      else some (String.ofList text.reverse, rest)
    else if isPlain c || (several && c == '\n') then readLiteral several (c :: text) rest
    else none

/-- A line feed right after three opening quotes is no part of the string. -/
def dropLineFeed : List Char → List Char
  | '\n' :: rest => rest
  | rest => rest

def readString : List Char → Option (String × List Char)
  | '"' :: '"' :: '"' :: rest => readBasic true false [] (dropLineFeed rest)
  | '"' :: rest => readBasic false false [] rest
  | '\x27' :: '\x27' :: '\x27' :: rest => readLiteral true [] (dropLineFeed rest)
  | '\x27' :: rest => readLiteral false [] rest
  | _ => none

def isKeyChar (c : Char) : Bool :=
  c.isAlphanum || c == '-' || c == '_'

/-- Reads a key: a bare word, or a string of one line. -/
def readKey : List Char → Option (String × List Char)
  | [] => none
  | c :: rest =>
    if c = basicQuote then readBasic false false [] rest
    else if c = literalQuote then readLiteral false [] rest
    else if isKeyChar c then
      some (String.ofList ((c :: rest).takeWhile isKeyChar), rest.dropWhile isKeyChar)
    else none

/-- Keys that follow each other with points between them; those read are in reverse order. A path
has fewer keys than characters. -/
def readKeys (keys : List String) : Nat → List Char → Option (List String × List Char)
  | 0, _ => none
  | fuel + 1, cs =>
    match readKey (skipBlanks cs) with
    | none => none
    | some (key, rest) =>
      match skipBlanks rest with
      | '.' :: rest => readKeys (key :: keys) fuel rest
      | rest => some (key :: keys, rest)

/-- Paths, and arrays and inline tables inside each other, stay below this length. -/
def depthLimit : Nat := 80

def readPath (cs : List Char) : Option (List String × String × List Char) :=
  match readKeys [] cs.length cs with
  | some (key :: path, rest) =>
    if path.length + 1 < depthLimit then some (path.reverse, key, rest) else none
  | _ => none

/-- Reads a value of one word. A date and a time may have a space between them. -/
def readScalar (cs : List Char) : Option (Node × List Char) :=
  let word := cs.takeWhile isWordChar
  let rest := cs.drop word.length
  match isDate word, rest with
  | true, ' ' :: more =>
    match more.takeWhile isWordChar with
    | [] => some (.dateTime, rest)
    | time =>
      if isDateTime (word ++ 'T' :: time) then some (.dateTime, more.drop time.length) else none
  | _, _ => (scalar? word).map (·, rest)

mutual

/-- Reads a value; `depth` more arrays and inline tables may be opened. Every step that goes deeper
or further uses up one unit of fuel; a text has fewer such steps than characters. -/
def readValue (depth : Nat) : Nat → List Char → Option (Node × List Char)
  | 0, _ => none
  | fuel + 1, cs =>
    match cs with
    | '[' :: rest => if depth = 0 then none else readItems (depth - 1) fuel [] rest
    | '{' :: rest =>
      if depth = 0 then none
      else
        match skipBlanks rest with
        | '}' :: rest => some (.inline [], rest)
        | rest => readPairs (depth - 1) fuel [] rest
    | c :: _ =>
      if c = basicQuote || c = literalQuote then
        (readString cs).map fun (text, rest) => (.string text, rest)
      else readScalar cs
    | [] => none

/-- Reads the items of an array up to its closing bracket, which may follow a comma; those read are
in reverse order. -/
def readItems (depth : Nat) : Nat → List Node → List Char → Option (Node × List Char)
  | 0, _, _ => none
  | fuel + 1, items, cs =>
    match skipLines false cs with
    | ']' :: rest => some (.array items.reverse, rest)
    | cs =>
      match readValue depth fuel cs with
      | none => none
      | some (item, rest) =>
        match skipLines false rest with
        | ',' :: rest => readItems depth fuel (item :: items) rest
        | ']' :: rest => some (.array (item :: items).reverse, rest)
        | _ => none

/-- Reads the pairs of an inline table up to its closing brace; those read are in reverse order. -/
def readPairs (depth : Nat) : Nat → List (List String × String × Node) → List Char →
    Option (Node × List Char)
  | 0, _, _ => none
  | fuel + 1, pairs, cs =>
    match readPath cs with
    | some (path, key, '=' :: rest) =>
      match readValue depth fuel (skipBlanks rest) with
      | none => none
      | some (node, rest) =>
        match skipBlanks rest with
        | ',' :: rest => readPairs depth fuel ((path, key, node) :: pairs) rest
        | '}' :: rest =>
          (inlineMembers? ((path, key, node) :: pairs).reverse).map fun members =>
            (.inline members, rest)
        | _ => none
    | _ => none

end

def readStatement : List Char → Option (Statement × List Char)
  | '[' :: '[' :: rest =>
    match readPath rest with
    | some (path, key, ']' :: ']' :: rest) => some (.element path key, rest)
    | _ => none
  | '[' :: rest =>
    match readPath rest with
    | some (path, key, ']' :: rest) => some (.header path key, rest)
    | _ => none
  | cs =>
    match readPath cs with
    | some (path, key, '=' :: rest) =>
      (readValue (depthLimit - 1) (2 * rest.length + 2) (skipBlanks rest)).map fun (node, rest) =>
        (.pair path key node, rest)
    | _ => none

/-- Reads all statements; a text has fewer of them than characters. -/
def readStatements (statements : List Statement) : Nat → List Char → Option (List Statement)
  | 0, _ => none
  | fuel + 1, cs =>
    match skipLines false cs with
    | [] => some statements.reverse
    | cs =>
      match readStatement cs with
      | none => none
      | some (statement, rest) =>
        match nextLine? rest with
        | none => none
        | some rest => readStatements (statement :: statements) fuel rest

/-- The root table of a text. A byte order mark at its start is no part of it. -/
def rootOfText? (cs : List Char) : Option Members :=
  let cs := unifyLineEnds <| match cs with
    | '\uFEFF' :: rest => rest
    | rest => rest
  (readStatements [] (cs.length + 1) cs).bind Document.ofStatements?

end ExtensionAudit.Toml

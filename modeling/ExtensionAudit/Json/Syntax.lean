namespace ExtensionAudit.Json

/-- A number as it is written: `whole`, then `.fraction`, then an exponent. -/
structure NumberText where
  negative : Bool
  whole : List Char
  fraction : Option (List Char)
  exponent : Option Int
deriving DecidableEq, Repr

/-- A string is `none` when one of its escapes is half of a surrogate pair without the other. -/
inductive Syntax where
  | null
  | bool (value : Bool)
  | number (text : NumberText)
  | string (text : Option String)
  | array (items : List Syntax)
  | object (members : List (Option String × Syntax))
deriving Repr

end ExtensionAudit.Json

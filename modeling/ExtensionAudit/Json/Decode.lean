import ExtensionAudit.Json.Printer
import ExtensionAudit.Text.TextSet

namespace ExtensionAudit.Json

-- Powers are those of the core library, whatever else is imported.
attribute [local instance (high)] instPowNat

def NumberText.ofInt (n : Int) : NumberText :=
  ⟨n < 0, natText n.natAbs, none, none⟩

/-- A number as a tree. A double only has to be no integer. -/
def NumberText.ofNumber : Number → NumberText
  | .int n => .ofInt n
  | .double d => ⟨d.negative, [], some [], none⟩

mutual

def Value.toSyntax : Value → Syntax
  | .null => .null
  | .bool value => .bool value
  | .number value => .number (.ofNumber value)
  | .string text => .string (some text)
  | .array items => .array (Value.toSyntaxItems items)
  | .object members => .object (Value.toSyntaxMembers members)

def Value.toSyntaxItems : List Value → List Syntax
  | [] => []
  | item :: items => item.toSyntax :: Value.toSyntaxItems items

def Value.toSyntaxMembers : List (String × Value) → List (Option String × Syntax)
  | [] => []
  | (key, value) :: members => (some key, value.toSyntax) :: Value.toSyntaxMembers members

end

class Decode (α : Type) where
  decode? : Syntax → Option α

export Decode (decode?)

instance : Decode String where
  decode?
    | .string text => text
    | _ => none

instance : Decode UInt64 where
  decode?
    | .number text => do
      let n ← text.int?
      if 0 ≤ n then some (UInt64.ofNat n.toNat) else none
    | _ => none

instance : Decode Int64 where
  decode?
    | .number text => do
      let n ← text.int?
      if n < 2 ^ (63 : Nat) then some (Int64.ofInt n) else none
    | _ => none

/-- Null is the absent value. -/
instance {α : Type} [Decode α] : Decode (Option α) where
  decode?
    | .null => some none
    | tree => (decode? tree).map some

instance {α : Type} [Decode α] : Decode (List α) where
  decode?
    | .array items => items.mapM decode?
    | _ => none

/-- The fields of a structure that a tree gives, in the order of `names`. -/
structure Fields where
  given : List (String × Syntax)

/-- Gathers the known members; a known one that is repeated, or an unreadable name, is refused. -/
def Fields.ofMembers? (names : List String) (given : List (String × Syntax)) :
    List (Option String × Syntax) → Option Fields
  | [] => some ⟨given⟩
  | (none, _) :: _ => none
  | (some key, tree) :: members =>
    if names.contains key then
      if (given.lookup key).isSome then none
      else Fields.ofMembers? names (given ++ [(key, tree)]) members
    else Fields.ofMembers? names given members

def Fields.ofSyntax? (names : List String) : Syntax → Option Fields
  | .object members => Fields.ofMembers? names [] members
  | .array items => if items.length ≤ names.length then some ⟨names.zip items⟩ else none
  | _ => none

def Fields.required {α : Type} [Decode α] (fields : Fields) (name : String) : Option α :=
  (fields.given.lookup name).bind decode?

/-- A field that may be left out. -/
def Fields.orElse {α : Type} [Decode α] (fields : Fields) (name : String) (default : α) :
    Option α :=
  match fields.given.lookup name with
  | none => some default
  | some tree => decode? tree

def Fields.optional {α : Type} [Decode α] (fields : Fields) (name : String) : Option (Option α) :=
  fields.orElse name none

instance : Decode TextSet where
  decode? tree := (decode? tree : Option (List String)).map TextSet.ofList

class Encode (α : Type) where
  encode : α → Value

export Encode (encode)

instance : Encode Value := ⟨id⟩
instance : Encode String := ⟨.string⟩
instance : Encode Nat := ⟨fun n => .number (.int n)⟩
instance : Encode Int := ⟨fun n => .number (.int n)⟩
instance : Encode UInt64 := ⟨fun n => .number (.int n.toNat)⟩
instance : Encode Int64 := ⟨fun n => .number (.int n.toInt)⟩
instance : Encode Bool := ⟨.bool⟩
instance : Encode TextSet := ⟨fun set => .array (set.items.map .string)⟩

instance {α : Type} [Encode α] : Encode (List α) := ⟨fun items => .array (items.map encode)⟩

instance {α : Type} [Encode α] : Encode (Option α) where
  encode
    | none => .null
    | some value => encode value

def member {α : Type} [Encode α] (name : String) (value : α) : List (String × Value) :=
  [(name, encode value)]

/-- A member that is left out when it is absent. -/
def memberIfSome {α : Type} [Encode α] (name : String) : Option α → List (String × Value)
  | none => []
  | some value => [(name, encode value)]

end ExtensionAudit.Json

import ExtensionAudit.Json.Reader
import ExtensionAudit.Number.Shortest

namespace ExtensionAudit.Json

-- Powers are those of the core library, whatever else is imported.
attribute [local instance (high)] instPowNat

/-- An integer lies in `-2 ^ 63 ≤ n < 2 ^ 64`. -/
inductive Number where
  | int (n : Int)
  | double (d : Double)
deriving DecidableEq, Repr

/-- What a text means. Of a repeated member the last value counts, in the place of the first. -/
inductive Value where
  | null
  | bool (value : Bool)
  | number (value : Number)
  | string (text : String)
  | array (items : List Value)
  | object (members : List (String × Value))
deriving Repr, Inhabited

def greatestWord : Nat := 2 ^ (64 : Nat) - 1

/-- Leading digits gathered into a word. The first digit that does not fit, and all whole digits
after it, only count. -/
structure Gathered where
  word : Nat := 0
  full : Bool := false
  dropped : Nat := 0

def Gathered.push (g : Gathered) (digit : Char) : Gathered :=
  let next := g.word * 10 + (digit.toNat - '0'.toNat)
  if g.full || next > greatestWord then { g with full := true, dropped := g.dropped + 1 }
  else { g with word := next }

def gather (word : Nat) (digits : List Char) : Gathered :=
  digits.foldl Gathered.push { word }

/-- A number written with a point or an exponent, or too large for a word: the digits that fit into
a word, scaled by a power of ten with one rounding for each factor. -/
def NumberText.double? (text : NumberText) : Option Double :=
  let whole := gather 0 text.whole
  let fractionDigits := text.fraction.getD []
  let fraction := gather whole.word fractionDigits
  let kept := fractionDigits.length - fraction.dropped
  let exponent : Int := (whole.dropped : Int) - kept + text.exponent.getD 0
  (Double.ofDecimal? fraction.word exponent).map fun d => { d with negative := text.negative }

/-- The integer that a number denotes when it has neither point nor exponent and fits; minus zero is
no integer. -/
def NumberText.int? (text : NumberText) : Option Int :=
  if text.fraction.isSome || text.exponent.isSome then none
  else
    let size := digitsValue text.whole
    if text.negative then
      if 0 < size && size ≤ 2 ^ (63 : Nat) then some (-(size : Int)) else none
    else if size ≤ greatestWord then some size else none

def NumberText.number? (text : NumberText) : Option Number :=
  match text.int? with
  | some n => some (.int n)
  | none => text.double?.map .double

/-- Puts a member last, or its value in the place of the member of that name. -/
def setMember (key : String) (value : Value) : List (String × Value) → List (String × Value)
  | [] => [(key, value)]
  | (name, old) :: members =>
    if name = key then (name, value) :: members
    else (name, old) :: setMember key value members

/-- The number of arrays and objects that may lie inside each other. -/
def deepest : Nat := 127

mutual

/-- The value of a syntax tree; `depth` more arrays and objects may be opened. -/
def Syntax.value? (depth : Nat) : Syntax → Option Value
  | .null => some .null
  | .bool value => some (.bool value)
  | .number text => text.number?.map .number
  | .string text => text.map .string
  | .array items =>
    match depth with
    | 0 => none
    | depth + 1 => (Syntax.itemValues? depth items).map .array
  | .object members =>
    match depth with
    | 0 => none
    | depth + 1 => (Syntax.memberValues? depth [] members).map .object

def Syntax.itemValues? (depth : Nat) : List Syntax → Option (List Value)
  | [] => some []
  | item :: items =>
    match item.value? depth with
    | none => none
    | some value => (Syntax.itemValues? depth items).map (value :: ·)

def Syntax.memberValues? (depth : Nat) (seen : List (String × Value)) :
    List (Option String × Syntax) → Option (List (String × Value))
  | [] => some seen
  | (key, member) :: members =>
    match key, member.value? depth with
    | some key, some value => Syntax.memberValues? depth (setMember key value seen) members
    | _, _ => none

end

def Value.ofText? (cs : List Char) : Option Value :=
  (Syntax.ofText? cs).bind (Syntax.value? deepest)

def member? (members : List (String × Value)) (key : String) : Option Value :=
  members.lookup key

end ExtensionAudit.Json

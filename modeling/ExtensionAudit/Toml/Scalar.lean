import ExtensionAudit.Json.Reader
import ExtensionAudit.Number.Double
import ExtensionAudit.Time.Timestamp
import ExtensionAudit.Toml.Table

namespace ExtensionAudit.Toml

-- Powers are those of the core library, whatever else is imported.
attribute [local instance (high)] instPowNat

def isWordChar (c : Char) : Bool :=
  c.isAlphanum || c == '+' || c == '-' || c == '_' || c == '.' || c == ':'

/-- Digits, each underscore between two of them left out. -/
def digits? (isDigit : Char → Bool) : List Char → Option (List Char)
  | [] => none
  | [c] => if isDigit c then some [c] else none
  | c :: '_' :: rest => if isDigit c then (digits? isDigit rest).map (c :: ·) else none
  | c :: rest => if isDigit c then (digits? isDigit rest).map (c :: ·) else none

/-- Decimal digits without a zero before another digit. -/
def wholeDigits? (cs : List Char) : Option (List Char) :=
  match digits? Char.isDigit cs with
  | some ('0' :: _ :: _) => none
  | found => found

def splitSign : List Char → Bool × List Char
  | '-' :: rest => (true, rest)
  | '+' :: rest => (false, rest)
  | rest => (false, rest)

def isHexDigit (c : Char) : Bool := (Json.hexDigit? c).isSome

def isOctalDigit (c : Char) : Bool := '0' ≤ c && c ≤ '7'

def isBinaryDigit (c : Char) : Bool := c == '0' || c == '1'

def baseValue (base : Nat) (ds : List Char) : Nat :=
  ds.foldl (fun n d => n * base + (Json.hexDigit? d).getD 0) 0

/-- An integer of any size. Only decimal ones have a sign. -/
def unboundedInteger? : List Char → Option Int
  | '0' :: 'x' :: ds => (digits? isHexDigit ds).map fun ds => (baseValue 16 ds : Int)
  | '0' :: 'o' :: ds => (digits? isOctalDigit ds).map fun ds => (baseValue 8 ds : Int)
  | '0' :: 'b' :: ds => (digits? isBinaryDigit ds).map fun ds => (baseValue 2 ds : Int)
  | cs =>
    let (negative, ds) := splitSign cs
    (wholeDigits? ds).map fun ds =>
      let size : Int := baseValue 10 ds
      if negative then -size else size

def integer? (cs : List Char) : Option Int :=
  (unboundedInteger? cs).filter fun n => -2 ^ (63 : Nat) ≤ n && n < 2 ^ (63 : Nat)

/-- Whether `n · 10 ^ exponent` is too large for a double. -/
def overflows (n : Nat) (exponent : Int) : Bool :=
  let size : Int := (Nat.toDigits 10 n).length + exponent
  if n = 0 || size < 0 then false
  else if 400 < size then true
  else
    match exponent with
    | .ofNat up => (Double.ofRatio? false (n * 10 ^ up) 1).isNone
    | .negSucc down => (Double.ofRatio? false n (10 ^ (down + 1))).isNone

def isExponentMark (c : Char) : Bool := c == 'e' || c == 'E'

def exponent? (cs : List Char) : Option Int :=
  let (negative, ds) := splitSign cs
  (digits? Char.isDigit ds).map fun ds =>
    let size : Int := baseValue 10 ds
    if negative then -size else size

/-- A number with a fraction, an exponent or both. A positive one must not be too large. -/
def isDecimal (cs : List Char) : Bool :=
  let (negative, cs) := splitSign cs
  let mantissa := cs.takeWhile fun c => !isExponentMark c
  let scaled := cs.drop mantissa.length
  let whole := mantissa.takeWhile (· != '.')
  let fraction := mantissa.drop whole.length
  let read := do
    let whole ← wholeDigits? whole
    let fraction ← match fraction with
      | [] => if scaled.isEmpty then none else some []
      | _ :: ds => digits? Char.isDigit ds
    let exponent ← match scaled with
      | [] => some 0
      | _ :: ds => exponent? ds
    return (baseValue 10 (whole ++ fraction), exponent - fraction.length)
  match read with
  | none => false
  | some (n, exponent) => negative || !overflows n exponent

/-- Infinity or no number, with or without a sign. -/
def isSpecial (cs : List Char) : Bool :=
  let (_, name) := splitSign cs
  name == ['i', 'n', 'f'] || name == ['n', 'a', 'n']

/-- The number of so many digits. -/
def fixedNumber? (count : Nat) (cs : List Char) : Option (Nat × List Char) :=
  let ds := cs.take count
  if ds.length = count && ds.all Char.isDigit then some (baseValue 10 ds, cs.drop count) else none

def after? (mark : Char) : List Char → Option (List Char)
  | [] => none
  | c :: rest => if c = mark then some rest else none

/-- What follows a date of the calendar. -/
def afterDate? (cs : List Char) : Option (List Char) := do
  let (year, cs) ← fixedNumber? 4 cs
  let cs ← after? '-' cs
  let (month, cs) ← fixedNumber? 2 cs
  let cs ← after? '-' cs
  let (day, cs) ← fixedNumber? 2 cs
  if 1 ≤ month ∧ month ≤ 12 ∧ 1 ≤ day ∧ day ≤ daysInMonth year month then some cs else none

/-- What follows hour and minute. -/
def afterMinute? (cs : List Char) : Option (List Char) := do
  let (hour, cs) ← fixedNumber? 2 cs
  let cs ← after? ':' cs
  let (minute, cs) ← fixedNumber? 2 cs
  if hour < 24 ∧ minute < 60 then some cs else none

/-- What follows a time of day, whose seconds may have decimals. -/
def afterTime? (cs : List Char) : Option (List Char) := do
  let cs ← afterMinute? cs
  let cs ← after? ':' cs
  let (second, cs) ← fixedNumber? 2 cs
  if 60 < second then none
  else match cs with
  | '.' :: cs => if (cs.takeWhile Char.isDigit).isEmpty then none else
      some (cs.dropWhile Char.isDigit)
  | cs => some cs

def isOffset : List Char → Bool
  | [] | ['Z'] | ['z'] => true
  | sign :: cs => (sign == '+' || sign == '-') && afterMinute? cs == some []

def isDate (cs : List Char) : Bool :=
  afterDate? cs == some []

/-- A date, a time, or both with or without an offset. -/
def isDateTime (cs : List Char) : Bool :=
  match afterDate? cs with
  | none => afterTime? cs == some []
  | some [] => true
  | some (mark :: cs) =>
    (mark == 'T' || mark == 't') &&
      match afterTime? cs with
      | some offset => isOffset offset
      | none => false

def scalar? (word : List Char) : Option Node :=
  if word = ['t', 'r', 'u', 'e'] then some (.boolean true)
  else if word = ['f', 'a', 'l', 's', 'e'] then some (.boolean false)
  else
    match integer? word with
    | some n => some (.integer n)
    | none =>
      if isDecimal word || isSpecial word then some .float
      else if isDateTime word then some .dateTime
      else none

end ExtensionAudit.Toml

import ExtensionAudit.Time.Timestamp
import ExtensionAudit.Text.Blank

namespace ExtensionAudit.Timestamp

-- Powers are those of the core library, whatever else is imported.
attribute [local instance (high)] instPowNat

open Text (trimStart isBlank)

/-- A number with zeros in front up to the given width. -/
def padded (width n : Nat) : List Char :=
  let ds := Nat.toDigits 10 n
  List.replicate (width - ds.length) '0' ++ ds

/-- Years of four digits stand alone, others have a sign. -/
def yearText (year : Int) : List Char :=
  if 0 ≤ year ∧ year ≤ 9999 then padded 4 year.toNat
  else (if year < 0 then '-' else '+') :: padded 4 year.natAbs

/-- The fewest decimals, in groups of three, that lose nothing. -/
def fractionText (nanos : Nat) : List Char :=
  if nanos = 0 then []
  else if nanos % 1000000 = 0 then '.' :: padded 3 (nanos / 1000000)
  else if nanos % 1000 = 0 then '.' :: padded 6 (nanos / 1000)
  else '.' :: padded 9 nanos

def chars (t : Timestamp) : List Char :=
  let second := t.second % 60 + t.nanosecond / nanosPerSecond
  yearText t.date.year ++ '-' :: padded 2 t.date.month ++ '-' :: padded 2 t.date.day ++
    'T' :: padded 2 (t.second / 3600) ++ ':' :: padded 2 (t.second / 60 % 60) ++
    ':' :: padded 2 second ++ fractionText (t.nanosecond % nanosPerSecond) ++ ['Z']

def text (t : Timestamp) : String :=
  String.ofList t.chars

def numberOf (ds : List Char) : Nat :=
  ds.foldl (fun n d => n * 10 + (d.toNat - '0'.toNat)) 0

/-- Reads at least one digit and at most `most` of them. -/
def readDigits (most : Nat) (cs : List Char) : Option (List Char × List Char) :=
  match (cs.take most).takeWhile Char.isDigit with
  | [] => none
  | ds => some (ds, cs.drop ds.length)

/-- Reads a number of at most two digits, after blanks. -/
def readTwo (cs : List Char) : Option (Nat × List Char) :=
  (readDigits 2 (trimStart cs)).map fun (ds, rest) => (numberOf ds, rest)

/-- Reads a year, after blanks: one to four digits, or a sign and any number of them. -/
def readYear (cs : List Char) : Option (Int × List Char) :=
  match trimStart cs with
  | '-' :: rest => (readDigits rest.length rest).map fun (ds, rest) => (-(numberOf ds : Int), rest)
  | '+' :: rest => (readDigits rest.length rest).map fun (ds, rest) => ((numberOf ds : Int), rest)
  | rest => (readDigits 4 rest).map fun (ds, rest) => ((numberOf ds : Int), rest)

/-- Reads a sign between two parts, after blanks. -/
def readMark (mark : Char) (cs : List Char) : Option (List Char) :=
  match trimStart cs with
  | c :: rest => if c = mark then some rest else none
  | [] => none

def readSeparator : List Char → Option (List Char)
  | c :: rest => if c = 'T' || c = 't' || c = ' ' then some rest else none
  | [] => none

/-- Reads a point and digits as nanoseconds; digits after the ninth are dropped. -/
def readNanos : List Char → Option (Nat × List Char)
  | '.' :: cs => do
    let (ds, rest) ← readDigits 9 cs
    return (numberOf ds * 10 ^ (9 - ds.length), rest.dropWhile Char.isDigit)
  | cs => some (0, cs)

def isUtcWord (a b c : Char) : Bool :=
  (a = 'U' || a = 'u') && (b = 'T' || b = 't') && (c = 'C' || c = 'c')

/-- Reads hours and minutes of an offset, two digits each, as seconds. -/
def readOffsetSize : List Char → Option (Nat × List Char)
  | a :: b :: cs =>
    match cs.dropWhile fun c => c = ':' || isBlank c with
    | c :: d :: rest =>
      if [a, b, c, d].all Char.isDigit && c ≤ '5' then
        some (numberOf [a, b] * 3600 + numberOf [c, d] * 60, rest)
      else none
    | _ => none
  | _ => none

/-- Reads an offset from universal time in seconds. The sign minus may also be the mathematical
one. -/
def readOffset (cs : List Char) : Option (Int × List Char) :=
  match cs with
  | 'Z' :: rest => some (0, rest)
  | 'z' :: rest => some (0, rest)
  | '+' :: rest => (readOffsetSize rest).map fun (size, rest) => ((size : Int), rest)
  | '-' :: rest => (readOffsetSize rest).map fun (size, rest) => (-(size : Int), rest)
  | '−' :: rest => (readOffsetSize rest).map fun (size, rest) => (-(size : Int), rest)
  | a :: b :: c :: rest => if isUtcWord a b c then some (0, rest) else none
  | _ => none

/-- The second of the day, and the nanoseconds that a second of `60` adds. -/
def timeOfDay? (hour minute second : Nat) : Option (Nat × Nat) :=
  if hour < 24 ∧ minute < 60 then
    if second < 60 then some (hour * 3600 + minute * 60 + second, 0)
    else if second = 60 then some (hour * 3600 + minute * 60 + 59, nanosPerSecond)
    else none
  else none

def ofChars? (cs : List Char) : Option Timestamp := do
  let (year, cs) ← readYear cs
  let cs ← readMark '-' cs
  let (month, cs) ← readTwo cs
  let cs ← readMark '-' cs
  let (day, cs) ← readTwo cs
  let cs ← readSeparator cs
  let (hour, cs) ← readTwo cs
  let cs ← readMark ':' cs
  let (minute, cs) ← readTwo cs
  let cs ← readMark ':' cs
  let (second, cs) ← readTwo cs
  let (nanos, cs) ← readNanos cs
  let (offset, cs) ← readOffset (trimStart cs)
  let date ← Date.make? year month day
  let (second, leap) ← timeOfDay? hour minute second
  if (trimStart cs).isEmpty && offset.natAbs < secondsPerDay then
    ofLocal? date second (leap + nanos) offset
  else none

def ofText? (text : String) : Option Timestamp :=
  ofChars? text.toList

end ExtensionAudit.Timestamp

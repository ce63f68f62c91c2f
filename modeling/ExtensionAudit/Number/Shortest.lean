import ExtensionAudit.Number.Double

namespace ExtensionAudit

-- Powers are those of the core library, whatever else is imported.
attribute [local instance (high)] instPowNat

/-- The decimal number `digits · 10 ^ exponent`. -/
structure Decimal where
  digits : Nat
  exponent : Int
deriving DecidableEq, Repr

namespace Double

/-- The reals that round to a number, in quarters of the unit in its last place: the number itself,
the lower and the upper end. Below a power of two the lower half is half as wide. -/
def interval (d : Double) : Nat × Nat × Nat :=
  let narrow := d.significand == 2 ^ (52 : Nat) && d.exponent > leastExponent
  (4 * d.significand, 4 * d.significand - (if narrow then 1 else 2), 4 * d.significand + 2)

/-- `n` quarters of the unit in the last place, in units of `10 ^ k`, as a ratio. -/
def quartersIn (d : Double) (n : Nat) (k : Int) : Nat × Nat :=
  let (num, den) := shifted n (d.exponent - 2)
  match k with
  | .ofNat up => (num, den * 10 ^ up)
  | .negSucc down => (num * 10 ^ (down + 1), den)

/-- Whether `candidate · 10 ^ k` rounds to the number. The ends belong to an even number. -/
def roundsTo (d : Double) (candidate : Nat) (k : Int) : Bool :=
  let (_, low, high) := d.interval
  let (lowNum, lowDen) := d.quartersIn low k
  let (highNum, highDen) := d.quartersIn high k
  if d.significand % 2 == 0 then
    lowNum ≤ candidate * lowDen && candidate * highDen ≤ highNum
  else lowNum < candidate * lowDen && candidate * highDen < highNum

/-- The nearer of the two neighbours on the grid of `10 ^ k`, or the even one of two that are as
near, if it rounds to the number; else the other one, if that does. -/
def onGrid? (d : Double) (k : Int) : Option Decimal :=
  let (num, den) := d.quartersIn (4 * d.significand) k
  let below := num / den
  let nearer := roundQuotient num den
  let other := if nearer = below then below + 1 else below
  if d.roundsTo nearer k then some ⟨nearer, k⟩
  else if d.roundsTo other k then some ⟨other, k⟩
  else none

/-- The exponent `e` with `10 ^ e ≤ num / den < 10 ^ (e + 1)`, found by multiplying up a number
below one. -/
def decimalScale (num den : Nat) : Nat → Int
  | 0 => 0
  | tries + 1 =>
    if den ≤ num then ((Nat.toDigits 10 (num / den)).length : Int) - 1
    else decimalScale (num * 10) den tries - 1

/-- No number needs more digits than this. -/
def mostDigits : Nat := 17

/-- The first grid, from coarse to fine, that has a point which rounds to the number. -/
def shortest (d : Double) : Decimal :=
  let (num, den) := d.ratio
  let scale := decimalScale num den 400
  let grids := (List.range mostDigits).map fun (n : Nat) => scale - (n : Int)
  (grids.findSome? d.onGrid?).getD ⟨0, 0⟩

end Double

/-- Moves the zeros at the end of the digits into the exponent. -/
def Decimal.normalize (d : Decimal) : Nat → Decimal
  | 0 => d
  | tries + 1 =>
    if d.digits % 10 == 0 then
      Decimal.normalize ⟨d.digits / 10, d.exponent + 1⟩ tries
    else d

def positional (exponent : Int) : Bool :=
  -5 ≤ exponent && exponent ≤ 15

/-- The digits with a point, or in scientific notation with the sign of the exponent. An integer
ends in `.0`. -/
def Decimal.text (d : Decimal) : List Char :=
  let ds := Nat.toDigits 10 d.digits
  let scientific : Int := d.exponent + ds.length - 1
  if positional scientific then
    if 0 ≤ d.exponent then ds ++ List.replicate d.exponent.toNat '0' ++ ['.', '0']
    else if 0 ≤ scientific then
      let whole := scientific.toNat + 1
      ds.take whole ++ '.' :: ds.drop whole
    else ['0', '.'] ++ List.replicate (-scientific - 1).toNat '0' ++ ds
  else
    let fraction := if ds.length = 1 then [] else '.' :: ds.drop 1
    let sign := if scientific < 0 then '-' else '+'
    ds.take 1 ++ fraction ++ 'e' :: sign :: Nat.toDigits 10 scientific.natAbs

/-- The text of a number; a zero keeps its sign. -/
def Double.text (d : Double) : List Char :=
  let sign := if d.negative then ['-'] else []
  if d.isZero then sign ++ ['0', '.', '0']
  else sign ++ (d.shortest.normalize Double.mostDigits).text

end ExtensionAudit

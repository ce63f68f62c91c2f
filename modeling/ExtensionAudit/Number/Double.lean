namespace ExtensionAudit

-- Powers are those of the core library, whatever else is imported.
attribute [local instance (high)] instPowNat

/-- The number `± significand · 2 ^ exponent`. In the form that the operations give, the significand
has 53 bits, or fewer at the least exponent. -/
structure Double where
  negative : Bool
  significand : Nat
  exponent : Int
deriving DecidableEq, Repr

namespace Double

def leastExponent : Int := -1074

def greatestExponent : Int := 971

def zero : Double := ⟨false, 0, leastExponent⟩

def isZero (d : Double) : Bool := d.significand == 0

/-- `n · 2 ^ shift` as a ratio of two natural numbers. -/
def shifted (n : Nat) (shift : Int) : Nat × Nat :=
  match shift with
  | .ofNat up => (n * 2 ^ up, 1)
  | .negSucc down => (n, 2 ^ (down + 1))

/-- The quotient, rounded to the nearest natural number and a tie to the even one. -/
def roundQuotient (num den : Nat) : Nat :=
  let below := num / den
  let rest := num % den
  if 2 * rest > den || (2 * rest == den && below % 2 == 1) then below + 1 else below

/-- The exponent at which the integer part of `num / den` has 53 bits, or the least exponent. -/
def scaleOf (num den : Nat) : Int :=
  let first : Int := (num.log2 : Int) - den.log2 - 52
  let (up, down) := shifted 1 first
  let exact := if num * down < 2 ^ (52 : Nat) * (den * up) then first - 1 else first
  max exact leastExponent

/-- The number nearest to `± num / den`; nothing when it is too large. -/
def ofRatio? (negative : Bool) (num den : Nat) : Option Double :=
  if num = 0 then some { zero with negative }
  else
    let exponent := scaleOf num den
    let (up, down) := shifted 1 exponent
    let rounded := roundQuotient (num * down) (den * up)
    let carried := rounded == 2 ^ (53 : Nat)
    let significand := if carried then 2 ^ (52 : Nat) else rounded
    let exponent := if carried then exponent + 1 else exponent
    if exponent > greatestExponent then none else some ⟨negative, significand, exponent⟩

def ofNat? (n : Nat) : Option Double :=
  ofRatio? false n 1

/-- The size of a number as an exact ratio. -/
def ratio (d : Double) : Nat × Nat :=
  shifted d.significand d.exponent

def multiply? (a b : Double) : Option Double :=
  let (an, ad) := a.ratio
  let (bn, bd) := b.ratio
  ofRatio? (a.negative != b.negative) (an * bn) (ad * bd)

def divide? (a b : Double) : Option Double :=
  let (an, ad) := a.ratio
  let (bn, bd) := b.ratio
  ofRatio? (a.negative != b.negative) (an * bd) (ad * bn)

/-- The integer next to the number on the side of zero. -/
def truncate (d : Double) : Int :=
  let (num, den) := d.ratio
  let size : Int := (num / den : Nat)
  if d.negative then -size else size

def powerOfTen? (k : Nat) : Option Double :=
  ofNat? (10 ^ k)

def greatestPower : Nat := 308

/-- Division by `10 ^ k` in steps of at most the greatest power; each step rounds. -/
def divideByPower? (d : Double) (k : Nat) : Option Double :=
  if k ≤ greatestPower then do d.divide? (← powerOfTen? k)
  else if d.isZero then some d
  else do
    let smaller ← d.divide? (← powerOfTen? greatestPower)
    smaller.divideByPower? (k - greatestPower)
termination_by k
decreasing_by simp only [greatestPower] at *; omega

/-- `significand · 10 ^ exponent`, rounded first to a number and then once for each power of ten;
nothing when it is too large. -/
def ofDecimal? (significand : Nat) (exponent : Int) : Option Double := do
  let d ← ofNat? significand
  match exponent with
  | .ofNat up =>
    if up ≤ greatestPower then d.multiply? (← powerOfTen? up)
    else if d.isZero then some d
    else none
  | .negSucc down => d.divideByPower? (down + 1)

end Double

end ExtensionAudit

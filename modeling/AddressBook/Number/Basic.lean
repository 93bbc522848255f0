/-! Double-precision numbers, held exactly. Every finite one is a sign and a whole count of the
smallest positive step, the 1074th power of one half; a count is representable when 53 binary
digits hold it up to trailing zeros. Order, equality and rounding are then arithmetic on counts. -/

namespace AddressBook

inductive Number where
  | nan
  | infinite (negative : Bool)
  | finite (negative : Bool) (steps : Nat)
  deriving DecidableEq, Repr, Inhabited

namespace Number

-- Powers are the built-in ones, also where a library of algebra has others in scope.
attribute [instance(high), default_instance 20000] instPowNat

/-- The number of steps in one. -/
def one : Nat := 2 ^ 1074

/-- The first count beyond the finite numbers. -/
def limit : Nat := 2 ^ 2098

/-- The distance from a count to the next larger representable one. -/
def spacing (steps : Nat) : Nat :=
  if steps < 2 ^ 53 then 1 else 2 ^ (steps.log2 - 52)

/-- The quotient to the nearest whole number; a half goes to the even neighbour. -/
def roundDiv (numerator denominator : Nat) : Nat :=
  let quotient := numerator / denominator
  let twice := 2 * (numerator % denominator)
  if twice < denominator then quotient
  else if twice = denominator then quotient + quotient % 2
  else quotient + 1

/-- The representable count nearest to a quotient of counts. -/
def nearest (numerator denominator : Nat) : Nat :=
  let gap := spacing (numerator / denominator)
  roundDiv numerator (denominator * gap) * gap

def ofSteps (negative : Bool) (steps : Nat) : Number :=
  if steps < limit then .finite negative steps else .infinite negative

/-- The number nearest to a quotient. -/
def ofRatio (negative : Bool) (numerator denominator : Nat) : Number :=
  ofSteps negative (nearest (numerator * one) denominator)

def ofInt (i : Int) : Number := ofRatio (i < 0) i.natAbs 1

def decimalLength (n : Nat) : Nat := (Nat.toDigits 10 n).length

/-- The number nearest to a coefficient times a power of ten. -/
def ofDecimal (negative : Bool) (coefficient : Nat) (exponent : Int) : Number :=
  let size := exponent + decimalLength coefficient
  if coefficient = 0 || size < -330 then .finite negative 0
  else if 310 < size then .infinite negative
  else if 0 ≤ exponent then ofRatio negative (coefficient * 10 ^ exponent.toNat) 1
  else ofRatio negative coefficient (10 ^ (-exponent).toNat)

/-- The place in the order of numbers, an infinity standing at the first count beyond the finite
ones. -/
def position : Number → Option Int
  | .nan => none
  | .infinite negative => some (if negative then -(limit : Int) else limit)
  | .finite negative steps => some (if negative then -(steps : Int) else steps)

/-- Nothing is less than, equal to or greater than a number that is none. -/
def compare? (a b : Number) : Option Ordering := do
  return Ord.compare (← a.position) (← b.position)

/-- Equality of value: both zeros are equal, and what is no number equals nothing. -/
def sameValue (a b : Number) : Bool := a.compare? b == some .eq

def isZero (a : Number) : Bool := a.position == some 0

def isFinite : Number → Bool
  | .finite _ _ => true
  | _ => false

def isWhole : Number → Bool
  | .finite _ steps => steps % one == 0
  | _ => false

def clamp (low high i : Int) : Int := if i < low then low else if high < i then high else i

/-- The whole part, brought into the bounds; what is no number gives zero. -/
def truncate (low high : Int) : Number → Int
  | .nan => 0
  | .infinite negative => if negative then low else high
  | .finite negative steps =>
    let whole : Int := steps / one
    clamp low high (if negative then -whole else whole)

/-- The nearest whole number, a half going away from zero, brought into the bounds. -/
def round (low high : Int) : Number → Int
  | .finite negative steps =>
    let whole : Int := (2 * steps + one) / (2 * one)
    clamp low high (if negative then -whole else whole)
  | n => n.truncate low high

end Number

/-- The bounds of 64-bit and 32-bit integers. -/
def Int.least64 : Int := -2 ^ 63
def Int.most64 : Int := 2 ^ 63 - 1
def Int.least32 : Int := -2 ^ 31
def Int.most32 : Int := 2 ^ 31 - 1

end AddressBook

import AddressBook.Number.Basic

/-! The fewest decimal digits that read back. For one digit, two digits and so on, the two
neighbours of the value on that decimal grid are tried; the first grid with a neighbour that rounds
to the value wins, and of two such neighbours the nearer. Which of two equally near ones wins is for
the written form to say. All comparisons are between naturals. -/

namespace AddressBook.Number

/-- A coefficient and a power of ten. -/
structure Decimal where
  coefficient : Nat
  exponent : Int
  deriving DecidableEq, Repr, Inhabited

/-- Which of two equally near decimals stands for a value. -/
inductive TieRule where
  | toEven
  | up
  deriving DecidableEq, Repr, Inhabited

def TieRule.takesLow : TieRule → Nat → Bool
  | .toEven, low => low % 2 == 0
  | .up, _ => false

/-- The power of ten of the first digit of a positive count. -/
def leadingExponent (steps : Nat) : Int :=
  if one ≤ steps then (decimalLength (steps / one) : Int) - 1
  else -(decimalLength ((one + steps - 1) / steps - 1) : Int)

/-- Four times the ends of the interval of reals that round to the count. -/
def roundingInterval (steps : Nat) : Nat × Nat :=
  let gap := spacing steps
  let below := if 2 ^ 53 ≤ steps && steps == 2 ^ steps.log2 then gap else 2 * gap
  (4 * steps - below, 4 * steps + 2 * gap)

/-- Whether a grid point, counted in quarters of steps, rounds to the count. -/
def roundsTo (steps scale point : Nat) : Bool :=
  let (low, high) := roundingInterval steps
  if steps / spacing steps % 2 == 0 then low * scale ≤ point && point ≤ high * scale
  else low * scale < point && point < high * scale

/-- The better neighbour of the count on the grid of one power of ten, if one rounds to it. -/
def onGrid? (tie : TieRule) (steps : Nat) (exponent : Int) : Option Decimal :=
  let scale := 10 ^ (-exponent).toNat
  let unit := one * 10 ^ exponent.toNat
  let low := steps * scale / unit
  let high := low + 1
  let lowFits := 0 < low && roundsTo steps scale (4 * low * unit)
  let highFits := roundsTo steps scale (4 * high * unit)
  let toLow := steps * scale - low * unit
  let toHigh := high * unit - steps * scale
  if lowFits && (!highFits || toLow < toHigh || (toLow == toHigh && tie.takesLow low)) then
    some ⟨low, exponent⟩
  else if highFits then some ⟨high, exponent⟩
  else none

/-- The same decimal without the zeros at the end of its coefficient. -/
def Decimal.stripped : Nat → Decimal → Decimal
  | 0, d => d
  | fuel + 1, d =>
    if d.coefficient % 10 == 0 && d.coefficient != 0 then
      Decimal.stripped fuel ⟨d.coefficient / 10, d.exponent + 1⟩
    else d

/-- Seventeen digits always suffice. -/
def shortest (tie : TieRule) (steps : Nat) : Decimal :=
  if steps = 0 then ⟨0, 0⟩
  else
    let leading := leadingExponent steps
    let found := (List.range 17).findSome? fun (n : Nat) => onGrid? tie steps (leading - (n : Int))
    (found.getD ⟨0, 0⟩).stripped 20

end AddressBook.Number

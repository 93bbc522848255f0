import AddressBook.Number.Shortest

/-! The written forms of numbers. All use the fewest digits that read back and differ in where an
exponent takes the place of zeros and in which of two equally near decimals they take. -/

namespace AddressBook.Number

structure Layout where
  /-- The first-digit exponents that are written with a point rather than an exponent. -/
  positional : Int → Bool
  /-- Whether a whole number keeps a zero behind the point. -/
  keepsPoint : Bool
  /-- Whether a positive exponent has a plus sign. -/
  signsExponent : Bool
  tie : TieRule

/-- Never an exponent, and no point where none is needed. -/
def plain : Layout := ⟨fun _ => true, false, false, .up⟩

def json : Layout := ⟨fun x => -5 ≤ x && x < 16, true, true, .toEven⟩

/-- The form of numbers quoted in messages. -/
def message : Layout := ⟨fun x => -4 ≤ x && x < 16, true, false, .up⟩

def zeros (n : Nat) : List Char := List.replicate n '0'

/-- Digits with the point after the given number of them. -/
def withPoint (keepsPoint : Bool) (digits : List Char) (before : Int) : List Char :=
  let count := digits.length
  if before ≤ 0 then '0' :: '.' :: (zeros (-before).toNat ++ digits)
  else if before.toNat < count then digits.take before.toNat ++ '.' :: digits.drop before.toNat
  else digits ++ zeros (before.toNat - count) ++ (if keepsPoint then ['.', '0'] else [])

def withExponent (signsExponent : Bool) (digits : List Char) (exponent : Int) : List Char :=
  let lead :=
    match digits with
    | [] => []
    | [d] => [d]
    | d :: ds => d :: '.' :: ds
  let sign := if exponent < 0 then ['-'] else if signsExponent then ['+'] else []
  lead ++ 'e' :: (sign ++ Nat.toDigits 10 exponent.natAbs)

def writeMagnitude (layout : Layout) (steps : Nat) : List Char :=
  if steps = 0 then if layout.keepsPoint then ['0', '.', '0'] else ['0']
  else
    let decimal := shortest layout.tie steps
    let digits := Nat.toDigits 10 decimal.coefficient
    let leading := decimal.exponent + digits.length - 1
    if layout.positional leading then withPoint layout.keepsPoint digits (leading + 1)
    else withExponent layout.signsExponent digits leading

def write (layout : Layout) : Number → String
  | .nan => "NaN"
  | .infinite negative => if negative then "-inf" else "inf"
  | .finite negative steps =>
    String.ofList ((if negative then ['-'] else []) ++ writeMagnitude layout steps)

end AddressBook.Number

import AddressBook.Number.Basic

/-! Numbers read from decimal text. A whole number is digits with an optional sign; a number may
also have a point, an exponent, or be spelt as an infinity or as none. Nothing is skipped. -/

namespace AddressBook

def digitsValue (cs : List Char) : Nat :=
  cs.foldl (fun n c => 10 * n + (c.toNat - '0'.toNat)) 0

def isDigits (cs : List Char) : Bool := !cs.isEmpty && cs.all Char.isDigit

/-- Takes a sign off the front; `true` for minus. -/
def takeSign : List Char → Bool × List Char
  | '+' :: cs => (false, cs)
  | '-' :: cs => (true, cs)
  | cs => (false, cs)

def readInt? (s : String) : Option Int :=
  let (negative, digits) := takeSign s.toList
  if isDigits digits then
    let n : Int := digitsValue digits
    some (if negative then -n else n)
  else none

def readIntWithin? (low high : Int) (s : String) : Option Int :=
  (readInt? s).filter fun i => low ≤ i && i ≤ high

namespace Number

def readExponent? : List Char → Option Int
  | [] => some 0
  | c :: cs =>
    if c == 'e' || c == 'E' then
      let (negative, digits) := takeSign cs
      if isDigits digits then
        let n : Int := digitsValue digits
        some (if negative then -n else n)
      else none
    else none

def readUnsigned? (negative : Bool) (cs : List Char) : Option Number := do
  let whole := cs.takeWhile Char.isDigit
  let rest := cs.dropWhile Char.isDigit
  let (fraction, rest) :=
    match rest with
    | '.' :: rest => (rest.takeWhile Char.isDigit, rest.dropWhile Char.isDigit)
    | rest => ([], rest)
  if whole.isEmpty && fraction.isEmpty then none
  else
    let exponent ← readExponent? rest
    return ofDecimal negative (digitsValue (whole ++ fraction)) (exponent - fraction.length)

def read? (s : String) : Option Number :=
  let (negative, cs) := takeSign s.toList
  let small := cs.map Char.toLower
  if small == "inf".toList || small == "infinity".toList then some (.infinite negative)
  else if small == "nan".toList then some .nan
  else readUnsigned? negative cs

end Number

end AddressBook

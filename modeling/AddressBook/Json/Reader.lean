import AddressBook.Json.Basic
import AddressBook.Number.Reading
import AddressBook.Text.Basic

/-! Reading JSON text. Members of an object are then sorted by key and the last of equal keys counts.
Values nest at most 127 deep. A number with a point or exponent is read as a 64-bit coefficient,
made of as many leading digits as fit, times or divided by one power of ten: the coefficient, the
power and the result are each rounded to the nearest double. -/

namespace AddressBook.Json

def isSpace (c : Char) : Bool := c == ' ' || c == '\n' || c == '\t' || c == '\r'

def skipSpace (cs : List Char) : List Char := cs.dropWhile isSpace

def readHex? : List Char → Option (Nat × List Char)
  | a :: b :: c :: d :: rest => do
    let value :=
      (((← Text.hexValue? a) * 16 + (← Text.hexValue? b)) * 16 + (← Text.hexValue? c)) * 16
    return (value + (← Text.hexValue? d), rest)
  | _ => none

/-- The character of a hexadecimal escape; characters beyond the first plane take two escapes. -/
def readUnicode? (cs : List Char) : Option (Char × List Char) := do
  let (first, rest) ← readHex? cs
  if 0xDC00 ≤ first && first ≤ 0xDFFF then none
  else if 0xD800 ≤ first && first ≤ 0xDBFF then
    match rest with
    | '\\' :: 'u' :: rest =>
      let (second, rest) ← readHex? rest
      if 0xDC00 ≤ second && second ≤ 0xDFFF then
        return (Char.ofNat (0x10000 + (first - 0xD800) * 0x400 + (second - 0xDC00)), rest)
      else none
    | _ => none
  else return (Char.ofNat first, rest)

def readEscape? : List Char → Option (Char × List Char)
  | '"' :: rest => some ('"', rest)
  | '\\' :: rest => some ('\\', rest)
  | '/' :: rest => some ('/', rest)
  | 'b' :: rest => some (Char.ofNat 8, rest)
  | 'f' :: rest => some (Char.ofNat 12, rest)
  | 'n' :: rest => some ('\n', rest)
  | 'r' :: rest => some ('\r', rest)
  | 't' :: rest => some ('\t', rest)
  | 'u' :: rest => readUnicode? rest
  | _ => none

/-- Reads behind an opening quote; what was read is held last to first. -/
def readText? : Nat → List Char → List Char → Option (String × List Char)
  | 0, _, _ => none
  | _ + 1, _, [] => none
  | fuel + 1, done, c :: rest =>
    if c == '"' then some (String.ofList done.reverse, rest)
    else if c == '\\' then
      match readEscape? rest with
      | some (escaped, rest) => readText? fuel (escaped :: done) rest
      | none => none
    else if c.toNat < 0x20 then none
    else readText? fuel (c :: done) rest

/-- Appends digits to a coefficient as long as it fits 64 bits; the digits left over follow. -/
def absorb (coefficient : Nat) : List Char → Nat × List Char
  | [] => (coefficient, [])
  | d :: ds =>
    let longer := 10 * coefficient + (d.toNat - '0'.toNat)
    if longer < 2 ^ 64 then absorb longer ds else (coefficient, d :: ds)

def powerOfTen (exponent : Nat) : Nat := Number.nearest (10 ^ exponent * Number.one) 1

/-- A count of steps times a power of ten; `none` when the result is too large. Two divisions by
the largest power in use leave nothing of any coefficient. -/
def scale? : Nat → Nat → Int → Option Nat
  | 0, _, _ => some 0
  | fuel + 1, steps, exponent =>
    if 308 < exponent then if steps = 0 then some 0 else none
    else if 0 ≤ exponent then
      let scaled := Number.nearest (steps * powerOfTen exponent.toNat) Number.one
      if scaled < Number.limit then some scaled else none
    else if -308 ≤ exponent then
      some (Number.nearest (steps * Number.one) (powerOfTen (-exponent).toNat))
    else if steps = 0 then some 0
    else scale? fuel (Number.nearest (steps * Number.one) (powerOfTen 308)) (exponent + 308)

def real? (negative : Bool) (coefficient : Nat) (exponent : Int) : Option Json :=
  (scale? 4 (Number.nearest (coefficient * Number.one) 1) exponent).map fun steps =>
    .real (.finite negative steps)

/-- The exponent behind its mark: its sign and digits. -/
def readExponent? (cs : List Char) : Option (Bool × List Char × List Char) :=
  let (negative, cs) := takeSign cs
  let digits := cs.takeWhile Char.isDigit
  if digits.isEmpty then none else some (negative, digits, cs.dropWhile Char.isDigit)

/-- A number without exponent, and what follows it. An integer has 64 bits; minus zero is none. -/
def plainNumber? (negative : Bool) (coefficient : Nat) (exponent : Int) (isReal : Bool)
    (rest : List Char) : Option (Json × List Char) := do
  if isReal then return (← real? negative coefficient exponent, rest)
  else if !negative then return (.integer coefficient, rest)
  else if coefficient == 0 || 2 ^ 63 < coefficient then
    return (← real? true coefficient 0, rest)
  else return (.integer (-(coefficient : Int)), rest)

/-- A number whose digits before the point are known. -/
def readNumberTail? (negative : Bool) (whole rest : List Char) : Option (Json × List Char) := do
  let (coefficient, left) := absorb 0 whole
  let before : Int := left.length
  let (coefficient, exponent, isReal, rest) ←
    match rest with
    | '.' :: rest =>
      let fraction := rest.takeWhile Char.isDigit
      if fraction.isEmpty then none
      else
        let (longer, unread) := absorb coefficient fraction
        let after : Int := fraction.length - unread.length
        some (longer, before - after, true, rest.dropWhile Char.isDigit)
    | rest => some (coefficient, before, !left.isEmpty, rest)
  match rest with
  | c :: behind =>
    if c == 'e' || c == 'E' then
      let (down, digits, rest) ← readExponent? behind
      let given : Int := digitsValue digits
      if Int.most32 < given then
        if coefficient != 0 && !down then none
        else return (.real (.finite negative 0), rest)
      else
        let exponent := if down then exponent - given else exponent + given
        return (← real? negative coefficient exponent, rest)
    else plainNumber? negative coefficient exponent isReal (c :: behind)
  | [] => plainNumber? negative coefficient exponent isReal []

def readNumber? (cs : List Char) : Option (Json × List Char) :=
  let (negative, cs) :=
    match cs with
    | '-' :: rest => (true, rest)
    | cs => (false, cs)
  let whole := cs.takeWhile Char.isDigit
  let rest := cs.dropWhile Char.isDigit
  match whole with
  | [] => none
  | ['0'] => readNumberTail? negative whole rest
  | '0' :: _ => none
  | _ => readNumberTail? negative whole rest

def readWord? (word : String) (value : Json) (cs : List Char) : Option (Json × List Char) :=
  if word.toList.isPrefixOf cs then some (value, cs.drop word.length) else none

mutual

/-- Reads one value; `depth` more lists or objects may be entered. -/
def readValue? : Nat → Nat → List Char → Option (Json × List Char)
  | 0, _, _ => none
  | fuel + 1, depth, cs =>
    match skipSpace cs with
    | [] => none
    | c :: rest =>
      if c == '"' then (readText? (rest.length + 1) [] rest).map fun (s, rest) => (.text s, rest)
      else if c == '[' then
        match depth with
        | 0 => none
        | depth + 1 =>
          match skipSpace rest with
          | ']' :: rest => some (.list [], rest)
          | rest => readItems? fuel depth [] rest
      else if c == '\x7b' then
        match depth with
        | 0 => none
        | depth + 1 =>
          match skipSpace rest with
          | '\x7d' :: rest => some (.object [], rest)
          | rest => readMembers? fuel depth [] rest
      else if c == 't' then readWord? "true" (.bool true) (c :: rest)
      else if c == 'f' then readWord? "false" (.bool false) (c :: rest)
      else if c == 'n' then readWord? "null" .null (c :: rest)
      else readNumber? (c :: rest)

def readItems? : Nat → Nat → List Json → List Char → Option (Json × List Char)
  | 0, _, _, _ => none
  | fuel + 1, depth, done, cs =>
    match readValue? fuel depth cs with
    | none => none
    | some (item, rest) =>
      match skipSpace rest with
      | ',' :: rest => readItems? fuel depth (item :: done) rest
      | ']' :: rest => some (.list (item :: done).reverse, rest)
      | _ => none

def readMembers? : Nat → Nat → List (String × Json) → List Char → Option (Json × List Char)
  | 0, _, _, _ => none
  | fuel + 1, depth, done, cs =>
    match skipSpace cs with
    | '"' :: rest =>
      match readText? (rest.length + 1) [] rest with
      | none => none
      | some (key, rest) =>
        match skipSpace rest with
        | ':' :: rest =>
          match readValue? fuel depth rest with
          | none => none
          | some (value, rest) =>
            match skipSpace rest with
            | ',' :: rest => readMembers? fuel depth ((key, value) :: done) rest
            | '\x7d' :: rest => some (.object ((key, value) :: done).reverse, rest)
            | _ => none
        | _ => none
    | _ => none

end

/-- The value of a whole text, with the members of objects as they are written. -/
def readWritten? (cs : List Char) : Option Json := do
  let (value, rest) ← readValue? (2 * cs.length + 2) 127 cs
  if (skipSpace rest).isEmpty then return value else none

mutual

/-- The value with the members of its objects sorted, the last of equal keys standing for all. -/
def sorted : Json → Json
  | .list items => .list (sortedItems items)
  | .object members => .object (Keyed.ofList (sortedMembers members))
  | scalar => scalar

def sortedItems : List Json → List Json
  | [] => []
  | item :: items => sorted item :: sortedItems items

def sortedMembers : List (String × Json) → List (String × Json)
  | [] => []
  | (key, value) :: members => (key, sorted value) :: sortedMembers members

end

def read? (s : String) : Option Json := (readWritten? s.toList).map sorted

end AddressBook.Json

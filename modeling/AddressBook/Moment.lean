import AddressBook.Text.Basic
import AddressBook.Number.Reading

/-! Points in time, to the nanosecond, and their written form: date, time and offset, in the
calendar of today carried back without end. Reading is lenient about blanks, takes a one-digit
field and refuses what the offset moves out of the years that are counted; writing always uses the
zero offset and as many groups of three fraction digits as needed. -/

namespace AddressBook

structure Moment where
  /-- Nanoseconds since the start of 1970. -/
  nanoseconds : Int
  deriving DecidableEq, Repr, Inhabited

namespace Moment

def ofMilliseconds (ms : Int) : Moment := ⟨ms * 1000000⟩

/-- Milliseconds since the start of 1970, rounded down. -/
def milliseconds (m : Moment) : Int := Int.fdiv m.nanoseconds 1000000

structure Date where
  year : Int
  month : Nat
  day : Nat
  deriving DecidableEq, Repr

def isLeapYear (year : Int) : Bool :=
  Int.emod year 4 == 0 && (Int.emod year 100 != 0 || Int.emod year 400 == 0)

def monthLength (year : Int) (month : Nat) : Nat :=
  if month == 2 then if isLeapYear year then 29 else 28
  else if month ∈ [4, 6, 9, 11] then 30
  else 31

/-- Days from the start of 1970. Years are counted from March, so that a leap day ends one. -/
def Date.dayNumber (date : Date) : Int :=
  let year := if date.month ≤ 2 then date.year - 1 else date.year
  let era := Int.fdiv year 400
  let yearOfEra := year - era * 400
  let month : Int := if 2 < date.month then date.month - 3 else date.month + 9
  let dayOfYear := (153 * month + 2) / 5 + date.day - 1
  let dayOfEra := yearOfEra * 365 + yearOfEra / 4 - yearOfEra / 100 + dayOfYear
  era * 146097 + dayOfEra - 719468

def Date.ofDayNumber (days : Int) : Date :=
  let shifted := days + 719468
  let era := Int.fdiv shifted 146097
  let dayOfEra := shifted - era * 146097
  let yearOfEra := (dayOfEra - dayOfEra / 1460 + dayOfEra / 36524 - dayOfEra / 146096) / 365
  let dayOfYear := dayOfEra - (365 * yearOfEra + yearOfEra / 4 - yearOfEra / 100)
  let month := (5 * dayOfYear + 2) / 153
  let day := dayOfYear - (153 * month + 2) / 5 + 1
  let civilMonth := if month < 10 then month + 3 else month - 9
  let year := yearOfEra + era * 400
  ⟨if civilMonth ≤ 2 then year + 1 else year, civilMonth.toNat, day.toNat⟩

def firstYear : Int := -262143
def lastYear : Int := 262142

def isDate (date : Date) : Bool :=
  1 ≤ date.month && date.month ≤ 12 && 1 ≤ date.day &&
    date.day ≤ monthLength date.year date.month && firstYear ≤ date.year && date.year ≤ lastYear

/-- The seconds at which the first and the last minute of the calendar start, without offset. -/
def earliest : Int := (Date.dayNumber ⟨firstYear, 1, 1⟩) * 86400
def latest : Int := (Date.dayNumber ⟨lastYear, 12, 31⟩ + 1) * 86400 - 60

def padded (width n : Nat) : List Char :=
  let digits := Nat.toDigits 10 n
  List.replicate (width - digits.length) '0' ++ digits

def fractionText (nanoseconds : Nat) : List Char :=
  if nanoseconds = 0 then []
  else if nanoseconds % 1000000 = 0 then '.' :: padded 3 (nanoseconds / 1000000)
  else if nanoseconds % 1000 = 0 then '.' :: padded 6 (nanoseconds / 1000)
  else '.' :: padded 9 nanoseconds

def yearText (year : Int) : List Char :=
  if 0 ≤ year && year ≤ 9999 then padded 4 year.toNat
  else (if year < 0 then '-' else '+') :: padded 4 year.natAbs

def write (m : Moment) : String :=
  let seconds := Int.fdiv m.nanoseconds 1000000000
  let fraction := (Int.fmod m.nanoseconds 1000000000).toNat
  let date := Date.ofDayNumber (Int.fdiv seconds 86400)
  let ofDay := (Int.fmod seconds 86400).toNat
  String.ofList (yearText date.year ++ '-' :: padded 2 date.month ++ '-' :: padded 2 date.day ++
    'T' :: padded 2 (ofDay / 3600) ++ ':' :: padded 2 (ofDay / 60 % 60) ++
    ':' :: padded 2 (ofDay % 60) ++ fractionText fraction ++ "+00:00".toList)

def skipBlanks (cs : List Char) : List Char := cs.dropWhile Text.isBlank

/-- A number of one to `width` digits behind optional blanks. -/
def takeNumber? (width : Nat) (cs : List Char) : Option (Nat × List Char) :=
  let cs := skipBlanks cs
  let digits := (cs.take width).takeWhile Char.isDigit
  if digits.isEmpty then none else some (digitsValue digits, cs.drop digits.length)

def takeDigits? (cs : List Char) : Option (Nat × List Char) :=
  let digits := cs.takeWhile Char.isDigit
  if digits.isEmpty then none else some (digitsValue digits, cs.drop digits.length)

/-- A year has four digits, or any number of them behind a sign. -/
def takeYear? (cs : List Char) : Option (Int × List Char) :=
  match skipBlanks cs with
  | '-' :: rest => (takeDigits? rest).map fun (n, rest) => (-(n : Int), rest)
  | '+' :: rest => (takeDigits? rest).map fun (n, rest) => ((n : Int), rest)
  | rest => (takeNumber? 4 rest).map fun (n, rest) => ((n : Int), rest)

def takeMark? (mark : Char) (cs : List Char) : Option (List Char) :=
  match skipBlanks cs with
  | c :: rest => if c == mark then some rest else none
  | [] => none

/-- The fraction of a second in nanoseconds; digits beyond the ninth are passed over. -/
def takeFraction? : List Char → Option (Nat × List Char)
  | '.' :: rest =>
    let digits := (rest.take 9).takeWhile Char.isDigit
    if digits.isEmpty then none
    else
      some (digitsValue digits * 10 ^ (9 - digits.length),
        (rest.drop digits.length).dropWhile Char.isDigit)
  | rest => some (0, rest)

/-- The offset in seconds: a Z, the letters UTC, or signed hours and minutes. -/
def takeOffset? (cs : List Char) : Option (Int × List Char) :=
  match cs with
  | 'Z' :: rest => some (0, rest)
  | 'z' :: rest => some (0, rest)
  | sign :: rest =>
    if ((cs.take 3).map Char.toLower) == ['u', 't', 'c'] then some (0, cs.drop 3)
    else if sign == '+' || sign == '-' || sign.toNat == 0x2212 then
      match rest with
      | h :: k :: rest =>
        match rest.dropWhile fun c => c == ':' || Text.isBlank c with
        | m :: n :: rest =>
          if [h, k, m, n].all Char.isDigit && m < '6' then
            let hours := digitsValue [h, k]
            let seconds : Int := hours * 3600 + digitsValue [m, n] * 60
            if 23 < hours then none else some (if sign == '+' then seconds else -seconds, rest)
          else none
        | _ => none
      | _ => none
    else none
  | [] => none

def read? (s : String) : Option Moment := do
  let (year, cs) ← takeYear? s.toList
  let (month, cs) ← takeNumber? 2 (← takeMark? '-' cs)
  let (day, cs) ← takeNumber? 2 (← takeMark? '-' cs)
  let cs ←
    match cs with
    | c :: rest => if c == 'T' || c == 't' || c == ' ' then some rest else none
    | [] => none
  let (hour, cs) ← takeNumber? 2 cs
  let (minute, cs) ← takeNumber? 2 (← takeMark? ':' cs)
  let (second, cs) ← takeNumber? 2 (← takeMark? ':' cs)
  let (fraction, cs) ← takeFraction? cs
  let (offset, cs) ← takeOffset? (skipBlanks cs)
  let date : Date := ⟨year, month, day⟩
  let seconds := date.dayNumber * 86400 + hour * 3600 + minute * 60 + second - offset
  let minuteStart := seconds - second
  if isDate date && hour < 24 && minute < 60 && second ≤ 60 && (skipBlanks cs).isEmpty &&
      earliest ≤ minuteStart && minuteStart ≤ latest then
    return ⟨seconds * 1000000000 + fraction⟩
  else none

end Moment

end AddressBook

/-! Blanks, trimming, cutting and joining. The rules are stated on lists of characters; each has a
form on strings beside it. Blanks are the white space of Unicode, of which the zero-width
characters are not part. -/

namespace AddressBook.Text

def isBlank (c : Char) : Bool :=
  let n := c.toNat
  (9 ≤ n && n ≤ 13) || n == 0x20 || n == 0x85 || n == 0xA0 || n == 0x1680 ||
    (0x2000 ≤ n && n ≤ 0x200A) || n == 0x2028 || n == 0x2029 || n == 0x202F || n == 0x205F ||
    n == 0x3000

def dropEndBlanks : List Char → List Char
  | [] => []
  | c :: cs =>
    match dropEndBlanks cs with
    | [] => if isBlank c then [] else [c]
    | kept => c :: kept

def trimChars (cs : List Char) : List Char := dropEndBlanks (cs.dropWhile isBlank)

def trim (s : String) : String := String.ofList (trimChars s.toList)

/-- The pieces between the characters that satisfy `p`; there is one piece more than such
characters. -/
def cutWhere (p : Char → Bool) : List Char → List (List Char)
  | [] => [[]]
  | c :: cs =>
    if p c then [] :: cutWhere p cs
    else
      match cutWhere p cs with
      | [] => [[c]]
      | piece :: pieces => (c :: piece) :: pieces

def splitOn (separator : Char) (s : String) : List String :=
  (cutWhere (· == separator) s.toList).map String.ofList

def wordChars (cs : List Char) : List (List Char) :=
  (cutWhere isBlank cs).filter (!·.isEmpty)

def words (s : String) : List String := (wordChars s.toList).map String.ofList

def join (separator : String) (pieces : List String) : String :=
  String.ofList (List.intercalate separator.toList (pieces.map String.toList))

/-- Every run of blanks becomes one space, and none is left at the ends. -/
def collapseBlanks (s : String) : String := join " " (words s)

/-- The trimmed pieces that hold anything. -/
def list (separator : Char) (s : String) : List String :=
  ((splitOn separator s).map trim).filter (!·.isEmpty)

/-- The texts before and after the first `mark`. -/
def cutAtFirst (mark : Char) : List Char → Option (List Char × List Char)
  | [] => none
  | c :: cs =>
    if c == mark then some ([], cs)
    else (cutAtFirst mark cs).map fun (before, after) => (c :: before, after)

def occursIn (pattern : List Char) : List Char → Bool
  | [] => pattern.isEmpty
  | c :: cs => pattern.isPrefixOf (c :: cs) || occursIn pattern cs

/-- The texts before and after the first occurrence of `pattern`. -/
def cutAtText (pattern : List Char) : List Char → Option (List Char × List Char)
  | [] => if pattern.isEmpty then some ([], []) else none
  | c :: cs =>
    if pattern.isPrefixOf (c :: cs) then some ([], (c :: cs).drop pattern.length)
    else (cutAtText pattern cs).map fun (before, after) => (c :: before, after)

def asciiLower (s : String) : String := String.ofList (s.toList.map Char.toLower)

def asciiUpper (s : String) : String := String.ofList (s.toList.map Char.toUpper)

/-- Equal up to the case of ASCII letters. -/
def sameAscii (a b : String) : Bool := asciiLower a == asciiLower b

def beforeNul (s : String) : List Char := s.toList.takeWhile fun c => c.toNat != 0

/-- Equality of keys in a table: up to the case of ASCII letters, and only before the first NUL, of
texts that are equally long in UTF-8. -/
def sameKey (a b : String) : Bool :=
  a.utf8ByteSize == b.utf8ByteSize && (beforeNul a).map Char.toLower == (beforeNul b).map Char.toLower

def isAsciiAlphanumeric (c : Char) : Bool := c.isAlpha || c.isDigit

/-- The value of a hexadecimal digit. -/
def hexValue? (c : Char) : Option Nat :=
  if c.isDigit then some (c.toNat - '0'.toNat)
  else if 'a' ≤ c && c ≤ 'f' then some (c.toNat - 'a'.toNat + 10)
  else if 'A' ≤ c && c ≤ 'F' then some (c.toNat - 'A'.toNat + 10)
  else none

/-- Membership in a table of closed ranges of code points. -/
def inRanges (table : List (Nat × Nat)) (c : Char) : Bool :=
  table.any fun (low, high) => low ≤ c.toNat && c.toNat ≤ high

end AddressBook.Text

import AddressBook.Text.Basic

/-! Bytes as text: UTF-8, and the escapes by which addresses write bytes. -/

namespace AddressBook.Text.Utf8

/-- How many bytes follow the first byte of a character, and the bounds of the first of them. -/
def tails? (first : UInt8) : Option (Nat × UInt8 × UInt8) :=
  if 0xC2 ≤ first && first ≤ 0xDF then some (1, 0x80, 0xBF)
  else if first == 0xE0 then some (2, 0xA0, 0xBF)
  else if first == 0xED then some (2, 0x80, 0x9F)
  else if 0xE1 ≤ first && first ≤ 0xEF then some (2, 0x80, 0xBF)
  else if first == 0xF0 then some (3, 0x90, 0xBF)
  else if 0xF1 ≤ first && first ≤ 0xF3 then some (3, 0x80, 0xBF)
  else if first == 0xF4 then some (3, 0x80, 0x8F)
  else none

def isTail (byte : UInt8) : Bool := 0x80 ≤ byte && byte ≤ 0xBF

/-- What bytes start with. -/
inductive Front where
  | char (c : Char) (width : Nat)
  /-- So many bytes that begin no character. -/
  | broken (width : Nat)
  /-- The bytes end inside a character. -/
  | cut
  deriving DecidableEq, Repr

/-- The code point of a character that has so many bytes behind its first. -/
def codePoint (first : UInt8) (tails : List UInt8) : Nat :=
  tails.foldl (fun code tail => code * 64 + (tail.toNat - 0x80)) (first.toNat % 2 ^ (6 - tails.length))

def front : List UInt8 → Front
  | [] => .cut
  | first :: rest =>
    if first < 0x80 then .char (Char.ofNat first.toNat) 1
    else
      match tails? first, rest with
      | none, _ => .broken 1
      | some _, [] => .cut
      | some (count, low, high), second :: _ =>
        if second < low || high < second then .broken 1
        else
          let tails := (rest.take count).takeWhile isTail
          if tails.length = count then
            .char (Char.ofNat (codePoint first tails)) (count + 1)
          else if tails.length = rest.length then .cut
          else .broken (tails.length + 1)

/-- Where bytes stop being text, and how many of them are wrong unless the text just ends. -/
structure Flaw where
  index : Nat
  width : Option Nat
  deriving DecidableEq, Repr

def Flaw.message (flaw : Flaw) : String :=
  match flaw.width with
  | some width =>
    "invalid utf-8 sequence of " ++ toString width ++ " bytes from index " ++ toString flaw.index
  | none => "incomplete utf-8 byte sequence from index " ++ toString flaw.index

/-- The text of bytes, the first `index` of which have been read. -/
def readFrom : Nat → Nat → List UInt8 → Except Flaw (List Char)
  | 0, _, _ => .ok []
  | _, _, [] => .ok []
  | fuel + 1, index, bytes =>
    match front bytes with
    | .char c width => (readFrom fuel (index + width) (bytes.drop width)).map (c :: ·)
    | .broken width => .error ⟨index, some width⟩
    | .cut => .error ⟨index, none⟩

def read (bytes : List UInt8) : Except Flaw (List Char) := readFrom bytes.length 0 bytes

def replacement : Char := Char.ofNat 0xFFFD

/-- The text of bytes, with a mark for each group that begins no character. -/
def readAnyFrom : Nat → List UInt8 → List Char
  | 0, _ => []
  | _, [] => []
  | fuel + 1, bytes =>
    match front bytes with
    | .char c width => c :: readAnyFrom fuel (bytes.drop width)
    | .broken width => replacement :: readAnyFrom fuel (bytes.drop width)
    | .cut => [replacement]

def readAny (bytes : List UInt8) : List Char := readAnyFrom bytes.length bytes

/-- The bytes of a text in which a percent sign with two hexadecimal digits stands for one byte. -/
def unescaped : List Char → List UInt8
  | [] => []
  | '%' :: a :: b :: rest =>
    match hexValue? a, hexValue? b with
    | some high, some low => UInt8.ofNat (16 * high + low) :: unescaped rest
    | _, _ => String.utf8EncodeChar '%' ++ unescaped (a :: b :: rest)
  | c :: rest => String.utf8EncodeChar c ++ unescaped rest

end AddressBook.Text.Utf8

import AddressBook.Text.Basic
import AddressBook.Text.HiddenTable

/-! Text between double quotes. A formula literal escapes the quote and the backslash and nothing
else; a quotation in a message also escapes what would not show. -/

namespace AddressBook.Text

def escapeChar (c : Char) : List Char :=
  if c == '"' || c == '\\' then ['\\', c] else [c]

def escapeChars (cs : List Char) : List Char := cs.flatMap escapeChar

/-- A text as a formula literal. -/
def quote (s : String) : String := String.ofList ('"' :: escapeChars s.toList ++ ['"'])

def isHidden (c : Char) : Bool :=
  if c.toNat < 0x80 then c.toNat < 0x20 || c.toNat == 0x7F else inRanges HiddenTable.hidden c

def hexDigits (n : Nat) : List Char := Nat.toDigits 16 n

def showChar (c : Char) : List Char :=
  match c with
  | '"' => ['\\', '"']
  | '\\' => ['\\', '\\']
  | '\n' => ['\\', 'n']
  | '\r' => ['\\', 'r']
  | '\t' => ['\\', 't']
  | c =>
    if c.toNat == 0 then ['\\', '0']
    else if isHidden c then ['\\', 'u', '\x7b'] ++ hexDigits c.toNat ++ ['\x7d']
    else [c]

/-- A text as a message quotes it. -/
def quotation (s : String) : String := String.ofList ('"' :: s.toList.flatMap showChar ++ ['"'])

end AddressBook.Text

import AddressBook.Text.Basic
import AddressBook.Text.LetterTable

/-! Letters and digits of all scripts. -/

namespace AddressBook.Text

def isAlphabetic (c : Char) : Bool :=
  if c.toNat < 0x80 then c.isAlpha else inRanges LetterTable.alphabetic c

def isAlphanumeric (c : Char) : Bool :=
  if c.toNat < 0x80 then isAsciiAlphanumeric c
  else inRanges LetterTable.alphabetic c || inRanges LetterTable.numeric c

end AddressBook.Text

import AddressBook.Text.Basic
import AddressBook.Text.CaseTable

/-! Lower-casing by the full mapping of Unicode. Two rules go beyond the table: the dotted capital
I becomes two characters, and a capital sigma that ends a word becomes the final sigma. -/

namespace AddressBook.Text

def smallCounterpart? (c : Char) : Option Char :=
  CaseTable.smallCounterparts.findSome? fun (first, count, step, target) =>
    let offset := c.toNat - first
    if first ≤ c.toNat && offset < count * step && offset % step == 0 then
      some (Char.ofNat (target + offset))
    else none

def lowerChar (c : Char) : List Char :=
  if c.toNat < 0x80 then [c.toLower]
  else if c.toNat == 0x130 then ['i', Char.ofNat 0x307]
  else [(smallCounterpart? c).getD c]

def isCased (c : Char) : Bool :=
  if c.toNat < 0x80 then c.isAlpha else inRanges CaseTable.cased c

def isCaseIgnorable (c : Char) : Bool :=
  if c.toNat < 0x80 then c.toNat ∈ [0x27, 0x2E, 0x3A, 0x5E, 0x60]
  else inRanges CaseTable.ignorable c

/-- Whether a cased character comes first once the ignorable ones are passed over. -/
def meetsCased (cs : List Char) : Bool :=
  match cs.dropWhile isCaseIgnorable with
  | [] => false
  | c :: _ => isCased c

def capitalSigma : Char := Char.ofNat 0x3A3
def smallSigma : Char := Char.ofNat 0x3C3
def finalSigma : Char := Char.ofNat 0x3C2

/-- Lower-cases the second text, which follows the first; the first is written last to first. -/
def lowerAfter (before : List Char) : List Char → List Char
  | [] => []
  | c :: cs =>
    let small :=
      if c == capitalSigma then
        [if meetsCased before && !meetsCased cs then finalSigma else smallSigma]
      else lowerChar c
    small ++ lowerAfter (c :: before) cs

def lowerChars (cs : List Char) : List Char := lowerAfter [] cs

def lower (s : String) : String := String.ofList (lowerChars s.toList)

/-- Names and aliases are the same when they differ in case and outer blanks only. -/
def sameName (a b : String) : Bool := lower (trim a) == lower (trim b)

end AddressBook.Text

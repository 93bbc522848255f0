import AddressBook.Keyed
import AddressBook.Number.Layout

/-! JSON values. Whole numbers that 64 bits hold are kept apart from the rest, which are double
precision. -/

namespace AddressBook

inductive Json where
  | null
  | bool (value : Bool)
  | integer (value : Int)
  | real (value : Number)
  | text (value : String)
  | list (items : List Json)
  | object (members : List (String × Json))
  deriving Inhabited, BEq, Repr

namespace Json

def member? (key : String) : Json → Option Json
  | .object members => Keyed.get? key members
  | _ => none

def text? : Json → Option String
  | .text s => some s
  | _ => none

/-- The value of a number as double precision. -/
def number? : Json → Option Number
  | .integer i => some (Number.ofInt i)
  | .real n => some n
  | _ => none

end Json

end AddressBook

import AddressBook.EntryClass
import AddressBook.Json.Basic

/-! Attributes of entries: their types, what may be done with them, and how whole numbers are
stored. -/

namespace AddressBook.Schema

inductive ValueType where
  | text
  | integer
  | long
  | boolean
  | secret
  deriving DecidableEq, Repr, Inhabited

def ValueType.word : ValueType → String
  | .text => "string"
  | .integer => "integer"
  | .long => "long"
  | .boolean => "boolean"
  | .secret => "secret"

/-- How an integer attribute is stored: as a number, or as text that holds one. -/
inductive Coercion where
  | fromNumber
  | fromText
  deriving DecidableEq, Repr, Inhabited

def Coercion.word : Coercion → String
  | .fromNumber => "FromNumber"
  | .fromText => "FromText"

structure Attribute where
  name : String
  type : ValueType := .text
  coercion : Option Coercion := none
  /-- Interpreted when an entry is written, rather than stored. -/
  operational : Bool := false
  readable : Bool := true
  /-- Read also when not asked for, provided it is readable. -/
  unasked : Bool := true
  updateable : Bool := true
  creatable : Bool := true
  multiValued : Bool := false
  required : Bool := false
  deriving DecidableEq, Repr, Inhabited

namespace Attribute

def readByDefault (a : Attribute) : Bool := a.readable && a.unasked

/-- The names of the restrictions and duties of an attribute. -/
def flags (a : Attribute) : List String :=
  (if a.readable then [] else ["NOT_READABLE"]) ++
    (if a.unasked then [] else ["NOT_RETURNED_BY_DEFAULT"]) ++
    (if a.updateable then [] else ["NOT_UPDATEABLE"]) ++
    (if a.creatable then [] else ["NOT_CREATABLE"]) ++
    (if a.multiValued then ["MULTIVALUED"] else []) ++
    (if a.required then ["REQUIRED"] else [])

def toJson (a : Attribute) : Json :=
  .object [("flags", .list (a.flags.map .text)), ("name", .text a.name),
    ("operational", .bool a.operational), ("type", .text a.type.word)]

end Attribute

end AddressBook.Schema

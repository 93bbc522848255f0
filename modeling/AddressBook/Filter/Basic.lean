import AddressBook.Comparison
import AddressBook.Fault
import AddressBook.Json.Printer

/-! Filters: what a caller searches for. The leaves name attributes as callers do. -/

namespace AddressBook

inductive Filter where
  /-- One of the values is a value of the attribute. -/
  | equals (name : String) (values : List Json)
  | containsAll (name : String) (values : List Json)
  | ordered (relation : Relation) (name : String) (value : Json)
  | matching (place : Place) (name : String) (value : Json)
  | both (left right : Filter)
  | either (left right : Filter)
  | negation (inner : Filter)
  deriving Inhabited, BEq, Repr

namespace Filter

/-- The attribute that a leaf is about. -/
def name? : Filter → Option String
  | .equals name _ => some name
  | .containsAll name _ => some name
  | .ordered _ name _ => some name
  | .matching _ name _ => some name
  | .both _ _ => none
  | .either _ _ => none
  | .negation _ => none

/-- Why a text is no filter. -/
inductive Flaw where
  | emptyFilter
  | unreadable (text : String)
  | notAnArray (text : String)
  | notJson
  deriving DecidableEq, Repr

def Flaw.fault : Flaw → Fault
  | .emptyFilter => .filterParse "Empty filter"
  | .unreadable text => .filterParse ("Could not parse filter: " ++ text)
  | .notAnArray text => .filterParse ("Expected a non-empty array: " ++ text)
  | .notJson => .serialization

end Filter

end AddressBook

import AddressBook.Text.Basic

/-! Hierarchical names. A name is a common name, which stands alone when the name is flat, or has a
position below an organization. Units are listed from the common name upwards. -/

namespace AddressBook

structure Position where
  units : List String
  organization : String
  country : Option String
  deriving DecidableEq, Repr

structure Name where
  common : String
  position : Option Position
  deriving DecidableEq, Repr

namespace Position

/-- The parts above the common name, upwards. -/
def parts (p : Position) : List String := p.units ++ p.organization :: p.country.toList

def labelledParts (p : Position) : List String :=
  p.units.map ("OU=" ++ ·) ++ ("O=" ++ p.organization) :: p.country.toList.map ("C=" ++ ·)

end Position

namespace Name

/-- The most units a name may have. -/
def mostUnits : Nat := 4

def isFlat (n : Name) : Bool := n.position.isNone

def units (n : Name) : List String := (n.position.map Position.units).getD []

def organization (n : Name) : Option String := n.position.map Position.organization

def country (n : Name) : Option String := n.position.bind Position.country

/-- Every part under its label; a flat name is its common name alone. -/
def canonical (n : Name) : String :=
  match n.position with
  | none => n.common
  | some p => Text.join "/" (("CN=" ++ n.common) :: p.labelledParts)

/-- The parts without their labels. -/
def abbreviated (n : Name) : String :=
  match n.position with
  | none => n.common
  | some p => Text.join "/" (n.common :: p.parts)

/-- The units in one text, nearest first. -/
def unitText (n : Name) : String := Text.join "\\" n.units

end Name

end AddressBook

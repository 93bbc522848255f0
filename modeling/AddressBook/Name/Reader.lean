import AddressBook.Name.Basic
import AddressBook.Fault

/-! Reading names. The components between slashes are either all labelled or all bare. Labels come
in the order of the hierarchy. Of bare components the first is the common name and the last the
organization, unless there are three or more and the last has two characters: then it is the
country, and the organization stands before it. -/

namespace AddressBook.Name

inductive Label where
  | common
  | unit
  | organization
  | country
  deriving DecidableEq, Repr

inductive Flaw where
  | emptyName
  | emptyComponent
  | mixedLabels
  | outOfOrder
  | missingCommonName
  | missingOrganization
  | tooManyUnits
  deriving DecidableEq, Repr

def Flaw.reason : Flaw → String
  | .emptyName => "empty name"
  | .emptyComponent => "empty component"
  | .mixedLabels => "mixes labelled and unlabelled components"
  | .outOfOrder => "components out of order"
  | .missingCommonName => "missing common name"
  | .missingOrganization => "missing organization"
  | .tooManyUnits => "more than " ++ toString mostUnits ++ " organizational units"

namespace Label

def rank : Label → Nat
  | .common => 0
  | .unit => 1
  | .organization => 2
  | .country => 3

def ofText? (s : String) : Option Label :=
  match Text.asciiUpper s with
  | "CN" => some .common
  | "OU" => some .unit
  | "O" => some .organization
  | "C" => some .country
  | _ => none

/-- Whether a component with the second label may follow one with the first. -/
def allows (earlier later : Label) : Bool :=
  earlier.rank < later.rank || (earlier == .unit && later == .unit)

end Label

/-- The label and value of a component, if the text before its first equals sign is a label. -/
def labelled? (component : String) : Option (Label × String) := do
  let (before, after) ← Text.cutAtFirst '=' component.toList
  let label ← Label.ofText? (Text.trim (String.ofList before))
  return (label, Text.trim (String.ofList after))

/-- The labelled parts met so far. -/
structure Draft where
  common : Option String
  units : List String
  organization : Option String
  country : Option String
  deriving DecidableEq, Repr

namespace Draft

def empty : Draft := ⟨none, [], none, none⟩

def put (d : Draft) (label : Label) (value : String) : Draft :=
  match label with
  | .common => { d with common := some value }
  | .unit => { d with units := d.units ++ [value] }
  | .organization => { d with organization := some value }
  | .country => { d with country := some value }

def fill (d : Draft) (previous : Option Label) : List (Label × String) → Except Flaw Draft
  | [] => .ok d
  | (label, value) :: rest =>
    if value.isEmpty then .error .emptyComponent
    else if (previous.map fun p => p.allows label).getD true then
      (d.put label value).fill (some label) rest
    else .error .outOfOrder

def finish (d : Draft) : Except Flaw Name :=
  match d.common, d.organization with
  | none, _ => .error .missingCommonName
  | some common, some organization => .ok ⟨common, some ⟨d.units, organization, d.country⟩⟩
  | some common, none =>
    if d.units.isEmpty && d.country.isNone then .ok ⟨common, none⟩
    else .error .missingOrganization

end Draft

/-- The position that bare components above the common name stand for. -/
def positionOfBare (parts : List String) : Option Position :=
  match parts.reverse with
  | [] => none
  | [organization] => some ⟨[], organization, none⟩
  | last :: previous :: units =>
    if last.length == 2 then some ⟨units.reverse, previous, some last⟩
    else some ⟨(previous :: units).reverse, last, none⟩

def ofBare : List String → Except Flaw Name
  | [] => .error .emptyName
  | common :: parts => .ok ⟨common, positionOfBare parts⟩

def ofComponents (components : List String) : Except Flaw Name :=
  let labelled := components.filterMap labelled?
  if labelled.length == components.length then do
    (← Draft.empty.fill none labelled).finish
  else if labelled.isEmpty then ofBare components
  else .error .mixedLabels

def components (trimmed : String) : List String := (Text.splitOn '/' trimmed).map Text.trim

def read (raw : String) : Except Flaw Name := do
  let trimmed := Text.trim raw
  if trimmed.isEmpty then throw .emptyName
  let parts := components trimmed
  if parts.any (·.isEmpty) then throw .emptyComponent
  let name ← ofComponents parts
  if mostUnits < name.units.length then throw .tooManyUnits
  return name

/-- Reads a name; the fault quotes the text as it was given. -/
def parse (raw : String) : Except Fault Name :=
  (read raw).mapError fun flaw => .nameFormat raw flaw.reason

end AddressBook.Name

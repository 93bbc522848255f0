import AddressBook.Query.Basic
import AddressBook.Filter.Basic
import AddressBook.Schema.Registry
import AddressBook.Name.Canonical
import AddressBook.Alias

/-! Compiling filters into queries. Negation moves to the leaves. A leaf without a value places no
constraint, and a connective of which one side is missing is its other side. -/

namespace AddressBook

/-- What a search for all of several values looks for. -/
inductive ContainsAll where
  | firstValue
  | everyValue
  deriving DecidableEq, Repr, Inhabited

/-- How searches treat case and several values. -/
structure SearchRules where
  ignoreCase : Bool := true
  /-- The fields that are compared exactly all the same. -/
  exact : List String := []
  containsAll : ContainsAll := .firstValue
  deriving DecidableEq, Repr, Inhabited

namespace SearchRules

/-- The fields that are never compared without regard to case. -/
def alwaysExact : List String := ["ShortName", "NoteID"]

def isExact (rules : SearchRules) (field : String) : Bool :=
  !rules.ignoreCase || (alwaysExact ++ rules.exact).any fun name => Text.sameAscii name field

end SearchRules

namespace Query

/-- The field that holds an attribute. -/
def fieldName (kind : EntryClass) (name : String) : String :=
  if name = Schema.nameAttribute then kind.nameItem
  else if name = Schema.uidAttribute then kind.uidItem
  else ((Schema.find? kind name).map (·.name)).getD name

/-- Names and ids in the form in which they are stored. -/
def storedForm (kind : EntryClass) (name value : String) : Except Fault String :=
  match kind with
  | .account =>
    if name = Schema.nameAttribute || Text.sameAscii name "FullName" then do
      return (← Name.canonicalize value).text
    else if name = Schema.uidAttribute then .ok (NoteId.extract value)
    else .ok value
  | .group =>
    if name = Schema.nameAttribute || name = Schema.uidAttribute ||
        Text.sameAscii name "ListName" then
      .ok (Alias.display value)
    else .ok value

/-- The literal of a filter value; null has none. Patterns stay as they are, other texts are
brought into the stored form. -/
def literal? (kind : EntryClass) (name : String) (isPattern : Bool) (value : Json) :
    Except Fault (Option Literal) :=
  match value with
  | .null => .ok none
  | .bool b => .ok (some (.text (if b then "true" else "false")))
  | .integer i => .ok (some (.number (.integer i)))
  | .real n => .ok (some (.number (.real n)))
  | .text s => if isPattern then .ok (some (.text s)) else do
    return some (.text (← storedForm kind name s))
  | other => .error (.filterParse ("Unsupported filter value for " ++ name ++ ": " ++ other.compact))

def literals (kind : EntryClass) (name : String) : List Json → Except Fault (List Literal)
  | [] => .ok []
  | value :: values => do
    let first ← literal? kind name false value
    return first.toList ++ (← literals kind name values)

/-- Whether a comparison with literals, of which one is a text, ignores case. -/
def ignoresCase (rules : SearchRules) (field : String) (values : List Literal) : Bool :=
  values.any Literal.isText && !rules.isExact field

def equalityOf (rules : SearchRules) (negated : Bool) (field : String) (values : List Literal) :
    Query :=
  if ignoresCase rules field values then
    .equality negated ⟨field, true⟩ (values.map Literal.lowerCase)
  else .equality negated ⟨field, false⟩ values

def matchingOf (rules : SearchRules) (negated : Bool) (place : Place) (field : String)
    (value : Literal) : Query :=
  if ignoresCase rules field [value] then .matching negated place ⟨field, true⟩ value.lowerCase
  else .matching negated place ⟨field, false⟩ value

def ofMatching (rules : SearchRules) (kind : EntryClass) (negated : Bool) (place : Place)
    (isPattern : Bool) (name : String) (value : Json) : Except Fault (Option Query) := do
  return (← literal? kind name isPattern value).map
    (matchingOf rules negated place (fieldName kind name))

/-- Joins two constraints, either of which may be missing. -/
def joined (conjunction : Bool) : Option Query → Option Query → Option Query
  | some left, some right => some (if conjunction then .both left right else .either left right)
  | left, none => left
  | none, right => right

def ofEvery (rules : SearchRules) (kind : EntryClass) (negated : Bool) (name : String)
    (earlier : Option Query) : List Json → Except Fault (Option Query)
  | [] => .ok earlier
  | value :: values => do
    let next ← ofMatching rules kind negated .anywhere false name value
    ofEvery rules kind negated name (joined (!negated) earlier next) values

def ofContainsAll (rules : SearchRules) (kind : EntryClass) (negated : Bool) (name : String)
    (values : List Json) : Except Fault (Option Query) :=
  match rules.containsAll with
  | .everyValue => ofEvery rules kind negated name none values
  | .firstValue => ofEvery rules kind negated name none (values.take 1)

/-- The query of a filter, or of its negation. -/
def compile (rules : SearchRules) (kind : EntryClass) (negated : Bool) :
    Filter → Except Fault (Option Query)
  | .equals name values => do
    match ← literals kind name values with
    | [] => return none
    | found => return some (equalityOf rules negated (fieldName kind name) found)
  | .containsAll name values => ofContainsAll rules kind negated name values
  | .ordered relation name value => do
    return (← literal? kind name false value).map fun literal =>
      .ordering (if negated then relation.complement else relation) (fieldName kind name) literal
  | .matching place name value => ofMatching rules kind negated place true name value
  | .both left right => do
    return joined (!negated) (← compile rules kind negated left) (← compile rules kind negated right)
  | .either left right => do
    return joined negated (← compile rules kind negated left) (← compile rules kind negated right)
  | .negation inner => compile rules kind (!negated) inner

/-- The query of a filter, if it places any constraint. -/
def ofFilter (rules : SearchRules) (kind : EntryClass) (filter : Filter) :
    Except Fault (Option Query) :=
  compile rules kind false filter

end Query

end AddressBook

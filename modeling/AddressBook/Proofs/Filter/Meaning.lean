import AddressBook.Formula.Meaning
import AddressBook.Proofs.Text.Identifier
import AddressBook.Query.Compiler

/-! What a filter means on a note, read directly. A filter is read together with whether it is
negated; a part that gives no value to compare with places no constraint, and a connective without
one of its sides is the other side. -/

namespace AddressBook

def Scalar.isText : Scalar → Bool
  | .text _ => true
  | .number _ => false

namespace Filter

def isPlainValue : Json → Bool
  | .null => true
  | .bool _ => true
  | .integer _ => true
  | .text _ => true
  | _ => false

/-- Every leaf names an identifier and gives nulls, truth values, whole numbers and texts. -/
def Readable : Filter → Prop
  | .equals name values => Text.isIdentifier name = true ∧ values.all isPlainValue = true
  | .containsAll name values => Text.isIdentifier name = true ∧ values.all isPlainValue = true
  | .ordered _ name value => Text.isIdentifier name = true ∧ isPlainValue value = true
  | .matching _ name value => Text.isIdentifier name = true ∧ isPlainValue value = true
  | .both left right => left.Readable ∧ right.Readable
  | .either left right => left.Readable ∧ right.Readable
  | .negation inner => inner.Readable

def given? (kind : EntryClass) (name : String) (isPattern : Bool) : Json → Option Scalar
  | .bool b => some (.text (if b then "true" else "false"))
  | .integer i => some (.number (Number.ofInt i))
  | .real n => some (.number n)
  | .text s =>
    if isPattern then some (.text s) else (Query.storedForm kind name s).toOption.map .text
  | _ => none

/-- Both sides of a comparison, in lower case when the field is not compared exactly and a text is
among the given values. -/
def sides (rules : SearchRules) (field : String) (n : Note) (given : List Scalar) :
    List Scalar × List Scalar :=
  if given.any Scalar.isText && !rules.isExact field then
    ((n.fieldValues field).map Scalar.lowerCase, given.map Scalar.lowerCase)
  else (n.fieldValues field, given)

def hasEqual (rules : SearchRules) (field : String) (n : Note) (given : List Scalar) : Bool :=
  let (held, given) := sides rules field n given
  held.any fun h => given.any fun g => h.order g == .eq

def hasMatch (rules : SearchRules) (field : String) (n : Note) (place : Place) (given : Scalar) :
    Bool :=
  let (held, given) := sides rules field n [given]
  held.any fun h => given.any fun g => place.holds h.shown.toList g.shown.toList

/-- Whether some value of a field stands in a relation to what is given, or some value does not. -/
def hasOrdered (field : String) (n : Note) (negated : Bool) (relation : Relation) (given : Scalar) :
    Bool :=
  (n.fieldValues field).any fun h => negated ^^ relation.holds (h.order given)

def sought (rules : SearchRules) (values : List Json) : List Json :=
  match rules.containsAll with
  | .everyValue => values
  | .firstValue => values.take 1

def hasEvery (rules : SearchRules) (field : String) (n : Note) (negated : Bool) :
    List Scalar → Option Bool
  | [] => none
  | given => some (negated ^^ given.all (hasMatch rules field n .anywhere))

/-- What a filter, or its negation, says of a note; nothing when it places no constraint. -/
def reading (rules : SearchRules) (kind : EntryClass) (n : Note) (negated : Bool) :
    Filter → Option Bool
  | .equals name values =>
    match values.filterMap (given? kind name false) with
    | [] => none
    | given => some (negated ^^ hasEqual rules (Query.fieldName kind name) n given)
  | .containsAll name values =>
    hasEvery rules (Query.fieldName kind name) n negated
      ((sought rules values).filterMap (given? kind name false))
  | .ordered relation name value =>
    (given? kind name false value).map (hasOrdered (Query.fieldName kind name) n negated relation)
  | .matching place name value =>
    (given? kind name true value).map fun given =>
      negated ^^ hasMatch rules (Query.fieldName kind name) n place given
  | .both left right =>
    Option.merge (if negated then or else and) (left.reading rules kind n negated)
      (right.reading rules kind n negated)
  | .either left right =>
    Option.merge (if negated then and else or) (left.reading rules kind n negated)
      (right.reading rules kind n negated)
  | .negation inner => inner.reading rules kind n (!negated)

end Filter

end AddressBook

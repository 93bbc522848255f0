import AddressBook.Formula.Basic
import AddressBook.Note.Basic
import AddressBook.Text.Lowercase

/-! The values of formulas on notes. A field has the values of its item; a missing item reads as the
empty text. A note satisfies a formula when one of its values is true, and a comparison holds when
it holds between some value of one side and some value of the other. -/

namespace AddressBook

namespace Scalar

/-- A number as text: whole ones are brought into 64 bits. -/
def shown : Scalar → String
  | .text s => s
  | .number n =>
    if n.isWhole then toString (n.truncate Int.least64 Int.most64) else n.write Number.plain

/-- Two numbers compare by value, anything else as text. What is no number equals every number. -/
def order (a b : Scalar) : Ordering :=
  match a, b with
  | .number x, .number y => (x.compare? y).getD .eq
  | _, _ => Ord.compare a.shown b.shown

def isTrue : Scalar → Bool
  | .text s => !s.isEmpty
  | .number n => !n.isZero

def ofBool (b : Bool) : Scalar := .number (Number.ofInt (if b then 1 else 0))

def lowerCase : Scalar → Scalar
  | .text s => .text (Text.lower s)
  | .number n => .number n

def ofValue : Note.Value → Scalar
  | .text s => .text s
  | .number n => .number n
  | .moment m => .number (Number.ofInt m.milliseconds)

end Scalar

namespace Note

/-- The values of a field; the id stands under a name of its own. -/
def fieldValues (n : Note) (name : String) : List Scalar :=
  if Text.sameAscii name "NoteID" then n.id.toList.map .text
  else
    match (n.item? name).getD [] with
    | [] => [.text ""]
    | values => values.map Scalar.ofValue

end Note

def Comparison.holds (c : Comparison) (left right : List Scalar) : Bool :=
  let some (p : Ordering → Bool) : Bool := left.any fun l => right.any fun r => p (l.order r)
  match c with
  | .equal => some (· == .eq)
  | .unequal => !some (· == .eq)
  | .ordered relation => some relation.holds

namespace Formula

def isTrue (values : List Scalar) : Bool := values.any Scalar.isTrue

def values (n : Note) : Formula → List Scalar
  | .literal values => values
  | .field name => n.fieldValues name
  | .lowerCase inner => (inner.values n).map Scalar.lowerCase
  | .matching place text pattern =>
    let patterns := pattern.values n
    [.ofBool ((text.values n).any fun t =>
      patterns.any fun p => place.holds t.shown.toList p.shown.toList)]
  | .compare comparison left right => [.ofBool (comparison.holds (left.values n) (right.values n))]
  | .both left right => [.ofBool (isTrue (left.values n) && isTrue (right.values n))]
  | .either left right => [.ofBool (isTrue (left.values n) || isTrue (right.values n))]
  | .negation inner => [.ofBool (!isTrue (inner.values n))]

def holds (f : Formula) (n : Note) : Bool := isTrue (f.values n)

end Formula

end AddressBook

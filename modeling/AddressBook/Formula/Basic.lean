import AddressBook.Comparison
import AddressBook.Number.Layout
import AddressBook.Text.Quoted

/-! Selection formulas: what the directory evaluates on its notes. -/

namespace AddressBook

inductive Comparison where
  | equal
  | unequal
  | ordered (relation : Relation)
  deriving DecidableEq, Repr, Inhabited

namespace Comparison

def symbol : Comparison → String
  | .equal => "="
  | .unequal => "!="
  | .ordered relation => relation.symbol

/-- What a message calls the comparison. -/
def title : Comparison → String
  | .equal => "Eq"
  | .unequal => "Ne"
  | .ordered .less => "Lt"
  | .ordered .atMost => "Le"
  | .ordered .greater => "Gt"
  | .ordered .atLeast => "Ge"

end Comparison

namespace Place

/-- The function that looks for a text at the place. -/
def function : Place → String
  | .anywhere => "@Contains"
  | .atStart => "@Begins"
  | .atEnd => "@Ends"

def title : Place → String
  | .anywhere => "Contains"
  | .atStart => "Begins"
  | .atEnd => "Ends"

end Place

inductive Scalar where
  | text (s : String)
  | number (n : Number)
  deriving DecidableEq, Repr, Inhabited

def Scalar.description : Scalar → String
  | .text s => "Text(" ++ Text.quotation s ++ ")"
  | .number n => "Number(" ++ n.write Number.message ++ ")"

inductive Formula where
  | literal (values : List Scalar)
  | field (name : String)
  | lowerCase (inner : Formula)
  | matching (place : Place) (text pattern : Formula)
  | compare (comparison : Comparison) (left right : Formula)
  | both (left right : Formula)
  | either (left right : Formula)
  | negation (inner : Formula)
  deriving Inhabited, DecidableEq, Repr

namespace Formula

/-- How a message shows a formula. -/
def description : Formula → String
  | .literal values => "Literal([" ++ Text.join ", " (values.map Scalar.description) ++ "])"
  | .field name => "Field(" ++ Text.quotation name ++ ")"
  | .lowerCase inner => "LowerCase(" ++ inner.description ++ ")"
  | .matching place text pattern =>
    "Call(" ++ place.title ++ ", " ++ text.description ++ ", " ++ pattern.description ++ ")"
  | .compare comparison left right =>
    "Compare(" ++ comparison.title ++ ", " ++ left.description ++ ", " ++ right.description ++ ")"
  | .both left right => "And(" ++ left.description ++ ", " ++ right.description ++ ")"
  | .either left right => "Or(" ++ left.description ++ ", " ++ right.description ++ ")"
  | .negation inner => "Not(" ++ inner.description ++ ")"

end Formula

end AddressBook

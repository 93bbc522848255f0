import AddressBook.Text.Basic

/-! How two values may be compared: by an ordering relation, or by where one text stands in another.
-/

namespace AddressBook

inductive Relation where
  | less
  | atMost
  | greater
  | atLeast
  deriving DecidableEq, Repr, Inhabited

namespace Relation

def symbol : Relation → String
  | .less => "<"
  | .atMost => "<="
  | .greater => ">"
  | .atLeast => ">="

/-- The relation that holds between two values when this one does not. -/
def complement : Relation → Relation
  | .less => .atLeast
  | .atMost => .greater
  | .greater => .atMost
  | .atLeast => .less

def holds : Relation → Ordering → Bool
  | .less, o => o == .lt
  | .atMost, o => o != .gt
  | .greater, o => o == .gt
  | .atLeast, o => o != .lt

theorem holds_complement (r : Relation) (o : Ordering) :
    r.complement.holds o = !r.holds o := by
  cases r <;> cases o <;> rfl

end Relation

inductive Place where
  | anywhere
  | atStart
  | atEnd
  deriving DecidableEq, Repr, Inhabited

namespace Place

/-- Whether a text has the pattern at the place. -/
def holds (place : Place) (text pattern : List Char) : Bool :=
  match place with
  | .anywhere => Text.occursIn pattern text
  | .atStart => pattern.isPrefixOf text
  | .atEnd => pattern.isSuffixOf text

end Place

end AddressBook

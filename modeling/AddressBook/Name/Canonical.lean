import AddressBook.Name.Reader
import AddressBook.Text.Lowercase

/-! The renderings of a raw name, and when a stored text refers to a name. -/

namespace AddressBook

/-- The canonical rendering of a name. Only `canonicalize` makes one. -/
structure CanonicalName where
  text : String
  deriving DecidableEq, Repr

namespace CanonicalName

def folded (n : CanonicalName) : String := Text.lower n.text

/-- Names are compared without regard to case. -/
def same (a b : CanonicalName) : Bool := a.folded == b.folded

end CanonicalName

namespace Name

def canonicalize (raw : String) : Except Fault CanonicalName := do
  return ⟨(← parse raw).canonical⟩

def canonicalizeAll (raws : List String) : Except Fault (List CanonicalName) :=
  raws.mapM canonicalize

def abbreviate (raw : String) : Except Fault String := do
  return (← parse raw).abbreviated

/-- Whether a stored text refers to a name. A text that is no name is compared as it is. -/
def refersTo (stored : String) (name : CanonicalName) : Bool :=
  match canonicalize stored with
  | .ok canonical => canonical.same name
  | .error _ => Text.lower (Text.trim stored) == name.folded

end Name

end AddressBook

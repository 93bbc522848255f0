/-! Documents of settings: scalars, lists and mappings. A scalar without quotes may be read as a
number, a truth value or nothing. Anything may be a key. -/

namespace AddressBook

inductive Yaml where
  | scalar (isPlain : Bool) (text : String)
  | list (items : List Yaml)
  | mapping (entries : List (Yaml × Yaml))
  deriving Repr, Inhabited

namespace Yaml

/-- What stands where nothing is written. -/
def empty : Yaml := .scalar true ""

end Yaml

end AddressBook

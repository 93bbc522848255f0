import AddressBook.Keyed
import AddressBook.Secret
import AddressBook.Fault
import AddressBook.Json.Printer
import AddressBook.Number.Basic

/-! Attribute values and the attributes that a caller hands in. Whole numbers are short when 32
bits hold them. Attributes are kept sorted by name; a name is looked up whatever its case, and the
first in order counts. Taking an attribute removes it. -/

namespace AddressBook

inductive AttributeValue where
  | text (s : String)
  | integer (i : Int)
  | long (i : Int)
  | boolean (b : Bool)
  | secret (s : Secret)
  deriving Inhabited

/-- Why attributes are refused. -/
inductive AttributeFlaw where
  | notAnObject
  | notIntegral (number : String)
  | unsupportedValue (json : String)
  | notBoolean (name : String)
  | secretValue (name : String)
  | notAnInteger (name text : String)
  | notNumeric (name : String)
  | notUpdateable (name : String)
  | notCreatable (name : String)
  | operational (name : String)
  | onlyThroughPassword (name : String)
  | missing (name : String)
  | emptyGroupName
  | namesDiffer (name aliases listName : String)
  | passwordTooShort (least : Nat)
  | passwordTaken
  | passwordMissing
  | passwordDiffers
  deriving DecidableEq, Repr

namespace AttributeFlaw

def text : AttributeFlaw → String
  | .notAnObject => "Expected a JSON object of attributes"
  | .notIntegral number => "Only integral numbers are supported: " ++ number
  | .unsupportedValue json => "Unsupported attribute value: " ++ json
  | .notBoolean name => name ++ " requires a boolean"
  | .secretValue name => name ++ " does not accept secret values"
  | .notAnInteger name text => name ++ " requires an integer, got " ++ text
  | .notNumeric name => name ++ " requires an integer"
  | .notUpdateable name => name ++ " is not updateable"
  | .notCreatable name => name ++ " cannot be set on create"
  | .operational name => name ++ " is not supported here"
  | .onlyThroughPassword name => name ++ " can only be set through __PASSWORD__"
  | .missing name => name ++ " is required"
  | .emptyGroupName => "group name must not be empty"
  | .namesDiffer name aliases listName =>
    name ++ " '" ++ aliases ++ "' does not match ListName '" ++ listName ++ "'"
  | .passwordTooShort least => "Password must be at least " ++ toString least ++ " characters"
  | .passwordTaken => "Password was already used"
  | .passwordMissing => "Missing password"
  | .passwordDiffers => "Current password does not match"

def fault (flaw : AttributeFlaw) : Fault := .invalidAttribute flaw.text

end AttributeFlaw

namespace AttributeValue

def text? : AttributeValue → Option String
  | .text s => some s
  | _ => none

def boolean? : AttributeValue → Option Bool
  | .boolean b => some b
  | .text "true" => some true
  | .text "false" => some false
  | _ => none

/-- The text that is stored for a value. -/
def storedText? : AttributeValue → Option String
  | .text s => some s
  | .integer i => some (toString i)
  | .long i => some (toString i)
  | .boolean b => some (if b then "true" else "false")
  | .secret _ => none

/-- A secret, or a text that is to be kept secret. -/
def secret? : AttributeValue → Option Secret
  | .secret s => some s
  | .text s => some (Secret.ofText s)
  | _ => none

def ofInt (i : Int) : AttributeValue :=
  if Int.least32 ≤ i ∧ i ≤ Int.most32 then .integer i else .long i

def ofJson (json : Json) : Except Fault AttributeValue :=
  match json with
  | .text s => .ok (.text s)
  | .bool b => .ok (.boolean b)
  | .integer i =>
    if i ≤ Int.most64 then .ok (ofInt i) else .error (AttributeFlaw.notIntegral json.compact).fault
  | .real _ => .error (AttributeFlaw.notIntegral json.compact).fault
  | _ => .error (AttributeFlaw.unsupportedValue json.compact).fault

/-- A secret has no JSON form but null. -/
def toJson : AttributeValue → Json
  | .text s => .text s
  | .integer i => .integer i
  | .long i => .integer i
  | .boolean b => .bool b
  | .secret _ => .null

end AttributeValue

abbrev Attributes := Keyed (List AttributeValue)

namespace Attributes

def find? (attributes : Attributes) (name : String) : Option (List AttributeValue) :=
  (List.find? (fun (key, _) => Text.sameAscii key name) attributes).map Prod.snd

/-- The values of an attribute and the other attributes. -/
def take (attributes : Attributes) (name : String) : Option (List AttributeValue) × Attributes :=
  match List.find? (fun (key, _) => Text.sameAscii key name) attributes with
  | some (key, values) => (some values, Keyed.erase key attributes)
  | none => (none, attributes)

def takeTexts (attributes : Attributes) (name : String) : Option (List String) × Attributes :=
  let (values, rest) := attributes.take name
  (values.map (·.filterMap AttributeValue.storedText?), rest)

def takeText (attributes : Attributes) (name : String) : Option String × Attributes :=
  let (texts, rest) := attributes.takeTexts name
  (texts.bind List.head?, rest)

/-- Takes a truth value; an attribute that is there must have one. -/
def takeBoolean (attributes : Attributes) (name : String) :
    Except Fault (Option Bool) × Attributes :=
  let (values, rest) := attributes.take name
  let found :=
    match values with
    | none => .ok none
    | some values =>
      match values.head?.bind AttributeValue.boolean? with
      | some b => .ok (some b)
      | none => .error (AttributeFlaw.notBoolean name).fault
  (found, rest)

def takeSecret (attributes : Attributes) (name : String) : Option Secret × Attributes :=
  let (values, rest) := attributes.take name
  (values.bind (·.findSome? AttributeValue.secret?), rest)

def valuesOfJson : Json → Except Fault (List AttributeValue)
  | .list items => items.mapM AttributeValue.ofJson
  | .null => .ok []
  | single => do return [← AttributeValue.ofJson single]

def ofMembers : List (String × Json) → Except Fault Attributes
  | [] => .ok []
  | (name, json) :: members => do
    let values ← valuesOfJson json
    return (name, values) :: (← ofMembers members)

/-- The attributes of a JSON object, whose members are sorted. -/
def ofJson : Json → Except Fault Attributes
  | .object members => ofMembers members
  | _ => .error AttributeFlaw.notAnObject.fault

def toJson (attributes : Attributes) : Json :=
  .object (attributes.map fun (name, values) => (name, .list (values.map AttributeValue.toJson)))

end Attributes

end AddressBook

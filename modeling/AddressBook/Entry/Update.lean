import AddressBook.Entry.Basic

/-! Writing attributes into notes. Integers are stored as their attribute says, names in canonical
form, everything else as text. -/

namespace AddressBook.Entry

def integerOf (name : String) : AttributeValue → Except Fault Int
  | .integer i => .ok i
  | .long i => .ok i
  | .text s =>
    match readIntWithin? Int.least64 Int.most64 (Text.trim s) with
    | some i => .ok i
    | none => .error (AttributeFlaw.notAnInteger name s).fault
  | _ => .error (AttributeFlaw.notNumeric name).fault

def storedTextOf (name : String) (value : AttributeValue) : Except Fault String :=
  let text := value.storedText?.getD ""
  if isNameBearing name then do return (← Name.canonicalize text).text else .ok text

/-- The value to store for an attribute value. -/
def storedValue (kind : EntryClass) (name : String) (value : AttributeValue) :
    Except Fault Note.Value :=
  match value with
  | .secret _ => .error (AttributeFlaw.secretValue name).fault
  | value =>
    match (Schema.find? kind name).bind (·.coercion) with
    | some .fromNumber => do return .number (Number.ofInt (← integerOf name value))
    | some .fromText => do return .text (toString (← integerOf name value))
    | none => do return .text (← storedTextOf name value)

def storedValues (kind : EntryClass) (name : String) (values : List AttributeValue) :
    Except Fault (List Note.Value) :=
  values.mapM (storedValue kind name)

def holds (values : List Note.Value) (value : Note.Value) : Bool := values.any fun v => v.same value

/-- The first values, followed by those of the second that they do not hold. -/
def union (current incoming : List Note.Value) : List Note.Value :=
  incoming.foldl (fun merged value => if holds merged value then merged else merged ++ [value])
    current

/-- The values of an item after an update. Adding to an attribute of one value sets it when it has
none and otherwise changes nothing. -/
def combine (kind : UpdateKind) (multiValued : Bool) (current incoming : List Note.Value) :
    List Note.Value :=
  match kind with
  | .replace => incoming
  | .add =>
    if multiValued then union current incoming
    else if current.isEmpty then incoming
    else current
  | .remove => current.filter fun value => !holds incoming value

/-- Updates one attribute; `true` when the note changed. An item without values is removed. -/
def update (n : Note) (kind : EntryClass) (name : String) (values : List AttributeValue)
    (how : UpdateKind) : Except Fault (Bool × Note) :=
  let known := Schema.find? kind name
  let stored := (known.map (·.name)).getD name
  if !(known.map (·.updateable)).getD true then .error (AttributeFlaw.notUpdateable stored).fault
  else do
    let incoming ← storedValues kind name values
    let current := (n.item? name).getD []
    let updated := combine how ((known.map (·.multiValued)).getD true) current incoming
    if Note.Value.sameAll updated current then return (false, n)
    else if updated.isEmpty then return (true, n.removeItem stored)
    else return (true, n.setItem stored updated)

end AddressBook.Entry

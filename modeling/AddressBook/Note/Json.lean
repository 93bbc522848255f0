import AddressBook.Note.Basic
import AddressBook.Json.Outline

/-! Notes as JSON. A value names its type beside itself. Notes and values may also be written as
lists of their parts in order. A part that is named twice is refused, while of two items under one
name the last counts; parts that a note does not have are passed over unread. -/

namespace AddressBook.Note

/-- The one member with the given name; `none` inside when there is none, outside when there are
several. -/
def onlyMember? {α : Type} (name : String) (members : List (String × α)) : Option (Option α) :=
  match members.filter fun (key, _) => key == name with
  | [] => some none
  | [(_, value)] => some (some value)
  | _ => none

def textOf? (cs : List Char) : Option String := (Json.readWritten? cs).bind Json.text?

def momentOf? (cs : List Char) : Option Moment := (textOf? cs).bind Moment.read?

/-- The name of a type, which may also be the key of a null. -/
def typeOf? (cs : List Char) : Option String :=
  match Json.readWritten? cs with
  | some (.text name) => some name
  | some (.object [(name, .null)]) => some name
  | _ => none

def Value.ofParts? (type : String) (value : List Char) : Option Value :=
  match type with
  | "text" => (textOf? value).map .text
  | "number" => ((Json.readWritten? value).bind Json.number?).map .number
  | "datetime" => (momentOf? value).map .moment
  | _ => none

def Value.ofChars? (cs : List Char) : Option Value := do
  match ← Json.Outline.read? cs with
  | .object members =>
    let type ← ← onlyMember? "type" members
    Value.ofParts? (← typeOf? type) (← ← onlyMember? "value" members)
  | .list [type, value] => Value.ofParts? (← textOf? type) value
  | _ => none

/-- A part that may be absent or null. -/
def optional? {α : Type} (read : List Char → Option α) : Option (List Char) → Option (Option α)
  | none => some none
  | some cs =>
    match Json.readWritten? cs with
    | some .null => some none
    | _ => (read cs).map some

def valuesOf? (cs : List Char) : Option (List Value) := do
  match ← Json.Outline.read? cs with
  | .list values => values.mapM Value.ofChars?
  | _ => none

def itemsOf? (cs : List Char) : Option (Keyed (List Value)) := do
  match ← Json.Outline.read? cs with
  | .object members =>
    return Keyed.ofList
      (← members.mapM fun (name, values) => (valuesOf? values).map fun values => (name, values))
  | _ => none

def ofParts? (id : Option (List Char)) (items : List Char) (modified : Option (List Char)) :
    Option Note := do
  return ⟨← optional? textOf? id, ← itemsOf? items, ← optional? momentOf? modified⟩

def ofChars? (cs : List Char) : Option Note := do
  match ← Json.Outline.read? cs with
  | .object members =>
    let id ← onlyMember? "id" members
    let modified ← onlyMember? "last_modified" members
    ofParts? id (← ← onlyMember? "items" members) modified
  | .list [id, items, modified] => ofParts? (some id) items (some modified)
  | _ => none

def read? (s : String) : Option Note := ofChars? s.toList

def Value.toJson : Value → Json
  | .text s => .object [("type", .text "text"), ("value", .text s)]
  | .number n => .object [("type", .text "number"), ("value", .real n)]
  | .moment m => .object [("type", .text "datetime"), ("value", .text m.write)]

def toJson (n : Note) : Json :=
  .object [("id", (n.id.map Json.text).getD .null),
    ("items", .object (n.items.map fun (name, values) => (name, .list (values.map Value.toJson)))),
    ("last_modified", (n.modified.map fun m => Json.text m.write).getD .null)]

/-- A value as it comes back from its JSON text; numbers without a text do not come back. -/
def Value.throughJson? : Value → Option Value
  | .number n =>
    if n.isFinite then ((Json.read? (n.write Number.json)).bind Json.number?).map .number else none
  | value => some value

/-- The items as they come back from their JSON text. -/
def itemsThroughJson? (items : Keyed (List Value)) : Option (Keyed (List Value)) :=
  items.mapM fun (name, values) => (values.mapM Value.throughJson?).map fun values => (name, values)

end AddressBook.Note

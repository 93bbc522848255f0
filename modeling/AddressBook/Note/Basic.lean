import AddressBook.EntryClass
import AddressBook.Keyed
import AddressBook.Moment
import AddressBook.Number.Layout

/-! Notes: what the directory stores. A note is a bag of named items, each a list of values. Item
names keep the spelling they were first given and are found whatever their case. -/

namespace AddressBook

namespace Note

inductive Value where
  | text (s : String)
  | number (n : Number)
  | moment (m : Moment)
  deriving DecidableEq, Repr, Inhabited

namespace Value

def text? : Value → Option String
  | .text s => some s
  | _ => none

/-- Equality of what is meant: both zeros are equal, and what is no number equals nothing. -/
def same : Value → Value → Bool
  | .text a, .text b => a == b
  | .number a, .number b => a.sameValue b
  | .moment a, .moment b => a == b
  | _, _ => false

/-- The value as a reader of text sees it. -/
def shown : Value → String
  | .text s => s
  | .number n => n.write Number.plain
  | .moment m => m.write

def sameAll : List Value → List Value → Bool
  | [], [] => true
  | a :: as, b :: bs => a.same b && sameAll as bs
  | _, _ => false

end Value

end Note

structure Note where
  /-- Given by the directory at the first save. -/
  id : Option String := none
  items : Keyed (List Note.Value) := []
  modified : Option Moment := none
  deriving DecidableEq, Repr, Inhabited

namespace Note

/-- The spelling under which an item is kept. -/
def keyOf? (n : Note) (name : String) : Option String :=
  n.items.keys.find? fun key => Text.sameAscii key name

def item? (n : Note) (name : String) : Option (List Value) :=
  (n.items.find? fun (key, _) => Text.sameAscii key name).map Prod.snd

def hasItem (n : Note) (name : String) : Bool := (n.keyOf? name).isSome

/-- The first text of an item. -/
def text? (n : Note) (name : String) : Option String :=
  (n.item? name).bind (·.findSome? Value.text?)

def texts (n : Note) (name : String) : List String :=
  ((n.item? name).getD []).filterMap Value.text?

def setItem (n : Note) (name : String) (values : List Value) : Note :=
  { n with items := n.items.put ((n.keyOf? name).getD name) values }

def setTexts (n : Note) (name : String) (texts : List String) : Note :=
  n.setItem name (texts.map .text)

def setText (n : Note) (name : String) (text : String) : Note := n.setTexts name [text]

def removeItem (n : Note) (name : String) : Note :=
  match n.keyOf? name with
  | some key => { n with items := n.items.erase key }
  | none => n

def ofClass (kind : EntryClass) : Note :=
  (({} : Note).setText "Form" kind.form).setText "Type" kind.form

def form? (n : Note) : Option String := n.text? "Form"

def isClass (n : Note) (kind : EntryClass) : Bool :=
  match n.form? with
  | some form => Text.sameAscii form kind.form
  | none => false

/-- What a message calls the note: its name, else its id. -/
def identity (n : Note) : String :=
  match n.text? "FullName", n.text? "ListName", n.id with
  | some name, _, _ => name
  | none, some name, _ => name
  | none, none, some id => id
  | none, none, none => "<new record>"

end Note

end AddressBook

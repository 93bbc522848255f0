import AddressBook.Text.Basic

/-! The two classes of entries, the kinds of update and the words for them. -/

namespace AddressBook

inductive EntryClass where
  | account
  | group
  deriving DecidableEq, Repr, Inhabited

inductive UpdateKind where
  | add
  | remove
  | replace
  deriving DecidableEq, Repr, Inhabited

namespace EntryClass

def title : EntryClass → String
  | .account => "Account"
  | .group => "Group"

/-- The word for the class in exchanged data. -/
def word : EntryClass → String
  | .account => "account"
  | .group => "group"

/-- The form of the notes that hold entries of the class. -/
def form : EntryClass → String
  | .account => "Person"
  | .group => "Group"

/-- The item that holds the names of an entry. -/
def nameItem : EntryClass → String
  | .account => "FullName"
  | .group => "ListName"

/-- The item by which an entry is identified. -/
def uidItem : EntryClass → String
  | .account => "NoteID"
  | .group => "ListName"

def ofWord? (s : String) : Option EntryClass :=
  match Text.asciiLower s with
  | "account" | "__account__" | "person" => some .account
  | "group" | "__group__" => some .group
  | _ => none

end EntryClass

namespace UpdateKind

def word : UpdateKind → String
  | .add => "ADD"
  | .remove => "REMOVE"
  | .replace => "REPLACE"

def ofWord? (s : String) : Option UpdateKind :=
  match Text.asciiLower s with
  | "add" => some .add
  | "remove" => some .remove
  | "replace" => some .replace
  | _ => none

end UpdateKind

end AddressBook

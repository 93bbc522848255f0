import AddressBook.Entry.Basic
import AddressBook.Formula.Meaning
import AddressBook.Formula.Reader
import AddressBook.Note.Json
import AddressBook.Query.Basic
import AddressBook.Words

/-! Stores of notes. Notes stand under their ids and are found in the order of the ids. A store in
memory reads also after it was closed; a store on a table does not, needs a form to keep a note
under, and keeps items as JSON. -/

namespace AddressBook

structure Store where
  backing : Backing := .memory
  notes : Keyed Note := []
  /-- The ids in the order in which they came. -/
  arrivals : List String := []
  isOpen : Bool := true
  /-- After how many more saves the store fails, if it does. -/
  savesLeft : Option Nat := none
  /-- Whether the notes outlive the session. -/
  lasting : Bool := true
  /-- Whether nothing can be written. -/
  readOnly : Bool := false
  deriving Repr, Inhabited

namespace Note

/-- Whether an account has the name. -/
def isNamed (n : Note) (name : CanonicalName) : Bool :=
  n.isClass .account && ((n.text? "FullName").map fun full => Text.sameName full name.text).getD false

/-- Whether a group has the alias. -/
def hasAlias (n : Note) (name : String) : Bool :=
  n.isClass .group && n.aliases.any fun known => Text.sameName known name

end Note

namespace Store

def closedText : String := "attempted to acquire a connection on a closed pool"

def readOnlyText : String :=
  "error returned from database: (code: 8) attempt to write a readonly database"

def all (s : Store) : List Note := s.notes.map Prod.snd

/-- A note as the store gives it back. -/
def readBack (s : Store) (n : Note) : Except Fault Note :=
  match s.backing with
  | .memory => .ok n
  | .sqlite =>
    match Note.itemsThroughJson? n.items with
    | some items => .ok { n with items }
    | none => .error .serialization

def checkReadable (s : Store) : Except Fault Unit :=
  match s.backing with
  | .memory => .ok ()
  | .sqlite => if s.isOpen then .ok () else .error (.unavailable closedText)

def checkWritable (s : Store) : Except Fault Unit := do
  s.checkReadable
  if s.readOnly then throw (.database readOnlyText)

/-- The notes of one class in the order of their ids. -/
def ofClass (s : Store) (kind : EntryClass) : Except Fault (List Note) := do
  s.checkReadable
  (s.all.filter (·.isClass kind)).mapM s.readBack

def accountByName (s : Store) (name : CanonicalName) : Except Fault (Option Note) := do
  return (← s.ofClass .account).find? (·.isNamed name)

def groupByAlias (s : Store) (name : String) : Except Fault (Option Note) := do
  return (← s.ofClass .group).find? (·.hasAlias name)

/-- The id under which an account is kept, whatever the case of the id asked for. In memory the first
such id counts, whatever is kept under it; a table looks only among the notes whose form is written
as that of accounts, in the order in which they came. -/
def accountKey? (s : Store) (id : String) : Option String :=
  match s.backing with
  | .memory => s.notes.keys.find? fun key => Text.sameAscii key id
  | .sqlite =>
    s.arrivals.find? fun key =>
      Text.sameKey key id &&
        (Keyed.get? key s.notes).bind Note.form? == some EntryClass.account.form

def accountById (s : Store) (id : String) : Except Fault (Option Note) := do
  s.checkReadable
  match (s.accountKey? id).bind fun key => Keyed.get? key s.notes with
  | none => return none
  | some n => if n.isClass .account then return some (← s.readBack n) else return none

/-- The notes of a class that satisfy a formula, in the order of their ids. -/
def search (s : Store) (kind : EntryClass) (formula : Option String) :
    Except Fault (List Note) := do
  match formula with
  | none => s.ofClass kind
  | some text =>
    let read ← Formula.read text
    return (← s.ofClass kind).filter read.holds

/-- Why a note would not be saved now. -/
def refusal? (s : Store) (n : Note) : Option String :=
  match s.backing with
  | .memory => if s.isOpen && s.savesLeft != some 0 then none else some "session is closed"
  | .sqlite =>
    if n.form?.isNone then some "record has no Form item"
    else if !s.isOpen then some closedText
    else if s.readOnly then some readOnlyText
    else none

/-- Counts a save; the last one of a store that is to fail closes it. -/
def spend (s : Store) : Store :=
  match s.savesLeft with
  | none => s
  | some 0 => s
  | some 1 => { s with isOpen := false, savesLeft := none }
  | some (k + 2) => { s with savesLeft := some (k + 1) }

/-- Lets a store in memory fail after so many more saves. -/
def failAfter (s : Store) (saves : Nat) : Store :=
  match s.backing, saves with
  | .memory, 0 => { s with isOpen := false }
  | .memory, saves => { s with savesLeft := some saves }
  | .sqlite, _ => s

/-- The store with a note under its id. -/
def put (s : Store) (id : String) (n : Note) : Store :=
  { s with
    notes := s.notes.put id n
    arrivals := if id ∈ s.arrivals then s.arrivals else s.arrivals ++ [id] }

def erase (s : Store) (id : String) : Store :=
  { s with notes := s.notes.erase id, arrivals := s.arrivals.filter (· != id) }

/-- Closing a store in memory does nothing. -/
def close (s : Store) : Store :=
  match s.backing with
  | .memory => s
  | .sqlite => { s with isOpen := false }

def reopened (s : Store) : Store :=
  if s.lasting then { s with isOpen := true }
  else { backing := s.backing, lasting := false }

end Store

end AddressBook

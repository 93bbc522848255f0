import AddressBook.Directory.Basic
import AddressBook.Entry.Update

/-! What writing accounts and writing groups have in common. -/

namespace AddressBook.Provisioning

/-- Refuses an attribute that may not be written, in a new entry or in one that is there. -/
def checkWritable (kind : EntryClass) (name : String) (isNew : Bool) : Except Fault Unit :=
  match Schema.find? kind name with
  | none => .ok ()
  | some a =>
    if a.operational then .error (AttributeFlaw.operational a.name).fault
    else if a.type = .secret then .error (AttributeFlaw.onlyThroughPassword a.name).fault
    else if isNew && !a.creatable then .error (AttributeFlaw.notCreatable a.name).fault
    else if !isNew && !a.updateable then .error (AttributeFlaw.notUpdateable a.name).fault
    else .ok ()

/-- Puts attributes into a new note; one without values leaves no item. -/
def fillNew (kind : EntryClass) (n : Note) : Attributes → Except Fault Note
  | [] => .ok n
  | (name, values) :: rest => do
    checkWritable kind name true
    let stored ← Entry.storedValues kind name values
    fillNew kind (if stored.isEmpty then n else n.setItem name stored) rest

/-- Updates a note attribute by attribute; `true` when it changed. -/
def updateAll (kind : EntryClass) (how : UpdateKind) (changed : Bool) (n : Note) :
    Attributes → Except Fault (Bool × Note)
  | [] => .ok (changed, n)
  | (name, values) :: rest => do
    checkWritable kind name false
    let (different, updated) ← Entry.update n kind name values how
    updateAll kind how (changed || different) updated rest

def idOf (n : Note) : Except Fault String :=
  match n.id with
  | some id => .ok id
  | none => .error (.internal ("Record " ++ n.identity ++ " has no id"))

/-- The note of an entry by its uid: the id of an account, an alias of a group. -/
def find (kind : EntryClass) (uid : String) (s : Store) : Except Fault (Option Note) :=
  match kind with
  | .account => s.accountById (NoteId.extract uid)
  | .group => s.groupByAlias (Alias.display uid)

/-- The note of an entry that has to be there. -/
def findExisting (kind : EntryClass) (uid : String) : Action Note := do
  match ← Directory.read (find kind uid) with
  | some n => return n
  | none =>
    match kind with
    | .account => throw (.unknownAccount uid)
    | .group => throw (.unknownGroup uid)

end AddressBook.Provisioning

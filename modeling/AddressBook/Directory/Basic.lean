import AddressBook.Directory.Session
import AddressBook.Directory.Store

/-! The directory: a store behind a session. Saving gives a note its id and the time; every write is
put down in a journal. What was written before a fault stays written. -/

namespace AddressBook

/-- Where the directory takes ids and times from. The given ids are used up first; after them ids
are numbers in 32 hexadecimal digits. -/
structure Supply where
  ids : List String := []
  numbered : Nat := 0
  saves : Nat := 0
  start : Moment := ⟨0⟩
  /-- The nanoseconds from one save to the next. -/
  pace : Int := 0
  deriving DecidableEq, Repr, Inhabited

namespace Supply

def idDigits (n : Nat) : String :=
  let digits := (Nat.toDigits 16 n).map Char.toUpper
  String.ofList (List.replicate (32 - digits.length) '0' ++ digits)

def takeId (s : Supply) : String × Supply :=
  match s.ids with
  | id :: ids => (id, { s with ids })
  | [] => (idDigits (s.numbered + 1), { s with numbered := s.numbered + 1 })

/-- The time of the next save. -/
def takeTime (s : Supply) : Moment × Supply :=
  (⟨s.start.nanoseconds + s.pace * (s.saves + 1)⟩, { s with saves := s.saves + 1 })

end Supply

inductive Write where
  | saved (id : String) (items : Keyed (List Note.Value))
  | refused (id : String)
  | deleted (id : String) (found : Bool)
  deriving DecidableEq, Repr, Inhabited

structure Directory where
  store : Store := {}
  session : Session := {}
  supply : Supply := {}
  /-- How attempts to open a session go from now on. -/
  opening : Opening := .live
  journal : List Write := []
  deriving Repr, Inhabited

/-- An operation on the directory. A fault keeps the directory as it is by then. -/
abbrev Action := EStateM Fault Directory

instance : MonadLift (Except Fault) Action where
  monadLift
    | .ok value => pure value
    | .error fault => throw fault

namespace Directory

def dropSession (d : Directory) : Directory :=
  if d.session.current.isSome then { d with session := d.session.drop, store := d.store.close }
  else d

/-- The store of a session that was opened just now. -/
def openStore (d : Directory) : Store :=
  match d.opening with
  | .live => d.store.reopened
  | .dead => { d.store.reopened with isOpen := false }
  | .refused _ => d.store

/-- Makes sure that there is a live session. -/
def acquire : Action Unit := do
  let d ← get
  let (outcome, session) := d.session.acquire d.store.isOpen d.opening
  if session.attempts != d.session.attempts then
    set { d with session, store := d.dropSession.openStore }
  let _ ← outcome

def dispose : Action Unit := modify dropSession

/-- Reads from the store. -/
def read {α : Type} (reading : Store → Except Fault α) : Action α := do
  reading (← get).store

def record (write : Write) : Action Unit := modify fun d => { d with journal := d.journal ++ [write] }

/-- The id of a note to be saved; a note that has none takes the next one. -/
def identify (n : Note) : Action String := do
  match n.id with
  | some id => return id
  | none =>
    let d ← get
    let (id, supply) := d.supply.takeId
    set { d with supply }
    return id

/-- Saves a note and returns it as it was saved. -/
def save (n : Note) : Action Note := do
  let id ← identify n
  let n := { n with id := some id }
  match (← get).store.refusal? n with
  | some cause =>
    record (.refused id)
    throw (.noteSave n.identity cause)
  | none =>
    let d ← get
    let (time, supply) := d.supply.takeTime
    let n := { n with modified := some time }
    set { d with supply, store := (d.store.put id n).spend }
    record (.saved id n.items)
    return n

/-- Deletes the note with exactly this id; `false` when there is none. -/
def delete (id : String) : Action Bool := do
  read Store.checkWritable
  let found := ((← get).store.notes.get? id).isSome
  modify fun d => { d with store := d.store.erase id }
  record (.deleted id found)
  return found

end Directory

end AddressBook

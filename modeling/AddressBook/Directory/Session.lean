import AddressBook.Fault

/-! The one session with a directory. It is opened on first use, used again while it is alive, and
replaced when it is found dead. Sessions are numbered in the order in which they are opened. -/

namespace AddressBook

/-- How an attempt to open a session goes. -/
inductive Opening where
  | live
  | dead
  | refused (fault : Fault)
  deriving DecidableEq, Repr, Inhabited

structure Session where
  current : Option Nat := none
  opened : Nat := 0
  attempts : Nat := 0
  closed : List Nat := []
  deriving DecidableEq, Repr, Inhabited

namespace Session

def notAlive : Fault := .unavailable "newly opened session is not alive"

/-- A fault while opening means that the directory is out of reach. -/
def outOfReach (fault : Fault) : Fault :=
  match fault with
  | .unavailable cause => .unavailable cause
  | other => .unavailable other.message

/-- Closes the current session, if there is one. -/
def drop (s : Session) : Session :=
  match s.current with
  | none => s
  | some number => { s with current := none, closed := s.closed ++ [number] }

/-- Attempts to open a session. Only one that is alive becomes the current session. -/
def open? (s : Session) (opening : Opening) : Except Fault Nat × Session :=
  match opening with
  | .refused fault => (.error (outOfReach fault), { s with attempts := s.attempts + 1 })
  | .dead => (.error notAlive, { s with attempts := s.attempts + 1, opened := s.opened + 1 })
  | .live =>
    (.ok s.opened,
      { s with attempts := s.attempts + 1, opened := s.opened + 1, current := some s.opened })

/-- The number of a live session; `alive` tells whether the current one, if any, is. -/
def acquire (s : Session) (alive : Bool) (opening : Opening) : Except Fault Nat × Session :=
  match s.current with
  | some number => if alive then (.ok number, s) else s.drop.open? opening
  | none => s.open? opening

end Session

end AddressBook

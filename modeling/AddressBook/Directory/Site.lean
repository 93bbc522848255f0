import AddressBook.Directory.Address
import AddressBook.Directory.Basic

/-! Opening a database: what stands at its address, and the store or the fault that comes of it. -/

namespace AddressBook

/-- What stands where the file of a database is looked for. -/
inductive Site where
  /-- Nothing, and `canMake` tells whether a file can be made. -/
  | absent (canMake : Bool)
  | folder
  /-- A file that holds no database. -/
  | foreign
  /-- A database without a table of notes. -/
  | blank
  | database (notes : Keyed Note) (arrivals : List String)
  deriving Repr, Inhabited

namespace Address

/-- The address cannot be opened. -/
def unopened (url cause : String) : Fault :=
  .unavailable ("Failed to connect to " ++ url ++ ": " ++ cause)

/-- The table of notes cannot be made. -/
def untabled (cause : String) : Fault :=
  .database ("Failed to create documents table: " ++ cause)

/-- A store on a new table. -/
def newStore (lasting readOnly : Bool) : Except Fault Store :=
  if readOnly then .error (untabled Store.readOnlyText) else .ok { backing := .sqlite, lasting }

/-- The store at an address. -/
def openAt (url : String) (a : Address) (site : Site) : Except Fault Store :=
  let cannotOpen := unopened url (saying 14 "unable to open database file")
  if a.file.isNone then newStore false a.readOnly
  else
    match site with
    | .absent canMake =>
      if canMake && a.creates then newStore true a.frozen else .error cannotOpen
    | .folder =>
      .error (if a.readOnly then unopened url (saying 266 "disk I/O error") else cannotOpen)
    | .foreign => .error (untabled (saying 26 "file is not a database"))
    | .blank => newStore true (a.readOnly || a.frozen)
    | .database notes arrivals =>
      .ok { backing := .sqlite, notes, arrivals, readOnly := a.readOnly || a.frozen }

/-- The store that a text addresses. -/
def openText (url : String) (site : Site) : Except Fault Store :=
  match read url with
  | .ok address => address.openAt url site
  | .error flaw => .error (unopened url flaw.message)

end Address

/-- What stands at an address after the directory was used. -/
def Site.after (site : Site) (a : Address) (d : Directory) : Site :=
  if 0 < d.session.opened then .database d.store.notes d.store.arrivals
  else
    match site with
    | .absent true => if a.creates && 0 < d.session.attempts then .blank else site
    | _ => site

end AddressBook

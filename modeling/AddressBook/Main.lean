import AddressBook.CommandLine.Run
import Std.Time.DateTime

/-! The program: arguments, files, variables and the clock come from outside. The notes of a database
are kept in its file as a JSON list, in the order in which they came. -/

namespace AddressBook.CommandLine

def usage : String :=
  "Usage: addressbook [-c FILE] [--log-level LEVEL] COMMAND\n\n" ++
  "Commands:\n" ++
  "  test\n" ++
  "  schema\n" ++
  "  compile CLASS FILTER\n" ++
  "  search CLASS [FILTER] [--attributes LIST] [--excluded-attributes LIST] [--limit COUNT]\n" ++
  "  get CLASS UID [--attributes LIST]\n" ++
  "  create CLASS JSON\n" ++
  "  update CLASS UID JSON [--kind add|remove|replace]\n" ++
  "  delete CLASS UID\n"

/-- What a failed system call says. -/
def failureText : IO.Error → String
  | .inappropriateType _ code details => details ++ " (os error " ++ toString code ++ ")"
  | .permissionDenied _ code details => details ++ " (os error " ++ toString code ++ ")"
  | error => toString error

def contentOf (path : String) : IO Settings.Content := do
  try
    match String.fromUTF8? (← IO.FS.readBinFile path) with
    | some document => return .text document
    | none => return .unreadable "stream did not contain valid UTF-8"
  catch error =>
    match error with
    | .noFileOrDirectory .. => return .missing
    | error => return .unreadable (failureText error)

/-- The values of the variables that a document refers to. -/
def variablesOf (content : Settings.Content) : IO (List (String × String)) := do
  let names :=
    match content with
    | .text document => Settings.references document
    | _ => []
  names.filterMapM fun name => do
    return (← IO.getEnv name).map fun value => (name, value)

def randomId : IO String := do
  let value ← IO.rand 0 (16 ^ 32 - 1)
  return Supply.idDigits value

def supplyNow : IO Supply := do
  let now ← Std.Time.Timestamp.now
  return { ids := [← randomId], start := ⟨now.toNanosecondsSinceUnixEpoch.val⟩ }

/-- What stands at a path; a file can be made where none is. -/
def siteOf (path : String) : IO Site := do
  match ← contentOf path with
  | .missing => return .absent true
  | .unreadable _ => return .folder
  | .text "" => return .blank
  | .text content =>
    match Json.Outline.read? content.toList with
    | some (.list items) =>
      let notes := items.filterMap Note.ofChars?
      let entries := notes.filterMap fun n => n.id.map fun id => (id, n)
      return .database (Keyed.ofList entries) (entries.map Prod.fst)
    | _ => return .foreign

def fileOfNotes (s : Store) : String :=
  let notes := s.arrivals.filterMap fun id => Keyed.get? id s.notes
  (Json.list (notes.map Note.toJson)).indented 0

def fail (message : String) (isTransient : Bool) : IO UInt32 := do
  if isTransient then
    IO.eprintln "The directory could not be reached; the operation can be retried"
  IO.eprintln ("Error: " ++ message)
  return 1

def execute (settings : Settings) (storage : Settings.Storage) (command : Command) :
    IO UInt32 := do
  let place := (addressOf? storage).bind fun address => address.file.map fun path => (address, path)
  let site ←
    match place with
    | some (_, path) => siteOf path
    | none => pure (.absent false)
  let start := directoryOf storage site (← supplyNow)
  let (outcome, d) := run settings command start
  if let some (address, path) := place then
    match site.after address d with
    | .database _ _ => if !d.store.readOnly then IO.FS.writeFile path (fileOfNotes d.store)
    | .blank => IO.FS.writeFile path ""
    | _ => pure ()
  match outcome with
  | .ok output =>
    IO.print output
    return 0
  | .error failure => fail failure.message failure.isTransient

def start (invocation : Invocation) : IO UInt32 := do
  let content ← contentOf invocation.configPath
  let values ← variablesOf content
  match settingsOf (fun name => values.lookup name) invocation.configPath content with
  | .error failure => fail failure.message failure.isTransient
  | .ok (settings, isDefault) =>
    if isDefault then IO.eprintln noConfigNotice
    match prepare settings invocation.logLevel with
    | .error fault => fail fault.message fault.isTransient
    | .ok storage => execute settings storage invocation.command

end AddressBook.CommandLine

def main (arguments : List String) : IO UInt32 := do
  match AddressBook.CommandLine.Invocation.read arguments with
  | .ok invocation => AddressBook.CommandLine.start invocation
  | .error .help =>
    IO.print AddressBook.CommandLine.usage
    return 0
  | .error _ =>
    IO.eprint AddressBook.CommandLine.usage
    return 2

import AddressBook.CommandLine.Arguments
import AddressBook.Directory.Site
import AddressBook.Filter.Reader
import AddressBook.Provisioning.Entries
import AddressBook.Settings.Reader

/-! Carrying out a command: loading the settings, finding the store and running one operation. -/

namespace AddressBook.CommandLine

/-- Why a command ends without its result. -/
inductive Failure where
  | fault (f : Fault)
  /-- The attributes are not JSON. -/
  | notJson
  | other (message : String)
  deriving DecidableEq, Repr, Inhabited

def Failure.message : Failure → String
  | .fault f => f.message
  | .notJson => "the attributes are not JSON"
  | .other message => message

/-- Whether the command may be repeated. -/
def Failure.isTransient : Failure → Bool
  | .fault f => f.isTransient
  | _ => false

/-- The address of the database that keeps the notes, if one does. -/
def addressOf? (storage : Settings.Storage) : Option Address :=
  match storage with
  | .memory => none
  | .database d => (Address.read d.url).toOption

/-- The directory before its first session; `site` is what stands at the address. -/
def directoryOf (storage : Settings.Storage) (site : Site) (supply : Supply) : Directory :=
  match storage with
  | .memory => { supply }
  | .database d =>
    match Address.openText d.url site with
    | .ok store => { supply, store }
    | .error fault => { supply, opening := .refused fault }

/-- The attributes in a JSON text. -/
def attributesOf (text : String) : Except Failure Attributes :=
  match Json.read? text with
  | none => .error .notJson
  | some json => (Attributes.ofJson json).mapError .fault

/-- Runs an operation that needs attributes, if they can be read. -/
def withAttributes (text : String) (operation : Attributes → Action String) :
    Action (Except Failure String) := do
  match attributesOf text with
  | .error failure => return .error failure
  | .ok attributes => return .ok (← operation attributes)

def line (s : String) : String := s ++ "\n"

/-- The output of a command. -/
def perform (settings : Settings) : Command → Action (Except Failure String)
  | .test => do
    Entries.test settings
    return .ok (line "Connection OK")
  | .schema => return .ok (line (Schema.json.indented 0))
  | .compile kind filter => do
    match ← Query.ofFilter settings.search kind (← Filter.read filter) with
    | some query => return .ok (line query.write)
    | none => return .ok (line "(no constraint)")
  | .search kind filter wanted excluded limit => do
    let filter ← filter.mapM fun text => (Filter.read text : Except Fault Filter)
    let entries ←
      Reading.search settings.search kind filter (Selection.ofLists kind wanted excluded) limit
    return .ok (line ((Json.list (entries.map Entry.toJson)).indented 0))
  | .get kind uid wanted => do
    match ← Reading.get kind uid (Selection.ofLists kind wanted none) with
    | some entry => return .ok (line (entry.toJson.indented 0))
    | none => return .error (.other (kind.title ++ " " ++ uid ++ " not found"))
  | .create kind text =>
    withAttributes text fun attributes => do
      return line (← Entries.create settings kind attributes)
  | .update kind uid text how =>
    withAttributes text fun attributes => do
      return line (← Entries.update settings kind uid attributes how)
  | .delete kind uid => do
    Entries.delete settings kind uid
    return .ok (line ("Deleted " ++ kind.title ++ " " ++ uid))

/-- The settings of an invocation, and whether they stand for a file that is not there. The file of
the usual name may be missing. -/
def settingsOf (lookup? : String → Option String) (path : String) (content : Settings.Content) :
    Except Failure (Settings × Bool) :=
  if path = "config.yaml" && content = .missing then .ok ({}, true)
  else
    match Settings.load lookup? path content with
    | .ok settings => .ok (settings, false)
    | .error refusal => .error (.other ("Failed to load configuration: " ++ refusal.message))

def noConfigNotice : String := "No config.yaml found, using an in-memory directory"

/-- Checks the log level and the settings, and finds where the notes are kept. -/
def prepare (settings : Settings) (logLevel : Option String) : Except Fault Settings.Storage := do
  discard (LogLevel.read (logLevel.getD settings.logLevel))
  settings.checkedStorage

/-- The result of a command and the directory after it. -/
def run (settings : Settings) (command : Command) (d : Directory) :
    Except Failure String × Directory :=
  match perform settings command d with
  | .ok outcome d => (outcome, d)
  | .error fault d => (.error (.fault fault), d)

end AddressBook.CommandLine

import AddressBook.Membership.Basic
import AddressBook.Query.Compiler
import AddressBook.Words

/-! Settings: how the directory is reached, and what is done when entries are written. -/

namespace AddressBook

/-- What is done when entries are created, changed and deleted. -/
structure DirectorySettings where
  adminName : Option String := none
  /-- Never written out. -/
  adminPassword : Option String := none
  userDatabaseName : String := "names.nsf"
  registrationServer : Option String := none
  mailServer : Option String := none
  mailTemplateName : Option String := none
  /-- 0 keeps the mail file of a deleted account, 1 deletes it, 2 deletes its replicas too. -/
  mailFileAction : Nat := 0
  immediateDelete : Bool := false
  defaultPasswordExpiryDays : Nat := 720
  minPasswordLength : Nat := 6
  /-- The deny list that disabled accounts join. -/
  disableDenyGroup : Option String := none
  /-- The deny list that deleted accounts join. -/
  deleteDenyGroup : Option String := none
  /-- What is put behind the names of accounts that come without an organization. -/
  certifierOrgHierarchy : Option String := none
  /-- Whether a change of password needs the current one. -/
  syncInternetPassword : Bool := false
  deriving DecidableEq, Repr, Inhabited

structure Database where
  url : String
  maxConnections : Nat := 10
  deriving DecidableEq, Repr, Inhabited

/-- Where the notes are kept. -/
structure BackendSettings where
  type : String := "memory"
  database : Option Database := none
  deriving DecidableEq, Repr, Inhabited

structure Settings where
  directory : DirectorySettings := {}
  search : SearchRules := {}
  replacePolicy : ReplacePolicy := .additive
  backend : BackendSettings := {}
  logLevel : String := "info"
  deriving DecidableEq, Repr, Inhabited

def ContainsAll.word : ContainsAll → String
  | .firstValue => "first_value"
  | .everyValue => "every_value"

def ContainsAll.ofWord? (s : String) : Option ContainsAll :=
  match s with
  | "first_value" => some .firstValue
  | "every_value" => some .everyValue
  | _ => none

def ReplacePolicy.word : ReplacePolicy → String
  | .additive => "additive"
  | .exact => "exact"

def ReplacePolicy.ofWord? (s : String) : Option ReplacePolicy :=
  match s with
  | "additive" => some .additive
  | "exact" => some .exact
  | _ => none

namespace Settings

/-- A fault in the settings. -/
def flaw (cause : String) : Except Fault Unit := .error (.configuration cause)

def checkName (key : String) (group : Option String) : Except Fault Unit :=
  if (group.map fun name => (Text.trim name).isEmpty).getD false then
    flaw (key ++ " must not be blank")
  else .ok ()

def checkDirectory (d : DirectorySettings) : Except Fault Unit := do
  if 2 < d.mailFileAction then
    flaw ("mail_file_action must be 0, 1 or 2, got " ++ toString d.mailFileAction)
  if d.minPasswordLength = 0 then flaw "min_password_length must be at least 1"
  checkName "disable_deny_group" d.disableDenyGroup
  checkName "delete_deny_group" d.deleteDenyGroup

def checkBackend (b : BackendSettings) : Except Fault Unit :=
  match b.type, b.database with
  | "memory", _ => .ok ()
  | "sqlite", none => flaw "Database configuration is required when backend type is 'sqlite'"
  | "sqlite", some database =>
    if database.maxConnections = 0 then flaw "max_connections must be at least 1" else .ok ()
  | other, _ => flaw ("Unsupported backend type: " ++ other)

/-- Refuses values out of range and settings that do not go together. -/
def check (s : Settings) : Except Fault Unit := do
  checkDirectory s.directory
  checkBackend s.backend
  discard (LogLevel.read s.logLevel)

/-- What keeps the notes, and where. -/
inductive Storage where
  | memory
  | database (d : Database)
  deriving DecidableEq, Repr, Inhabited

/-- The storage that the settings name, the type in any case. -/
def storage (s : Settings) : Except Fault Storage := do
  match ← Backing.read s.backend.type, s.backend.database with
  | .memory, _ => return .memory
  | .sqlite, some database => return .database database
  | .sqlite, none => throw (.configuration "sqlite backend requires a database section")

/-- The storage of settings that pass the check. -/
def checkedStorage (s : Settings) : Except Fault Storage := do
  s.check
  s.storage

def optionalJson (value : Option String) : Json := (value.map Json.text).getD .null

def directoryJson (d : DirectorySettings) : Json :=
  .object [("admin_name", optionalJson d.adminName),
    ("certifier_org_hierarchy", optionalJson d.certifierOrgHierarchy),
    ("default_password_expiry_days", .integer d.defaultPasswordExpiryDays),
    ("delete_deny_group", optionalJson d.deleteDenyGroup),
    ("disable_deny_group", optionalJson d.disableDenyGroup),
    ("immediate_delete", .bool d.immediateDelete),
    ("mail_file_action", .integer d.mailFileAction),
    ("mail_server", optionalJson d.mailServer),
    ("mail_template_name", optionalJson d.mailTemplateName),
    ("min_password_length", .integer d.minPasswordLength),
    ("registration_server", optionalJson d.registrationServer),
    ("sync_internet_password", .bool d.syncInternetPassword),
    ("user_database_name", .text d.userDatabaseName)]

def databaseJson (d : Database) : Json :=
  .object [("max_connections", .integer d.maxConnections), ("url", .text d.url)]

/-- The settings as JSON, without the password. -/
def toJson (s : Settings) : Json :=
  .object [
    ("backend", .object [("database", (s.backend.database.map databaseJson).getD .null),
      ("type", .text s.backend.type)]),
    ("directory", directoryJson s.directory),
    ("logging", .object [("level", .text s.logLevel)]),
    ("membership", .object [("replace_group_list", .text s.replacePolicy.word)]),
    ("search", .object [("case_sensitive_attributes", .list (s.search.exact.map .text)),
      ("contains_all", .text s.search.containsAll.word),
      ("use_case_insensitive_search", .bool s.search.ignoreCase)])]

end Settings

end AddressBook

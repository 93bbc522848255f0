import AddressBook.Json.Reader
import AddressBook.Settings.Basic
import AddressBook.Settings.Variables
import AddressBook.Yaml.Reader

/-! Reading settings from JSON and from documents. What is left out takes its default, and what is
not known is passed over. In JSON a section may also be a list of its values in order; in a document
it may be left empty. Reading fails when a value has the wrong type or is out of range, when a known
key is written twice, or when a value without default is missing. -/

namespace AddressBook.Settings

/-- What settings are read from. A plain scalar is what its reader takes it for. -/
inductive Source where
  | null
  | plain (word : String)
  | text (s : String)
  | bool (b : Bool)
  | integer (i : Int)
  | number
  /-- `inOrder` tells whether the list may stand for a section. -/
  | list (inOrder : Bool) (items : List Source)
  /-- A key that is no text is `none`. -/
  | mapping (entries : List (Option String × Source))
  deriving Inhabited

namespace Source

mutual

def ofJson : Json → Source
  | .null => .null
  | .bool b => .bool b
  | .integer i => .integer i
  | .real _ => .number
  | .text s => .text s
  | .list items => .list true (ofJsonItems items)
  | .object members => .mapping (ofJsonMembers members)

def ofJsonItems : List Json → List Source
  | [] => []
  | item :: items => ofJson item :: ofJsonItems items

def ofJsonMembers : List (String × Json) → List (Option String × Source)
  | [] => []
  | (key, value) :: members => (some key, ofJson value) :: ofJsonMembers members

end

def keyText? : Yaml → Option String
  | .scalar _ word => some word
  | _ => none

mutual

def ofYaml : Yaml → Source
  | .scalar isPlain word => if isPlain then .plain word else .text word
  | .list items => .list false (ofYamlItems items)
  | .mapping entries => .mapping (ofYamlEntries entries)

def ofYamlItems : List Yaml → List Source
  | [] => []
  | item :: items => ofYaml item :: ofYamlItems items

def ofYamlEntries : List (Yaml × Yaml) → List (Option String × Source)
  | [] => []
  | (key, value) :: entries => (keyText? key, ofYaml value) :: ofYamlEntries entries

end

def isNull : Source → Bool
  | .null => true
  | .plain word => word ∈ ["", "~", "null", "Null", "NULL"]
  | _ => false

def text? : Source → Option String
  | .text s => some s
  | .plain word => some word
  | _ => none

def bool? : Source → Option Bool
  | .bool b => some b
  | .plain word =>
    if word ∈ ["true", "True", "TRUE"] then some true
    else if word ∈ ["false", "False", "FALSE"] then some false
    else none
  | _ => none

def digitValue? (base : Nat) (c : Char) : Option Nat :=
  (Text.hexValue? c).filter (· < base)

def digits? (base : Nat) (cs : List Char) : Option Nat :=
  if cs.isEmpty then none
  else cs.foldlM (fun n c => (digitValue? base c).map fun digit => base * n + digit) 0

/-- A natural number as a plain scalar: decimal without leading zeros, or hexadecimal, octal or binary
behind its mark. -/
def plainNat? (cs : List Char) : Option Nat :=
  let unsigned :=
    match cs with
    | '+' :: rest => rest
    | cs => cs
  match unsigned with
  | '0' :: 'x' :: rest => digits? 16 rest
  | '0' :: 'o' :: rest => digits? 8 rest
  | '0' :: 'b' :: rest => digits? 2 rest
  | '0' :: _ :: _ => none
  | digits => digits? 10 digits

/-- A natural number up to a bound. -/
def nat? (most : Nat) (source : Source) : Option Nat :=
  let found :=
    match source with
    | .integer i => if 0 ≤ i then some i.toNat else none
    | .plain word => plainNat? word.toList
    | _ => none
  found.filter (· ≤ most)

def byte? : Source → Option Nat := nat? 255

def word? : Source → Option Nat := nat? (2 ^ 32 - 1)

/-- A list of texts; where nothing is written, it is empty. -/
def texts? : Source → Option (List String)
  | .list _ items => items.mapM text?
  | .plain "" => some []
  | _ => none

/-- The entries of a section with the given keys. -/
def entries? (keys : List String) : Source → Option (List (String × Source))
  | .mapping entries => entries.mapM fun (key, value) => key.map fun key => (key, value)
  | .list true items => if items.length ≤ keys.length then some (keys.zip items) else none
  | .plain "" => some []
  | _ => none

/-- The value of a key, or the default when the key is missing. -/
def get? {α : Type} (entries : List (String × Source)) (key : String) (read : Source → Option α)
    (default : Option α) : Option α :=
  match entries.filter fun entry => entry.1 == key with
  | [] => default
  | [(_, value)] => read value
  | _ => none

/-- A value that may be nothing. -/
def optional? {α : Type} (read : Source → Option α) (source : Source) : Option (Option α) :=
  if source.isNull then some none else (read source).map some

/-- One of several words, which in JSON may also be the key of a null. -/
def choice? {α : Type} (ofWord? : String → Option α) : Source → Option α
  | .mapping [(some word, .null)] => ofWord? word
  | source => source.text?.bind ofWord?

def directoryKeys : List String :=
  ["admin_name", "admin_password", "user_database_name", "registration_server", "mail_server",
   "mail_template_name", "mail_file_action", "immediate_delete", "default_password_expiry_days",
   "min_password_length", "disable_deny_group", "delete_deny_group", "certifier_org_hierarchy",
   "sync_internet_password"]

def directory? (source : Source) : Option DirectorySettings := do
  let entries ← source.entries? directoryKeys
  let name := fun key => get? entries key (optional? text?) (some none)
  let start : DirectorySettings := {}
  return {
    adminName := ← name "admin_name"
    adminPassword := ← name "admin_password"
    userDatabaseName := ← get? entries "user_database_name" text? (some start.userDatabaseName)
    registrationServer := ← name "registration_server"
    mailServer := ← name "mail_server"
    mailTemplateName := ← name "mail_template_name"
    mailFileAction := ← get? entries "mail_file_action" byte? (some start.mailFileAction)
    immediateDelete := ← get? entries "immediate_delete" bool? (some start.immediateDelete)
    defaultPasswordExpiryDays :=
      ← get? entries "default_password_expiry_days" word? (some start.defaultPasswordExpiryDays)
    minPasswordLength := ← get? entries "min_password_length" word? (some start.minPasswordLength)
    disableDenyGroup := ← name "disable_deny_group"
    deleteDenyGroup := ← name "delete_deny_group"
    certifierOrgHierarchy := ← name "certifier_org_hierarchy"
    syncInternetPassword :=
      ← get? entries "sync_internet_password" bool? (some start.syncInternetPassword) }

def search? (source : Source) : Option SearchRules := do
  let entries ← source.entries?
    ["use_case_insensitive_search", "case_sensitive_attributes", "contains_all"]
  return {
    ignoreCase := ← get? entries "use_case_insensitive_search" bool? (some true)
    exact := ← get? entries "case_sensitive_attributes" texts? (some [])
    containsAll :=
      ← get? entries "contains_all" (choice? ContainsAll.ofWord?) (some .firstValue) }

def membership? (source : Source) : Option ReplacePolicy := do
  let entries ← source.entries? ["replace_group_list"]
  get? entries "replace_group_list" (choice? ReplacePolicy.ofWord?) (some .additive)

def database? (source : Source) : Option Database := do
  let entries ← source.entries? ["url", "max_connections"]
  return {
    url := ← get? entries "url" text? none
    maxConnections := ← get? entries "max_connections" word? (some 10) }

/-- As a list, the section has both its values. -/
def backend? (source : Source) : Option BackendSettings := do
  let entries ← source.entries? ["type", "database"]
  let missing : Option (Option Database) :=
    match source with
    | .list _ _ => none
    | _ => some none
  return {
    type := ← get? entries "type" text? none
    database := ← get? entries "database" (optional? database?) missing }

def logging? (source : Source) : Option String := do
  let entries ← source.entries? ["level"]
  get? entries "level" text? (some "info")

/-- The settings; `backend` is what stands for a missing section of that name. -/
def settings? (backend : Option BackendSettings) (source : Source) : Option Settings := do
  let entries ← source.entries? ["directory", "search", "membership", "backend", "logging"]
  return {
    directory := ← get? entries "directory" directory? (some {})
    search := ← get? entries "search" search? (some {})
    replacePolicy := ← get? entries "membership" membership? (some .additive)
    backend := ← get? entries "backend" backend? backend
    logLevel := ← get? entries "logging" logging? (some "info") }

end Source

/-- What is found at the path of a document. -/
inductive Content where
  | missing
  | text (document : String)
  | unreadable (cause : String)
  deriving DecidableEq, Repr, Inhabited

/-- Why a document of settings is refused. -/
inductive Refusal where
  | missing (path : String)
  | unopened (path cause : String)
  | unknownVariable (name : String)
  | unreadable
  | unsuitable (fault : Fault)
  deriving DecidableEq, Repr

def Refusal.message : Refusal → String
  | .missing path => "Configuration file not found: " ++ path
  | .unopened path cause => "Failed to read config file " ++ path ++ ": " ++ cause
  | .unknownVariable name =>
    "Environment variable " ++ name ++ " not found and no default provided"
  | .unreadable => "Failed to parse config file"
  | .unsuitable fault => fault.message

/-- The settings in a document, once its variables are put in, provided they pass the check. -/
def ofDocument (lookup? : String → Option String) (document : String) :
    Except Refusal Settings := do
  let expanded ← (expand lookup? document).mapError .unknownVariable
  match (Yaml.read? expanded).bind fun yaml => (Source.ofYaml yaml).settings? none with
  | none => throw .unreadable
  | some settings =>
    settings.check.mapError .unsuitable
    return settings

/-- The settings in the file at a path. -/
def load (lookup? : String → Option String) (path : String) (content : Content) :
    Except Refusal Settings :=
  match content with
  | .missing => .error (.missing path)
  | .unreadable cause => .error (.unopened path cause)
  | .text document => ofDocument lookup? document

/-- The settings in JSON, kept in memory when nothing else is said. -/
def ofJson? (json : Json) : Option Settings := (Source.ofJson json).settings? (some {})

end AddressBook.Settings

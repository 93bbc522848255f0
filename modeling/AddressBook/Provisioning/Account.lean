import AddressBook.Membership.Update
import AddressBook.Provisioning.Basic
import AddressBook.Settings.Basic

/-! Creating, updating and deleting accounts. The note is saved first and the groups after it. -/

namespace AddressBook.Account

open Provisioning

/-- A raw name below an organization. -/
def qualified (raw hierarchy : String) : String :=
  raw ++ "/" ++ String.ofList ((Text.trimChars hierarchy.toList).dropWhile (· == '/'))

/-- The name of a new or renamed account. A name without an organization is put below the
configured one. -/
def nameOf (settings : DirectorySettings) (raw : String) : Except Fault CanonicalName := do
  let raw := Text.collapseBlanks raw
  let name ← Name.canonicalize raw
  match settings.certifierOrgHierarchy with
  | none => return name
  | some hierarchy =>
    if ((← Name.parse name.text).organization.getD "").isEmpty then
      Name.canonicalize (qualified raw hierarchy)
    else return name

/-- The name under which an account is stored. -/
def storedName (n : Note) : Except Fault CanonicalName :=
  match n.text? "FullName" with
  | none => .error (.internal ("Account " ++ n.identity ++ " has no FullName"))
  | some full => Name.canonicalize full

/-- The last word of a common name is the last name, the words before it are the first name. -/
def splitCommon (n : Note) (common : String) : Note :=
  match (Text.words common).reverse with
  | [] => n
  | [last] => n.setText "LastName" last
  | last :: others =>
    let named := n.setText "LastName" last
    if named.hasItem "FirstName" then named
    else named.setText "FirstName" (Text.join " " others.reverse)

/-- An account without a last name takes it, and the first name, from its common name. -/
def defaultPersonName (n : Note) (name : CanonicalName) : Except Fault Note :=
  if n.hasItem "LastName" then .ok n
  else do return splitCommon n (← Name.parse name.text).common

def defaultMailbox (n : Note) : Note :=
  if n.hasItem "MailFile" then n
  else
    n.setText "MailFile"
      (defaultMailFile ((n.text? "FirstName").getD "") ((n.text? "LastName").getD ""))

def defaultServer (settings : DirectorySettings) (n : Note) : Except Fault Note :=
  match settings.mailServer with
  | none => .ok n
  | some server =>
    if n.hasItem "MailServer" then .ok n
    else do return n.setText "MailServer" (← Name.canonicalize server).text

def defaultExpiry (settings : DirectorySettings) (n : Note) : Note :=
  if n.hasItem "PasswordChangeInterval" then n
  else
    n.setItem "PasswordChangeInterval"
      [.number (Number.ofInt settings.defaultPasswordExpiryDays)]

/-- Fills in what the caller left out. -/
def withDefaults (settings : DirectorySettings) (n : Note) (name : CanonicalName) :
    Except Fault Note := do
  let n ← defaultServer settings (defaultMailbox (← defaultPersonName n name))
  return defaultExpiry settings n

/-- Stores a password that is long enough. -/
def storePassword (settings : DirectorySettings) (n : Note) (password : Secret) :
    Except Fault Note :=
  match password.take.1 with
  | none => .error AttributeFlaw.passwordTaken.fault
  | some plain =>
    if plain.length < settings.minPasswordLength then
      .error (AttributeFlaw.passwordTooShort settings.minPasswordLength).fault
    else .ok (n.setText "HTTPPassword" plain)

/-- Changes the password; where passwords are kept in step, the current one has to be given. -/
def changePassword (settings : DirectorySettings) (n : Note) (current : Option Secret)
    (password : Secret) : Except Fault Note :=
  if settings.syncInternetPassword then
    match current with
    | none => .error AttributeFlaw.passwordMissing.fault
    | some current =>
      if current.take.1.isSome && current.take.1 == n.text? "HTTPPassword" then
        storePassword settings n password
      else .error AttributeFlaw.passwordDiffers.fault
  else storePassword settings n password

/-- The deny lists that enabling or disabling an account goes through, if any. -/
def denyGroups (settings : DirectorySettings) (given : Option (List String)) :
    Option (List String) :=
  match given with
  | some (group :: groups) => some (group :: groups)
  | _ => settings.disableDenyGroup.map fun group => [group]

def checkPasswordText (enabled : Bool) : String := if enabled then "0" else "2"

/-- Enables or disables an account: through deny lists, or else through a mark in its note. -/
def setEnabled (settings : DirectorySettings) (n : Note) (name : CanonicalName) (enabled : Bool)
    (given : Option (List String)) : Action Unit := do
  match denyGroups settings given with
  | some groups =>
    groups.forM fun group =>
      if enabled then discard (Membership.leave name group)
      else discard (Membership.join name group)
  | none =>
    let mark := checkPasswordText enabled
    if n.text? "CheckPassword" != some mark then
      discard (Directory.save (n.setText "CheckPassword" mark))

/-- The attributes of an account that are not stored as they are, and the others. -/
structure Request where
  groups : Option (List String)
  enable : Option Bool
  denyGroups : Option (List String)
  password : Option Secret
  currentPassword : Option (List AttributeValue)
  plain : Attributes

def Request.ofAttributes (attributes : Attributes) : Except Fault Request := do
  let (groups, rest) := attributes.takeTexts "GroupList"
  let (enable, rest) := rest.takeBoolean Schema.enableAttribute
  let enable ← enable
  let (denyGroups, rest) := rest.takeTexts "DenyGroups"
  let (password, rest) := rest.takeSecret Schema.passwordAttribute
  let (currentPassword, plain) := rest.take Schema.currentPasswordAttribute
  return { groups, enable, denyGroups, password, currentPassword, plain }

def checkGroups (groups : List String) : Action Unit :=
  groups.forM fun group => do
    let display := Alias.display group
    if (← Directory.read (·.groupByAlias display)).isNone then throw (.unknownGroup display)

/-- The note of a new account. -/
def newNote (settings : DirectorySettings) (name : CanonicalName) (request : Request) :
    Except Fault Note := do
  let n := (Note.ofClass .account).setText "FullName" name.text
  let n ← fillNew .account n request.plain
  let n ← withDefaults settings n name
  match request.password with
  | some password => storePassword settings n password
  | none => return n

/-- Creates an account and returns its uid. -/
def create (settings : Settings) (attributes : Attributes) : Action String := do
  let (raw, attributes) := attributes.takeText Schema.nameAttribute
  let some raw := raw | throw (AttributeFlaw.missing Schema.nameAttribute).fault
  let name ← nameOf settings.directory raw
  Directory.acquire
  if (← Directory.read (·.accountByName name)).isSome then
    throw (.alreadyExists .account name.text)
  checkGroups ((attributes.takeTexts "GroupList").1.getD [])
  let request ← Request.ofAttributes attributes
  let groups := request.groups.getD []
  let n ← Directory.save (← newNote settings.directory name request)
  let uid ← idOf n
  if !groups.isEmpty then Membership.updateGroups settings.replacePolicy name groups .add
  if request.enable = some false then
    setEnabled settings.directory n name false request.denyGroups
  return uid

/-- The name that an update asks for, when it is not the stored one. -/
def newName (settings : DirectorySettings) (n : Note) (name : CanonicalName)
    (requested : Option String) : Action (Option CanonicalName) := do
  let some raw := requested | return none
  let new ← nameOf settings raw
  if new.same name then return none
  match ← Directory.read (·.accountByName new) with
  | some other =>
    if other.id = n.id then return some new else throw (.alreadyExists .account new.text)
  | none => return some new

/-- The note after an update; `true` when it has to be saved. -/
def updatedNote (settings : DirectorySettings) (n : Note) (renamed : Option CanonicalName)
    (request : Request) (how : UpdateKind) : Except Fault (Bool × Note) := do
  let n := match renamed with
    | some name => n.setText "FullName" name.text
    | none => n
  let current := request.currentPassword.bind (·.findSome? AttributeValue.secret?)
  match request.password with
  | some password =>
    updateAll .account how true (← changePassword settings n current password) request.plain
  | none =>
    if current.isSome then throw AttributeFlaw.passwordMissing.fault
    updateAll .account how renamed.isSome n request.plain

/-- Updates an account and returns its uid. -/
def update (settings : Settings) (uid : String) (attributes : Attributes) (how : UpdateKind) :
    Action String := do
  Directory.acquire
  let n ← findExisting .account uid
  let uid ← idOf n
  let old ← storedName n
  let (requested, attributes) := attributes.takeText Schema.nameAttribute
  let renamed ← newName settings.directory n old requested
  let name := renamed.getD old
  let request ← Request.ofAttributes attributes
  let (changed, n) ← updatedNote settings.directory n renamed request how
  let n ← if changed then Directory.save n else pure n
  if renamed.isSome then discard (Membership.rename old name)
  if let some groups := request.groups then
    Membership.updateGroups settings.replacePolicy name groups how
  if let some enabled := request.enable then
    setEnabled settings.directory n name enabled request.denyGroups
  return uid

/-- Deletes an account, after every group has let it go. -/
def delete (settings : Settings) (uid : String) : Action Unit := do
  Directory.acquire
  let n ← findExisting .account uid
  let id ← idOf n
  let name ← storedName n
  if let some group := settings.directory.deleteDenyGroup then
    if (← Directory.read (·.groupByAlias group)).isNone then throw (.unknownGroup group)
  discard (Membership.removeEverywhere name)
  if let some group := settings.directory.deleteDenyGroup then
    discard (Membership.join name group)
  discard (Directory.delete id)

end AddressBook.Account

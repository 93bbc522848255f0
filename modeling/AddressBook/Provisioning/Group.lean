import AddressBook.Membership.Update
import AddressBook.Provisioning.Basic
import AddressBook.Settings.Basic

/-! Creating, updating and deleting groups. A group is known by the first of its aliases; when that
changes or the group goes, the groups that list it follow. -/

namespace AddressBook.Group

open Provisioning

/-- The aliases, of which there has to be one. -/
def someAliases (aliases : List String) : Except Fault (Option (List String)) :=
  if aliases.isEmpty then .error AttributeFlaw.emptyGroupName.fault else .ok (some aliases)

/-- The aliases that a caller gives, by name or as a list; both have to agree. -/
def requestedAliases (name : Option String) (listNames : Option (List String)) :
    Except Fault (Option (List String)) :=
  match name.map Alias.split, listNames.map Alias.splitAll with
  | none, none => .ok none
  | none, some aliases => someAliases aliases
  | some aliases, none => someAliases aliases
  | some aliases, some listed =>
    if Alias.sameAll aliases listed then someAliases aliases
    else
      .error (AttributeFlaw.namesDiffer Schema.nameAttribute (Alias.join aliases)
        (Alias.join listed)).fault

/-- The attributes of a group that are not stored as they are, and the others. The name that is
shown is derived and never taken from the caller. -/
structure Request where
  aliases : Option (List String)
  members : Option (List String)
  groups : Option (List String)
  people : Option (List String)
  plain : Attributes

def Request.ofAttributes (attributes : Attributes) : Except Fault Request := do
  let (name, rest) := attributes.takeText Schema.nameAttribute
  let (listNames, rest) := rest.takeTexts "ListName"
  let aliases ← requestedAliases name listNames
  let (_, rest) := rest.take "DisplayName"
  let (members, rest) := rest.takeTexts "Members"
  let (groups, rest) := rest.takeTexts "MemberGroups"
  let (people, plain) := rest.takeTexts "MemberPeople"
  return { aliases, members, groups, people, plain }

def Request.memberNames (request : Request) : Except Fault (Option (List CanonicalName)) :=
  Membership.requested request.members request.groups request.people

def checkUnused (aliases : List String) : Action Unit :=
  aliases.forM fun name => do
    if (← Directory.read (·.groupByAlias name)).isSome then throw (.alreadyExists .group name)

/-- The note of a new group. -/
def newNote (aliases : List String) (request : Request) : Except Fault Note := do
  let members ← request.memberNames
  let n := (Note.ofClass .group).setTexts "ListName" aliases
  let n ← fillNew .group n request.plain
  match members with
  | some members => return n.setMembers (members.map (·.text))
  | none => return n

/-- Creates a group and returns its uid. -/
def create (attributes : Attributes) : Action String := do
  let request ← Request.ofAttributes attributes
  let some aliases := request.aliases | throw (AttributeFlaw.missing Schema.nameAttribute).fault
  Directory.acquire
  checkUnused aliases
  discard (Directory.save (← newNote aliases request))
  return Alias.join aliases

/-- Whether the aliases give the group another name to go by; that name must not be an alias of
another group. -/
def checkRename (n : Note) (aliases : List String) : Action Bool := do
  let display := aliases.headD ""
  if Text.sameName display n.displayName then return false
  match ← Directory.read (·.groupByAlias display) with
  | some other =>
    if other.id = n.id then return true else throw (.alreadyExists .group display)
  | none => return true

/-- The note after an update; `true` when it has to be saved. -/
def updatedNote (n : Note) (request : Request) (members : Option (List CanonicalName))
    (how : UpdateKind) : Except Fault (Bool × Note) := do
  let (changed, n) :=
    match request.aliases with
    | none => (false, n)
    | some aliases =>
      if Alias.sameAll aliases n.aliases then (false, n) else (true, n.setTexts "ListName" aliases)
  let (changed, n) ← updateAll .group how changed n request.plain
  match members with
  | none => return (changed, n)
  | some members =>
    let (different, n) := Membership.edit n members how
    return (changed || different, n)

/-- Updates a group and returns its uid, which a new name changes. -/
def update (uid : String) (attributes : Attributes) (how : UpdateKind) : Action String := do
  Directory.acquire
  let n ← findExisting .group uid
  let oldName := n.displayName
  let request ← Request.ofAttributes attributes
  let members ← request.memberNames
  let renamed ←
    match request.aliases with
    | some aliases => checkRename n aliases
    | none => pure false
  let (changed, n) ← updatedNote n request members how
  let n ← if changed then Directory.save n else pure n
  if renamed then
    let old ← Name.canonicalize oldName
    let new ← Name.canonicalize n.displayName
    discard (Membership.rename old new)
  return Alias.join n.aliases

/-- Deletes a group, after every group has let it go. -/
def delete (uid : String) : Action Unit := do
  Directory.acquire
  let n ← findExisting .group uid
  let id ← idOf n
  let name ← Name.canonicalize n.displayName
  discard (Membership.removeEverywhere name)
  discard (Directory.delete id)

end AddressBook.Group

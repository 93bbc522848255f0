import AddressBook.Directory.Basic
import AddressBook.Membership.Basic

/-! Changing who is in which group. Every group is saved on its own; when one is refused, those
before it stay as they were saved, and the same change can be run again, since membership is read
anew each time. -/

namespace AddressBook

namespace Store

/-- The groups that list a name. -/
def groupsOf (s : Store) (member : CanonicalName) : Except Fault (List Note) := do
  return (← s.search .group (some (Membership.queryFor member))).filter (·.hasMember member)

end Store

namespace Membership

def saveMembers (group : Note) (members : List String) : Action Unit :=
  discard (Directory.save (group.setMembers members))

/-- Adds a member to a group; `false` when the group lists it already. -/
def addMember (group : Note) (member : CanonicalName) : Action Bool := do
  if group.hasMember member then return false
  saveMembers group (withMember group.members member)
  return true

/-- Removes a member from a group; `false` when the group does not list it. -/
def removeMember (group : Note) (member : CanonicalName) : Action Bool := do
  let kept := withoutMember group.members member
  if kept.length = group.members.length then return false
  saveMembers group kept
  return true

/-- Adds a member to the group of an alias. -/
def join (member : CanonicalName) (name : String) : Action Bool := do
  match ← Directory.read (·.groupByAlias name) with
  | some group => addMember group member
  | none => throw (.unknownGroup name)

/-- Removes a member from the group of an alias, if there is such a group. -/
def leave (member : CanonicalName) (name : String) : Action Bool := do
  match ← Directory.read (·.groupByAlias name) with
  | some group => removeMember group member
  | none => return false

/-- The groups to leave, among those that hold the account. A deny list is never left unless it is
named. -/
def toLeave (kind : UpdateKind) (policy : ReplacePolicy) (held : List Note)
    (desired : List String) : List Note :=
  match kind, policy with
  | .add, _ => []
  | .replace, .additive => []
  | .remove, _ => held.filter fun group => desired.any group.hasAlias
  | .replace, .exact =>
    held.filter fun group => !group.isDenyList && !desired.any group.hasAlias

/-- The groups to join, by the names under which they are desired. -/
def toJoin (kind : UpdateKind) (held : List Note) (desired : List String) : List String :=
  match kind with
  | .remove => []
  | _ => desired.filter fun name => !held.any (·.hasAlias name)

/-- Updates the groups of an account. -/
def updateGroups (policy : ReplacePolicy) (account : CanonicalName) (groups : List String)
    (kind : UpdateKind) : Action Unit := do
  let desired := displayNames groups
  let held ← Directory.read (·.groupsOf account)
  (toJoin kind held desired).forM fun name => discard (join account name)
  (toLeave kind policy held desired).forM fun group => discard (removeMember group account)

/-- Puts a new name in the place of an old one in every group; the number of groups saved. -/
def rename (old new : CanonicalName) : Action Nat := do
  let groups ← Directory.read (·.groupsOf old)
  groups.forM fun group => saveMembers group (renamed group.members old new)
  return groups.length

/-- Removes a name from every group; the number of groups saved. -/
def removeEverywhere (member : CanonicalName) : Action Nat := do
  let groups ← Directory.read (·.groupsOf member)
  let removed ← groups.mapM fun group => removeMember group member
  return removed.count true

end Membership

end AddressBook

import AddressBook.Filter.Basic
import AddressBook.Membership.Update
import AddressBook.Provisioning.Basic
import AddressBook.Query.Compiler

/-! Reading entries and searching for them. What an entry has through other notes is derived here:
the groups of an account and whether it is enabled, the groups and people among the members of a
group. -/

namespace AddressBook.Reading

open Provisioning

/-- Whether the note of an account itself lets it in. -/
def enabledByMark (n : Note) : Bool := ((n.text? "CheckPassword").map Text.trim) != some "2"

/-- The groups that list an account; an account whose name is none is in no group. -/
def groupsOf (s : Store) (n : Note) : Except Fault (List Note) :=
  match n.text? "FullName" with
  | none => .ok []
  | some full =>
    match Name.canonicalize full with
    | .error _ => .ok []
    | .ok name => s.groupsOf name

def withGroups (s : Store) (selection : Selection) (n : Note) (e : Entry) : Except Fault Entry :=
  if selection.contains "GroupList" || selection.contains Schema.enableAttribute then do
    let groups ← groupsOf s n
    let names := (groups.filter (!·.isDenyList)).map fun group => AttributeValue.text group.displayName
    let enabled := enabledByMark n && !groups.any (·.isDenyList)
    let e := e.setIf (selection.contains "GroupList") "GroupList" names
    return e.setIf (selection.contains Schema.enableAttribute) Schema.enableAttribute
      [.boolean enabled]
  else .ok e

/-- What a member of a group turns out to be. -/
inductive Resolved where
  | group (display : String)
  | person (abbreviated : String)
  | unknown
  deriving DecidableEq, Repr, Inhabited

def resolve (s : Store) (member : String) : Except Fault Resolved := do
  match ← s.groupByAlias member with
  | some group => return .group group.displayName
  | none =>
    match Name.canonicalize member with
    | .error _ => return .unknown
    | .ok name =>
      match ← s.accountByName name with
      | some _ => return .person (← Name.abbreviate name.text)
      | none => return .unknown

def Resolved.group? : Resolved → Option String
  | .group display => some display
  | _ => none

def Resolved.person? : Resolved → Option String
  | .person abbreviated => some abbreviated
  | _ => none

def withMembers (s : Store) (selection : Selection) (n : Note) (e : Entry) : Except Fault Entry :=
  if selection.contains "MemberGroups" || selection.contains "MemberPeople" then do
    let resolved ← n.members.mapM (resolve s)
    let e := e.setIf (selection.contains "MemberGroups") "MemberGroups"
      ((resolved.filterMap Resolved.group?).map .text)
    return e.setIf (selection.contains "MemberPeople") "MemberPeople"
      ((resolved.filterMap Resolved.person?).map .text)
  else .ok e

/-- The entry of a note with everything that is derived from other notes. -/
def entryOf (s : Store) (kind : EntryClass) (selection : Selection) (n : Note) :
    Except Fault Entry := do
  let e ← Entry.ofNote kind n selection
  match kind with
  | .account => withGroups s selection n e
  | .group => withMembers s selection n e

def get (kind : EntryClass) (uid : String) (selection : Selection) : Action (Option Entry) := do
  Directory.acquire
  Directory.read fun s => do
    match ← find kind uid s with
    | some n => return some (← entryOf s kind selection n)
    | none => return none

/-- The notes that a search finds. A query for one id is answered without a search. -/
def found (s : Store) (kind : EntryClass) (query : Option String) : Except Fault (List Note) :=
  match kind, query.bind Query.directId? with
  | .account, some id => do return (← s.accountById id).toList
  | _, _ => s.search kind (some (Query.confined kind query))

/-- The first notes, as many as a reader takes that stops when it has `limit` entries; it takes one
at least. -/
def limited (limit : Option Nat) (notes : List Note) : List Note :=
  match limit with
  | none => notes
  | some limit => notes.take (max limit 1)

def search (rules : SearchRules) (kind : EntryClass) (filter : Option Filter)
    (selection : Selection) (limit : Option Nat) : Action (List Entry) := do
  let query ←
    match filter with
    | some filter => do pure ((← Query.ofFilter rules kind filter).map Query.write)
    | none => pure none
  Directory.acquire
  Directory.read fun s => do
    (limited limit (← found s kind query)).mapM (entryOf s kind selection)

end AddressBook.Reading

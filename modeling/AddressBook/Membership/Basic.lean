import AddressBook.Entry.Basic
import AddressBook.Query.Basic

/-! Who is in which group. A group lists its members by name; that an account belongs to a group is
never stored with the account. The edits of member lists are stated here, without saving anything.
-/

namespace AddressBook

/-- What replacing the groups of an account does to the groups that are not listed. -/
inductive ReplacePolicy where
  | additive
  | exact
  deriving DecidableEq, Repr, Inhabited

namespace Note

def members (n : Note) : List String := n.texts "Members"

def setMembers (n : Note) (members : List String) : Note := n.setTexts "Members" members

def hasMember (n : Note) (name : CanonicalName) : Bool :=
  n.members.any fun stored => Name.refersTo stored name

end Note

namespace Membership

/-- The query for the groups that may list a name. -/
def queryFor (member : CanonicalName) : String :=
  Query.confined .group (some ("@LowerCase(Members) = " ++ Text.quote member.folded))

/-- The names under which the listed groups are shown, each once, in the order of the list. -/
def displayNames (names : List String) : List String :=
  names.foldl (fun distinct name =>
    let display := Alias.display name
    if display.isEmpty || distinct.any fun known => Text.sameName known display then distinct
    else distinct ++ [display]) []

def withMember (members : List String) (name : CanonicalName) : List String :=
  members ++ [name.text]

def withoutMember (members : List String) (name : CanonicalName) : List String :=
  members.filter fun stored => !Name.refersTo stored name

/-- The members with one name in the place of another. A name that is already there is left out. -/
def renamed (members : List String) (old new : CanonicalName) : List String :=
  members.foldl (fun done stored =>
    let name := if Name.refersTo stored old then new.text else stored
    if done.any fun known => Text.sameName known name then done else done ++ [name]) []

/-- The members after an edit. -/
def edited (kind : UpdateKind) (members : List String) (edits : List CanonicalName) :
    List String :=
  match kind with
  | .replace => edits.map (·.text)
  | .add => edits.foldl (fun merged name =>
      if merged.any fun stored => Name.refersTo stored name then merged
      else withMember merged name) members
  | .remove => members.filter fun stored => !edits.any fun name => Name.refersTo stored name

/-- Edits the members of a group; `true` when the group changed. -/
def edit (n : Note) (edits : List CanonicalName) (kind : UpdateKind) : Bool × Note :=
  let updated := edited kind n.members edits
  if updated = n.members then (false, n) else (true, n.setMembers updated)

/-- The names, each once, whatever their case. -/
def distinct (names : List CanonicalName) : List CanonicalName :=
  names.foldl (fun done name => if done.any fun known => known.same name then done else done ++ [name])
    []

/-- The members that a caller gives for a group: all of them, or else the groups, or else the people
among them. -/
def requested (members groups people : Option (List String)) :
    Except Fault (Option (List CanonicalName)) :=
  match members.or (groups.or people) with
  | none => .ok none
  | some source => do return some (distinct (← Name.canonicalizeAll source))

end Membership

end AddressBook

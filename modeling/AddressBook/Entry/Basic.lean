import AddressBook.Attribute.Selection
import AddressBook.Attribute.Basic
import AddressBook.Alias
import AddressBook.Name.Canonical
import AddressBook.Note.Basic

/-! Entries: notes as callers see them. Names are stored in full and shown abbreviated. -/

namespace AddressBook

structure Entry where
  kind : EntryClass
  uid : String
  name : String
  attributes : Attributes := []
  deriving Inhabited

/-- The aliases of a group in the order in which they are stored. -/
def Note.aliases (n : Note) : List String := Alias.splitAll (n.texts "ListName")

/-- The name by which a group is shown. -/
def Note.displayName (n : Note) : String := n.aliases.headD ""

/-- Whether a group denies access to its members. -/
def Note.isDenyList (n : Note) : Bool :=
  (n.text? "GroupType").bind (fun s => readIntWithin? Int.least64 Int.most64 (Text.trim s)) ==
    some Schema.denyListType

namespace Entry

def isNameBearing (item : String) : Bool :=
  ["MailServer", "Members"].any fun name => Text.sameAscii name item

/-- Whether an attribute is derived from other notes. -/
def isRelation (name : String) : Bool :=
  ["GroupList", "__ENABLE__", "MemberGroups", "MemberPeople"].any fun relation =>
    Text.sameAscii relation name

def set (e : Entry) (name : String) (values : List AttributeValue) : Entry :=
  { e with attributes := Keyed.put name values e.attributes }

def get? (e : Entry) (name : String) : Option (List AttributeValue) :=
  Keyed.get? name e.attributes

def texts (e : Entry) (name : String) : List String :=
  ((e.get? name).getD []).filterMap AttributeValue.text?

def setIf (e : Entry) (wanted : Bool) (name : String) (values : List AttributeValue) : Entry :=
  if wanted then e.set name values else e

/-- An account without a full name goes by its last name; a full name that is none is shown as it
is, and nothing is derived from it. -/
def accountHeader (n : Note) (id : String) (selection : Selection) : Entry :=
  match n.text? "FullName" with
  | none => { kind := .account, uid := id, name := (n.text? "LastName").getD "" }
  | some full =>
    match Name.parse full with
    | .error _ => { kind := .account, uid := id, name := full }
    | .ok name =>
      let header : Entry := { kind := .account, uid := id, name := name.abbreviated }
      let organization := name.organization.getD ""
      let header := header.setIf (selection.contains "OrgUnit" && !name.unitText.isEmpty)
        "OrgUnit" [.text name.unitText]
      header.setIf (selection.contains "CertifierOrgHierarchy" && !organization.isEmpty)
        "CertifierOrgHierarchy" [.text ("/" ++ organization)]

def groupHeader (n : Note) (selection : Selection) : Entry :=
  let aliases := n.aliases
  let joined := Alias.join aliases
  let header : Entry := { kind := .group, uid := joined, name := joined }
  let header := header.setIf (selection.contains "DisplayName" && !aliases.isEmpty)
    "DisplayName" [.text n.displayName]
  header.setIf (selection.contains "ListName") "ListName" (aliases.map .text)

/-- A stored value as an integer attribute, if it is one. -/
def integer? (coercion : Option Schema.Coercion) (value : Note.Value) : Option Int :=
  match coercion, value with
  | some .fromText, .text s => readIntWithin? Int.least32 Int.most32 (Text.trim s)
  | _, .number n => some (n.round Int.least32 Int.most32)
  | _, .text s => (Number.read? (Text.trim s)).map (·.round Int.least32 Int.most32)
  | _, .moment _ => none

/-- A stored text as it is shown; a text that is no name is shown as it is. -/
def shownText (name : String) (text : String) : String :=
  if isNameBearing name then
    match Name.abbreviate text with
    | .ok short => short
    | .error _ => text
  else text

def storedBoolean (text : String) : Bool := text == "1" || Text.sameAscii text "true"

/-- The values of an item under an attribute of the registry, or outside it. -/
def valuesOfItem (name : String) (known : Option Schema.Attribute)
    (values : List Note.Value) : List AttributeValue :=
  let asText := values.map fun value => .text (shownText name value.shown)
  match known with
  | none => asText
  | some a =>
    if !a.readable then []
    else
      match a.type with
      | .secret => []
      | .integer => (values.filterMap (integer? a.coercion)).map .integer
      | .boolean => (values.filterMap Note.Value.text?).map fun s => .boolean (storedBoolean s)
      | _ => asText

def valuesOf (kind : EntryClass) (n : Note) (name : String) : List AttributeValue :=
  if Text.sameAscii name "LastModified" then
    (n.modified.map fun m => AttributeValue.long m.milliseconds).toList
  else if Text.sameAscii name "objectGUID" then n.id.toList.map .text
  else
    match n.item? name with
    | none => []
    | some values => valuesOfItem name (Schema.find? kind name) values

/-- Whether an attribute is read from the note itself and not yet set. -/
def isPlain (e : Entry) (name : String) : Bool :=
  name != Schema.nameAttribute && name != Schema.uidAttribute &&
    (e.get? name).isNone && !isRelation name

def fill (n : Note) (e : Entry) (name : String) : Entry :=
  let values := valuesOf e.kind n name
  if e.isPlain name && !values.isEmpty then e.set name values else e

def header (kind : EntryClass) (n : Note) (id : String) (selection : Selection) : Entry :=
  match kind with
  | .account => accountHeader n id selection
  | .group => groupHeader n selection

/-- The entry of a note, without the attributes that are derived from other notes. -/
def ofNote (kind : EntryClass) (n : Note) (selection : Selection) : Except Fault Entry :=
  match n.id with
  | none => .error (.internal ("Record " ++ n.identity ++ " has no id"))
  | some id => .ok (selection.names.foldl (fill n) (header kind n id selection))

def toJson (e : Entry) : Json :=
  .object [("object_class", .text e.kind.word), ("uid", .text e.uid), ("name", .text e.name),
    ("attributes", e.attributes.toJson)]

end Entry

end AddressBook

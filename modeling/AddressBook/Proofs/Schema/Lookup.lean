import AddressBook.Proofs.Text.Same
import AddressBook.Schema.Registry

/-! Looking up the attributes of a class. The spelling of the registry is the given one up to case, and
every spelling finds the same attribute. -/

namespace AddressBook.Schema

open Text

variable {kind : EntryClass} {name : String} {a : Attribute}

theorem sameAscii_of_find? (h : find? kind name = some a) : sameAscii a.name name = true := by
  have found := List.find?_some h
  exact found

theorem sameAscii_storedName (kind : EntryClass) (name : String) :
    sameAscii (((find? kind name).map (·.name)).getD name) name = true := by
  cases h : find? kind name with
  | none => exact sameAscii_refl name
  | some a => exact sameAscii_of_find? h

theorem find?_congr {other : String} (h : sameAscii name other = true) :
    find? kind name = find? kind other := by
  rw [find?, find?]
  congr 1
  funext a
  rw [sameAscii_comm, sameAscii_congr h, sameAscii_comm]

def namesApart : List String :=
  [nameAttribute, uidAttribute, "NoteID", "LastModified", "objectGUID", "OrgUnit",
    "CertifierOrgHierarchy", "DisplayName", "ListName", "GroupList", "__ENABLE__", "MemberGroups",
    "MemberPeople"]

theorem sameAscii_integral (h : find? kind name = some a) (whole : a.coercion.isSome = true)
    {special : String} (hs : special ∈ namesApart) : sameAscii a.name special = false := by
  have all : ∀ kind, ∀ a ∈ attributes kind, a.coercion.isSome = true →
      ∀ special ∈ namesApart, sameAscii a.name special = false := by
    intro kind
    cases kind <;> decide
  exact all kind a (List.mem_of_find?_eq_some h) whole special hs

theorem sameAscii_name_integral (h : find? kind name = some a) (whole : a.coercion.isSome = true)
    {special : String} (hs : special ∈ namesApart) : sameAscii name special = false := by
  rw [← sameAscii_congr (sameAscii_of_find? h), sameAscii_integral h whole hs]

theorem shown_integral (h : find? kind name = some a) (whole : a.coercion.isSome = true) :
    a.readable = true ∧ a.type = .integer := by
  have all : ∀ kind, ∀ a ∈ attributes kind, a.coercion.isSome = true →
      a.readable = true ∧ a.type = .integer := by
    intro kind
    cases kind <;> decide
  exact all kind a (List.mem_of_find?_eq_some h) whole

end AddressBook.Schema

import AddressBook.Proofs.Directory.Outcome
import AddressBook.Proofs.Provisioning.Plan

/-! The faults with which a new account is refused. What is asked for is refused for itself only where
a name or an attribute is malformed; that the account is there already is found in the store. -/

namespace AddressBook

open AddressBook.Action Provisioning

def Fault.isMalformed : Fault → Bool
  | .invalidAttribute _ => true
  | .nameFormat _ _ => true
  | _ => false

def FailsMalformed {α : Type} (x : Except Fault α) : Prop :=
  ∀ fault, x = .error fault → fault.isMalformed = true

section

variable {α β : Type}

theorem failsMalformed_ok (a : α) : FailsMalformed (.ok a : Except Fault α) := by
  rintro _ ⟨⟩

theorem failsMalformed_flaw (flaw : AttributeFlaw) :
    FailsMalformed (.error flaw.fault : Except Fault α) := by
  rintro _ ⟨⟩
  rfl

theorem FailsMalformed.bind {x : Except Fault α} {f : α → Except Fault β} (hx : FailsMalformed x)
    (hf : ∀ a, FailsMalformed (f a)) : FailsMalformed (x >>= f) := by
  intro fault h
  rcases bind_eq_error h with failed | ⟨a, _, failed⟩
  · exact hx fault failed
  · exact hf a fault failed

theorem FailsMalformed.mapM {f : α → Except Fault β} (hf : ∀ a, FailsMalformed (f a))
    (as : List α) : FailsMalformed (as.mapM f) := by
  induction as with
  | nil => exact failsMalformed_ok []
  | cons a as ih =>
    rw [List.mapM_cons]
    exact (hf a).bind fun _ => ih.bind fun _ => failsMalformed_ok _

end

namespace Name

theorem failsMalformed_parse (raw : String) : FailsMalformed (parse raw) := by
  intro fault h
  rw [parse] at h
  cases read : read raw with
  | ok name =>
    rw [read] at h
    cases h
  | error flaw =>
    rw [read] at h
    cases h
    rfl

theorem failsMalformed_canonicalize (raw : String) : FailsMalformed (canonicalize raw) :=
  (failsMalformed_parse raw).bind fun _ => failsMalformed_ok _

end Name

namespace Entry

theorem failsMalformed_integerOf (name : String) (value : AttributeValue) :
    FailsMalformed (integerOf name value) := by
  unfold integerOf
  split
  · exact failsMalformed_ok _
  · exact failsMalformed_ok _
  · split
    · exact failsMalformed_ok _
    · exact failsMalformed_flaw _
  · exact failsMalformed_flaw _

theorem failsMalformed_storedValue (kind : EntryClass) (name : String) (value : AttributeValue) :
    FailsMalformed (storedValue kind name value) := by
  unfold storedValue
  split
  · exact failsMalformed_flaw _
  · split
    · exact (failsMalformed_integerOf name value).bind fun _ => failsMalformed_ok _
    · exact (failsMalformed_integerOf name value).bind fun _ => failsMalformed_ok _
    · refine FailsMalformed.bind ?_ fun _ => failsMalformed_ok _
      rw [storedTextOf]
      split
      · exact (Name.failsMalformed_canonicalize _).bind fun _ => failsMalformed_ok _
      · exact failsMalformed_ok _

end Entry

namespace Provisioning

theorem failsMalformed_checkWritable (kind : EntryClass) (name : String) (isNew : Bool) :
    FailsMalformed (checkWritable kind name isNew) := by
  rw [checkWritable]
  split
  · exact failsMalformed_ok ()
  · repeat' split
    all_goals first | exact failsMalformed_flaw _ | exact failsMalformed_ok ()

theorem failsMalformed_fillNew (kind : EntryClass) (n : Note) (attributes : Attributes) :
    FailsMalformed (fillNew kind n attributes) := by
  induction attributes generalizing n with
  | nil => exact failsMalformed_ok n
  | cons asked rest ih =>
    refine (failsMalformed_checkWritable kind asked.1 true).bind fun _ => ?_
    refine FailsMalformed.bind ?_ fun stored => ih _
    exact FailsMalformed.mapM (Entry.failsMalformed_storedValue kind asked.1) asked.2

end Provisioning

namespace Account

variable {settings : Settings} {attributes : Attributes} {name : CanonicalName} {s : Store}
  {fault : Fault}

theorem failsMalformed_nameOf (settings : DirectorySettings) (raw : String) :
    FailsMalformed (nameOf settings raw) := by
  refine (Name.failsMalformed_canonicalize _).bind fun name => ?_
  split
  · exact failsMalformed_ok name
  · refine (Name.failsMalformed_parse _).bind fun parsed => ?_
    split
    · exact Name.failsMalformed_canonicalize _
    · exact failsMalformed_ok name

theorem failsMalformed_givenName (settings : DirectorySettings) (attributes : Attributes) :
    FailsMalformed (givenName settings attributes) := by
  rw [givenName]
  split
  · exact failsMalformed_flaw _
  · exact failsMalformed_nameOf settings _

theorem failsMalformed_ofAttributes (attributes : Attributes) :
    FailsMalformed (Request.ofAttributes attributes) := by
  rw [Request.ofAttributes]
  refine FailsMalformed.bind ?_ fun _ => failsMalformed_ok _
  dsimp only [Attributes.takeBoolean]
  split
  · exact failsMalformed_ok none
  · split
    · exact failsMalformed_ok _
    · exact failsMalformed_flaw _

theorem failsMalformed_withDefaults (settings : DirectorySettings) (n : Note) (name : CanonicalName) :
    FailsMalformed (withDefaults settings n name) := by
  refine FailsMalformed.bind ?_ fun named => FailsMalformed.bind ?_ fun _ => failsMalformed_ok _
  · rw [defaultPersonName]
    split
    · exact failsMalformed_ok n
    · exact (Name.failsMalformed_parse _).bind fun _ => failsMalformed_ok _
  · rw [defaultServer]
    split
    · exact failsMalformed_ok _
    · split
      · exact failsMalformed_ok _
      · exact (Name.failsMalformed_canonicalize _).bind fun _ => failsMalformed_ok _

theorem failsMalformed_storePassword (settings : DirectorySettings) (n : Note) (password : Secret) :
    FailsMalformed (storePassword settings n password) := by
  rw [storePassword]
  split
  · exact failsMalformed_flaw _
  · split
    · exact failsMalformed_flaw _
    · exact failsMalformed_ok _

theorem failsMalformed_newNote (settings : DirectorySettings) (name : CanonicalName)
    (request : Request) : FailsMalformed (newNote settings name request) := by
  refine (failsMalformed_fillNew .account _ request.plain).bind fun n => ?_
  refine (failsMalformed_withDefaults settings n name).bind fun n => ?_
  split
  · exact failsMalformed_storePassword settings n _
  · exact failsMalformed_ok n

theorem isLate_of_checkGroupsIn {groups : List String} (h : checkGroupsIn groups s = .error fault) :
    fault.IsLate s.backing := by
  induction groups with
  | nil => cases h
  | cons group groups ih =>
    rcases bind_eq_error h with failed | ⟨_, _, failed⟩
    · rcases bind_eq_error failed with unread | ⟨found, _, failed⟩
      · exact Or.inl (Store.ofStore_of_groupByAlias unread)
      · split at failed <;> cases failed
        exact Or.inr ⟨_, rfl⟩
    · exact ih failed

theorem creation_eq_alreadyExists_iff {settings : DirectorySettings} {taken : String} :
    creation settings name attributes s = .error (.alreadyExists .account taken) ↔
      taken = name.text ∧ ∃ found, s.accountByName name = .ok (some found) := by
  constructor
  · intro h
    rcases bind_eq_error h with unread | ⟨found, read, h⟩
    · cases Store.ofStore_of_accountByName unread
    cases found with
    | some found =>
      cases h
      exact ⟨rfl, found, read⟩
    | none =>
      rcases bind_eq_error h with unchecked | ⟨_, _, h⟩
      · rcases isLate_of_checkGroupsIn unchecked with store | ⟨_, unknown⟩
        · cases store
        · cases unknown
      rcases bind_eq_error h with malformed | ⟨request, _, h⟩
      · cases failsMalformed_ofAttributes attributes _ malformed
      rcases bind_eq_error h with malformed | ⟨n, _, made⟩
      · cases failsMalformed_newNote settings name request _ malformed
      · cases made
  · rintro ⟨rfl, found, read⟩
    rw [creation, read]
    rfl

end Account

end AddressBook

import AddressBook.Proofs.Attribute.Leftovers
import AddressBook.Proofs.Provisioning.Items
import AddressBook.Provisioning.Account
import AddressBook.Provisioning.Group

/-! What is stored as it is given. Some attributes of an entry are taken apart from the others and
become its name, its groups, its members or its password; the others are stored as they are. Of an
attribute that is taken, every spelling but the first is stored as well. -/

namespace AddressBook.Provisioning

open Attributes (spellings)

variable {kind : EntryClass} {attributes plain : Attributes} {name : String}

def taken : EntryClass → List String
  | .account =>
    [Schema.nameAttribute, "GroupList", Schema.enableAttribute, "DenyGroups",
      Schema.passwordAttribute, Schema.currentPasswordAttribute]
  | .group =>
    [Schema.nameAttribute, "ListName", "DisplayName", "Members", "MemberGroups", "MemberPeople"]

/-- The attributes that are stored as they are when an entry is created or updated. -/
def plainOf (kind : EntryClass) (attributes : Attributes) : Except Fault Attributes :=
  match kind with
  | .account => do
    let request ← Account.Request.ofAttributes (attributes.takeText Schema.nameAttribute).2
    return request.plain
  | .group => do
    let request ← Group.Request.ofAttributes attributes
    return request.plain

theorem plainOf_ok (h : plainOf kind attributes = .ok plain) :
    plain = attributes.takeEach (taken kind) := by
  cases kind with
  | account =>
    obtain ⟨request, asked, h⟩ := bind_eq_ok h
    cases h
    rw [Account.Request.ofAttributes] at asked
    obtain ⟨enable, -, asked⟩ := bind_eq_ok asked
    cases asked
    rfl
  | group =>
    obtain ⟨request, asked, h⟩ := bind_eq_ok h
    cases h
    rw [Group.Request.ofAttributes] at asked
    obtain ⟨aliases, -, asked⟩ := bind_eq_ok asked
    cases asked
    rfl

theorem taken_apart (kind : EntryClass) :
    (taken kind).Pairwise fun a b => Text.sameAscii a b = false := by
  cases kind <;> decide

theorem named_plainOf (h : plainOf kind attributes = .ok plain) (hn : name ∈ taken kind) :
    plain.named name = (attributes.named name).tail := by
  have found : (taken kind).any (Text.sameAscii · name) = true :=
    List.any_eq_true.mpr ⟨name, hn, Text.sameAscii_refl name⟩
  rw [plainOf_ok h, Attributes.named_takeEach (taken_apart kind), if_pos found]

/-- Whatever is stored as it is, in a new note or in one that is there, leaves the item alone. -/
def Spares (kind : EntryClass) (plain : Attributes) (name : String) : Prop :=
  (∀ n m, fillNew kind n plain = .ok m → m.item? name = n.item? name) ∧
    ∀ how changed n changed' m, updateAll kind how changed n plain = .ok (changed', m) →
      m.item? name = n.item? name

theorem spares_of_lacks (h : plain.Lacks name) : Spares kind plain name :=
  ⟨fun _ _ filled => (sameItem_fillNew h filled).2,
    fun _ _ _ _ _ updated => (sameItem_updateAll h updated).2⟩

/-- Of the attributes in a JSON object a name is taken as a whole exactly if the object has one
spelling of it at most. Of the attributes that an entry takes apart, all spellings but the first are
stored as they are; with one spelling at most nothing is, and the item of the name is left alone. -/
theorem takes_all_iff_spelled_once {members : List (String × Json)}
    (read : Attributes.ofJson (.object members) = .ok attributes) :
    (∀ name, attributes.TakesAll name ↔ spellings members name ≤ 1) ∧
      ∀ kind plain, plainOf kind attributes = .ok plain → ∀ name ∈ taken kind,
        plain.named name = (attributes.named name).tail ∧
          (plain.Lacks name ↔ spellings members name ≤ 1) ∧
          (spellings members name ≤ 1 → Spares kind plain name) := by
  refine ⟨fun name => ?_, fun kind plain made name hn => ?_⟩
  · rw [← Attributes.spellings_ofMembers read]
    exact Attributes.takesAll_iff
  · have left := named_plainOf made hn
    have lacks : plain.Lacks name ↔ spellings members name ≤ 1 := by
      rw [Attributes.lacks_iff_named, left, Attributes.tail_named_eq_nil_iff,
        Attributes.spellings_ofMembers read]
    exact ⟨left, lacks, fun once => spares_of_lacks (lacks.mpr once)⟩

def twoListNames : List (String × Json) :=
  [("ListName", .text "Sales"), ("Members", .list [.text "Ann"]), ("listname", .text "Ops")]

def twoListNamesRead : Attributes :=
  [("ListName", [.text "Sales"]), ("Members", [.text "Ann"]), ("listname", [.text "Ops"])]

theorem ofJson_twoListNames :
    Attributes.ofJson (.object twoListNames) = .ok twoListNamesRead := rfl

theorem plainOf_twoListNames :
    plainOf .group twoListNamesRead = .ok [("listname", [.text "Ops"])] := rfl

theorem not_spares_twoListNames : ¬Spares .group [("listname", [.text "Ops"])] "ListName" := by
  intro spares
  have filled : fillNew .group ((Note.ofClass .group).setTexts "ListName" ["Sales"])
      [("listname", [.text "Ops"])] =
        .ok (((Note.ofClass .group).setTexts "ListName" ["Sales"]).setTexts "listname" ["Ops"]) :=
    rfl
  have same := spares.1 _ _ filled
  revert same
  decide

theorem takes_all_iff_spelled_once_sample :
    twoListNamesRead.TakesAll "MEMBERS" ∧ ¬twoListNamesRead.TakesAll "ListName" ∧
      ∃ plain, plainOf .group twoListNamesRead = .ok plain ∧ Spares .group plain "Members" ∧
        plain.named "ListName" = [("listname", [.text "Ops"])] ∧
        ¬Spares .group plain "ListName" := by
  obtain ⟨whole, left⟩ := takes_all_iff_spelled_once ofJson_twoListNames
  obtain ⟨-, -, spared⟩ := left .group _ plainOf_twoListNames "Members" (by decide)
  obtain ⟨later, -, -⟩ := left .group _ plainOf_twoListNames "ListName" (by decide)
  refine ⟨(whole "MEMBERS").mpr (by decide), ?_, _, plainOf_twoListNames, spared (by decide),
    later, not_spares_twoListNames⟩
  rw [whole "ListName"]
  decide

/-- Of two spellings of a name one stays. -/
theorem not_always_takes_all :
    ¬ ∀ (json : Json) (attributes : Attributes), Attributes.ofJson json = .ok attributes →
      ∀ name, attributes.TakesAll name := by
  intro always
  have all := always _ _ ofJson_twoListNames "ListName"
  rw [Attributes.takesAll_iff] at all
  exact absurd all (by decide)

end AddressBook.Provisioning

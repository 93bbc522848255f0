import AddressBook.Proofs.Provisioning.Account
import AddressBook.Proofs.Provisioning.Group
import AddressBook.Proofs.Provisioning.Run
import AddressBook.Proofs.Provisioning.Sources

/-! Notes in order. The form is the one of the class, whatever a group holds as its members and the
name of an account are canonical renderings of themselves, and no alias is nested. Calls write such
notes when they give no form and no nested name, even if they give a key more than once. -/

namespace AddressBook

open AddressBook.Action Text

namespace Note

def Lists (named : CanonicalName → Prop) (n : Note) : Prop :=
  ∀ v, n.Holds "Members" v → ∃ name : CanonicalName, named name ∧ v = .text name.text

def ListsSettled (n : Note) : Prop :=
  ∀ v, n.Holds "Members" v → ∃ name : CanonicalName, name.Settled ∧ v = .text name.text

/-- No list name has a nested alias. -/
def CalledPlainly (n : Note) : Prop :=
  ∀ text, n.Holds "ListName" (.text text) → ∀ a ∈ Alias.split text, Name.isNested a = false

structure Orderly (n : Note) : Prop where
  form : ∃ kind : EntryClass, n.item? "Form" = some [.text kind.form]
  listed : n.isClass .group = true → n.ListsSettled
  called : n.isClass .group = true → n.CalledPlainly
  fullName : n.isClass .account = true → ∀ full, n.text? "FullName" = some full →
    CanonicalName.Settled ⟨full⟩

theorem holds_of_mem_texts {n : Note} {name text : String} (h : text ∈ n.texts name) :
    n.Holds name (.text text) := by
  rw [texts, List.mem_filterMap] at h
  obtain ⟨v, hv, shown⟩ := h
  cases v with
  | text s =>
    cases shown
    exact holds_of_mem_item? hv
  | number x => cases shown
  | moment m => cases shown

theorem not_holds_ofClass {kind : EntryClass} {name : String} (form : sameAscii "Form" name = false)
    (type : sameAscii "Type" name = false) (v : Value) : ¬ (ofClass kind).Holds name v := by
  intro h
  rcases h.of_setTexts with h | ⟨same, -⟩
  · rcases h.of_setTexts with ⟨item, hitem, -⟩ | ⟨same, -⟩
    · cases hitem
    · rw [form] at same
      cases same
  · rw [type] at same
    cases same

variable {n m : Note} {given : List String} {named : CanonicalName → Prop}

theorem lists_ofClass (kind : EntryClass) : (ofClass kind).Lists named :=
  fun v hv => absurd hv (not_holds_ofClass (by decide) (by decide) v)

theorem calledPlainly_ofClass (kind : EntryClass) : (ofClass kind).CalledPlainly :=
  fun _ ht => absurd ht (not_holds_ofClass (by decide) (by decide) _)

theorem Lists.setItem (h : n.Lists named) {name : String} (other : sameAscii name "Members" = false)
    (values : List Value) : (n.setItem name values).Lists named := by
  intro v hv
  rcases hv.of_setItem with old | ⟨same, -⟩
  · exact h v old
  · rw [other] at same
    cases same

theorem Lists.setMembers (h : n.Lists named)
    (sources : ∀ m ∈ given, m ∈ n.members ∨ ∃ name : CanonicalName, named name ∧ m = name.text) :
    (n.setMembers given).Lists named := by
  intro v hv
  rcases hv.of_setTexts with old | ⟨-, text, ht, rfl⟩
  · exact h v old
  · rcases sources text ht with old | ⟨name, proper, rfl⟩
    · exact h _ (holds_of_mem_texts old)
    · exact ⟨name, proper, rfl⟩

theorem CalledPlainly.setMembers (h : n.CalledPlainly) : (n.setMembers given).CalledPlainly := by
  intro text ht
  rcases ht.of_setTexts with old | ⟨same, -⟩
  · exact h text old
  · exact absurd same (by decide)

theorem CalledPlainly.setListName (h : n.CalledPlainly)
    (plain : ∀ a ∈ given, Name.isNested a = false ∧ ∃ text, a ∈ Alias.split text) :
    (n.setTexts "ListName" given).CalledPlainly := by
  intro text ht
  rcases ht.of_setTexts with old | ⟨-, a, ha, same⟩
  · exact h text old
  · cases same
    obtain ⟨nested, _, piece⟩ := plain text ha
    have alone : Alias.split text = [text] := list_of_mem_list piece
    rw [alone]
    simpa using nested

theorem Orderly.of_account (form : n.item? "Form" = some [.text EntryClass.account.form])
    (full : ∀ full, n.text? "FullName" = some full → CanonicalName.Settled ⟨full⟩) :
    n.Orderly := by
  have other : ¬ n.isClass .group = true := by
    rw [not_isClass_of_isClass (isClass_of_form form)]
    exact Bool.false_ne_true
  exact ⟨⟨.account, form⟩, fun h => absurd h other, fun h => absurd h other, fun _ => full⟩

theorem Orderly.of_group (form : n.item? "Form" = some [.text EntryClass.group.form])
    (listed : n.ListsSettled) (called : n.CalledPlainly) : n.Orderly := by
  refine ⟨⟨.group, form⟩, fun _ => listed, fun _ => called, fun h => ?_⟩
  have other := not_isClass_of_isClass h
  rw [isClass_of_form form] at other
  cases other

theorem Orderly.form_of_isClass (h : n.Orderly) {kind : EntryClass}
    (hk : n.isClass kind = true) : n.item? "Form" = some [.text kind.form] := by
  obtain ⟨other, form⟩ := h.form
  have same : kind = other := by
    have stands := isClass_of_form form
    cases kind <;> cases other
    · rfl
    · rw [not_isClass_of_isClass hk] at stands
      cases stands
    · rw [not_isClass_of_isClass stands] at hk
      cases hk
    · rfl
  rw [same, form]

theorem Orderly.members (h : n.Orderly) (hk : n.isClass .group = true) : n.HasCanonicalMembers := by
  intro v hv
  obtain ⟨name, settled, rfl⟩ := h.listed hk v (holds_of_mem_item? hv)
  exact ⟨name.text, rfl, settled⟩

theorem Orderly.aliases (h : n.Orderly) (hk : n.isClass .group = true) :
    ∀ a ∈ n.aliases, Name.isNested a = false := by
  intro a ha
  obtain ⟨text, ht, ha⟩ := List.mem_flatMap.mp ha
  exact h.called hk text (holds_of_mem_texts ht) a ha

theorem Orderly.congr (h : n.Orderly) (same : m.items = n.items) : m.Orderly := by
  obtain ⟨form, listed, called, full⟩ := h
  obtain ⟨id, items, modified⟩ := n
  obtain ⟨id', items', modified'⟩ := m
  cases same
  exact ⟨form, listed, called, full⟩

theorem settled_fullName {name : CanonicalName}
    (h : n.item? "FullName" = some [.text name.text]) (hn : name.Settled) :
    ∀ full, n.text? "FullName" = some full → CanonicalName.Settled ⟨full⟩ := by
  intro full hf
  rw [text?, h] at hf
  cases hf
  exact hn

/-- New members leave a group in order if they were members or have settled names. -/
theorem Orderly.setMembers (h : n.Orderly) (hk : n.isClass .group = true)
    (sources : ∀ m ∈ given, m ∈ n.members ∨ ∃ name : CanonicalName, name.Settled ∧ m = name.text) :
    (n.setMembers given).Orderly := by
  refine .of_group ?_ (Lists.setMembers (h.listed hk) sources) (h.called hk).setMembers
  rw [Note.setMembers, item?_setTexts_of_ne (by decide), h.form_of_isClass hk]

theorem Orderly.mark (h : n.Orderly) (hk : n.isClass .account = true) (mark : String) :
    (n.setText "CheckPassword" mark).Orderly := by
  refine .of_account ?_ fun full hf => h.fullName hk full ?_
  · rw [item?_setText_of_ne (by decide), h.form_of_isClass hk]
  · have kept : SameItem "FullName" (n.setText "CheckPassword" mark) n :=
      sameItem_setText (by decide) n mark
    rw [← hf, text?_congr kept.2]

end Note

namespace Store

variable {s : Store}

theorem proper_of_orderly (ho : ∀ entry ∈ s.notes, entry.2.Orderly) :
    ∀ g ∈ s.notesOf .group, g.HasGroupForm ∧ g.HasCanonicalMembers := by
  intro g hg
  obtain ⟨⟨id, hmem⟩, hk⟩ := mem_notesOf.mp hg
  have orderly := ho _ hmem
  refine ⟨?_, orderly.members hk⟩
  rw [Note.HasGroupForm, Note.form?, Note.text?, orderly.form_of_isClass hk]
  rfl

theorem groupsOf_of_orderly (hm : s.backing = .memory) (ho : ∀ entry ∈ s.notes, entry.2.Orderly)
    (name : CanonicalName) :
    s.groupsOf name = .ok ((s.notesOf .group).filter (·.hasMember name)) :=
  Membership.groupsOf_of_readable (faithful_of_memory hm) (proper_of_orderly ho)
    (checkReadable_of_memory hm) name

end Store

def Attributes.NameMembers (attributes : Attributes) (named : CanonicalName → Prop) : Prop :=
  ∀ raw, (raw ∈ attributes.given "Members" ∨ raw ∈ attributes.given "MemberGroups" ∨
    raw ∈ attributes.given "MemberPeople") →
      ∀ name, Name.canonicalize raw = .ok name → named name

namespace Regularity

theorem not_nested_displayName {n : Note} (h : ∀ a ∈ n.aliases, Name.isNested a = false) :
    Name.isNested n.displayName = false := by
  rw [Note.displayName]
  cases aliases : n.aliases with
  | nil => decide
  | cons first rest => exact h first (by simp [aliases])

theorem settled_storedName {n : Note} (h : n.Orderly) (hk : n.isClass .account = true)
    {name : CanonicalName} (hn : Account.storedName n = .ok name) : name.Settled := by
  rw [Account.storedName] at hn
  split at hn
  · cases hn
  · next full found =>
    have settled := h.fullName hk full found
    have same : CanonicalName.mk full = name := Except.ok.inj (settled.symm.trans hn)
    rw [← same]
    exact settled

section

variable {attributes rest : Attributes} {named : CanonicalName → Prop}
  (proper : attributes.NameMembers named) {n n' : Note}

include proper

theorem lists_of_brings {kind : EntryClass} (hn : n.Lists named) (hs : rest.Sublist attributes)
    (h : ∀ v, n'.Holds "Members" v → n.Holds "Members" v ∨ rest.Brings kind "Members" v) :
    n'.Lists named := by
  intro v hv
  rcases h v hv with old | brought
  · exact hn v old
  · obtain ⟨raw, given, name, found, rfl⟩ := (brought.sublist hs).members
    exact ⟨name, proper raw (Or.inl given) name found, rfl⟩

variable {request : Group.Request} (hr : Group.Request.ofAttributes attributes = .ok request)

include hr

theorem named_memberNames {names : List CanonicalName}
    (hm : request.memberNames = .ok (some names)) : ∀ name ∈ names, named name := by
  intro name hname
  obtain ⟨raw, given, found⟩ := Group.memberNames_ok hr hm name hname
  exact proper raw given name found

theorem lists_newGroup {aliases : List String} (h : Group.newNote aliases request = .ok n) :
    n.Lists named := by
  rw [Group.newNote] at h
  obtain ⟨members, found, h⟩ := bind_eq_ok h
  obtain ⟨n₁, written, h⟩ := bind_eq_ok h
  have listed : n₁.Lists named :=
    lists_of_brings proper ((Note.lists_ofClass .group).setItem (by decide) _)
      (Group.plain_sublist hr) fun _ => Provisioning.holds_of_fillNew written
  cases members with
  | none =>
    cases h
    exact listed
  | some names =>
    cases h
    refine listed.setMembers fun m hm => ?_
    obtain ⟨name, hname, rfl⟩ := List.mem_map.mp hm
    exact Or.inr ⟨name, named_memberNames proper hr found name hname, rfl⟩

theorem lists_updatedGroup {members : Option (List CanonicalName)} {how : UpdateKind}
    {changed : Bool} (hm : request.memberNames = .ok members) (hn : n.Lists named)
    (h : Group.updatedNote n request members how = .ok (changed, n')) : n'.Lists named := by
  obtain ⟨_, _, n₂, updated, rfl, -⟩ := Group.updatedNote_ok h
  have renamed : (Group.renamedNote n request.aliases).Lists named := by
    unfold Group.renamedNote
    split
    · exact hn
    · split
      · exact hn
      · exact hn.setItem (by decide) _
  have listed : n₂.Lists named :=
    lists_of_brings proper renamed (Group.plain_sublist hr)
      fun _ => Provisioning.holds_of_updateAll updated
  cases members with
  | none => exact listed
  | some names =>
    rw [Group.editedNote, Membership.edit]
    split
    · exact listed
    · refine listed.setMembers fun m hmem => ?_
      rcases Membership.mem_edited hmem with old | ⟨name, hname, rfl⟩
      · exact Or.inl old
      · exact Or.inr ⟨name, named_memberNames proper hr hm name hname, rfl⟩

end

section

variable (settings : Settings) {attributes : Attributes}

theorem settled_given {raw : String}
    (hp : ∀ name ∈ attributes.given Schema.nameAttribute, Name.isNested name = false)
    (hr : raw ∈ (attributes.takeText Schema.nameAttribute).1) {name : CanonicalName}
    (h : Account.nameOf settings.directory raw = .ok name) : name.Settled :=
  Account.settled_nameOf h (hp raw (Attributes.mem_given_of_takeText hr))

theorem not_nested_of_mem_split {text a : String}
    (hp : ∀ name ∈ Call.namesIn .group attributes, Name.isNested name = false)
    (ht : text ∈ attributes.given Schema.nameAttribute ∨ text ∈ attributes.given "ListName")
    (ha : a ∈ Alias.split text) : Name.isNested a = false := by
  refine hp a (List.mem_append_left _ (List.mem_flatMap.mpr ⟨text, ?_, ha⟩))
  exact List.mem_append.mpr ht

theorem nameMembers_settled
    (hp : ∀ name ∈ Call.namesIn .group attributes, Name.isNested name = false) :
    attributes.NameMembers CanonicalName.Settled := by
  intro raw given name found
  refine Name.settled_of_canonicalize found (hp raw (List.mem_append_right _ ?_))
  rcases given with h | h | h
  · exact List.mem_append_left _ (List.mem_append_left _ h)
  · exact List.mem_append_left _ (List.mem_append_right _ h)
  · exact List.mem_append_right _ h

theorem not_nested_aliases {request : Group.Request}
    (hr : Group.Request.ofAttributes attributes = .ok request)
    (hp : ∀ name ∈ Call.namesIn .group attributes, Name.isNested name = false)
    {aliases : List String} (hs : request.aliases = some aliases) :
    ∀ a ∈ aliases, Name.isNested a = false ∧ ∃ text, a ∈ Alias.split text := by
  intro a ha
  obtain ⟨text, given, piece⟩ := (Group.aliases_ok hr hs).2 a ha
  exact ⟨not_nested_of_mem_split hp given piece, text, piece⟩

theorem calledPlainly_of_brings {rest : Attributes} {n n' : Note} (hn : n.CalledPlainly)
    (hs : rest.Sublist attributes)
    (hp : ∀ name ∈ Call.namesIn .group attributes, Name.isNested name = false)
    (h : ∀ v, n'.Holds "ListName" v → n.Holds "ListName" v ∨ rest.Brings .group "ListName" v) :
    n'.CalledPlainly := by
  intro text ht a ha
  rcases h _ ht with old | brought
  · exact hn text old a ha
  · obtain ⟨raw, given, same⟩ := (brought.sublist hs).listName
    cases same
    exact not_nested_of_mem_split hp (Or.inr given) ha

theorem orderly_updatedAccount {directory : DirectorySettings} {n n' : Note}
    {renamed : Option CanonicalName} {request : Account.Request} {how : UpdateKind} {changed : Bool}
    (hf : request.plain.Lacks "Form") (hn : n.Orderly) (account : n.isClass .account = true)
    (hrenamed : ∀ c ∈ renamed, c.Settled)
    (h : Account.updatedNote directory n renamed request how = .ok (changed, n')) :
    n'.Orderly ∧ n'.isClass .account = true ∧ n'.id = n.id := by
  have same : Note.SameItem "Form" n' (Account.renamedNote n renamed) :=
    Account.sameItem_updatedNote h (by decide) hf
  have kept := same.trans (Account.sameItem_renamedNote (by decide) n renamed)
  have form : n'.item? "Form" = some [.text EntryClass.account.form] := by
    rw [kept.2, hn.form_of_isClass account]
  have named := Account.fullName_updatedNote h
  have full : ∀ full, n'.text? "FullName" = some full → CanonicalName.Settled ⟨full⟩ := by
    cases renamed with
    | none =>
      intro full hf
      rw [Note.text?_congr named] at hf
      exact hn.fullName account full hf
    | some name => exact Note.settled_fullName named (hrenamed name rfl)
  exact ⟨.of_account form full, Note.isClass_of_form form, kept.1⟩

theorem orderly_newGroup {request : Group.Request} {aliases : List String} {n : Note}
    (ha : attributes.Lacks "Form")
    (hp : ∀ name ∈ Call.namesIn .group attributes, Name.isNested name = false)
    (hr : Group.Request.ofAttributes attributes = .ok request) (hs : request.aliases = some aliases)
    (h : Group.newNote aliases request = .ok n) : n.Orderly := by
  have given := Group.plain_sublist hr
  obtain ⟨-, form⟩ := Group.form_newNote h (ha.sublist given)
  refine .of_group form (lists_newGroup (nameMembers_settled hp) hr h) ?_
  rw [Group.newNote] at h
  obtain ⟨members, found, h⟩ := bind_eq_ok h
  obtain ⟨n₁, written, h⟩ := bind_eq_ok h
  have called : n₁.CalledPlainly :=
    calledPlainly_of_brings
      ((Note.calledPlainly_ofClass .group).setListName (not_nested_aliases hr hp hs)) given hp
      fun _ => Provisioning.holds_of_fillNew written
  cases members with
  | none =>
    cases h
    exact called
  | some names =>
    cases h
    exact called.setMembers

theorem orderly_updatedGroup {request : Group.Request} {members : Option (List CanonicalName)}
    {how : UpdateKind} {changed : Bool} {n n' : Note} (ha : attributes.Lacks "Form")
    (hp : ∀ name ∈ Call.namesIn .group attributes, Name.isNested name = false)
    (hr : Group.Request.ofAttributes attributes = .ok request)
    (hm : request.memberNames = .ok members) (hn : n.Orderly) (hk : n.isClass .group = true)
    (h : Group.updatedNote n request members how = .ok (changed, n')) : n'.Orderly := by
  have given := Group.plain_sublist hr
  have written : Note.SameItem "Form" n' (Group.renamedNote n request.aliases) :=
    Group.sameItem_updatedNote h (by decide) (ha.sublist given)
  have kept := written.trans (Group.sameItem_renamedNote (by decide) n request.aliases)
  have form : n'.item? "Form" = some [.text EntryClass.group.form] := by
    rw [kept.2, hn.form_of_isClass hk]
  refine .of_group form (lists_updatedGroup (nameMembers_settled hp) hr hm (hn.listed hk) h) ?_
  obtain ⟨_, _, n₂, updated, rfl, -⟩ := Group.updatedNote_ok h
  have renamed : (Group.renamedNote n request.aliases).CalledPlainly := by
    unfold Group.renamedNote
    split
    · exact hn.called hk
    · next aliases asked =>
      split
      · exact hn.called hk
      · exact (hn.called hk).setListName (not_nested_aliases hr hp asked)
  have called : n₂.CalledPlainly :=
    calledPlainly_of_brings renamed given hp fun _ => Provisioning.holds_of_updateAll updated
  unfold Group.editedNote
  split
  · exact called
  · rw [Membership.edit]
    split
    · exact called
    · exact called.setMembers

end

end Regularity

end AddressBook

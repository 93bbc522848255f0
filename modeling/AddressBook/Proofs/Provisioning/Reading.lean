import AddressBook.Proofs.Provisioning.Items
import AddressBook.Proofs.Provisioning.Views

/-! What an entry takes from its note: its name and uid, which no attribute changes, and the values of
the items that are read as they stand. -/

namespace AddressBook

namespace Entry

def SameHead (e e' : Entry) : Prop := e.kind = e'.kind ∧ e.uid = e'.uid ∧ e.name = e'.name

theorem SameHead.refl (e : Entry) : SameHead e e := ⟨rfl, rfl, rfl⟩

theorem SameHead.trans {e e' e'' : Entry} (h : SameHead e e') (h' : SameHead e' e'') :
    SameHead e e'' := ⟨h.1.trans h'.1, h.2.1.trans h'.2.1, h.2.2.trans h'.2.2⟩

theorem sameHead_setIf (e : Entry) (wanted : Bool) (name : String) (values : List AttributeValue) :
    SameHead (e.setIf wanted name values) e := by
  rw [setIf]
  split <;> exact .refl e

theorem sameHead_fill (n : Note) (e : Entry) (name : String) : SameHead (fill n e name) e := by
  rw [fill]
  split <;> exact .refl e

theorem sameHead_foldl_fill (n : Note) (names : List String) (e : Entry) :
    SameHead (names.foldl (fill n) e) e := by
  induction names generalizing e with
  | nil => exact .refl e
  | cons name names ih => exact (ih (fill n e name)).trans (sameHead_fill n e name)

theorem get?_foldl_fill {n : Note} {names : List String} {e : Entry} {name : String}
    (h : e.get? name = none) {values : List AttributeValue}
    (found : (names.foldl (fill n) e).get? name = some values) :
    values = valuesOf e.kind n name := by
  have step : ∀ (names : List String) (e' : Entry), SameHead e' e →
      (∀ values, e'.get? name = some values → values = valuesOf e.kind n name) →
        ∀ values, (names.foldl (fill n) e').get? name = some values →
          values = valuesOf e.kind n name := by
    intro names
    induction names with
    | nil => exact fun _ _ kept => kept
    | cons other names ih =>
      intro e' head kept
      refine ih (fill n e' other) ((sameHead_fill n e' other).trans head) fun values hv => ?_
      rw [fill] at hv
      split at hv
      · by_cases same : name = other
        · subst same
          rw [get?_set_self, head.1] at hv
          exact (Option.some.inj hv).symm
        · rw [get?_set_of_ne same] at hv
          exact kept values hv
      · exact kept values hv
  refine step names e (.refl e) (fun values hv => ?_) values found
  rw [h] at hv
  cases hv

@[simp]
theorem get?_setIf_of_ne {name other : String} (h : other ≠ name) (e : Entry) (wanted : Bool)
    (values : List AttributeValue) : (e.setIf wanted name values).get? other = e.get? other := by
  rw [setIf]
  split
  · exact get?_set_of_ne h e values
  · rfl

/-- The attributes that a header sets. -/
def headerNames : List String := ["OrgUnit", "CertifierOrgHierarchy", "DisplayName", "ListName"]

theorem get?_header {name : String} (h : name ∉ headerNames) (kind : EntryClass) (n : Note)
    (id : String) (selection : Selection) : (header kind n id selection).get? name = none := by
  have other : ∀ special ∈ headerNames, name ≠ special := by
    rintro special hs rfl
    exact h hs
  cases kind with
  | group =>
    rw [header, groupHeader, get?_setIf_of_ne (other _ (by decide)),
      get?_setIf_of_ne (other _ (by decide))]
    rfl
  | account =>
    rw [header, accountHeader]
    split
    · rfl
    · split
      · rfl
      · rw [get?_setIf_of_ne (other _ (by decide)), get?_setIf_of_ne (other _ (by decide))]
        rfl

theorem kind_header (kind : EntryClass) (n : Note) (id : String) (selection : Selection) :
    (header kind n id selection).kind = kind := by
  cases kind with
  | group =>
    rw [header, groupHeader, (sameHead_setIf _ _ _ _).1, (sameHead_setIf _ _ _ _).1]
  | account =>
    rw [header, accountHeader]
    split
    · rfl
    · split
      · rfl
      · rw [(sameHead_setIf _ _ _ _).1, (sameHead_setIf _ _ _ _).1]

theorem valuesOf_textual {kind : EntryClass} {name : String} {a : Schema.Attribute}
    (known : Schema.find? kind name = some a) (readable : a.readable = true) (text : a.type = .text)
    (modified : Text.sameAscii name "LastModified" = false)
    (guid : Text.sameAscii name "objectGUID" = false) (n : Note) :
    valuesOf kind n name =
      ((n.item? name).getD []).map fun value => .text (shownText name value.shown) := by
  rw [valuesOf, modified, guid, known]
  cases n.item? name with
  | none => rfl
  | some values => simp [valuesOfItem, readable, text]

theorem get?_ofNote {kind : EntryClass} {n : Note} {selection : Selection} {e : Entry}
    {name : String} {values : List AttributeValue} (made : ofNote kind n selection = .ok e)
    (h : name ∉ headerNames) (shown : e.get? name = some values) :
    values = valuesOf kind n name := by
  rw [ofNote] at made
  split at made
  · cases made
  · next id _ =>
    cases made
    rw [get?_foldl_fill (get?_header h kind n id selection) shown, kind_header]

theorem name_groupHeader (n : Note) (selection : Selection) :
    (groupHeader n selection).name = Alias.join n.aliases := by
  rw [groupHeader]
  rw [(sameHead_setIf _ _ _ _).2.2, (sameHead_setIf _ _ _ _).2.2]

theorem uid_groupHeader (n : Note) (selection : Selection) :
    (groupHeader n selection).uid = Alias.join n.aliases := by
  rw [groupHeader]
  rw [(sameHead_setIf _ _ _ _).2.1, (sameHead_setIf _ _ _ _).2.1]

theorem uid_accountHeader (n : Note) (id : String) (selection : Selection) :
    (accountHeader n id selection).uid = id := by
  rw [accountHeader]
  split
  · rfl
  · split
    · rfl
    · rw [(sameHead_setIf _ _ _ _).2.1, (sameHead_setIf _ _ _ _).2.1]

end Entry

def Provisioning.uidOf (kind : EntryClass) (id : String) (n : Note) : String :=
  match kind with
  | .account => id
  | .group => Alias.join n.aliases

theorem Provisioning.uidOf_congr {n m : Note} (h : n.aliases = m.aliases) (kind : EntryClass)
    (id : String) : uidOf kind id n = uidOf kind id m := by
  cases kind with
  | account => rfl
  | group => exact congrArg Alias.join h

namespace Reading

open Provisioning

variable {s : Store} {selection : Selection} {n : Note} {e e' : Entry} {kind : EntryClass}

theorem sameHead_withGroups (h : withGroups s selection n e = .ok e') : e'.SameHead e := by
  rw [withGroups] at h
  split at h
  · obtain ⟨groups, _, h⟩ := bind_eq_ok h
    cases h
    exact (Entry.sameHead_setIf _ _ _ _).trans (Entry.sameHead_setIf _ _ _ _)
  · cases h
    exact .refl e

theorem withMembers_ok (h : withMembers s selection n e = .ok e') :
    e'.SameHead e ∧ ∀ name, name ≠ "MemberGroups" → name ≠ "MemberPeople" →
      e'.get? name = e.get? name := by
  rw [withMembers] at h
  split at h
  · obtain ⟨resolved, _, h⟩ := bind_eq_ok h
    cases h
    refine ⟨(Entry.sameHead_setIf _ _ _ _).trans (Entry.sameHead_setIf _ _ _ _), ?_⟩
    intro name groups people
    rw [Entry.get?_setIf_of_ne people, Entry.get?_setIf_of_ne groups]
  · cases h
    exact ⟨.refl e, fun _ _ _ => rfl⟩

theorem entryOf_ok (h : entryOf s kind selection n = .ok e) :
    ∃ id, n.id = some id ∧ e.SameHead (Entry.header kind n id selection) := by
  obtain ⟨e₀, plain, h⟩ := bind_eq_ok h
  rw [Entry.ofNote] at plain
  split at plain
  · cases plain
  · next id hid =>
    cases plain
    refine ⟨id, hid, ?_⟩
    have filled := Entry.sameHead_foldl_fill n selection.names (Entry.header kind n id selection)
    cases kind with
    | account => exact (sameHead_withGroups h).trans filled
    | group => exact (withMembers_ok h).1.trans filled

theorem uid_of_entryOf {id : String} (h : entryOf s kind selection n = .ok e)
    (hid : n.id = some id) : e.uid = uidOf kind id n := by
  obtain ⟨other, given, -, uid, -⟩ := entryOf_ok h
  rw [hid, Option.some.injEq] at given
  subst given
  rw [uid]
  cases kind with
  | account => exact Entry.uid_accountHeader n id selection
  | group => exact Entry.uid_groupHeader n selection

theorem exists_withGroups (hm : s.backing = .memory) :
    ∃ e', withGroups s selection n e = .ok e' := by
  have held : ∃ groups, groupsOf s n = .ok groups := by
    rw [groupsOf]
    split
    · exact ⟨[], rfl⟩
    · split
      · exact ⟨[], rfl⟩
      · next name _ => exact Membership.exists_groupsOf hm name
  obtain ⟨groups, held⟩ := held
  rw [withGroups]
  split
  · rw [held]
    exact ⟨_, rfl⟩
  · exact ⟨e, rfl⟩

/-- The members are resolved without a fault, if the caller wants to see what they are. -/
def Resolves (s : Store) (selection : Selection) (n : Note) : Prop :=
  (selection.contains "MemberGroups" || selection.contains "MemberPeople") = true →
    ∀ m ∈ n.members, ∃ resolved, resolve s m = .ok resolved

theorem exists_withMembers_iff :
    (∃ e', withMembers s selection n e = .ok e') ↔ Resolves s selection n := by
  rw [withMembers, Resolves]
  split
  · next wanted =>
    rw [← exists_mapM_ok_iff]
    constructor
    · rintro ⟨e', made⟩ _
      obtain ⟨resolved, found, _⟩ := bind_eq_ok made
      exact ⟨resolved, found⟩
    · intro all
      obtain ⟨resolved, found⟩ := all wanted
      rw [found]
      exact ⟨_, rfl⟩
  · next unwanted => exact ⟨fun _ wanted => absurd wanted unwanted, fun _ => ⟨e, rfl⟩⟩

theorem exists_entryOf_iff (hm : s.backing = .memory) {id : String} (hid : n.id = some id) :
    (∃ e, entryOf s kind selection n = .ok e) ↔ (kind = .group → Resolves s selection n) := by
  obtain ⟨e₀, plain⟩ : ∃ e₀, Entry.ofNote kind n selection = .ok e₀ := by
    rw [Entry.ofNote, hid]
    exact ⟨_, rfl⟩
  rw [entryOf, plain]
  cases kind with
  | account => exact ⟨fun _ other => (by cases other), fun _ => exists_withGroups hm⟩
  | group => exact exists_withMembers_iff.trans ⟨fun h _ => h, fun h => h rfl⟩

theorem get_ok {uid : String} {d d' : Directory}
    (h : get kind uid selection d = .ok (some e) d') :
    Directory.acquire d = .ok () d' ∧ ∃ n, Provisioning.find kind uid d'.store = .ok (some n) ∧
      entryOf d'.store kind selection n = .ok e := by
  rw [get] at h
  obtain ⟨⟨⟩, d₁, reached, h⟩ := Action.bind_ok_iff.mp h
  obtain ⟨seen, rfl⟩ := Action.read_ok_iff.mp h
  refine ⟨reached, ?_⟩
  obtain ⟨found, read, seen⟩ := bind_eq_ok seen
  cases found with
  | none => cases seen
  | some n =>
    obtain ⟨e', derived, seen⟩ := bind_eq_ok seen
    cases seen
    exact ⟨n, read, derived⟩

theorem get_of_acquire {uid : String} {d d' : Directory} (reached : Directory.acquire d = .ok () d')
    (found : Provisioning.find kind uid d'.store = .ok (some n))
    (derived : entryOf d'.store kind selection n = .ok e) :
    get kind uid selection d = .ok (some e) d' := by
  rw [get, Action.bind_apply, reached]
  dsimp only
  rw [Action.read_apply, found]
  simp only [bind, Except.bind, derived, pure, Except.pure]

theorem get_of_missing {uid : String} {d d' : Directory} (reached : Directory.acquire d = .ok () d')
    (missing : Provisioning.find kind uid d'.store = .ok none) :
    get kind uid selection d = .ok none d' := by
  rw [get, Action.bind_apply, reached]
  dsimp only
  rw [Action.read_apply, missing]
  rfl

end Reading

end AddressBook

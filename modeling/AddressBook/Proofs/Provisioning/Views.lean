import AddressBook.Proofs.Provisioning.Regular
import AddressBook.Provisioning.Reading

/-! The two views of membership. What is read as the groups of an account, and whether it is enabled,
agrees with what the groups list as their members, in every state of a run from an empty
directory. -/

namespace AddressBook

open AddressBook.Action Text

namespace NoteId

theorem inMarker?_eq_none {cs : List Char} (h : '<' ∉ cs) : inMarker? cs = none := by
  induction cs with
  | nil => rfl
  | cons c cs ih =>
    have other : markerStart.isPrefixOf (c :: cs) = false := by
      have different : ('<' == c) = false := by
        rw [beq_eq_false_iff_ne]
        rintro rfl
        exact h List.mem_cons_self
      have opens : markerStart = ['<', 'G', 'U', 'I', 'D', '='] := by decide
      rw [opens, List.isPrefixOf, different, Bool.false_and]
    rw [inMarker?, other]
    exact ih fun hmem => h (List.mem_cons_of_mem c hmem)

theorem extract_of_alphanumeric {id : String} (h : id.toList.all isAsciiAlphanumeric = true) :
    extract id = id := by
  have plain : '<' ∉ id.toList := by
    intro hmem
    have letter := List.all_eq_true.mp h '<' hmem
    exact absurd letter (by decide)
  rw [extract, inMarker?_eq_none plain]

end NoteId

namespace Note

def lists (n : Note) (name : CanonicalName) : Bool :=
  n.members.any fun m => lower m == lower name.text

theorem hasMember_eq_lists {n : Note} (h : n.HasCanonicalMembers) (name : CanonicalName) :
    n.hasMember name = n.lists name := by
  rw [Bool.eq_iff_iff, Membership.hasMember_iff h, lists, List.any_eq_true]
  simp only [beq_iff_eq]
  rfl

end Note

namespace Store

theorem groupsOf_of_regular {s : Store} (hm : s.backing = .memory)
    (hr : ∀ entry ∈ s.notes, entry.2.Regular) (name : CanonicalName) :
    s.groupsOf name = .ok ((s.notesOf .group).filter (·.lists name)) := by
  rw [groupsOf_eq_filter hm hr, List.filter_congr fun g hg =>
    Note.hasMember_eq_lists (proper_of_regular hr g hg).2 name]

end Store

namespace Entry

@[simp]
theorem get?_set_self (e : Entry) (name : String) (values : List AttributeValue) :
    (e.set name values).get? name = some values := Keyed.get?_put_self _ _ _

@[simp]
theorem get?_set_of_ne {name other : String} (h : other ≠ name) (e : Entry)
    (values : List AttributeValue) : (e.set name values).get? other = e.get? other :=
  Keyed.get?_put_of_ne h _ _

end Entry

/-- What an entry tells about memberships is what the groups of a store list: the names of the groups
that list the account and are no deny lists, in the order of the store, and that the account is
disabled exactly if its note says so or a deny list lists it. -/
structure Entry.Reflects (e : Entry) (s : Store) (n : Note) (name : CanonicalName) : Prop where
  groups : e.get? "GroupList" =
    some (((s.notesOf .group).filter fun g => g.lists name && !g.isDenyList).map
      fun g => .text g.displayName)
  enabled : ∃ b, e.get? Schema.enableAttribute = some [.boolean b] ∧
    (b = false ↔ (n.text? "CheckPassword").map trim = some "2" ∨
      ∃ g ∈ s.notesOf .group, g.isDenyList = true ∧ g.lists name = true)

theorem Entry.Reflects.congr {e : Entry} {s s' : Store} {n : Note} {name : CanonicalName}
    (h : e.Reflects s n name) (same : s'.notes = s.notes) : e.Reflects s' n name := by
  have groups : s'.notesOf .group = s.notesOf .group := by
    rw [Store.notesOf, Store.notesOf, Store.all, Store.all, same]
  refine ⟨?_, ?_⟩ <;> rw [groups]
  · exact h.groups
  · exact h.enabled

namespace Reading

theorem withGroups_ok {s : Store} {selection : Selection} {n : Note} {e : Entry}
    {held : List Note} (hg : groupsOf s n = .ok held)
    (listed : selection.contains "GroupList" = true)
    (enabled : selection.contains Schema.enableAttribute = true) :
    ∃ e', withGroups s selection n e = .ok e' ∧
      e'.get? "GroupList" =
        some ((held.filter (!·.isDenyList)).map fun group => .text group.displayName) ∧
      e'.get? Schema.enableAttribute =
        some [.boolean (enabledByMark n && !held.any (·.isDenyList))] := by
  rw [withGroups, listed, enabled, Bool.or_self, if_pos rfl, hg]
  refine ⟨_, rfl, ?_, ?_⟩
  · simp (disch := decide) [Entry.setIf]
  · simp [Entry.setIf]

theorem groupsOf_of_storedName {n : Note} {name : CanonicalName}
    (h : Account.storedName n = .ok name) (s : Store) : groupsOf s n = s.groupsOf name := by
  rw [Account.storedName] at h
  split at h
  · cases h
  · next full found =>
    rw [groupsOf, found]
    dsimp only
    rw [h]

theorem entryOf_account {d : Directory} (hc : d.Consistent) {id : String} {n : Note}
    (hn : d.store.notes.get? id = some n) {name : CanonicalName}
    (hname : Account.storedName n = .ok name) {selection : Selection}
    (listed : selection.contains "GroupList" = true)
    (enabled : selection.contains Schema.enableAttribute = true) :
    ∃ e, entryOf d.store .account selection n = .ok e ∧ e.Reflects d.store n name := by
  have held := Store.groupsOf_of_regular hc.memory hc.notes name
  rw [← groupsOf_of_storedName hname] at held
  have hid : n.id = some id := hc.sound.id_of_get? hn
  obtain ⟨e₀, plain⟩ : ∃ e₀, Entry.ofNote .account n selection = .ok e₀ := by
    rw [Entry.ofNote, hid]
    exact ⟨_, rfl⟩
  obtain ⟨e, derived, groups, marked⟩ := withGroups_ok (e := e₀) held listed enabled
  refine ⟨e, ?_, ?_, _, marked, ?_⟩
  · rw [entryOf, plain]
    exact derived
  · rw [groups, List.filter_filter]
    simp only [Bool.and_comm]
  · simp only [enabledByMark, Bool.and_eq_false_iff, Bool.not_eq_false', bne_eq_false_iff_eq,
      List.any_eq_true, List.mem_filter]
    constructor
    · rintro (mark | ⟨g, ⟨hg, lists⟩, deny⟩)
      · exact Or.inl mark
      · exact Or.inr ⟨g, hg, deny, lists⟩
    · rintro (mark | ⟨g, hg, deny, lists⟩)
      · exact Or.inl mark
      · exact Or.inr ⟨g, ⟨hg, lists⟩, deny⟩

end Reading

namespace Directory

theorem Consistent.read_account {d : Directory} (hc : d.Consistent) (ho : d.opening = .live)
    {id : String} {n : Note} (hn : d.store.notes.get? id = some n)
    (hk : n.isClass .account = true) {name : CanonicalName}
    (hname : Account.storedName n = .ok name) {selection : Selection}
    (listed : selection.contains "GroupList" = true)
    (enabled : selection.contains Schema.enableAttribute = true) :
    ∃ e d', Reading.get .account id selection d = .ok (some e) d' ∧
      e.Reflects d.store n name := by
  have alike := alike_acquired hc.lasting
  have hc' := (Continues.of_alike alike).consistent hc
  have hn' : (acquired d).store.notes.get? id = some n := by
    rw [alike.notes, hn]
  have held : id ∈ (acquired d).store.notes.keys :=
    List.mem_map.mpr ⟨(id, n), Keyed.mem_of_get? hn', rfl⟩
  have found : Provisioning.find .account id (acquired d).store = .ok (some n) := by
    rw [Provisioning.find, NoteId.extract_of_alphanumeric (hc'.alphanumeric id held)]
    exact Store.accountById_of_get? hc'.memory hn' hk (sameAscii_refl id)
      fun key hkey same => hc'.distinct key hkey id held same
  obtain ⟨e, read, view⟩ := Reading.entryOf_account hc' hn' hname listed enabled
  refine ⟨e, acquired d, ?_, view.congr alike.notes.symm⟩
  rw [Reading.get, bind_apply, acquire_of_live ho]
  dsimp only
  rw [read_apply, found]
  simp only [bind, Except.bind, read, pure, Except.pure]

end Directory

namespace Run

/-- In every state of a run from an empty directory, an account is read with the names of the groups
that list it and are no deny lists, in the order of their ids; and it is read as disabled exactly if
its note says so or a deny list lists it. -/
theorem get_account {start d d' : Directory} {steps : List Step} (hs : start.Empty)
    (run : Run start steps d) (ha : ∀ step ∈ steps, step.call.Proper)
    (hp : ∀ step ∈ steps, step.call.Plain) (continues : d.Continues d') (ho : d'.opening = .live)
    {id : String} {n : Note} (hn : d.store.notes.get? id = some n)
    (hk : n.isClass .account = true) {name : CanonicalName}
    (hname : Account.storedName n = .ok name) {selection : Selection}
    (listed : selection.contains "GroupList" = true)
    (enabled : selection.contains Schema.enableAttribute = true) :
    d.store.Sound ∧ ∃ e d'', Reading.get .account id selection d' = .ok (some e) d'' ∧
      e.Reflects d.store n name := by
  have consistent := run.consistent hs ha hp
  have stands : d'.store.notes.get? id = some n := by
    rw [continues.notes, hn]
  obtain ⟨e, d'', read, view⟩ :=
    (continues.consistent consistent).read_account ho stands hk hname listed enabled
  exact ⟨consistent.sound, e, d'', read, view.congr continues.notes.symm⟩

/-! A group lists a member before there is an account of that name. -/

def createStaff : Step :=
  ⟨{ supply := { ids := ["A1"] } }, {},
    .create .group [("Members", [.text "Ann Lee/Acme"]), ("__NAME__", [.text "Staff"])]⟩

def createMember : Step :=
  ⟨{ createStaff.after with supply := { ids := ["B2"] } }, {},
    .create .account [("__NAME__", [.text "Ann Lee/Acme"])]⟩

def denyMember : Step :=
  ⟨{ createMember.after with supply := { ids := ["C3"] } }, {},
    .create .group [("GroupType", [.integer 3]), ("Members", [.text "Ann Lee/Acme"]),
      ("__NAME__", [.text "Barred"])]⟩

theorem run_denyMember : Run {} [createStaff, createMember, denyMember] denyMember.after := by
  have empty : Run {} [] {} := .start
  have first : Run {} [createStaff] createStaff.after :=
    .step empty ⟨⟨rfl, rfl, rfl⟩, by decide, by decide⟩
  have second : Run {} [createStaff, createMember] createMember.after :=
    .step first ⟨⟨rfl, rfl, rfl⟩, by decide, by decide⟩
  exact .step second ⟨⟨rfl, rfl, rfl⟩, by decide, by decide⟩

def memberNote : Note := (denyMember.after.store.notes.get? "B2").getD {}

def memberSelection : Selection := ⟨["__NAME__", "GroupList", "__ENABLE__"]⟩

theorem proper_denyMember : ∀ step ∈ [createStaff, createMember, denyMember], step.call.Proper := by
  decide

theorem plain_denyMember : ∀ step ∈ [createStaff, createMember, denyMember], step.call.Plain := by
  decide

theorem views_denyMember :
    denyMember.after.store.notes.get? "B2" = some memberNote ∧
      ((denyMember.after.store.notesOf .group).filter fun g =>
        g.lists ⟨"CN=Ann Lee/O=Acme"⟩ && !g.isDenyList).map (·.displayName) = ["Staff"] ∧
      ((denyMember.after.store.notesOf .group).any fun g =>
        g.isDenyList && g.lists ⟨"CN=Ann Lee/O=Acme"⟩) = true := by
  decide +kernel

theorem get_account_sample :
    Directory.Empty {} ∧ Run {} [createStaff, createMember, denyMember] denyMember.after ∧
      (∀ step ∈ [createStaff, createMember, denyMember], step.call.Proper) ∧
        (∀ step ∈ [createStaff, createMember, denyMember], step.call.Plain) ∧
          denyMember.after.store.Sound ∧
            ∃ e d'', Reading.get .account "B2" memberSelection denyMember.after = .ok (some e) d'' ∧
              e.Reflects denyMember.after.store memberNote ⟨"CN=Ann Lee/O=Acme"⟩ ∧
                e.get? "GroupList" = some [.text "Staff"] ∧
                  e.get? Schema.enableAttribute = some [.boolean false] := by
  obtain ⟨stands, groups, denied⟩ := views_denyMember
  have account : memberNote.isClass .account = true := by decide
  have named : Account.storedName memberNote = .ok ⟨"CN=Ann Lee/O=Acme"⟩ :=
    eq_ok_of_toOption (by decide)
  have opening : denyMember.after.opening = .live := by decide
  have listed : memberSelection.contains "GroupList" = true := by decide
  have enabled : memberSelection.contains Schema.enableAttribute = true := by decide
  obtain ⟨sound, e, d'', read, view⟩ := get_account ⟨rfl, rfl, rfl⟩ run_denyMember proper_denyMember
    plain_denyMember ⟨rfl, rfl, rfl⟩ opening stands account named listed enabled
  refine ⟨⟨rfl, rfl, rfl⟩, run_denyMember, proper_denyMember, plain_denyMember, sound, e, d'', read,
    view, ?_, ?_⟩
  · have shown := congrArg (List.map AttributeValue.text) groups
    rw [List.map_map] at shown
    exact view.groups.trans (congrArg some shown)
  · obtain ⟨b, shown, disabled⟩ := view.enabled
    simp only [List.any_eq_true, Bool.and_eq_true] at denied
    rw [shown, disabled.mpr (Or.inr denied)]

end Run

end AddressBook

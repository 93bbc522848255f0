import AddressBook.Proofs.Directory.ReadBack
import AddressBook.Proofs.Directory.Triple
import AddressBook.Proofs.Membership.Distinct
import AddressBook.Proofs.Membership.Edited
import AddressBook.Proofs.Membership.Turning
import AddressBook.Provisioning.Account

/-! Conditions on directories that every change of memberships keeps, whether it succeeds or not.
Such a condition comes with a condition on notes: stored notes satisfy it, notes that satisfy it can
be saved, and new members do not leave it as long as their names are proper ones. -/

namespace AddressBook.Membership

open AddressBook.Action

/-- What becomes of the members of a group when one joins it, leaves it or gets another name. -/
inductive MemberChange (named : CanonicalName → Prop) (g : Note) : List String → Prop
  | joined {name : CanonicalName} (proper : named name) (free : g.hasMember name = false) :
      MemberChange named g (withMember g.members name)
  | left (name : CanonicalName) : MemberChange named g (withoutMember g.members name)
  | renamed (old : CanonicalName) {new : CanonicalName} (proper : named new) :
      MemberChange named g (Membership.renamed g.members old new)

/-- A condition `J` on directories, one on notes and one on names that go together. -/
structure Upkeep (J : Directory → Prop) (good : Note → Prop) (named : CanonicalName → Prop) :
    Prop where
  returned : ∀ d, J d → ∀ n, d.store.Returns n → good n
  saved : ∀ n, good n → Keeps J (Directory.save n) fun n' => good n' ∧ n'.items = n.items
  members : ∀ g members, good g → g.isClass .group = true → MemberChange named g members →
    good (g.setMembers members)
  marked : ∀ n mark, good n → n.isClass .account = true → good (n.setText "CheckPassword" mark)

theorem upkeep_journal (journal : List Write) :
    Upkeep (fun d => journal <+: d.journal) (fun _ => True) fun _ => True where
  returned _ _ _ _ := trivial
  saved _ _ := leads_save (fun _ hd => ⟨hd.trans (List.prefix_append _ _), trivial, rfl⟩)
    fun _ hd => hd.trans (List.prefix_append _ _)
  members _ _ _ _ _ := trivial
  marked _ _ _ _ := trivial

/-- Such conditions on directories with a store in memory that outlives the session. -/
structure Frame (J : Directory → Prop) (good : Note → Prop) (named : CanonicalName → Prop) : Prop
    extends Upkeep J good named where
  memory : ∀ d, J d → d.store.backing = .memory
  lasting : ∀ d, J d → d.store.lasting = true
  alike : ∀ d d', Alike d d' → J d → J d'

theorem returns_of_groupsOf {s : Store} {member : CanonicalName} {found : List Note}
    (h : s.groupsOf member = .ok found) : ∀ g ∈ found, g.isClass .group = true ∧ s.Returns g := by
  intro g hg
  rw [Store.groupsOf, Store.search, read_queryFor] at h
  cases read : s.ofClass .group with
  | error fault =>
    simp only [bind, Except.bind, read] at h
    cases h
  | ok groups =>
    simp only [bind, Except.bind, read] at h
    cases h
    exact (Store.mem_of_ofClass read).1 g (List.mem_filter.mp (List.mem_filter.mp hg).1).1

theorem exists_groupsOf {s : Store} (hs : s.backing = .memory) (member : CanonicalName) :
    ∃ groups, s.groupsOf member = .ok groups := by
  rw [Store.groupsOf, Store.search, read_queryFor]
  simp only [bind, Except.bind, Store.ofClass_eq (Store.faithful_of_memory hs),
    Store.checkReadable_of_memory hs]
  exact ⟨_, rfl⟩

namespace MemberChange

variable {named named' : CanonicalName → Prop} {g : Note} {members : List String}

theorem mono (change : MemberChange named g members) (h : ∀ name, named name → named' name) :
    MemberChange named' g members := by
  cases change with
  | joined proper free => exact .joined (h _ proper) free
  | left name => exact .left name
  | renamed old proper => exact .renamed old (h _ proper)

theorem sources (change : MemberChange named g members) :
    ∀ m ∈ members, m ∈ g.members ∨ ∃ name, named name ∧ m = name.text := by
  intro m hm
  cases change with
  | @joined name proper _ =>
    rcases List.mem_append.mp hm with hm | hm
    · exact Or.inl hm
    · exact Or.inr ⟨name, proper, List.mem_singleton.mp hm⟩
  | left name => exact Or.inl (List.mem_filter.mp hm).1
  | @renamed old new proper =>
    rcases mem_renamed hm with ⟨hm, _⟩ | hm
    · exact Or.inl hm
    · exact Or.inr ⟨new, proper, hm⟩

theorem hasDistinctMembers (change : MemberChange CanonicalName.Settled g members)
    (hc : g.HasCanonicalMembers) (hd : g.HasDistinctMembers) :
    (g.setMembers members).HasDistinctMembers := by
  have canonical := fun s => Note.canonicalize_of_mem_members (s := s) hc
  rw [Note.HasDistinctMembers, Note.members_setMembers]
  cases change with
  | joined _ free => exact pairwise_withMember canonical hd free
  | left name => exact hd.sublist List.filter_sublist
  | renamed old proper => exact pairwise_renamed canonical old proper

end MemberChange

namespace Upkeep

variable {J : Directory → Prop} {good : Note → Prop} {named : CanonicalName → Prop}

section

variable (upkeep : Upkeep J good named)

include upkeep

theorem keeps_groupByAlias (name : String) :
    Keeps J (Directory.read (·.groupByAlias name)) fun found =>
      ∀ g ∈ found, good g ∧ g.isClass .group = true := by
  refine keeps_read fun d found hd h g hg => ?_
  rw [Option.mem_def] at hg
  rw [hg] at h
  obtain ⟨group, returns⟩ := Store.returns_of_groupByAlias h
  exact ⟨upkeep.returned d hd g returns, group⟩

theorem keeps_groupsOf (member : CanonicalName) :
    Keeps J (Directory.read (·.groupsOf member)) fun found =>
      ∀ g ∈ found, good g ∧ g.isClass .group = true := by
  refine keeps_read fun d found hd h g hg => ?_
  obtain ⟨group, returns⟩ := returns_of_groupsOf h g hg
  exact ⟨upkeep.returned d hd g returns, group⟩

theorem keeps_saveMembers {g : Note} {members : List String} (hg : good g)
    (hk : g.isClass .group = true) (change : MemberChange named g members) :
    Keeps J (saveMembers g members) fun _ => True :=
  keeps_discard (upkeep.saved _ (upkeep.members g members hg hk change))

theorem keeps_addMember {g : Note} {member : CanonicalName} (hg : good g)
    (hk : g.isClass .group = true) (hm : named member) :
    Keeps J (addMember g member) fun _ => True := by
  rw [addMember]
  split
  · exact keeps_pure trivial
  · next free =>
    refine (upkeep.keeps_saveMembers hg hk ?_).bind fun _ _ => keeps_pure trivial
    exact .joined hm (Bool.eq_false_iff.mpr free)

theorem keeps_removeMember {g : Note} (member : CanonicalName) (hg : good g)
    (hk : g.isClass .group = true) : Keeps J (removeMember g member) fun _ => True := by
  rw [removeMember]
  split
  · exact keeps_pure trivial
  · exact (upkeep.keeps_saveMembers hg hk (.left member)).bind fun _ _ => keeps_pure trivial

theorem keeps_join {member : CanonicalName} (hm : named member) (name : String) :
    Keeps J (join member name) fun _ => True := by
  rw [join]
  refine (upkeep.keeps_groupByAlias name).bind fun found hfound => ?_
  cases found with
  | none => exact keeps_throw
  | some g => exact upkeep.keeps_addMember (hfound g rfl).1 (hfound g rfl).2 hm

theorem keeps_joins {member : CanonicalName} (hm : named member) (names : List String) :
    Keeps J (names.forM fun name => discard (join member name)) fun _ => True :=
  keeps_forM fun name _ => keeps_discard (upkeep.keeps_join hm name)

theorem keeps_leave (member : CanonicalName) (name : String) :
    Keeps J (leave member name) fun _ => True := by
  rw [leave]
  refine (upkeep.keeps_groupByAlias name).bind fun found hfound => ?_
  cases found with
  | none => exact keeps_pure trivial
  | some g => exact upkeep.keeps_removeMember member (hfound g rfl).1 (hfound g rfl).2

theorem keeps_updateGroups (policy : ReplacePolicy) {member : CanonicalName} (hm : named member)
    (groups : List String) (kind : UpdateKind) :
    Keeps J (updateGroups policy member groups kind) fun _ => True := by
  rw [updateGroups]
  refine (upkeep.keeps_groupsOf member).bind fun held hheld => ?_
  refine (upkeep.keeps_joins hm _).bind fun _ _ => ?_
  refine keeps_forM fun g hg => ?_
  have inHeld : g ∈ held := by
    unfold toLeave at hg
    split at hg
    · exact absurd hg List.not_mem_nil
    · exact absurd hg List.not_mem_nil
    · exact (List.mem_filter.mp hg).1
    · exact (List.mem_filter.mp hg).1
  exact keeps_discard (upkeep.keeps_removeMember member (hheld g inHeld).1 (hheld g inHeld).2)

theorem keeps_rename (old : CanonicalName) {new : CanonicalName} (hn : named new) :
    Keeps J (rename old new) fun _ => True := by
  rw [rename]
  refine (upkeep.keeps_groupsOf old).bind fun groups hgroups => ?_
  refine (keeps_forM fun g hg => ?_).bind fun _ _ => keeps_pure trivial
  exact upkeep.keeps_saveMembers (hgroups g hg).1 (hgroups g hg).2 (.renamed old hn)

theorem keeps_removeEverywhere (member : CanonicalName) :
    Keeps J (removeEverywhere member) fun _ => True := by
  rw [removeEverywhere]
  refine (upkeep.keeps_groupsOf member).bind fun groups hgroups => ?_
  refine (keeps_mapM fun g hg => ?_).bind fun _ _ => keeps_pure trivial
  exact upkeep.keeps_removeMember member (hgroups g hg).1 (hgroups g hg).2

theorem keeps_setEnabled_of_marked (settings : DirectorySettings) {n : Note}
    (hn : ∀ mark, good (n.setText "CheckPassword" mark)) {name : CanonicalName} (hm : named name)
    (enabled : Bool) (given : Option (List String)) :
    Keeps J (Account.setEnabled settings n name enabled given) fun _ => True := by
  rw [Account.setEnabled]
  split
  · refine keeps_forM fun group _ => ?_
    split
    · exact keeps_discard (upkeep.keeps_leave name group)
    · exact keeps_discard (upkeep.keeps_join hm group)
  · dsimp only
    split
    · exact keeps_discard (upkeep.saved _ (hn _))
    · exact keeps_pure trivial

theorem keeps_setEnabled (settings : DirectorySettings) {n : Note} (hn : good n)
    (hk : n.isClass .account = true) {name : CanonicalName} (hm : named name) (enabled : Bool)
    (given : Option (List String)) :
    Keeps J (Account.setEnabled settings n name enabled given) fun _ => True :=
  upkeep.keeps_setEnabled_of_marked settings (fun mark => upkeep.marked n mark hn hk) hm enabled given

end

end Upkeep

namespace Frame

variable {J : Directory → Prop} {good : Note → Prop} {named : CanonicalName → Prop}

theorem and {J' : Directory → Prop} {good' : Note → Prop} (frame : Frame J good named)
    (frame' : Frame J' good' fun _ => True) :
    Frame (fun d => J d ∧ J' d) (fun n => good n ∧ good' n) named where
  memory d hd := frame.memory d hd.1
  lasting d hd := frame.lasting d hd.1
  alike d d' same hd := ⟨frame.alike d d' same hd.1, frame'.alike d d' same hd.2⟩
  returned d hd n hn := ⟨frame.returned d hd.1 n hn, frame'.returned d hd.2 n hn⟩
  saved n hn := ((frame.saved n hn.1).and (frame'.saved n hn.2)).weaken
    fun _ h => ⟨⟨h.1.1, h.2.1⟩, h.1.2⟩
  members g members hg hk change :=
    ⟨frame.members g members hg.1 hk change,
      frame'.members g members hg.2 hk (change.mono fun _ _ => trivial)⟩
  marked n mark hn hk := ⟨frame.marked n mark hn.1 hk, frame'.marked n mark hn.2 hk⟩

section

variable (frame : Frame J good named)

include frame

theorem stored {d : Directory} (hd : J d) {entry : String × Note} (he : entry ∈ d.store.notes) :
    good entry.2 :=
  frame.returned d hd entry.2 ⟨entry, he, Store.faithful_of_memory (frame.memory d hd) entry he⟩

theorem good_of_mem_notesOf {d : Directory} (hd : J d) {kind : EntryClass} {n : Note}
    (h : n ∈ d.store.notesOf kind) : good n ∧ n.isClass kind = true := by
  obtain ⟨⟨id, hm⟩, hk⟩ := Store.mem_notesOf.mp h
  exact ⟨frame.stored hd hm, hk⟩

theorem keeps_acquire : Keeps J Directory.acquire fun _ => True :=
  Action.keeps_acquire frame.lasting frame.alike

end

end Frame

end AddressBook.Membership

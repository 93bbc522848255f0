import AddressBook.Proofs.Membership.Shape

/-! Putting one name in the place of another in every group. The groups are found before anything is
saved and each is saved once. When one is refused, that group and those behind it still list the old
name. -/

namespace AddressBook

def Note.members? (n : Note) : Option (List String) :=
  if n.isClass .group then some n.members else none

theorem Store.memberTable_eq (s : Store) : s.memberTable = s.table Note.members? := rfl

namespace Membership

open AddressBook.Action

variable {old new : CanonicalName} {d d' : Directory} {fault : Fault}

/-- The members of a group after a renaming. A group that does not list the old name is not touched,
even if it lists some other name twice. -/
def renamedIn (old new : CanonicalName) (members : List String) : List String :=
  if members.any fun stored => Name.refersTo stored old then renamed members old new else members

def renamedTable (old new : CanonicalName) (members : Table (List String)) : Table (List String) :=
  fun id => (members id).map (renamedIn old new)

theorem any_refersTo_renamedIn (hc : Name.canonicalize new.text = .ok new)
    (differs : new.same old = false) (members : List String) :
    ((renamedIn old new members).any fun stored => Name.refersTo stored old) = false := by
  rw [renamedIn]
  split
  · exact any_refersTo_old hc differs members
  · next unlisted => exact Bool.eq_false_iff.mpr unlisted

theorem unlisted_renamedTable (hc : Name.canonicalize new.text = .ok new)
    (differs : new.same old = false) (members : Table (List String)) :
    Unlisted old (renamedTable old new members) := by
  intro id listed stands
  obtain ⟨before, _, rfl⟩ := Option.map_eq_some_iff.mp stands
  exact any_refersTo_renamedIn hc differs before

theorem memberTable_save {n n' : Note} {id : String} (hid : n.id = some id)
    (h : Directory.save n d = .ok n' d') :
    d'.store.memberTable = Table.set d.store.memberTable id n.members? := by
  obtain ⟨time, _, notes, _, _⟩ := Directory.save_ok_of_id hid h
  have stands : d'.store.table Note.members? =
      (d.store.put id { n with modified := some time }).table Note.members? :=
    Store.table_congr notes
  rw [Store.memberTable_eq, Store.memberTable_eq, stands, Store.table_put]
  rfl

theorem memberTable_saveMembers {g : Note} {id : String} {members : List String} {u : Unit}
    (hid : g.id = some id) (hg : g.isClass .group = true) (h : saveMembers g members d = .ok u d') :
    d'.store.memberTable = Table.set d.store.memberTable id (some members) := by
  obtain ⟨n', saved⟩ := saveMembers_ok h
  have group : (g.setMembers members).isClass .group = true := by
    rw [Note.isClass_congr (g.sameBesideMembers_setMembers members), hg]
  have named : (g.setMembers members).id = some id := hid
  rw [memberTable_save named saved, Note.members?, if_pos group, Note.members_setMembers]

theorem memberTable_forM_saveMembers {s : Store} (hs : s.Sound) {gs : List Note}
    {f : Note → List String} {u : Unit} (hgs : ∀ g ∈ gs, g ∈ s.notesOf .group)
    (distinct : gs.Pairwise fun g g' => g.id ≠ g'.id)
    (h : (gs.forM fun g => saveMembers g (f g)) d = .ok u d') :
    (∀ g ∈ gs, ∀ id, g.id = some id → d'.store.memberTable id = some (f g)) ∧
      ∀ id, (∀ g ∈ gs, g.id ≠ some id) → d'.store.memberTable id = d.store.memberTable id := by
  induction gs generalizing d with
  | nil =>
    rw [← forM_nil_ok_iff.mp h]
    exact ⟨fun g hg => absurd hg List.not_mem_nil, fun _ _ => rfl⟩
  | cons g gs ih =>
    obtain ⟨d₁, first, others⟩ := forM_cons_ok_iff.mp h
    obtain ⟨different, distinct⟩ := List.pairwise_cons.mp distinct
    have here := hgs g List.mem_cons_self
    have group := (Store.mem_notesOf.mp here).2
    obtain ⟨id, hid, _⟩ := hs.get?_of_mem_notesOf here
    have table := memberTable_saveMembers hid group first
    obtain ⟨saved, kept⟩ := ih (fun m hm => hgs m (List.mem_cons_of_mem g hm)) distinct others
    refine ⟨fun m hm other hother => ?_, fun other absent => ?_⟩
    · rcases List.mem_cons.mp hm with rfl | hm
      · rw [kept other fun m hm same => different m hm (hother.trans same.symm), table]
        rw [hid, Option.some.injEq] at hother
        rw [Table.set, if_pos hother.symm]
      · exact saved m hm other hother
    · rw [kept other fun m hm => absent m (List.mem_cons_of_mem g hm), table, Table.set, if_neg]
      rintro rfl
      exact absent g List.mem_cons_self hid

section

variable (hs : d.store.Sound)
  (held : d.store.groupsOf old = .ok ((d.store.notesOf .group).filter (·.hasMember old)))

include hs held

theorem rename_ok {count : Nat} (h : rename old new d = .ok count d') :
    d'.store.memberTable = renamedTable old new d.store.memberTable := by
  obtain ⟨groups, found, -, saves⟩ := rename_steps h
  obtain rfl := Except.ok.inj (held.symm.trans found)
  obtain ⟨saved, kept⟩ := memberTable_forM_saveMembers hs (fun g hg => (List.mem_filter.mp hg).1)
    ((hs.pairwise_notesOf .group).filter _) saves
  funext id
  rw [renamedTable]
  cases hn : d.store.notes.get? id with
  | none =>
    have absent : d.store.memberTable id = none := by
      rw [Store.memberTable, hn, Option.bind_none]
    rw [kept id, absent, Option.map_none]
    intro g hg same
    obtain ⟨other, hother, hget⟩ := hs.get?_of_mem_notesOf (List.mem_filter.mp hg).1
    rw [same, Option.some.injEq] at hother
    rw [hother, hget] at hn
    cases hn
  | some n =>
    have named := hs.id_of_get? hn
    by_cases listing : n ∈ (d.store.notesOf .group).filter (·.hasMember old)
    · obtain ⟨here, lists⟩ := List.mem_filter.mp listing
      rw [saved n listing id named, Store.memberTable, hn, Option.bind_some,
        if_pos (Store.mem_notesOf.mp here).2, Option.map_some, renamedIn]
      exact congrArg some (if_pos lists).symm
    · have unlisted : ∀ g ∈ (d.store.notesOf .group).filter (·.hasMember old), g.id ≠ some id := by
        intro g hg same
        obtain ⟨other, hother, hget⟩ := hs.get?_of_mem_notesOf (List.mem_filter.mp hg).1
        rw [same, Option.some.injEq] at hother
        rw [← hother, hn, Option.some.injEq] at hget
        exact listing (hget ▸ hg)
      rw [kept id unlisted, Store.memberTable, hn, Option.bind_some]
      split
      · next group =>
        have here : n ∈ d.store.notesOf .group :=
          Store.mem_notesOf.mpr ⟨⟨id, Keyed.mem_of_get? hn⟩, group⟩
        have silent : ¬ n.hasMember old = true :=
          fun lists => listing (List.mem_filter.mpr ⟨here, lists⟩)
        rw [Option.map_some, renamedIn]
        exact congrArg some (if_neg silent).symm
      · rfl

theorem rename_error (h : rename old new d = .error fault d') :
    ¬ Unlisted old d'.store.memberTable := by
  rw [rename] at h
  rcases bind_error_iff.mp h with failed | ⟨groups, d₀, read, h⟩
  · obtain ⟨failed, _⟩ := read_error_iff.mp failed
    rw [held] at failed
    cases failed
  obtain ⟨found, rfl⟩ := read_ok_iff.mp read
  obtain rfl := Except.ok.inj (held.symm.trans found)
  rcases bind_error_iff.mp h with failed | ⟨_, _, _, h⟩
  · obtain ⟨before, g, behind, d₁, pieces, done, failed⟩ := forM_error failed
    have listing : ∀ m ∈ before ++ g :: behind, m ∈ d.store.notesOf .group ∧ m.hasMember old = true := by
      intro m hm
      rw [← pieces] at hm
      exact List.mem_filter.mp hm
    have distinct := (hs.pairwise_notesOf .group).filter (·.hasMember old)
    rw [pieces] at distinct
    obtain ⟨earlier, _, apart⟩ := List.pairwise_append.mp distinct
    obtain ⟨_, kept⟩ := memberTable_forM_saveMembers hs
      (fun m hm => (listing m (List.mem_append_left _ hm)).1) earlier done
    obtain ⟨here, lists⟩ := listing g (List.mem_append_right _ List.mem_cons_self)
    obtain ⟨id, hid, hget⟩ := hs.get?_of_mem_notesOf here
    have refused : d'.store = d₁.store := Directory.save_error (discard_error_iff.mp failed)
    have stands : d'.store.memberTable id = some g.members := by
      rw [refused, kept id fun m hm => hid ▸ apart m hm g List.mem_cons_self, Store.memberTable, hget,
        Option.bind_some, if_pos (Store.mem_notesOf.mp here).2]
    intro unlisted
    rw [Note.hasMember, unlisted id g.members stands] at lists
    cases lists
  · cases h

end

end Membership

end AddressBook

import AddressBook.Membership.Update
import AddressBook.Proofs.Membership.Turning

/-! Saving groups with other members, one save for each. Groups that were not saved yet stand as they
were read at the start, so that a list of them can be worked off without reading it again. -/

namespace AddressBook

namespace Note

def membersAt (n : Note) (members : List String) (time : Moment) : Note :=
  { n.setMembers members with modified := some time }

variable (n : Note) (members : List String) (time : Moment)

theorem sameBesideMembers_membersAt : (n.membersAt members time).SameBesideMembers n :=
  sameBesideMembers_setMembers n members

theorem members_membersAt : (n.membersAt members time).members = members :=
  members_setMembers n members

end Note

theorem Store.readBack_membersAt {s : Store} {n : Note} (h : s.readBack n = .ok n)
    (members : List String) (time : Moment) :
    s.readBack (n.membersAt members time) = .ok (n.membersAt members time) := by
  rw [readBack_ok_iff] at *
  exact h.imp id fun back => Note.itemsThroughJson?_setTexts back _ _

namespace Membership

variable {f : Note → List String} {ids : List String} {d d₁ d₂ : Directory}

/-- The second directory is the first after the groups of some ids were saved with other members, each
with one save. -/
structure Rewritten (f : Note → List String) (ids : List String) (d d₁ : Directory) : Prop where
  nodup : ids.Nodup
  sound : d₁.store.Sound
  faithful : d₁.store.Faithful
  keys : d₁.store.notes.keys = d.store.notes.keys
  others : ∀ id ∉ ids, d₁.store.notes.get? id = d.store.notes.get? id
  groups : ∀ id ∈ ids, ∃ n time, d.store.notes.get? id = some n ∧ n.isClass .group = true ∧
    d₁.store.notes.get? id = some (n.membersAt (f n) time)
  journal : d₁.journal = d.journal ++ ids.map fun id =>
    .saved id (((d₁.store.notes.get? id).map (·.items)).getD [])

namespace Rewritten

theorem refl (hs : d.store.Sound) (hf : d.store.Faithful) : Rewritten f [] d d where
  nodup := List.nodup_nil
  sound := hs
  faithful := hf
  keys := rfl
  others := fun _ _ => rfl
  groups := fun _ h => absurd h List.not_mem_nil
  journal := by simp

theorem origin (h : Rewritten f ids d d₁) {id : String} {m : Note}
    (hm : d₁.store.notes.get? id = some m) :
    ∃ n, d.store.notes.get? id = some n ∧
      (id ∉ ids ∧ m = n ∨ id ∈ ids ∧ ∃ time, m = n.membersAt (f n) time) := by
  by_cases hid : id ∈ ids
  · obtain ⟨n, time, hn, _, became⟩ := h.groups id hid
    rw [became, Option.some.injEq] at hm
    exact ⟨n, hn, Or.inr ⟨hid, time, hm.symm⟩⟩
  · rw [h.others id hid] at hm
    exact ⟨m, hm, Or.inl ⟨hid, rfl⟩⟩

theorem became (h : Rewritten f ids d d₁) {id : String} {n m : Note}
    (hn : d.store.notes.get? id = some n) (hm : d₁.store.notes.get? id = some m) :
    id ∉ ids ∧ m = n ∨ id ∈ ids ∧ ∃ time, m = n.membersAt (f n) time := by
  obtain ⟨o, ho, became⟩ := h.origin hm
  rw [hn, Option.some.injEq] at ho
  rwa [ho]

theorem sameBesideMembers (h : Rewritten f ids d d₁) {id : String} {n m : Note}
    (hn : d.store.notes.get? id = some n) (hm : d₁.store.notes.get? id = some m) :
    m.SameBesideMembers n := by
  rcases h.became hn hm with ⟨_, rfl⟩ | ⟨_, time, rfl⟩
  · exact m.sameBesideMembers_refl
  · exact n.sameBesideMembers_membersAt _ time

theorem save (h : Rewritten f ids d d₁) {id : String} {n n' : Note} (hid : id ∉ ids)
    (hn : d.store.notes.get? id = some n) (hk : n.isClass .group = true)
    (hs : Directory.save (n.setMembers (f n)) d₁ = .ok n' d₂) :
    Rewritten f (ids ++ [id]) d d₂ := by
  have stored : d₁.store.notes.get? id = some n := by rw [h.others id hid, hn]
  have named : n.id = some id := h.sound.id_of_get? stored
  have rewritten : (n.setMembers (f n)).id = some id := named
  obtain ⟨time, _, notes, backing, journal⟩ := Directory.save_ok_of_id rewritten hs
  change d₂.store.notes = d₁.store.notes.put id (n.membersAt (f n) time) at notes
  have sound : (d₁.store.put id (n.membersAt (f n) time)).Sound := h.sound.put named
  have present : id ∈ d₁.store.notes.keys := Keyed.mem_keys_of_get? stored
  have elsewhere : ∀ other ∈ ids, other ≠ id := by
    rintro other ho rfl
    exact hid ho
  constructor
  · exact List.nodup_append.mpr ⟨h.nodup, List.pairwise_singleton _ _, by simpa using elsewhere⟩
  · exact sound.congr notes
  · intro entry he
    rw [notes] at he
    have back : d₁.store.readBack entry.2 = .ok entry.2 := by
      rcases Keyed.mem_put he with rfl | he
      · exact Store.readBack_membersAt (h.faithful _ (Keyed.mem_of_get? stored)) _ _
      · exact h.faithful entry he
    rw [Store.readBack_ok_iff] at *
    rwa [backing]
  · rw [notes, Keyed.keys_put h.sound.sorted present, h.keys]
  · intro other ho
    rw [List.mem_append, List.mem_singleton, not_or] at ho
    simp [notes, ho.2, h.others other ho.1]
  · intro other ho
    rcases List.mem_append.mp ho with ho | ho
    · obtain ⟨m, earlier, hm, hgroup, became⟩ := h.groups other ho
      refine ⟨m, earlier, hm, hgroup, ?_⟩
      simp [notes, elsewhere other ho, became]
    · obtain rfl := List.mem_singleton.mp ho
      refine ⟨n, time, hn, hk, ?_⟩
      simp [notes]
  · rw [journal, h.journal, List.map_append, ← List.append_assoc]
    congr 1
    · congr 1
      apply List.map_congr_left
      intro other ho
      simp [notes, elsewhere other ho]
    · rw [List.map_singleton, notes, Keyed.get?_put_self]
      rfl

end Rewritten

theorem saveMembers_ok {g : Note} {members : List String} {u : Unit}
    (h : saveMembers g members d₁ = .ok u d₂) :
    ∃ n', Directory.save (g.setMembers members) d₁ = .ok n' d₂ := Action.discard_ok_iff.mp h

theorem rename_steps {old new : CanonicalName} {count : Nat} (h : rename old new d = .ok count d₁) :
    ∃ groups, d.store.groupsOf old = .ok groups ∧ count = groups.length ∧
      (groups.forM fun g => saveMembers g (renamed g.members old new)) d = .ok () d₁ := by
  obtain ⟨groups, d', read, h⟩ := Action.bind_ok_iff.mp h
  obtain ⟨found, rfl⟩ := Action.read_ok_iff.mp read
  obtain ⟨⟨⟩, d', saves, h⟩ := Action.bind_ok_iff.mp h
  obtain ⟨rfl, rfl⟩ := Action.pure_ok_iff.mp h
  exact ⟨groups, found, rfl, saves⟩

/-- Saving groups as they were read before anything was saved. -/
theorem Rewritten.forM {gs : List Note} (h : Rewritten f ids d d₁)
    (hgs : ∀ g ∈ gs, ∃ id, g.id = some id ∧ d.store.notes.get? id = some g ∧
      g.isClass .group = true ∧ id ∉ ids)
    (hne : gs.Pairwise fun g g' => g.id ≠ g'.id)
    (hl : (gs.forM fun g => saveMembers g (f g)) d₁ = .ok () d₂) :
    Rewritten f (ids ++ gs.filterMap (·.id)) d d₂ := by
  induction gs generalizing ids d₁ with
  | nil =>
    rw [Action.forM_nil_ok_iff] at hl
    rw [← hl]
    simpa using h
  | cons g gs ih =>
    rw [Action.forM_cons_ok_iff] at hl
    obtain ⟨d', first, others⟩ := hl
    obtain ⟨n', saved⟩ := saveMembers_ok first
    obtain ⟨id, named, hg, group, fresh⟩ := hgs g List.mem_cons_self
    obtain ⟨different, distinct⟩ := List.pairwise_cons.mp hne
    have rest : ∀ m ∈ gs, ∃ other, m.id = some other ∧ d.store.notes.get? other = some m ∧
        m.isClass .group = true ∧ other ∉ ids ++ [id] := by
      intro m hm
      obtain ⟨other, hid, hget, hgroup, hfresh⟩ := hgs m (List.mem_cons_of_mem g hm)
      refine ⟨other, hid, hget, hgroup, ?_⟩
      rw [List.mem_append, List.mem_singleton, not_or]
      refine ⟨hfresh, ?_⟩
      rintro rfl
      exact different m hm (named.trans hid.symm)
    have all := ih (h.save fresh hg group saved) rest distinct others
    rw [List.filterMap_cons_some named]
    simpa using all

end Membership

end AddressBook

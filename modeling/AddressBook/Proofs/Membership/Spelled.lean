import AddressBook.Proofs.Membership.Overlooked
import AddressBook.Proofs.Membership.Update

/-! Removing a name and putting another in its place, whatever the notes hold. The query for a name
leads to the groups that list it and spell it. Each of them is saved once with other members, and all
other notes stay as they are. -/

namespace AddressBook

namespace Note

/-- The query for a name leads to the note when it is one of a group. -/
def showsUp (n : Note) (name : CanonicalName) : Bool := n.hasMember name && n.spells name

theorem showsUp_eq_hasMember {n : Note} (form : n.HasGroupForm) (canonical : n.HasCanonicalMembers)
    (name : CanonicalName) : n.showsUp name = n.hasMember name := by
  rw [showsUp]
  cases lists : n.hasMember name with
  | false => rfl
  | true =>
    rw [Bool.true_and, ← Membership.holds_queried lists, Formula.holds_both,
      (Query.holds_formFormula .group n).mpr (mem_item?_of_form? form),
      Membership.holds_listing canonical lists]
    rfl

end Note

namespace Store

variable {s : Store} {name : CanonicalName}

def idsFor (s : Store) (name : CanonicalName) : List String :=
  ((s.notesOf .group).filter (·.showsUp name)).filterMap (·.id)

theorem mem_idsFor_iff (hs : s.Sound) {id : String} :
    id ∈ s.idsFor name ↔
      ∃ n, s.notes.get? id = some n ∧ n.isClass .group = true ∧ n.showsUp name = true :=
  hs.mem_ids_iff _

theorem groupsOf_ok (hf : s.Faithful) {found : List Note} (h : s.groupsOf name = .ok found) :
    found = (s.notesOf .group).filter (·.showsUp name) := by
  rw [groupsOf_eq_spelled, ofClass_eq hf] at h
  cases readable : s.checkReadable with
  | error fault =>
    rw [readable] at h
    cases h
  | ok u =>
    rw [readable] at h
    cases h
    rfl

theorem stored_of_showsUp (hs : s.Sound) :
    (∀ g ∈ (s.notesOf .group).filter (·.showsUp name), ∃ id, g.id = some id ∧
      s.notes.get? id = some g ∧ g.isClass .group = true ∧ g.hasMember name = true) ∧
      ((s.notesOf .group).filter (·.showsUp name)).Pairwise fun g g' => g.id ≠ g'.id := by
  refine ⟨fun g hg => ?_, (hs.pairwise_notesOf .group).filter _⟩
  obtain ⟨listed, shows⟩ := List.mem_filter.mp hg
  obtain ⟨id, named, hget⟩ := hs.get?_of_mem_notesOf listed
  exact ⟨id, named, hget, (mem_notesOf.mp listed).2, (Bool.and_eq_true_iff.mp shows).1⟩

section

variable (hg : ∀ g ∈ s.notesOf .group, g.HasGroupForm ∧ g.HasCanonicalMembers)

include hg

theorem filter_showsUp (name : CanonicalName) :
    (s.notesOf .group).filter (·.showsUp name) = (s.notesOf .group).filter (·.hasMember name) :=
  List.filter_congr fun g hmem => g.showsUp_eq_hasMember (hg g hmem).1 (hg g hmem).2 name

theorem idsFor_of_proper (name : CanonicalName) :
    s.idsFor name = ((s.notesOf .group).filter (·.hasMember name)).filterMap (·.id) := by
  rw [idsFor, filter_showsUp hg]

end

end Store

namespace Membership

variable {name old new : CanonicalName} {count : Nat} {d d₁ : Directory}

theorem Rewritten.members_eq {f : Note → List String} (hs : d.store.Sound)
    (h : Rewritten f (d.store.idsFor name) d d₁) {id : String} {n m : Note}
    (hn : d.store.notes.get? id = some n) (hm : d₁.store.notes.get? id = some m) :
    m.members = if n.isClass .group && n.showsUp name then f n else n.members := by
  rcases h.became hn hm with ⟨absent, rfl⟩ | ⟨listed, time, rfl⟩
  · rw [if_neg]
    rw [Bool.and_eq_true]
    exact fun shows => absent ((Store.mem_idsFor_iff hs).mpr ⟨m, hn, shows⟩)
  · obtain ⟨n', hn', group, shows⟩ := (Store.mem_idsFor_iff hs).mp listed
    rw [hn, Option.some.injEq] at hn'
    subst hn'
    rw [Note.members_membersAt, group, shows]
    rfl

variable (hs : d.store.Sound) (hf : d.store.Faithful)

include hs hf

theorem turned_of_removal (h : removeEverywhere name d = .ok count d₁) :
    Turned name (d.store.idsFor name) d d₁ := by
  rw [removeEverywhere] at h
  obtain ⟨groups, d', read, h⟩ := Action.bind_ok_iff.mp h
  rw [Action.read_ok_iff] at read
  obtain ⟨read, rfl⟩ := read
  obtain rfl := Store.groupsOf_ok hf read
  obtain ⟨removed, d', leaves, h⟩ := Action.bind_ok_iff.mp h
  obtain ⟨-, rfl⟩ := Action.pure_ok_iff.mp h
  obtain ⟨stored, distinct⟩ := Store.stored_of_showsUp hs
  refine (Turned.refl hs hf).leave (fun g hg => ?_) distinct (Action.forM_of_mapM_ok leaves)
  obtain ⟨id, named, hget, group, lists⟩ := stored g hg
  exact ⟨id, named, hget, group, lists, List.not_mem_nil⟩

theorem rewritten_of_renaming (h : rename old new d = .ok count d₁) :
    count = ((d.store.notesOf .group).filter (·.showsUp old)).length ∧
      Rewritten (fun g => renamed g.members old new) (d.store.idsFor old) d d₁ := by
  obtain ⟨groups, read, rfl, saves⟩ := rename_steps h
  obtain rfl := Store.groupsOf_ok hf read
  obtain ⟨stored, distinct⟩ := Store.stored_of_showsUp hs
  refine ⟨rfl, (Rewritten.refl hs hf).forM (fun g hg => ?_) distinct saves⟩
  obtain ⟨id, named, hget, group, -⟩ := stored g hg
  exact ⟨id, named, hget, group, List.not_mem_nil⟩

theorem members_of_removal (h : removeEverywhere name d = .ok count d₁) {id : String} {n m : Note}
    (hn : d.store.notes.get? id = some n) (hm : d₁.store.notes.get? id = some m) :
    m.members =
      if n.isClass .group && n.showsUp name then withoutMember n.members name else n.members := by
  rw [(turned_iff.mp (turned_of_removal hs hf h)).members_eq hs hn hm]
  split
  · next shows =>
    rw [Note.showsUp, Bool.and_eq_true, Bool.and_eq_true] at shows
    rw [if_pos shows.2.1]
  · rfl

end Membership

end AddressBook

import AddressBook.Directory.Store
import AddressBook.Proofs.Except
import AddressBook.Proofs.Keyed

/-! Stores whose notes stand sorted under their own ids and come back as they were put in, and what
the lookups of such a store find. -/

namespace AddressBook

namespace Store

/-- Notes stand under their ids, in the order of the ids. -/
structure Sound (s : Store) : Prop where
  sorted : Keyed.Sorted s.notes
  ids : ∀ entry ∈ s.notes, entry.2.id = some entry.1

/-- Every note comes back as it was put in. A store in memory has no other way; a store on a table
may hold a number that its text does not give back. -/
def Faithful (s : Store) : Prop := ∀ entry ∈ s.notes, s.readBack entry.2 = .ok entry.2

theorem faithful_of_memory {s : Store} (h : s.backing = .memory) : s.Faithful := by
  intro entry _
  rw [readBack, h]

def notesOf (s : Store) (kind : EntryClass) : List Note := s.all.filter (·.isClass kind)

variable {s : Store} {kind : EntryClass}

theorem mem_notesOf {n : Note} :
    n ∈ s.notesOf kind ↔ (∃ id, (id, n) ∈ s.notes) ∧ n.isClass kind = true := by
  rw [notesOf, all, List.mem_filter, List.mem_map]
  constructor
  · rintro ⟨⟨⟨id, m⟩, hm, rfl⟩, hk⟩
    exact ⟨⟨id, hm⟩, hk⟩
  · rintro ⟨⟨id, hm⟩, hk⟩
    exact ⟨⟨(id, n), hm, rfl⟩, hk⟩

theorem Sound.congr {s' : Store} (h : s.Sound) (same : s'.notes = s.notes) : s'.Sound :=
  ⟨by rw [same]; exact h.sorted, by rw [same]; exact h.ids⟩

theorem sound_of_notes_nil (h : s.notes = []) : s.Sound :=
  ⟨by rw [h]; exact List.Pairwise.nil, by rw [h]; exact fun _ he => absurd he List.not_mem_nil⟩

theorem Sound.get?_of_mem {id : String} {n : Note} (h : s.Sound) (hm : (id, n) ∈ s.notes) :
    s.notes.get? id = some n := Keyed.get?_of_mem h.sorted hm

theorem Sound.id_of_get? {id : String} {n : Note} (h : s.Sound) (hg : s.notes.get? id = some n) :
    n.id = some id := h.ids _ (Keyed.mem_of_get? hg)

theorem Sound.get?_of_mem_notesOf {n : Note} (h : s.Sound) (hn : n ∈ s.notesOf kind) :
    ∃ id, n.id = some id ∧ s.notes.get? id = some n := by
  obtain ⟨⟨id, hm⟩, _⟩ := mem_notesOf.mp hn
  exact ⟨id, h.ids _ hm, h.get?_of_mem hm⟩

theorem Sound.eq_of_id {n m : Note} {kind' : EntryClass} (h : s.Sound) (hn : n ∈ s.notesOf kind)
    (hm : m ∈ s.notesOf kind') (same : n.id = m.id) : n = m := by
  obtain ⟨id, hid, hget⟩ := h.get?_of_mem_notesOf hn
  obtain ⟨id', hid', hget'⟩ := h.get?_of_mem_notesOf hm
  rw [same, hid', Option.some.injEq] at hid
  rw [hid] at hget'
  rw [hget'] at hget
  exact (Option.some.inj hget).symm

theorem Sound.pairwise_notesOf (h : s.Sound) (kind : EntryClass) :
    (s.notesOf kind).Pairwise fun n m => n.id ≠ m.id := by
  rw [notesOf, all]
  refine List.Pairwise.filter _ (List.pairwise_map.mpr ?_)
  refine h.sorted.imp_of_mem ?_
  intro a b ha hb less same
  rw [h.ids a ha, h.ids b hb, Option.some.injEq] at same
  rw [same] at less
  exact String.lt_irrefl _ less

theorem Sound.mem_ids_iff (h : s.Sound) (p : Note → Bool) {id : String} :
    id ∈ ((s.notesOf kind).filter p).filterMap (·.id) ↔
      ∃ n, s.notes.get? id = some n ∧ n.isClass kind = true ∧ p n = true := by
  rw [List.mem_filterMap]
  constructor
  · rintro ⟨n, hn, named⟩
    obtain ⟨listed, holds⟩ := List.mem_filter.mp hn
    obtain ⟨other, hid, hget⟩ := h.get?_of_mem_notesOf listed
    rw [named, Option.some.injEq] at hid
    exact ⟨n, hid ▸ hget, (mem_notesOf.mp listed).2, holds⟩
  · rintro ⟨n, hget, hk, holds⟩
    have listed : n ∈ s.notesOf kind := mem_notesOf.mpr ⟨⟨id, Keyed.mem_of_get? hget⟩, hk⟩
    exact ⟨n, List.mem_filter.mpr ⟨listed, holds⟩, h.id_of_get? hget⟩

theorem ofClass_eq (h : s.Faithful) (kind : EntryClass) :
    s.ofClass kind = s.checkReadable.map fun _ => s.notesOf kind := by
  have back : (s.notesOf kind).mapM s.readBack = .ok (s.notesOf kind) := by
    have each : ∀ n ∈ s.notesOf kind, s.readBack n = .ok (id n) := by
      intro n hn
      obtain ⟨⟨_, hm⟩, _⟩ := mem_notesOf.mp hn
      exact h _ hm
    have all := mapM_ok_of_forall each
    rwa [List.map_id] at all
  rw [ofClass]
  cases s.checkReadable with
  | error fault => rfl
  | ok u => exact back

theorem ofClass_ok {found : List Note} (h : s.Faithful) (hr : s.ofClass kind = .ok found) :
    s.checkReadable = .ok () ∧ found = s.notesOf kind := by
  rw [ofClass_eq h] at hr
  cases readable : s.checkReadable with
  | error fault =>
    rw [readable] at hr
    cases hr
  | ok u =>
    rw [readable] at hr
    cases hr
    exact ⟨rfl, rfl⟩

theorem groupByAlias_ok {name : String} {found : Option Note} (h : s.Faithful)
    (hr : s.groupByAlias name = .ok found) :
    found = (s.notesOf .group).find? (·.hasAlias name) := by
  rw [groupByAlias] at hr
  cases read : s.ofClass .group with
  | error fault =>
    rw [read] at hr
    cases hr
  | ok groups =>
    rw [read] at hr
    cases hr
    rw [(ofClass_ok h read).2]

theorem accountByName_ok {name : CanonicalName} {found : Option Note} (h : s.Faithful)
    (hr : s.accountByName name = .ok found) :
    found = (s.notesOf .account).find? (·.isNamed name) := by
  rw [accountByName] at hr
  cases read : s.ofClass .account with
  | error fault =>
    rw [read] at hr
    cases hr
  | ok accounts =>
    rw [read] at hr
    cases hr
    rw [(ofClass_ok h read).2]

theorem checkReadable_of_memory (h : s.backing = .memory) : s.checkReadable = .ok () := by
  rw [checkReadable, h]

theorem accountById_eq (h : s.backing = .memory) (id : String) :
    s.accountById id =
      .ok (((s.notes.keys.find? fun key => Text.sameAscii key id).bind
        fun key => s.notes.get? key).filter (·.isClass .account)) := by
  have key : s.accountKey? id = s.notes.keys.find? fun key => Text.sameAscii key id := by
    rw [accountKey?, h]
  rw [accountById, key]
  simp only [checkReadable_of_memory h, bind, Except.bind]
  cases (s.notes.keys.find? fun key => Text.sameAscii key id).bind fun key => s.notes.get? key with
  | none => rfl
  | some n =>
    have back : s.readBack n = .ok n := by
      rw [readBack, h]
    cases account : n.isClass .account <;> simp [account, back, Option.filter, pure, Except.pure]

theorem accountById_ok (h : s.backing = .memory) {id : String} {n : Note}
    (hr : s.accountById id = .ok (some n)) :
    ∃ key, s.notes.get? key = some n ∧ Text.sameAscii key id = true ∧ n.isClass .account = true := by
  rw [accountById_eq h, Except.ok.injEq, Option.filter_eq_some_iff] at hr
  obtain ⟨stands, account⟩ := hr
  obtain ⟨key, found, stands⟩ := Option.bind_eq_some_iff.mp stands
  have same := List.find?_some found
  exact ⟨key, stands, same, account⟩

theorem stored_of_accountById {id : String} {n : Note} (h : s.Faithful)
    (hr : s.accountById id = .ok (some n)) :
    ∃ key, s.notes.get? key = some n ∧ n.isClass .account = true := by
  rw [accountById] at hr
  obtain ⟨_, -, hr⟩ := bind_eq_ok hr
  split at hr
  · cases hr
  · next m stands =>
    obtain ⟨key, -, stands⟩ := Option.bind_eq_some_iff.mp stands
    split at hr
    · next account =>
      rw [h _ (Keyed.mem_of_get? stands)] at hr
      cases hr
      exact ⟨key, stands, account⟩
    · cases hr

theorem accountById_of_get? (h : s.backing = .memory) {key id : String} {n : Note}
    (hn : s.notes.get? key = some n) (hk : n.isClass .account = true)
    (same : Text.sameAscii key id = true)
    (distinct : ∀ other ∈ s.notes.keys, Text.sameAscii other id = true → other = key) :
    s.accountById id = .ok (some n) := by
  have first : (s.notes.keys.find? fun other => Text.sameAscii other id) = some key := by
    cases found : s.notes.keys.find? fun other => Text.sameAscii other id with
    | none =>
      have held : key ∈ s.notes.keys := List.mem_map.mpr ⟨(key, n), Keyed.mem_of_get? hn, rfl⟩
      exact absurd same (List.find?_eq_none.mp found key held)
    | some other =>
      rw [distinct other (List.mem_of_find?_eq_some found) (by simpa using List.find?_some found)]
  rw [accountById_eq h, first, Option.bind_some, hn, Option.filter_some, if_pos hk]

@[simp]
theorem notes_spend (s : Store) : s.spend.notes = s.notes := by
  rw [spend]
  split <;> rfl

@[simp]
theorem backing_spend (s : Store) : s.spend.backing = s.backing := by
  rw [spend]
  split <;> rfl

@[simp]
theorem lasting_spend (s : Store) : s.spend.lasting = s.lasting := by
  rw [spend]
  split <;> rfl

@[simp]
theorem readOnly_spend (s : Store) : s.spend.readOnly = s.readOnly := by
  rw [spend]
  split <;> rfl

theorem Sound.put {id : String} {n : Note} (h : s.Sound) (hid : n.id = some id) :
    (s.put id n).Sound := by
  refine ⟨Keyed.sorted_put h.sorted id n, ?_⟩
  intro entry he
  rcases Keyed.mem_put he with rfl | he
  · exact hid
  · exact h.ids entry he

theorem Sound.erase (h : s.Sound) (id : String) : (s.erase id).Sound :=
  ⟨Keyed.sorted_erase h.sorted id, fun entry he => h.ids entry (Keyed.mem_of_mem_erase he)⟩

theorem Sound.spend (h : s.Sound) : s.spend.Sound := h.congr (notes_spend s)

end Store

end AddressBook

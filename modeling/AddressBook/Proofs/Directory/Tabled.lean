import AddressBook.Proofs.Directory.Triple
import AddressBook.Proofs.Text.Key

/-! A store in memory and the same notes on a table. As long as a table keeps what is saved, both are
read alike: forms are written as those of classes, items come back from their JSON text, and ids that
differ do so in more than case. -/

namespace AddressBook

open Text

def Note.Classed (n : Note) : Prop := ∃ kind : EntryClass, n.form? = some kind.form

theorem Note.Classed.congr {n m : Note} (h : n.Classed) (same : m.form? = n.form?) : m.Classed := by
  obtain ⟨kind, form⟩ := h
  exact ⟨kind, same.trans form⟩

theorem Note.Classed.isClass_iff {n : Note} (h : n.Classed) (kind : EntryClass) :
    n.isClass kind = true ↔ n.form? = some kind.form := by
  obtain ⟨other, form⟩ := h
  rw [isClass, form]
  cases kind <;> cases other <;> decide

/-- Items that a table can keep under the id, and gives back as they were. -/
structure Kept (K : String → Prop) (id : String) (items : Keyed (List Note.Value)) : Prop where
  known : K id
  classed : Note.Classed { items }
  back : Note.itemsThroughJson? items = some items

theorem find?_eq_filter_of_unique {α : Type} {p q r : α → Bool} {as bs : List α}
    (same : ∀ a, a ∈ bs ↔ a ∈ as) (both : ∀ a ∈ as, r a = (p a && q a))
    (only : ∀ a ∈ as, ∀ b ∈ as, p a = true → p b = true → a = b) :
    bs.find? r = (as.find? p).filter q := by
  have found : ∀ a, bs.find? r = some a → a ∈ as ∧ p a = true ∧ q a = true := by
    intro a search
    have ha := (same a).mp (List.mem_of_find?_eq_some search)
    have holds := List.find?_some search
    rw [both a ha, Bool.and_eq_true] at holds
    exact ⟨ha, holds⟩
  cases search : bs.find? r with
  | some a =>
    obtain ⟨ha, hp, hq⟩ := found a search
    cases first : as.find? p with
    | none => exact absurd hp (List.find?_eq_none.mp first a ha)
    | some b =>
      rw [only b (List.mem_of_find?_eq_some first) a ha (List.find?_some first) hp,
        Option.filter_some, if_pos hq]
  | none =>
    symm
    rw [Option.filter_eq_none_iff]
    intro a first
    have ha := List.mem_of_find?_eq_some first
    have skipped := List.find?_eq_none.mp search a ((same a).mpr ha)
    rwa [both a ha, List.find?_some first, Bool.true_and] at skipped

namespace Store

structure Agrees (s t : Store) : Prop where
  ofClass : ∀ kind, t.ofClass kind = s.ofClass kind
  accountById : ∀ id, t.accountById id = s.accountById id

def tabled (s : Store) (lasting : Bool) : Store := { s with backing := .sqlite, lasting }

/-- An open store in memory all of whose notes a table can keep. -/
structure Tabular (K : String → Prop) (s : Store) : Prop where
  memory : s.backing = .memory
  isOpen : s.isOpen = true
  unlimited : s.savesLeft = none
  writable : s.readOnly = false
  sorted : Keyed.Sorted s.notes
  arrivals : ∀ key, key ∈ s.arrivals ↔ (s.notes.get? key).isSome = true
  kept : ∀ entry ∈ s.notes, Kept K entry.1 entry.2.items

theorem spend_tabled (s : Store) (lasting : Bool) :
    (s.tabled lasting).spend = s.spend.tabled lasting := by
  obtain ⟨_, _, _, _, savesLeft, _, _⟩ := s
  match savesLeft with
  | none => rfl
  | some 0 => rfl
  | some 1 => rfl
  | some (_ + 2) => rfl

variable {K : String → Prop} {s : Store}

theorem accountById_of_key (readable : s.checkReadable = .ok ()) {id key : String} {n : Note}
    (found : s.accountKey? id = some key) (stands : s.notes.get? key = some n) :
    s.accountById id = if n.isClass .account then (s.readBack n).map some else .ok none := by
  have kept : ((s.accountKey? id).bind fun key => s.notes.get? key) = some n := by
    rw [found]
    exact stands
  rw [accountById, readable, kept]
  dsimp only
  cases s.readBack n <;> rfl

theorem tabular_empty : Tabular K {} where
  memory := rfl
  isOpen := rfl
  unlimited := rfl
  writable := rfl
  sorted := List.Pairwise.nil
  arrivals _ := ⟨fun h => absurd h List.not_mem_nil, fun h => by cases h⟩
  kept _ h := absurd h List.not_mem_nil

namespace Tabular

variable (h : s.Tabular K)

include h

theorem put {id : String} {n : Note} (hn : Kept K id n.items) : (s.put id n).Tabular K where
  memory := h.memory
  isOpen := h.isOpen
  unlimited := h.unlimited
  writable := h.writable
  sorted := Keyed.sorted_put h.sorted id n
  arrivals key := by
    change key ∈ (if id ∈ s.arrivals then s.arrivals else s.arrivals ++ [id]) ↔ _
    rw [Store.put, Keyed.get?_put]
    by_cases same : key = id
    · subst same
      by_cases held : key ∈ s.arrivals <;> simp [held]
    · rw [if_neg same, ← h.arrivals key]
      by_cases held : id ∈ s.arrivals <;> simp [held, same]
  kept entry he := by
    rcases Keyed.mem_put he with rfl | he
    · exact hn
    · exact h.kept entry he

theorem erase (id : String) : (s.erase id).Tabular K where
  memory := h.memory
  isOpen := h.isOpen
  unlimited := h.unlimited
  writable := h.writable
  sorted := Keyed.sorted_erase h.sorted id
  arrivals key := by
    change key ∈ s.arrivals.filter (· != id) ↔ _
    rw [Store.erase, Keyed.get?_erase h.sorted, List.mem_filter, h.arrivals key]
    by_cases same : key = id <;> simp [same]
  kept entry he := h.kept entry (Keyed.mem_of_mem_erase he)

theorem spend : s.spend = s := by
  rw [Store.spend, h.unlimited]

theorem checkReadable (lasting : Bool) : (s.tabled lasting).checkReadable = s.checkReadable := by
  rw [checkReadable_of_memory h.memory]
  simp [Store.checkReadable, tabled, h.isOpen]

theorem checkWritable (lasting : Bool) : (s.tabled lasting).checkWritable = s.checkWritable := by
  rw [Store.checkWritable, Store.checkWritable, h.checkReadable]
  rfl

theorem checkWritable_eq_ok : s.checkWritable = .ok () := by
  rw [Store.checkWritable, checkReadable_of_memory h.memory, h.writable]
  rfl

theorem refusal?_eq_none (n : Note) : s.refusal? n = none := by
  simp [refusal?, h.memory, h.isOpen, h.unlimited]

theorem refusal?_tabled {n : Note} (hn : n.Classed) (lasting : Bool) :
    (s.tabled lasting).refusal? n = none := by
  obtain ⟨kind, form⟩ := hn
  simp [refusal?, tabled, form, h.isOpen, h.writable]

theorem faithful (lasting : Bool) : (s.tabled lasting).Faithful := by
  intro entry he
  simp only [readBack, tabled, (h.kept entry he).back]

theorem accountKey? (apart : KeysApart K) (lasting : Bool) (id : String) :
    (s.tabled lasting).accountKey? id =
      (s.notes.keys.find? fun key => sameAscii key id).filter fun key =>
        (s.notes.get? key).bind Note.form? == some EntryClass.account.form := by
  have known : ∀ key ∈ s.notes.keys, K key := by
    intro key hk
    obtain ⟨entry, he, rfl⟩ := List.mem_map.mp hk
    exact (h.kept entry he).known
  have held : ∀ key, key ∈ s.arrivals ↔ key ∈ s.notes.keys := by
    intro key
    rw [h.arrivals, Option.isSome_iff_ne_none, Ne, Keyed.get?_eq_none_iff, Decidable.not_not]
  have only : ∀ a ∈ s.notes.keys, ∀ b ∈ s.notes.keys, sameAscii a id = true →
      sameAscii b id = true → a = b := by
    intro a ha b hb hai hbi
    rw [sameAscii_comm] at hbi
    exact apart.distinct a b (known a ha) (known b hb) (sameAscii_trans hai hbi)
  refine find?_eq_filter_of_unique held (fun key hk => ?_) only
  rw [← apart.compared key (known key hk)]
  rfl

/-- In memory an account is looked for among all ids, on a table among those of accounts. It is the
same one, since ids that are the same up to case are the same. -/
theorem accountById (apart : KeysApart K) (lasting : Bool) (id : String) :
    (s.tabled lasting).accountById id = s.accountById id := by
  have readable : (s.tabled lasting).checkReadable = .ok () := by
    rw [h.checkReadable, checkReadable_of_memory h.memory]
  have found := h.accountKey? apart lasting id
  rw [accountById_eq h.memory]
  cases first : s.notes.keys.find? fun key => sameAscii key id with
  | none =>
    rw [first] at found
    rw [Store.accountById, readable, found]
    rfl
  | some key =>
    obtain ⟨⟨other, n⟩, he, here⟩ := List.mem_map.mp (List.mem_of_find?_eq_some first)
    obtain rfl : other = key := here
    have stands := Keyed.get?_of_mem h.sorted he
    have classed : n.Classed := (h.kept _ he).classed
    rw [first, Option.filter_some, stands, Option.bind_some] at found
    rw [Option.bind_some, stands, Option.filter_some]
    by_cases form : n.form? = some EntryClass.account.form
    · rw [form, if_pos (by simp)] at found
      rw [accountById_of_key readable found stands, if_pos ((classed.isClass_iff .account).mpr form),
        if_pos ((classed.isClass_iff .account).mpr form), h.faithful lasting _ he]
      rfl
    · rw [if_neg (by simpa using form)] at found
      rw [if_neg (fun account => form ((classed.isClass_iff .account).mp account)),
        Store.accountById, readable, found]
      rfl

/-- A table that can keep all notes is read as they are in memory. -/
theorem agrees (apart : KeysApart K) (lasting : Bool) : s.Agrees (s.tabled lasting) where
  ofClass kind := by
    rw [ofClass_eq (h.faithful lasting), ofClass_eq (faithful_of_memory h.memory), h.checkReadable]
    rfl
  accountById := h.accountById apart lasting

end Tabular

namespace Agrees

variable {t : Store} (h : s.Agrees t)

include h

theorem accountByName (name : CanonicalName) : t.accountByName name = s.accountByName name := by
  rw [Store.accountByName, Store.accountByName, h.ofClass]

theorem groupByAlias (name : String) : t.groupByAlias name = s.groupByAlias name := by
  rw [Store.groupByAlias, Store.groupByAlias, h.ofClass]

theorem search (kind : EntryClass) (formula : Option String) :
    t.search kind formula = s.search kind formula := by
  simp only [Store.search, h.ofClass]

end Agrees

end Store

end AddressBook

import AddressBook.Keyed

/-! Values under sorted keys. Putting and erasing change what one key holds and nothing else, and
keep the keys sorted. -/

namespace AddressBook.Keyed

variable {α : Type}

def Sorted (entries : Keyed α) : Prop := entries.Pairwise fun a b => a.1 < b.1

instance (entries : Keyed α) : Decidable (Sorted entries) :=
  inferInstanceAs (Decidable (List.Pairwise _ entries))

theorem lt_of_not_lt {a b : String} (hne : b ≠ a) (h : ¬ a < b) : b < a := by
  rcases Std.lt_trichotomy a b with less | rfl | greater
  · exact absurd less h
  · exact absurd rfl hne
  · exact greater

section

variable (key k : String) (value v : α) (rest : Keyed α)

@[simp]
theorem get?_nil : get? key ([] : Keyed α) = none := rfl

theorem get?_cons :
    get? key ((k, v) :: rest) = if k = key then some v else get? key rest := rfl

@[simp]
theorem get?_cons_self : get? key ((key, v) :: rest) = some v := if_pos rfl

@[simp]
theorem put_nil : put key value ([] : Keyed α) = [(key, value)] := rfl

theorem put_cons :
    put key value ((k, v) :: rest) =
      if key < k then (key, value) :: (k, v) :: rest
      else if k = key then (key, value) :: rest
      else (k, v) :: put key value rest := rfl

@[simp]
theorem erase_nil : erase key ([] : Keyed α) = [] := rfl

theorem erase_cons :
    erase key ((k, v) :: rest) = if k = key then rest else (k, v) :: erase key rest := rfl

end

@[grind =]
theorem get?_put (key other : String) (value : α) (entries : Keyed α) :
    (entries.put key value).get? other = if other = key then some value else entries.get? other := by
  by_cases same : other = key
  · subst same
    rw [if_pos rfl]
    induction entries with
    | nil => simp
    | cons entry rest ih =>
      obtain ⟨k, v⟩ := entry
      rw [put_cons]
      split
      · simp
      · split
        · simp
        · next different => rw [get?_cons, if_neg different, ih]
  · rw [if_neg same]
    have reversed : ¬ key = other := fun h => same h.symm
    induction entries with
    | nil => simp [get?_cons, reversed]
    | cons entry rest ih =>
      obtain ⟨k, v⟩ := entry
      rw [put_cons]
      split
      · rw [get?_cons, if_neg reversed]
      · split
        · next equal =>
          subst equal
          rw [get?_cons, if_neg reversed, get?_cons, if_neg reversed]
        · rw [get?_cons, get?_cons, ih]

@[simp]
theorem get?_put_self (key : String) (value : α) (entries : Keyed α) :
    (entries.put key value).get? key = some value := by
  rw [get?_put, if_pos rfl]

@[simp]
theorem get?_put_of_ne {key other : String} (h : other ≠ key) (value : α) (entries : Keyed α) :
    (entries.put key value).get? other = entries.get? other := by
  rw [get?_put, if_neg h]

@[grind →]
theorem mem_of_get? {key : String} {value : α} {entries : Keyed α}
    (h : entries.get? key = some value) : (key, value) ∈ entries := by
  induction entries with
  | nil => cases h
  | cons entry rest ih =>
    obtain ⟨k, v⟩ := entry
    rw [get?_cons] at h
    split at h
    · next equal =>
      cases h
      exact List.mem_cons.mpr (Or.inl (by rw [equal]))
    · exact List.mem_cons_of_mem _ (ih h)

theorem get?_of_mem {key : String} {value : α} {entries : Keyed α} (hs : Sorted entries)
    (h : (key, value) ∈ entries) : entries.get? key = some value := by
  induction entries with
  | nil => cases h
  | cons entry rest ih =>
    obtain ⟨k, v⟩ := entry
    obtain ⟨first, others⟩ := List.pairwise_cons.mp hs
    rcases List.mem_cons.mp h with equal | h
    · cases equal
      rw [get?_cons, if_pos rfl]
    · have less := first _ h
      have different : k ≠ key := by
        rintro rfl
        exact String.lt_irrefl _ less
      rw [get?_cons, if_neg different, ih others h]

theorem get?_eq_some_iff {key : String} {value : α} {entries : Keyed α} (hs : Sorted entries) :
    entries.get? key = some value ↔ (key, value) ∈ entries :=
  ⟨mem_of_get?, get?_of_mem hs⟩

theorem get?_eq_none_iff {key : String} {entries : Keyed α} :
    entries.get? key = none ↔ key ∉ entries.keys := by
  induction entries with
  | nil => simp [keys]
  | cons entry rest ih =>
    obtain ⟨k, v⟩ := entry
    rw [get?_cons]
    split
    · next equal => simp [keys, equal]
    · next different =>
      have reversed : ¬ key = k := fun h => different h.symm
      rw [ih]
      simp [keys, reversed]

theorem get?_eq_none_congr {entries others : Keyed α} (h : entries.keys = others.keys)
    (key : String) : entries.get? key = none ↔ others.get? key = none := by
  rw [get?_eq_none_iff, get?_eq_none_iff, h]

theorem exists_get?_congr {entries others : Keyed α} (h : entries.keys = others.keys)
    {key : String} {value : α} (stands : entries.get? key = some value) :
    ∃ other, others.get? key = some other := by
  rw [← Option.ne_none_iff_exists', Ne, ← get?_eq_none_congr h, stands]
  exact nofun

theorem mem_put {key : String} {value : α} {entries : Keyed α} {entry : String × α}
    (h : entry ∈ entries.put key value) : entry = (key, value) ∨ entry ∈ entries := by
  induction entries with
  | nil => exact Or.inl (List.mem_singleton.mp h)
  | cons first rest ih =>
    obtain ⟨k, v⟩ := first
    rw [put_cons] at h
    split at h
    · exact List.mem_cons.mp h
    · split at h
      · rcases List.mem_cons.mp h with h | h
        · exact Or.inl h
        · exact Or.inr (List.mem_cons_of_mem _ h)
      · rcases List.mem_cons.mp h with h | h
        · exact Or.inr (List.mem_cons.mpr (Or.inl h))
        · rcases ih h with h | h
          · exact Or.inl h
          · exact Or.inr (List.mem_cons_of_mem _ h)

theorem sorted_put {entries : Keyed α} (hs : Sorted entries) (key : String) (value : α) :
    Sorted (entries.put key value) := by
  induction entries with
  | nil => exact List.pairwise_singleton _ _
  | cons first rest ih =>
    obtain ⟨k, v⟩ := first
    obtain ⟨before, others⟩ := List.pairwise_cons.mp hs
    rw [put_cons]
    split
    · next less =>
      refine List.pairwise_cons.mpr ⟨?_, hs⟩
      intro entry h
      rcases List.mem_cons.mp h with rfl | h
      · exact less
      · exact String.lt_trans less (before entry h)
    · next notLess =>
      split
      · next equal =>
        subst equal
        exact List.pairwise_cons.mpr ⟨before, others⟩
      · next different =>
        refine List.pairwise_cons.mpr ⟨?_, ih others⟩
        intro entry h
        rcases mem_put h with rfl | h
        · exact lt_of_not_lt different notLess
        · exact before entry h

theorem keys_put {key : String} {entries : Keyed α} (hs : Sorted entries) (h : key ∈ entries.keys)
    (value : α) : (entries.put key value).keys = entries.keys := by
  induction entries with
  | nil => cases h
  | cons first rest ih =>
    obtain ⟨k, v⟩ := first
    obtain ⟨before, others⟩ := List.pairwise_cons.mp hs
    have cases : key = k ∨ key ∈ keys rest := List.mem_cons.mp h
    have notLess : ¬ key < k := by
      intro less
      rcases cases with rfl | later
      · exact String.lt_irrefl _ less
      · obtain ⟨entry, he, rfl⟩ := List.mem_map.mp later
        exact String.lt_irrefl _ (String.lt_trans less (before entry he))
    rw [put_cons, if_neg notLess]
    split
    · next equal =>
      subst equal
      rfl
    · next different =>
      have later := cases.resolve_left fun h => different h.symm
      change k :: keys (put key value rest) = k :: keys rest
      rw [ih others later]

theorem mem_of_mem_erase {key : String} {entries : Keyed α} {entry : String × α}
    (h : entry ∈ entries.erase key) : entry ∈ entries := by
  induction entries with
  | nil => cases h
  | cons first rest ih =>
    obtain ⟨k, v⟩ := first
    rw [erase_cons] at h
    split at h
    · exact List.mem_cons_of_mem _ h
    · rcases List.mem_cons.mp h with h | h
      · exact List.mem_cons.mpr (Or.inl h)
      · exact List.mem_cons_of_mem _ (ih h)

theorem sorted_erase {entries : Keyed α} (hs : Sorted entries) (key : String) :
    Sorted (entries.erase key) := by
  induction entries with
  | nil => exact hs
  | cons first rest ih =>
    obtain ⟨k, v⟩ := first
    obtain ⟨before, others⟩ := List.pairwise_cons.mp hs
    rw [erase_cons]
    split
    · exact others
    · exact List.pairwise_cons.mpr ⟨fun entry h => before entry (mem_of_mem_erase h), ih others⟩

@[grind =]
theorem get?_erase {entries : Keyed α} (hs : Sorted entries) (key other : String) :
    (entries.erase key).get? other = if other = key then none else entries.get? other := by
  induction entries with
  | nil => simp
  | cons first rest ih =>
    obtain ⟨k, v⟩ := first
    obtain ⟨before, others⟩ := List.pairwise_cons.mp hs
    rw [erase_cons]
    split
    · next equal =>
      subst equal
      split
      · next same =>
        subst same
        rw [get?_eq_none_iff]
        intro h
        obtain ⟨entry, he, same⟩ := List.mem_map.mp h
        have less := before entry he
        rw [same] at less
        exact String.lt_irrefl _ less
      · next different => rw [get?_cons, if_neg fun h => different h.symm]
    · next different =>
      rw [get?_cons, ih others, get?_cons]
      split
      · next same =>
        subst same
        rw [if_neg different]
      · rfl

@[grind →]
theorem mem_keys_of_get? {key : String} {value : α} {entries : Keyed α}
    (h : entries.get? key = some value) : key ∈ entries.keys :=
  List.mem_map.mpr ⟨(key, value), mem_of_get? h, rfl⟩

theorem exists_get?_of_mem_keys {key : String} {entries : Keyed α}
    (h : key ∈ entries.keys) : ∃ value, entries.get? key = some value := by
  rw [← Option.ne_none_iff_exists', Ne, get?_eq_none_iff, Decidable.not_not]
  exact h

theorem mem_keys_erase {entries : Keyed α} (hs : Sorted entries) {key other : String} :
    other ∈ (entries.erase key).keys ↔ other ≠ key ∧ other ∈ entries.keys := by
  rw [← Decidable.not_iff_not, Decidable.not_and_iff_not_or_not, ← get?_eq_none_iff,
    ← get?_eq_none_iff, get?_erase hs]
  by_cases same : other = key <;> simp [same]

theorem find?_eq_some_iff {p : String × α → Bool} {entries : Keyed α} (hs : Sorted entries)
    {key : String} {value : α} :
    entries.find? p = some (key, value) ↔ entries.get? key = some value ∧ p (key, value) = true ∧
      ∀ other v, entries.get? other = some v → other < key → p (other, v) = false := by
  rw [List.find?_eq_some_iff_append, get?_eq_some_iff hs]
  constructor
  · rintro ⟨hp, before, behind, rfl, none⟩
    refine ⟨by simp, hp, fun other v hv less => ?_⟩
    rcases List.mem_append.mp (mem_of_get? hv) with hv | hv
    · simpa using none _ hv
    · have ordered := (List.pairwise_append.mp hs).2.1
      rcases List.mem_cons.mp hv with equal | hv
      · cases equal
        exact absurd less (String.lt_irrefl _)
      · have greater := (List.pairwise_cons.mp ordered).1 _ hv
        exact absurd (String.lt_trans less greater) (String.lt_irrefl _)
  · rintro ⟨hm, hp, none⟩
    obtain ⟨before, behind, rfl⟩ := List.append_of_mem hm
    refine ⟨hp, before, behind, rfl, fun entry he => ?_⟩
    have less := (List.pairwise_append.mp hs).2.2 entry he (key, value) List.mem_cons_self
    have stands := get?_of_mem hs (List.mem_append_left _ he)
    simpa using none entry.1 entry.2 stands less

end AddressBook.Keyed

import AddressBook.Proofs.Keyed
import AddressBook.Proofs.Note.Items

/-! Notes whose items have one spelling each. No two names of items are the same up to case, whatever
is set or removed under whatever spelling, so there is one item to a name. -/

namespace AddressBook.Note

open Text

variable {n : Note} {name : String}

/-- The items stand in order, and no two of their names are the same up to case. -/
structure SpelledOnce (n : Note) : Prop where
  sorted : n.items.Sorted
  single : ∀ key ∈ n.items.keys, ∀ other ∈ n.items.keys, sameAscii key other = true → key = other

instance (n : Note) : Decidable n.SpelledOnce :=
  decidable_of_iff (n.items.Sorted ∧
      ∀ key ∈ n.items.keys, ∀ other ∈ n.items.keys, sameAscii key other = true → key = other)
    ⟨fun h => ⟨h.1, h.2⟩, fun h => ⟨h.sorted, h.single⟩⟩

theorem SpelledOnce.keyOf?_eq (h : n.SpelledOnce) {key : String} (hk : key ∈ n.items.keys)
    (same : sameAscii key name = true) : n.keyOf? name = some key := by
  cases found : n.keyOf? name with
  | none => exact absurd same (List.find?_eq_none.mp found key hk)
  | some first =>
    have listed : first ∈ n.items.keys := List.mem_of_find?_eq_some found
    rw [h.single first listed key hk]
    rw [sameAscii_congr (sameAscii_keyOf? found), sameAscii_comm, same]

theorem SpelledOnce.apart (h : n.SpelledOnce) :
    n.items.keys.Pairwise fun a b => sameAscii a b = false := by
  have ordered : n.items.keys.Pairwise (· < ·) := List.pairwise_map.mpr h.sorted
  refine ordered.imp_of_mem ?_
  intro a b ha hb less
  rw [Bool.eq_false_iff]
  intro same
  rw [h.single a ha b hb same] at less
  exact String.lt_irrefl b less

theorem SpelledOnce.setItem (h : n.SpelledOnce) (name : String) (values : List Value) :
    (n.setItem name values).SpelledOnce := by
  refine ⟨Keyed.sorted_put h.sorted _ _, ?_⟩
  have kept : ∀ key ∈ n.items.keys, sameAscii ((n.keyOf? name).getD name) key = true →
      (n.keyOf? name).getD name = key := by
    intro key hk same
    have named : sameAscii key name = true := by
      rw [← sameAscii_congr same, sameAscii_getD_keyOf?]
    rw [h.keyOf?_eq hk named, Option.getD_some]
  have cases : ∀ key ∈ (n.setItem name values).items.keys,
      key = (n.keyOf? name).getD name ∨ key ∈ n.items.keys := by
    intro key hk
    obtain ⟨entry, he, rfl⟩ := List.mem_map.mp hk
    rcases Keyed.mem_put he with rfl | there
    · exact Or.inl rfl
    · exact Or.inr (List.mem_map_of_mem there)
  intro key hk other ho same
  rcases cases key hk with rfl | hk <;> rcases cases other ho with rfl | ho
  · rfl
  · exact kept other ho same
  · exact (kept key hk (by rwa [sameAscii_comm])).symm
  · exact h.single key hk other ho same

theorem mem_keys_removeItem {key : String} (h : key ∈ (n.removeItem name).items.keys) :
    key ∈ n.items.keys := by
  rw [removeItem] at h
  split at h
  · obtain ⟨entry, he, rfl⟩ := List.mem_map.mp h
    exact List.mem_map_of_mem (Keyed.mem_of_mem_erase he)
  · exact h

theorem SpelledOnce.removeItem (h : n.SpelledOnce) (name : String) :
    (n.removeItem name).SpelledOnce := by
  refine ⟨?_, fun key hk other ho =>
    h.single key (mem_keys_removeItem hk) other (mem_keys_removeItem ho)⟩
  rw [Note.removeItem]
  split
  · exact Keyed.sorted_erase h.sorted _
  · exact h.sorted

theorem SpelledOnce.item?_removeItem (h : n.SpelledOnce) (name : String) :
    (n.removeItem name).item? name = none := by
  rw [item?, Option.map_eq_none_iff, List.find?_eq_none]
  rintro ⟨key, values⟩ he same
  have listed : key ∈ (n.removeItem name).items.keys := List.mem_map_of_mem he
  rw [Note.removeItem, h.keyOf?_eq (mem_keys_removeItem listed) same] at listed
  exact ((Keyed.mem_keys_erase h.sorted).mp listed).1 rfl

theorem SpelledOnce.get?_removeItem_of_ne (h : n.SpelledOnce) {key : String}
    (other : sameAscii key name = false) :
    (n.removeItem name).items.get? key = n.items.get? key := by
  rw [Note.removeItem]
  split
  · next found =>
    rw [Keyed.get?_erase h.sorted, if_neg]
    rintro rfl
    rw [sameAscii_keyOf? found] at other
    cases other
  · rfl

theorem get?_setItem_of_ne {key : String} (other : sameAscii key name = false)
    (values : List Value) : (n.setItem name values).items.get? key = n.items.get? key := by
  refine Keyed.get?_put_of_ne ?_ values n.items
  rintro rfl
  rw [sameAscii_getD_keyOf?] at other
  cases other

end AddressBook.Note

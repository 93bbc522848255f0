import AddressBook.Attribute.Basic
import AddressBook.Proofs.Note.Items

/-! Attributes after some were taken. When no two keys are the same up to case, what was taken is
gone, and everything else is found as before. -/

namespace AddressBook.Attributes

open Text

variable {attributes : Attributes} {name other : String}

/-- No two keys are the same up to case. -/
def Distinct (attributes : Attributes) : Prop :=
  attributes.Pairwise fun a b => sameAscii a.1 b.1 = false

instance (attributes : Attributes) : Decidable attributes.Distinct :=
  inferInstanceAs (Decidable (List.Pairwise _ attributes))

/-- No key is the name up to case. -/
def Lacks (attributes : Attributes) (name : String) : Prop :=
  ∀ a ∈ attributes, sameAscii a.1 name = false

instance (attributes : Attributes) (name : String) : Decidable (attributes.Lacks name) :=
  inferInstanceAs (Decidable (∀ a ∈ attributes, _))

theorem erase_sublist {α : Type} (key : String) (entries : Keyed α) :
    (entries.erase key).Sublist entries := by
  induction entries with
  | nil => exact List.Sublist.refl _
  | cons entry rest ih =>
    obtain ⟨k, v⟩ := entry
    rw [Keyed.erase]
    split
    · exact List.sublist_cons_self _ _
    · exact ih.cons_cons _

theorem take_sublist (attributes : Attributes) (name : String) :
    (attributes.take name).2.Sublist attributes := by
  rw [take]
  split
  · exact erase_sublist _ attributes
  · exact List.Sublist.refl _

theorem Lacks.sublist {rest : Attributes} (h : attributes.Lacks name)
    (hr : rest.Sublist attributes) : rest.Lacks name := fun a ha => h a (hr.subset ha)

theorem Distinct.sublist {rest : Attributes} (h : attributes.Distinct)
    (hr : rest.Sublist attributes) : rest.Distinct := List.Pairwise.sublist hr h

theorem lacks_of_find?_eq_none
    (h : List.find? (fun (key, _) => sameAscii key name) attributes = none) :
    attributes.Lacks name := by
  intro a ha
  simpa using List.find?_eq_none.mp h a ha

theorem lacks_take (h : attributes.Distinct) (name : String) :
    (attributes.take name).2.Lacks name := by
  rw [take]
  split
  · next key values found =>
    induction attributes with
    | nil => cases found
    | cons entry rest ih =>
      obtain ⟨k, v⟩ := entry
      obtain ⟨first, others⟩ := List.pairwise_cons.mp h
      cases matched : sameAscii k name with
      | true =>
        rw [List.find?_cons_of_pos (by simpa using matched)] at found
        cases found
        rw [Keyed.erase, if_pos rfl]
        intro a ha
        rw [sameAscii_comm, ← sameAscii_congr matched]
        exact first a ha
      | false =>
        rw [List.find?_cons_of_neg (by simpa using matched)] at found
        have same : sameAscii key name = true := by
          simpa using List.find?_some found
        have different : k ≠ key := by
          rintro rfl
          rw [same] at matched
          cases matched
        rw [Keyed.erase, if_neg different]
        intro a ha
        rcases List.mem_cons.mp ha with rfl | ha
        · exact matched
        · exact ih others found a ha
  · next found => exact lacks_of_find?_eq_none found

theorem take_of_lacks (h : attributes.Lacks name) : attributes.take name = (none, attributes) := by
  have found : List.find? (fun (key, _) => sameAscii key name) attributes = none := by
    refine List.find?_eq_none.mpr fun a ha => ?_
    simpa using h a ha
  rw [take, found]

theorem takeText_of_lacks (h : attributes.Lacks name) :
    attributes.takeText name = (none, attributes) := by
  rw [takeText, takeTexts, take_of_lacks h]
  rfl

theorem take_eq (attributes : Attributes) (name : String) :
    attributes.take name =
      ((List.find? (fun a => sameAscii a.1 name) attributes).map Prod.snd,
        attributes.eraseP fun a => sameAscii a.1 name) := by
  have erased : ∀ entries : Attributes, ∀ a, List.find? (fun a => sameAscii a.1 name) entries = some a →
      Keyed.erase a.1 entries = entries.eraseP fun a => sameAscii a.1 name := by
    intro entries a found
    induction entries with
    | nil => cases found
    | cons entry rest ih =>
      cases matched : sameAscii entry.1 name with
      | true =>
        rw [List.find?_cons_of_pos (by simpa using matched)] at found
        cases found
        rw [List.eraseP_cons_of_pos (by simpa using matched), Keyed.erase, if_pos rfl]
      | false =>
        rw [List.find?_cons_of_neg (by simpa using matched)] at found
        have different : entry.1 ≠ a.1 := by
          intro same
          have hit := List.find?_some found
          rw [← same, matched] at hit
          cases hit
        rw [List.eraseP_cons_of_neg (by simpa using matched), Keyed.erase, if_neg different, ih found]
  rw [take]
  split
  · next key values found => rw [found, ← erased attributes _ found]; rfl
  · next none => rw [none, List.eraseP_of_forall_not (by simpa using none)]; rfl

theorem take_take_of_ne (h : sameAscii name other = false) :
    (attributes.take name).2.take other =
      ((attributes.take other).1, ((attributes.take other).2.take name).2) := by
  have apart : ∀ a : String × List AttributeValue, sameAscii a.1 name = true →
      sameAscii a.1 other = false := by
    intro a same
    rw [sameAscii_congr same, h]
  simp only [take_eq]
  congr 1
  · congr 1
    induction attributes with
    | nil => rfl
    | cons entry rest ih =>
      cases matched : sameAscii entry.1 name with
      | true =>
        rw [List.eraseP_cons_of_pos (by simpa using matched),
          List.find?_cons_of_neg (by simpa using apart entry matched)]
      | false =>
        rw [List.eraseP_cons_of_neg (by simpa using matched), List.find?_cons, List.find?_cons, ih]
  · refine List.eraseP_comm fun a _ => ?_
    by_cases same : sameAscii a.1 name = true
    · exact Or.inr (by simp [apart a same])
    · exact Or.inl same

theorem lacks_of_take (h : sameAscii name other = false) (lacks : (attributes.take name).2.Lacks other) :
    attributes.Lacks other := by
  intro a ha
  by_cases same : sameAscii a.1 name = true
  · rw [sameAscii_congr same, h]
  · refine lacks a ?_
    rw [take_eq]
    exact (List.mem_eraseP_of_neg (by simpa using same)).mpr ha

def given (attributes : Attributes) (name : String) : List String :=
  (attributes.filter fun a => sameAscii a.1 name).flatMap fun a =>
    a.2.filterMap AttributeValue.storedText?

theorem given_subset {rest : Attributes} (h : rest.Sublist attributes) (name : String) :
    rest.given name ⊆ attributes.given name := by
  intro text ht
  rw [given, List.mem_flatMap] at ht ⊢
  obtain ⟨a, ha, hv⟩ := ht
  exact ⟨a, (h.filter _).subset ha, hv⟩

theorem mem_given_of_takeTexts {texts : List String}
    (h : (attributes.takeTexts name).1 = some texts) : ∀ t ∈ texts, t ∈ attributes.given name := by
  have taken : (attributes.take name).1.map (·.filterMap AttributeValue.storedText?) = some texts :=
    h
  rw [take] at taken
  intro text ht
  split at taken
  · next key values found =>
    cases taken
    have matched : sameAscii key name = true := by simpa using List.find?_some found
    rw [given, List.mem_flatMap]
    refine ⟨(key, values), List.mem_filter.mpr ⟨List.mem_of_find?_eq_some found, matched⟩, ht⟩
  · cases taken

theorem mem_given_of_takeText {text : String} (h : (attributes.takeText name).1 = some text) :
    text ∈ attributes.given name := by
  have taken : (attributes.takeTexts name).1.bind List.head? = some text := h
  obtain ⟨texts, found, first⟩ := Option.bind_eq_some_iff.mp taken
  exact mem_given_of_takeTexts found text (List.mem_of_head? first)

end AddressBook.Attributes

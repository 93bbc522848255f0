import AddressBook.Proofs.Filter.Query
import AddressBook.Proofs.Schema.Lookup
import AddressBook.Proofs.Text.Recased

/-! The spellings of a name in a filter. An attribute of the registry is found in any case, but the
general names of an entry and of its id are known in capitals only; so two spellings have the same field
exactly where these two stand in capitals in both or in neither. -/

namespace AddressBook

open Text

namespace Schema

variable {kind : EntryClass} {a b : String}

/-- An attribute of the registry, or one of the general names, in any case. -/
def Named (kind : EntryClass) (name : String) : Prop :=
  (find? kind name).isSome = true ∨ sameAscii name nameAttribute = true ∨
    sameAscii name uidAttribute = true

def Respelled (kind : EntryClass) (a b : String) : Prop := sameAscii a b = true ∧ Named kind a

/-- Spellings by which the same is meant: the general name is in capitals in both or in neither, and
that of the id is spelled in the same way. -/
def Interchangeable (a b : String) : Prop :=
  (a = nameAttribute ↔ b = nameAttribute) ∧ (sameAscii a uidAttribute = true → a = b)

theorem Respelled.symm (h : Respelled kind a b) : Respelled kind b a := by
  obtain ⟨same, named⟩ := h
  refine ⟨by rwa [sameAscii_comm], ?_⟩
  rwa [Named, ← find?_congr same, ← sameAscii_congr same, ← sameAscii_congr same]

instance (a b : String) : Decidable (Interchangeable a b) :=
  inferInstanceAs (Decidable ((_ ↔ _) ∧ (_ → _)))

end Schema

namespace Query

open Schema

variable {kind : EntryClass} {a b : String}

theorem isIdentifier_of_named (h : Named kind a) : isIdentifier (fieldName kind a) = true := by
  refine isIdentifier_fieldName ?_
  rcases h with known | general | general
  · exact Or.inr known
  · exact Or.inl ((isIdentifier_congr general).trans (by decide))
  · exact Or.inl ((isIdentifier_congr general).trans (by decide))

theorem fieldName_of_uid (h : sameAscii a uidAttribute = true) :
    fieldName kind a = if a = uidAttribute then kind.uidItem else a := by
  have other : a ≠ nameAttribute := by
    rintro rfl
    exact absurd h (by decide)
  have unknown : find? kind a = none := by
    rw [find?_congr h]
    cases kind <;> decide
  rw [fieldName, if_neg other, unknown]
  rfl

theorem fieldName_of_known (known : Named kind a) (other : sameAscii a uidAttribute = false) :
    ∃ found, find? kind a = some found ∧
      fieldName kind a = if a = nameAttribute then kind.nameItem else found.name := by
  have apart : a ≠ uidAttribute := by
    rintro rfl
    rw [sameAscii_refl] at other
    cases other
  have listed : (find? kind a).isSome = true := by
    rcases known with known | general | general
    · exact known
    · rw [find?_congr general]
      cases kind <;> decide
    · rw [general] at other
      cases other
  obtain ⟨found, hf⟩ := Option.isSome_iff_exists.mp listed
  refine ⟨found, hf, ?_⟩
  rw [fieldName, if_neg apart, hf]
  rfl

theorem ite_eq_ite_iff {α : Type} {p q : Prop} [Decidable p] [Decidable q] {x y : α}
    (apart : p ∨ q → x ≠ y) : (if p then x else y) = (if q then x else y) ↔ (p ↔ q) := by
  by_cases hp : p
  · by_cases hq : q
    · rw [if_pos hp, if_pos hq]
      exact iff_of_true rfl (iff_of_true hp hq)
    · rw [if_pos hp, if_neg hq]
      exact iff_of_false (apart (Or.inl hp)) fun h => hq (h.mp hp)
  · by_cases hq : q
    · rw [if_neg hp, if_pos hq]
      exact iff_of_false (apart (Or.inr hq)).symm fun h => hp (h.mpr hq)
    · rw [if_neg hp, if_neg hq]
      exact iff_of_true rfl (iff_of_false hp hq)

theorem fieldName_eq_iff (h : Respelled kind a b) :
    fieldName kind a = fieldName kind b ↔ Interchangeable a b := by
  have same := h.1
  have again : sameAscii b uidAttribute = sameAscii a uidAttribute := (sameAscii_congr same _).symm
  -- The uid is spelled exactly, and all else is looked up with case left out.
  cases general : sameAscii a uidAttribute with
  | true =>
    rw [general] at again
    have apart : ∀ c, sameAscii c uidAttribute = true → c ≠ kind.uidItem := by
      rintro c hc rfl
      revert hc
      cases kind <;> decide
    have means : Interchangeable a b ↔ a = b :=
      ⟨fun h => h.2 general, fun h => h ▸ ⟨Iff.rfl, fun _ => rfl⟩⟩
    rw [fieldName_of_uid general, fieldName_of_uid again, means]
    refine ⟨fun fields => ?_, fun same => by rw [same]⟩
    split at fields
    · next ha =>
      split at fields
      · next hb => rw [ha, hb]
      · exact absurd fields.symm (apart b again)
    · split at fields
      · exact absurd fields (apart a general)
      · exact fields
  | false =>
    rw [general] at again
    have means : Interchangeable a b ↔ (a = nameAttribute ↔ b = nameAttribute) := by
      refine and_iff_left fun id => ?_
      rw [general] at id
      cases id
    obtain ⟨found, hf, field⟩ := fieldName_of_known h.2 general
    obtain ⟨found', hf', field'⟩ := fieldName_of_known h.symm.2 again
    obtain rfl : found = found' := Option.some.inj (by rw [← hf, ← hf', find?_congr same])
    have apart : ∀ c, c = nameAttribute → find? kind c = some found → kind.nameItem ≠ found.name := by
      rintro c rfl known item
      have named := sameAscii_of_find? known
      rw [← item] at named
      revert named
      cases kind <;> decide
    rw [field, field', means]
    exact ite_eq_ite_iff fun either => either.elim (apart a · hf) (apart b · hf')

theorem storedForm_congr (same : sameAscii a b = true) (h : Interchangeable a b) (s : String) :
    storedForm kind a s = storedForm kind b s := by
  have uid : a = uidAttribute ↔ b = uidAttribute := by
    constructor
    · intro ha
      rw [← h.2 (by rw [ha, sameAscii_refl]), ha]
    · intro hb
      rw [h.2 (by rw [sameAscii_congr same, hb, sameAscii_refl]), hb]
  cases kind <;> rw [storedForm, storedForm] <;> simp only [h.1, uid, sameAscii_congr same]

end Query

end AddressBook

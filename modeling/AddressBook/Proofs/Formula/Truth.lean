import AddressBook.Formula.Meaning
import AddressBook.Proofs.Number.Ordering

/-! When a note satisfies a formula, connective by connective, and what a comparison with a text
means. A number is never shown as a word that holds other letters than the ones of its own names. -/

namespace AddressBook

def Number.nameLetters : List Char := ['N', 'a', 'i', 'n', 'f']

def Number.isWritten (c : Char) : Bool :=
  c.isDigit || c == '-' || c == '.' || nameLetters.contains c

namespace Number

theorem isWritten_of_isDigit {c : Char} (h : c.isDigit = true) : isWritten c = true := by
  simp [isWritten, h]

theorem isWritten_of_mem_zeros {n : Nat} {c : Char} (h : c ∈ zeros n) : isWritten c = true := by
  obtain ⟨_, rfl⟩ := List.mem_replicate.mp h
  decide

theorem isWritten_of_mem_withPoint {digits : List Char} {before : Int} {c : Char}
    (hd : ∀ d ∈ digits, d.isDigit = true) (h : c ∈ withPoint false digits before) :
    isWritten c = true := by
  have digit : c ∈ digits → isWritten c = true := fun hc => isWritten_of_isDigit (hd c hc)
  rw [withPoint] at h
  split at h
  · simp only [List.mem_cons, List.mem_append] at h
    rcases h with rfl | rfl | h | h
    · decide
    · decide
    · exact isWritten_of_mem_zeros h
    · exact digit h
  · split at h
    · simp only [List.mem_append, List.mem_cons] at h
      rcases h with h | rfl | h
      · exact digit (List.mem_of_mem_take h)
      · decide
      · exact digit (List.mem_of_mem_drop h)
    · simp only [Bool.false_eq_true, if_false, List.append_nil, List.mem_append] at h
      rcases h with h | h
      · exact digit h
      · exact isWritten_of_mem_zeros h

theorem isWritten_of_mem_writeMagnitude {steps : Nat} {c : Char}
    (h : c ∈ writeMagnitude plain steps) : isWritten c = true := by
  rw [writeMagnitude] at h
  split at h
  · have zero : c = '0' := by simpa [plain] using h
    subst zero
    decide
  · exact isWritten_of_mem_withPoint (fun d hd => isDigit_of_mem_toDigits hd) h

theorem isWritten_of_mem_write {n : Number} {c : Char} (h : c ∈ (n.write plain).toList) :
    isWritten c = true := by
  cases n with
  | nan =>
    have all : "NaN".toList.all isWritten = true := by decide
    exact List.all_eq_true.mp all c h
  | infinite negative =>
    have all : ∀ negative : Bool,
        (if negative then "-inf" else "inf").toList.all isWritten = true := by decide
    exact List.all_eq_true.mp (all negative) c h
  | finite negative steps =>
    rw [write, String.toList_ofList, List.mem_append] at h
    rcases h with h | h
    · have minus : c = '-' := by
        cases negative <;> simp_all
      subst minus
      decide
    · exact isWritten_of_mem_writeMagnitude h

end Number

namespace Scalar

theorem isTrue_ofBool (b : Bool) : (ofBool b).isTrue = b := by
  rw [ofBool, isTrue, Number.isZero_ofInt (by cases b <;> decide)]
  cases b <;> rfl

theorem isWritten_of_mem_shown {n : Number} {c : Char} (h : c ∈ (Scalar.number n).shown.toList) :
    Number.isWritten c = true := by
  rw [shown] at h
  split at h
  · obtain ⟨d, ds, hd, digits, first⟩ := toList_toString_cons (n.truncate Int.least64 Int.most64)
    rw [hd, List.mem_cons] at h
    rcases h with rfl | h
    · rcases first with digit | ⟨rfl, _⟩
      · exact Number.isWritten_of_isDigit digit
      · decide
    · exact Number.isWritten_of_isDigit (digits c h)
  · exact Number.isWritten_of_mem_write h

theorem order_text (a b : String) : (Scalar.text a).order (.text b) = .eq ↔ a = b := by
  rw [order]
  · exact Std.LawfulEqOrd.compare_eq_iff_eq
  · rintro _ _ ⟨⟩

theorem order_number_text_ne {n : Number} {s : String} {c : Char} (hc : c ∈ s.toList)
    (hw : Number.isWritten c = false) : (Scalar.number n).order (.text s) ≠ .eq := by
  rw [order]
  · intro equal
    have shown : (Scalar.number n).shown = s := Std.LawfulEqOrd.compare_eq_iff_eq.mp equal
    rw [← shown] at hc
    rw [isWritten_of_mem_shown hc] at hw
    cases hw
  · rintro _ _ _ ⟨⟩

end Scalar

namespace Formula

theorem isTrue_ofBool (b : Bool) : isTrue [.ofBool b] = b := by
  rw [isTrue, List.any_cons, List.any_nil, Bool.or_false, Scalar.isTrue_ofBool]

theorem holds_compare (c : Comparison) (f g : Formula) (n : Note) :
    (Formula.compare c f g).holds n = c.holds (f.values n) (g.values n) :=
  isTrue_ofBool _

theorem holds_matching (place : Place) (f g : Formula) (n : Note) :
    (Formula.matching place f g).holds n = (f.values n).any fun t =>
      (g.values n).any fun p => place.holds t.shown.toList p.shown.toList :=
  isTrue_ofBool _

theorem holds_both (f g : Formula) (n : Note) :
    (Formula.both f g).holds n = (f.holds n && g.holds n) :=
  isTrue_ofBool _

theorem holds_either (f g : Formula) (n : Note) :
    (Formula.either f g).holds n = (f.holds n || g.holds n) :=
  isTrue_ofBool _

theorem holds_negation (f : Formula) (n : Note) :
    (Formula.negation f).holds n = !f.holds n :=
  isTrue_ofBool _

end Formula

namespace Note

theorem any_fieldValues_eq {n : Note} {name s : String} {c : Char}
    (hname : Text.sameAscii name "NoteID" = false) (hc : c ∈ s.toList)
    (hw : Number.isWritten c = false) :
    ((n.fieldValues name).any fun v => v.order (.text s) == .eq) = true ↔
      Value.text s ∈ (n.item? name).getD [] := by
  have nonempty : ("" : String) ≠ s := by
    rintro rfl
    cases hc
  rw [fieldValues, hname, if_neg Bool.false_ne_true]
  split
  · next none =>
    rw [none]
    simpa [Scalar.order_text] using nonempty
  · simp only [List.any_map, List.any_eq_true, Function.comp_apply, beq_iff_eq]
    constructor
    · rintro ⟨v, hv, equal⟩
      cases v with
      | text t =>
        rw [Scalar.ofValue, Scalar.order_text] at equal
        rwa [← equal]
      | number x => exact absurd equal (Scalar.order_number_text_ne hc hw)
      | moment m => exact absurd equal (Scalar.order_number_text_ne hc hw)
    · intro hs
      exact ⟨.text s, hs, (Scalar.order_text s s).mpr rfl⟩

end Note

end AddressBook

import AddressBook.Formula.Token
import AddressBook.Proofs.Text.Same

/-! ASCII identifiers: a letter or a low line, followed by letters, digits and low lines. -/

namespace AddressBook.Text

def isIdentifierStart (c : Char) : Bool := c.isAlpha || c == '_'

def isIdentifierChar (c : Char) : Bool := isIdentifierStart c || c.isDigit

def isIdentifier (s : String) : Bool :=
  match s.toList with
  | [] => false
  | c :: cs => isIdentifierStart c && cs.all isIdentifierChar

theorem toNat_of_isDigit {c : Char} (h : c.isDigit = true) : 48 ≤ c.toNat ∧ c.toNat ≤ 57 := by
  simp only [Char.isDigit, Bool.and_eq_true, decide_eq_true_eq, UInt32.le_iff_toNat_le] at h
  exact h

theorem toNat_of_isIdentifierStart {c : Char} (h : isIdentifierStart c = true) :
    65 ≤ c.toNat ∧ c.toNat ≤ 90 ∨ 97 ≤ c.toNat ∧ c.toNat ≤ 122 ∨ c.toNat = 95 := by
  simp only [isIdentifierStart, Bool.or_eq_true, beq_iff_eq] at h
  rcases h with h | rfl
  · rcases isAlpha_iff.mp h with h | h <;> omega
  · exact Or.inr (Or.inr rfl)

theorem isBlank_of_isIdentifierStart {c : Char} (h : isIdentifierStart c = true) :
    isBlank c = false := by
  have bounds := toNat_of_isIdentifierStart h
  simp only [isBlank, Bool.or_eq_false_iff, Bool.and_eq_false_iff, beq_eq_false_iff_ne,
    decide_eq_false_iff_not]
  omega

theorem isBlank_of_isDigit {c : Char} (h : c.isDigit = true) : isBlank c = false := by
  have bounds := toNat_of_isDigit h
  simp only [isBlank, Bool.or_eq_false_iff, Bool.and_eq_false_iff, beq_eq_false_iff_ne,
    decide_eq_false_iff_not]
  omega

theorem not_isDigit_of_isIdentifierStart {c : Char} (h : isIdentifierStart c = true) :
    c.isDigit = false := by
  rw [Bool.eq_false_iff]
  intro hd
  have bounds := toNat_of_isIdentifierStart h
  have digit := toNat_of_isDigit hd
  omega

theorem chars_of_isIdentifier {s : String} (h : isIdentifier s = true) :
    ∃ c cs, s.toList = c :: cs ∧ isIdentifierStart c = true ∧
      ∀ d ∈ s.toList, isIdentifierChar d = true := by
  rw [isIdentifier] at h
  cases chars : s.toList with
  | nil =>
    rw [chars] at h
    cases h
  | cons c cs =>
    rw [chars, Bool.and_eq_true, List.all_eq_true] at h
    refine ⟨c, cs, rfl, h.1, List.forall_mem_cons.mpr ⟨?_, h.2⟩⟩
    rw [isIdentifierChar, h.1, Bool.true_or]

end AddressBook.Text

namespace AddressBook.Formula

open Text

theorem isWordStart_of_isIdentifierStart {c : Char} (h : isIdentifierStart c = true) :
    isWordStart c = true := by
  have bounds := toNat_of_isIdentifierStart h
  have small : c.toNat < 0x80 := by omega
  simp only [isIdentifierStart, Bool.or_eq_true] at h
  simp only [isWordStart, isAlphabetic, if_pos small, Bool.or_eq_true]
  rcases h with h | h
  · exact Or.inl (Or.inr h)
  · exact Or.inr h

theorem isWordChar_of_isIdentifierChar {c : Char} (h : isIdentifierChar c = true) :
    isWordChar c = true := by
  simp only [isIdentifierChar, Bool.or_eq_true] at h
  rcases h with h | h
  · have bounds := toNat_of_isIdentifierStart h
    have small : c.toNat < 0x80 := by omega
    simp only [isIdentifierStart, Bool.or_eq_true] at h
    simp only [isWordChar, isAlphanumeric, if_pos small, isAsciiAlphanumeric, Bool.or_eq_true]
    rcases h with h | h <;> simp [h]
  · have bounds := toNat_of_isDigit h
    have small : c.toNat < 0x80 := by omega
    simp only [isWordChar, isAlphanumeric, if_pos small, isAsciiAlphanumeric, Bool.or_eq_true]
    simp [h]

end AddressBook.Formula

import AddressBook.Proofs.Filter.Grammar

/-! Reading written values. Taking the backslashes first from the quotes and then from the backslashes
gives a quoted text back, and no other value looks like one. -/

namespace AddressBook.Filter

open Text

variable {cs : List Char}

section Unescaping

variable {mark : Char}

theorem unescape_cons {c : Char} (h : c = '\\' → cs.head? ≠ some mark) :
    unescape mark (c :: cs) = c :: unescape mark cs := by
  cases cs with
  | nil => rfl
  | cons d cs =>
    rw [unescape, if_neg]
    rw [Bool.and_eq_true, beq_iff_eq, beq_iff_eq]
    rintro ⟨escape, rfl⟩
    exact h escape rfl

theorem unescape_mark (cs : List Char) :
    unescape mark ('\\' :: mark :: cs) = mark :: unescape mark cs := by
  rw [unescape, if_pos (by simp)]

def doubled (cs : List Char) : List Char := cs.flatMap fun c => if c = '\\' then ['\\', '\\'] else [c]

theorem head?_escapeChars (cs : List Char) : (escapeChars cs).head? ≠ some '"' := by
  cases cs with
  | nil => simp [escapeChars]
  | cons c cs =>
    rw [escapeChars_cons]
    split
    · simp
    · next plain =>
      simp only [isEscaped, Bool.or_eq_true, beq_iff_eq, not_or] at plain
      simpa using plain.1

theorem unescape_escapeChars (cs : List Char) : unescape '"' (escapeChars cs) = doubled cs := by
  induction cs with
  | nil => rfl
  | cons c cs ih =>
    rw [escapeChars_cons, doubled, List.flatMap_cons, ← doubled, ← ih]
    split
    · next escaped =>
      simp only [isEscaped, Bool.or_eq_true, beq_iff_eq] at escaped
      rcases escaped with rfl | rfl
      · exact unescape_mark (escapeChars cs)
      · change unescape '"' ('\\' :: '\\' :: escapeChars cs) = _
        rw [unescape_cons (by simp), unescape_cons fun _ => head?_escapeChars cs]
        rfl
    · next plain =>
      simp only [isEscaped, Bool.or_eq_true, beq_iff_eq, not_or] at plain
      rw [List.singleton_append, unescape_cons fun escape => absurd escape plain.2, if_neg plain.2,
        List.singleton_append]

theorem unescape_doubled (cs : List Char) : unescape '\\' (doubled cs) = cs := by
  induction cs with
  | nil => rfl
  | cons c cs ih =>
    rw [doubled, List.flatMap_cons, ← doubled]
    split
    · next escape =>
      subst escape
      exact (unescape_mark (doubled cs)).trans (congrArg _ ih)
    · next plain => rw [List.singleton_append, unescape_cons fun escape => absurd escape plain, ih]

theorem unquoted?_quote (s : String) : unquoted? (quote s).toList = some s.toList := by
  rw [quote, String.toList_ofList, List.cons_append, unquoted?, List.getLast?_concat,
    List.dropLast_concat, unescape_escapeChars, unescape_doubled]
  simp

end Unescaping

namespace Decimal

variable {i : Int}

theorem exists_cons (h : Decimal cs i) :
    ∃ c ds, cs = c :: ds ∧ (c.isDigit = true ∨ c = '+' ∨ c = '-') := by
  cases h with
  | unsigned h =>
    cases cs with
    | nil => cases h
    | cons c ds =>
      rw [isDigits, Bool.and_eq_true, List.all_cons, Bool.and_eq_true] at h
      exact ⟨c, ds, rfl, Or.inl h.2.1⟩
  | positive _ => exact ⟨_, _, rfl, Or.inr (Or.inl rfl)⟩
  | negative _ => exact ⟨_, _, rfl, Or.inr (Or.inr rfl)⟩

theorem readInt?_eq (h : Decimal cs i) : readInt? (String.ofList cs) = some i := by
  rw [readInt?, String.toList_ofList]
  cases h with
  | unsigned h =>
    have sign : takeSign cs = (false, cs) := by
      cases cs with
      | nil => cases h
      | cons c ds =>
        have digits := h
        rw [isDigits, Bool.and_eq_true, List.all_cons, Bool.and_eq_true] at digits
        exact Number.takeSign_of_isDigit digits.2.1
    simp [sign, h]
  | positive h => simp [takeSign, h]
  | negative h => simp [takeSign, h]

theorem of_readInt? {s : String} (h : readInt? s = some i) : Decimal s.toList i := by
  rw [readInt?, takeSign.eq_def] at h
  split at h
  · next negative digits sign =>
    split at h
    · next all =>
      cases h
      split at sign
      · next written => cases sign; rw [written]; exact .positive all
      · next written => cases sign; rw [written]; exact .negative all
      · cases sign; exact .unsigned all
    · cases h

end Decimal

namespace WrittenValue

variable {value : Json}

theorem valueOf_eq (h : WrittenValue cs value) : valueOf cs = value := by
  cases h with
  | truth => rfl
  | falsity => rfl
  | text s =>
    rw [valueOf, unquoted?_quote]
    dsimp only
    rw [String.ofList_toList]
  | @integer _ i decimal low high =>
    obtain ⟨c, ds, rfl, first⟩ := decimal.exists_cons
    have unquoted : unquoted? (c :: ds) = none := by
      rw [unquoted?]
      rintro rest ⟨⟩
      exact absurd first (by decide)
    have other : ∀ word : String,
        word.toList.head?.any (fun d => !(d.isDigit || d == '+' || d == '-')) = true →
          (String.ofList (c :: ds) == word) = false := by
      intro word apart
      rw [beq_eq_false_iff_ne]
      rintro rfl
      rw [String.toList_ofList, List.head?_cons, Option.any_some] at apart
      rcases first with digit | rfl | rfl
      · rw [digit] at apart
        cases apart
      · cases apart
      · cases apart
    have read : readIntWithin? Int.least64 Int.most64 (String.ofList (c :: ds)) = some i := by
      rw [readIntWithin?, decimal.readInt?_eq, Option.filter_some, if_pos]
      simpa using ⟨low, high⟩
    rw [valueOf, unquoted]
    dsimp only
    rw [other "true" (by decide), other "false" (by decide), if_neg Bool.false_ne_true,
      if_neg Bool.false_ne_true, read]

theorem valuesOf_eq (h : WrittenValue cs value) : valuesOf cs = .ok [value] := by
  have first : (cs.head? == some '[') = false := by
    rcases h.solid_or_quote with ⟨hne, solid⟩ | ⟨s, rfl⟩
    · obtain ⟨c, ds, rfl⟩ := List.exists_cons_of_ne_nil hne
      simpa using ne_of_isSolid (solid c List.mem_cons_self) rfl
    · rw [quote, String.toList_ofList]
      rfl
  rw [valuesOf, first, if_neg Bool.false_ne_true, h.valueOf_eq]

end WrittenValue

end AddressBook.Filter

import AddressBook.Proofs.Text.Folding
import AddressBook.Proofs.Text.Identifier

/-! Texts that differ in the case of ASCII letters only. Blanks and separators have no case, so such
texts are trimmed, cut and joined alike, and they have the same lower case. -/

namespace AddressBook.Text

/-! What a change of characters leaves alone. -/

section

variable {f : Char → Char}

theorem dropEndBlanks_map (keeps : ∀ c, isBlank (f c) = isBlank c) (cs : List Char) :
    dropEndBlanks (cs.map f) = (dropEndBlanks cs).map f := by
  induction cs with
  | nil => rfl
  | cons c cs ih =>
    rw [List.map_cons, dropEndBlanks, dropEndBlanks, ih, keeps]
    cases dropEndBlanks cs with
    | nil =>
      rw [List.map_nil]
      dsimp only
      split <;> rfl
    | cons d ds => rfl

theorem trimChars_map (keeps : ∀ c, isBlank (f c) = isBlank c) (cs : List Char) :
    trimChars (cs.map f) = (trimChars cs).map f := by
  have same : isBlank ∘ f = isBlank := funext keeps
  rw [trimChars, List.dropWhile_map, same, dropEndBlanks_map keeps, trimChars]

theorem cutWhere_map {p : Char → Bool} (keeps : ∀ c, p (f c) = p c) (cs : List Char) :
    cutWhere p (cs.map f) = (cutWhere p cs).map (List.map f) := by
  induction cs with
  | nil => rfl
  | cons c cs ih =>
    rw [List.map_cons, cutWhere, cutWhere, keeps, ih]
    split
    · rfl
    · cases cutWhere p cs <;> rfl

theorem cutAtFirst_map {mark : Char} (keeps : ∀ c, (f c == mark) = (c == mark)) (cs : List Char) :
    cutAtFirst mark (cs.map f) =
      (cutAtFirst mark cs).map fun cut => (cut.1.map f, cut.2.map f) := by
  induction cs with
  | nil => rfl
  | cons c cs ih =>
    rw [List.map_cons, cutAtFirst, cutAtFirst, keeps, ih]
    split
    · rfl
    · cases cutAtFirst mark cs <;> rfl

end

/-! Lower-casing ASCII letters. -/

theorem toLower_cases (c : Char) :
    c.toLower = c ∨ 65 ≤ c.toNat ∧ c.toNat ≤ 90 ∧ c.toLower.toNat = c.toNat + 32 := by
  have lowered := toNat_toLower c
  split at lowered
  · next capital => exact Or.inr ⟨capital.1, capital.2, lowered⟩
  · exact Or.inl (Char.toNat_inj.mp lowered)

theorem toLower_toLower (c : Char) : c.toLower.toLower = c.toLower := by
  rcases toLower_cases c.toLower with same | ⟨low, high, -⟩
  · exact same
  · rcases toLower_cases c with same | ⟨_, _, lowered⟩
    · rw [same, same]
    · omega

theorem toLower_beq {mark : Char} (h : mark.isAlpha = false) (c : Char) :
    (c.toLower == mark) = (c == mark) := by
  rcases toLower_cases c with same | ⟨low, high, lowered⟩
  · rw [same]
  · have letter : ∀ d : Char, d.isAlpha = true → (d == mark) = false := by
      intro d alpha
      rw [beq_eq_false_iff_ne]
      rintro rfl
      rw [alpha] at h
      cases h
    rw [letter c (isAlpha_iff.mpr (by omega)), letter c.toLower (isAlpha_iff.mpr (by omega))]

theorem toList_asciiLower (s : String) : (asciiLower s).toList = s.toList.map Char.toLower := by
  rw [asciiLower, String.toList_ofList]

theorem asciiLower_ofList (cs : List Char) :
    asciiLower (String.ofList cs) = String.ofList (cs.map Char.toLower) := by
  rw [asciiLower, String.toList_ofList]

theorem asciiLower_asciiLower (s : String) : asciiLower (asciiLower s) = asciiLower s := by
  rw [asciiLower, toList_asciiLower, List.map_map, asciiLower]
  exact congrArg String.ofList (List.map_congr_left fun c _ => toLower_toLower c)

theorem isEmpty_asciiLower (s : String) : (asciiLower s).isEmpty = s.isEmpty := by
  rw [Bool.eq_iff_iff, String.isEmpty_iff, String.isEmpty_iff, ← String.toList_eq_nil_iff,
    toList_asciiLower, List.map_eq_nil_iff, String.toList_eq_nil_iff]

theorem trim_asciiLower (s : String) : trim (asciiLower s) = asciiLower (trim s) := by
  rw [trim, toList_asciiLower, trimChars_map isBlank_toLower, trim, asciiLower_ofList]

theorem splitOn_asciiLower {separator : Char} (h : separator.isAlpha = false) (s : String) :
    splitOn separator (asciiLower s) = (splitOn separator s).map asciiLower := by
  rw [splitOn, toList_asciiLower, cutWhere_map (toLower_beq h), splitOn, List.map_map, List.map_map]
  exact List.map_congr_left fun piece _ => (asciiLower_ofList piece).symm

theorem list_asciiLower {separator : Char} (h : separator.isAlpha = false) (s : String) :
    list separator (asciiLower s) = (list separator s).map asciiLower := by
  have solid : (fun piece : String => !piece.isEmpty) ∘ asciiLower = fun piece => !piece.isEmpty :=
    funext fun piece => congrArg not (isEmpty_asciiLower piece)
  have trimmed : trim ∘ asciiLower = asciiLower ∘ trim := funext trim_asciiLower
  rw [list, splitOn_asciiLower h, List.map_map, trimmed, ← List.map_map, List.filter_map, solid, list]

theorem asciiLower_append (a b : String) : asciiLower (a ++ b) = asciiLower a ++ asciiLower b := by
  apply String.toList_injective
  simp [toList_asciiLower, String.toList_append]

theorem asciiLower_join (separator : String) (pieces : List String) :
    asciiLower (join separator pieces) = join (asciiLower separator) (pieces.map asciiLower) := by
  induction pieces with
  | nil => rfl
  | cons first rest ih =>
    cases rest with
    | nil =>
      rw [List.map_singleton, join, join, List.map_singleton, List.map_singleton,
        List.intercalate_singleton, List.intercalate_singleton, String.ofList_toList,
        String.ofList_toList]
    | cons second rest =>
      rw [join_cons_cons, asciiLower_append, asciiLower_append, ih, List.map_cons, List.map_cons,
        List.map_cons, join_cons_cons]

/-! Identifiers. -/

theorem isAlpha_toLower (c : Char) : c.toLower.isAlpha = c.isAlpha := by
  rcases toLower_cases c with same | ⟨low, high, lowered⟩
  · rw [same]
  · rw [isAlpha_iff.mpr (by omega), isAlpha_iff.mpr (by omega)]

theorem isDigit_toLower (c : Char) : c.toLower.isDigit = c.isDigit := by
  rcases toLower_cases c with same | ⟨low, high, lowered⟩
  · rw [same]
  · have none : ∀ d : Char, 65 ≤ d.toNat → d.isDigit = false := fun d hd =>
      Bool.eq_false_iff.mpr fun digit => by
        have bounds := toNat_of_isDigit digit
        omega
    rw [none c low, none c.toLower (by omega)]

theorem isIdentifier_congr {a b : String} (same : sameAscii a b = true) :
    isIdentifier a = isIdentifier b := by
  have start : ∀ c : Char, isIdentifierStart c.toLower = isIdentifierStart c := by
    intro c
    rw [isIdentifierStart, isAlpha_toLower, toLower_beq (by decide), isIdentifierStart]
  have others : isIdentifierChar ∘ Char.toLower = isIdentifierChar := by
    funext c
    rw [Function.comp, isIdentifierChar, start, isDigit_toLower, isIdentifierChar]
  have folds : ∀ s, isIdentifier (asciiLower s) = isIdentifier s := by
    intro s
    rw [isIdentifier, isIdentifier, toList_asciiLower]
    cases s.toList with
    | nil => rfl
    | cons c cs =>
      rw [List.map_cons]
      dsimp only
      rw [start, List.all_map, others]
  rw [← folds a, sameAscii_iff.mp same, folds b]

/-! The lower case of a text. -/

theorem isCaseIgnorable_toLower (c : Char) : isCaseIgnorable c.toLower = isCaseIgnorable c := by
  rcases toLower_cases c with same | ⟨low, high, lowered⟩
  · rw [same]
  · rw [isCaseIgnorable, isCaseIgnorable, if_pos (by omega), if_pos (by omega), lowered]
    simp only [List.mem_cons, List.not_mem_nil, or_false]
    rw [decide_eq_decide]
    omega

theorem isCased_toLower (c : Char) : isCased c.toLower = isCased c := by
  rcases toLower_cases c with same | ⟨low, high, lowered⟩
  · rw [same]
  · rw [isCased, isCased, if_pos (by omega), if_pos (by omega), isAlpha_iff.mpr (by omega),
      isAlpha_iff.mpr (by omega)]

theorem meetsCased_map_toLower (cs : List Char) :
    meetsCased (cs.map Char.toLower) = meetsCased cs := by
  induction cs with
  | nil => rfl
  | cons c cs ih =>
    rw [List.map_cons, meetsCased_cons, meetsCased_cons, isCaseIgnorable_toLower, isCased_toLower, ih]

theorem lowerChar_toLower (c : Char) : lowerChar c.toLower = lowerChar c := by
  rcases toLower_cases c with same | ⟨low, high, lowered⟩
  · rw [same]
  · rw [lowerChar_of_ascii (by omega), lowerChar_of_ascii (by omega), toLower_toLower]

theorem lowerAfter_map_toLower (before cs : List Char) :
    lowerAfter (before.map Char.toLower) (cs.map Char.toLower) = lowerAfter before cs := by
  induction cs generalizing before with
  | nil => rfl
  | cons c cs ih =>
    have sigma : (c.toLower == capitalSigma) = (c == capitalSigma) :=
      toLower_beq (by decide) c
    rw [List.map_cons, lowerAfter, lowerAfter, sigma, meetsCased_map_toLower, meetsCased_map_toLower,
      lowerChar_toLower]
    exact congrArg _ (ih (c :: before))

theorem lower_eq_of_sameAscii {s t : String} (h : sameAscii s t = true) : lower s = lower t := by
  have folds : ∀ s, lower (asciiLower s) = lower s := by
    intro s
    rw [lower, toList_asciiLower, lowerChars]
    exact congrArg String.ofList (lowerAfter_map_toLower [] s.toList)
  rw [← folds s, sameAscii_iff.mp h, folds t]

end AddressBook.Text

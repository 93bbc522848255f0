import AddressBook.Formula.Token
import AddressBook.Proofs.Text.Identifier
import AddressBook.Proofs.Number.Decimal

/-! Scanning pieces of text one after the other. A piece scans to its tokens in front of a rest when
scanning both gives these tokens and then those of the rest. -/

namespace AddressBook.Formula

def Scans (cs : List Char) (ts : List Token) (rest : List Char) : Prop :=
  scan (cs ++ rest) = (scan rest).map (ts ++ ·)

theorem map_append_map (r : Except Flaw (List Token)) (ts us : List Token) :
    (r.map (us ++ ·)).map (ts ++ ·) = r.map (ts ++ us ++ ·) := by
  cases r with
  | error flaw => rfl
  | ok tokens => simp [Except.map]

theorem Scans.nil (rest : List Char) : Scans [] [] rest := by
  rw [Scans, List.nil_append]
  cases scan rest <;> rfl

theorem Scans.append {cs ds rest : List Char} {ts us : List Token} (first : Scans cs ts (ds ++ rest))
    (second : Scans ds us rest) : Scans (cs ++ ds) (ts ++ us) rest := by
  rw [Scans] at *
  rw [List.append_assoc, first, second, map_append_map]

theorem Scans.scan_eq {cs : List Char} {ts : List Token} (h : Scans cs ts []) :
    scan cs = .ok ts := by
  rw [Scans, List.append_nil, scan.eq_def []] at h
  simpa [Except.map] using h

theorem scans_blank {c : Char} {rest : List Char} (h : Text.isBlank c = true) :
    Scans [c] [] rest := by
  rw [Scans, List.singleton_append, scan.eq_def (c :: rest)]
  dsimp only
  rw [if_pos h]
  cases scan rest <;> rfl

theorem scans_mark {c : Char} {cs rest : List Char} {token : Token}
    (hc : Text.isBlank c = false) (hm : mark? (c :: cs ++ rest) = some (token, rest)) :
    Scans (c :: cs) [token] rest := by
  rw [List.cons_append] at hm
  rw [Scans, List.cons_append, scan.eq_def (c :: _)]
  dsimp only
  rw [hc, if_neg Bool.false_ne_true]
  split
  · next heq =>
    rw [hm, Option.some.injEq, Prod.mk.injEq] at heq
    obtain ⟨rfl, rfl⟩ := heq
    rfl
  · next heq =>
    rw [hm] at heq
    cases heq

theorem takeText_escapeChars (cs rest : List Char) :
    takeText (Text.escapeChars cs ++ '"' :: rest) = .ok (cs, rest) := by
  induction cs with
  | nil => rfl
  | cons c cs ih =>
    rw [Text.escapeChars] at ih ⊢
    rw [List.flatMap_cons, List.append_assoc, Text.escapeChar]
    split
    · simp only [List.cons_append, List.nil_append, takeText, ih]
      rfl
    · next h =>
      simp only [Bool.or_eq_true, beq_iff_eq, not_or] at h
      rw [List.singleton_append, takeText, ih]
      · rfl
      · exact h.1
      · intro hc _
        exact h.2 hc
      · intro _ _ hc _
        exact h.2 hc

theorem scans_quote (s : String) (rest : List Char) : Scans (Text.quote s).toList [.text s] rest := by
  rw [Scans, Text.quote, String.toList_ofList, List.cons_append, List.cons_append,
    List.append_assoc, scan.eq_def ('"' :: _)]
  dsimp only
  rw [if_neg (by decide)]
  split
  · next heq => cases heq
  · rw [if_pos (beq_self_eq_true '"')]
    split
    · next flaw heq =>
      rw [List.singleton_append, takeText_escapeChars] at heq
      cases heq
    · next text left heq =>
      rw [List.singleton_append, takeText_escapeChars, Except.ok.injEq, Prod.mk.injEq] at heq
      obtain ⟨rfl, rfl⟩ := heq
      rw [String.ofList_toList]
      rfl

def marks : List Char := ['(', ')', '&', '|', ':', ';', '!', '=', '<', '>']

theorem mark?_eq_none {c : Char} {cs : List Char} (h : c ∉ marks) : mark? (c :: cs) = none := by
  unfold mark?
  split <;> first | rfl | (rename_i heq; cases heq; exact absurd h (by decide))

theorem scans_word {c d : Char} {cs rest : List Char} (hb : Text.isBlank c = false)
    (hm : c ∉ marks) (hq : c ≠ '"') (hn : startsNumber (c :: cs ++ d :: rest) = false)
    (hs : isWordStart c = true) (hw : ∀ a ∈ cs, isWordChar a = true) (hd : isWordChar d = false) :
    Scans (c :: cs) [wordToken (c :: cs)] (d :: rest) := by
  have taken : (cs ++ d :: rest).takeWhile isWordChar = cs := by
    rw [List.takeWhile_append_of_pos hw, List.takeWhile_cons_of_neg (by simp [hd]), List.append_nil]
  have left : (cs ++ d :: rest).dropWhile isWordChar = d :: rest := by
    rw [List.dropWhile_append_of_pos hw, List.dropWhile_cons_of_neg (by simp [hd])]
  rw [List.cons_append] at hn
  rw [Scans, List.cons_append, scan.eq_def (c :: _)]
  dsimp only
  rw [hb, if_neg Bool.false_ne_true]
  split
  · next heq =>
    rw [mark?_eq_none hm] at heq
    cases heq
  · rw [if_neg (by simpa using hq), hn, if_neg Bool.false_ne_true, if_pos hs, taken, left]
    rfl

theorem scans_function {name : String} (word : String) (hn : name.toList = '@' :: word.toList)
    (hw : word.toList.all isWordChar = true) {d : Char} {rest : List Char}
    (hd : isWordChar d = false) : Scans name.toList [.function name] (d :: rest) := by
  have token : wordToken ('@' :: word.toList) = .function name := by
    rw [← hn, wordToken, String.ofList_toList, hn]
    rfl
  rw [hn, ← token]
  exact scans_word rfl (by decide) (by decide) rfl rfl (List.all_eq_true.mp hw) hd

theorem scans_numeral {c d : Char} {cs rest : List Char} {n : Number}
    (hb : Text.isBlank c = false) (hm : c ∉ marks) (hq : c ≠ '"')
    (hs : startsNumber (c :: cs ++ d :: rest) = true) (hw : ∀ a ∈ cs, isNumeral a = true)
    (hd : isNumeral d = false) (hr : Number.read? (String.ofList (c :: cs)) = some n) :
    Scans (c :: cs) [.number n] (d :: rest) := by
  have taken : (cs ++ d :: rest).takeWhile isNumeral = cs := by
    rw [List.takeWhile_append_of_pos hw, List.takeWhile_cons_of_neg (by simp [hd]), List.append_nil]
  have left : (cs ++ d :: rest).dropWhile isNumeral = d :: rest := by
    rw [List.dropWhile_append_of_pos hw, List.dropWhile_cons_of_neg (by simp [hd])]
  rw [List.cons_append] at hs
  rw [Scans, List.cons_append, scan.eq_def (c :: _)]
  dsimp only
  rw [hb, if_neg Bool.false_ne_true]
  split
  · next heq =>
    rw [mark?_eq_none hm] at heq
    cases heq
  · rw [if_neg (by simpa using hq), if_pos hs]
    simp only [taken, left, hr]
    rfl

theorem scans_signed {cs : List Char} (h : Number.IsSigned cs) {d : Char} {rest : List Char}
    (hd : isNumeral d = false) :
    ∃ n, Number.read? (String.ofList cs) = some n ∧ Scans cs [.number n] (d :: rest) := by
  obtain ⟨n, read⟩ : ∃ n, Number.read? (String.ofList cs) = some n :=
    Number.read?_isSigned (by rwa [String.toList_ofList])
  refine ⟨n, read, ?_⟩
  cases h with
  | positive decimal =>
    obtain ⟨c, cs, rfl, digit, numerals⟩ := decimal.cons
    have other : ∀ m ∈ '"' :: '-' :: marks, c ≠ m := by
      rintro m hm rfl
      have none : ('"' :: '-' :: marks).any Char.isDigit = false := by decide
      exact List.any_eq_false.mp none c hm digit
    have starts : startsNumber (c :: cs ++ d :: rest) = true := by
      rw [List.cons_append, startsNumber]
      · exact digit
      · rintro _ _ rfl
        exact absurd rfl (other '-' (by decide))
    exact scans_numeral (Text.isBlank_of_isDigit digit)
      (fun hm => other c (List.mem_cons_of_mem _ (List.mem_cons_of_mem _ hm)) rfl)
      (other '"' (by decide)) starts numerals hd read
  | @negative cs decimal =>
    obtain ⟨c, ds, rfl, digit, numerals⟩ := decimal.cons
    have starts : startsNumber ('-' :: c :: ds ++ d :: rest) = true := digit
    have inner : ∀ a ∈ c :: ds, isNumeral a = true := by
      intro a ha
      rcases List.mem_cons.mp ha with rfl | ha
      · rw [isNumeral, digit, Bool.true_or]
      · exact numerals a ha
    exact scans_numeral rfl (by decide) (by decide) starts inner hd read

end AddressBook.Formula

import AddressBook.Proofs.Text.Trimming

/-! Collapsing blanks, character by character. Where a text is cut at its first mark, the collapsed
text is cut there too, and what stands on both sides is the same up to blanks. -/

namespace AddressBook.Text

def collapseChars (cs : List Char) : List Char := List.intercalate [' '] (wordChars cs)

theorem toList_collapseBlanks (s : String) : (collapseBlanks s).toList = collapseChars s.toList := by
  have pieces : (words s).map String.toList = wordChars s.toList := by
    rw [words, List.map_map]
    have same : (wordChars s.toList).map (String.toList ∘ String.ofList) =
        (wordChars s.toList).map id := List.map_congr_left fun cs _ => String.toList_ofList
    rw [same, List.map_id]
  rw [collapseBlanks, join, String.toList_ofList, pieces]
  rfl

theorem wordChars_cons_of_blank {c : Char} (h : isBlank c = true) (cs : List Char) :
    wordChars (c :: cs) = wordChars cs := by
  rw [wordChars, cutWhere_cons_of_pos h, List.filter_cons_of_neg (by simp), wordChars]

theorem wordChars_before_blank {c d : Char} (hc : isBlank c = false) (hd : isBlank d = true)
    (cs : List Char) : wordChars (c :: d :: cs) = [c] :: wordChars (d :: cs) := by
  obtain ⟨first, others, cut, grown⟩ := cutWhere_cons_of_neg hc (d :: cs)
  rw [cutWhere_cons_of_pos hd, List.cons.injEq] at cut
  obtain ⟨rfl, rfl⟩ := cut
  rw [wordChars, grown, wordChars_cons_of_blank hd, wordChars, List.filter_cons_of_pos (by simp)]

theorem wordChars_before_solid {c d : Char} (hc : isBlank c = false) (hd : isBlank d = false)
    (cs : List Char) :
    ∃ word others, wordChars (d :: cs) = word :: others ∧
      wordChars (c :: d :: cs) = (c :: word) :: others := by
  obtain ⟨first, pieces, cut, grown⟩ := cutWhere_cons_of_neg hc (d :: cs)
  obtain ⟨second, more, _, longer⟩ := cutWhere_cons_of_neg hd cs
  rw [longer, List.cons.injEq] at cut
  obtain ⟨rfl, rfl⟩ := cut
  refine ⟨d :: second, more.filter (!·.isEmpty), ?_, ?_⟩
  · rw [wordChars, longer, List.filter_cons_of_pos (by simp)]
  · rw [wordChars, grown, List.filter_cons_of_pos (by simp)]

theorem collapseChars_cons_of_blank {c : Char} (h : isBlank c = true) (cs : List Char) :
    collapseChars (c :: cs) = collapseChars cs := by
  rw [collapseChars, wordChars_cons_of_blank h, collapseChars]

theorem collapseChars_of_words {cs word : List Char} {others : List (List Char)}
    (h : wordChars cs = word :: others) : collapseChars cs ≠ [] := by
  have solid : word ≠ [] := by
    have held : word ∈ wordChars cs := by
      rw [h]
      exact List.mem_cons_self
    rw [wordChars] at held
    simpa using (List.mem_filter.mp held).2
  rw [collapseChars, h]
  cases others <;> simp [List.intercalate, solid]

def startsBlank (cs : List Char) : Bool := (cs.head?.map isBlank).getD false

def collapseRest (cs : List Char) : List Char :=
  if startsBlank cs && !(collapseChars cs).isEmpty then ' ' :: collapseChars cs
  else collapseChars cs

theorem collapseChars_cons_of_solid {c : Char} (h : isBlank c = false) (cs : List Char) :
    collapseChars (c :: cs) = c :: collapseRest cs := by
  cases cs with
  | nil =>
    have word : wordChars [c] = [[c]] := by simp [wordChars, cutWhere, h]
    rw [collapseChars, word]
    rfl
  | cons d cs =>
    cases blank : isBlank d with
    | true =>
      rw [collapseChars, wordChars_before_blank h blank]
      cases words : wordChars (d :: cs) with
      | nil => simp [collapseRest, collapseChars, words, List.intercalate]
      | cons word others =>
        have solid := collapseChars_of_words words
        have spaced : collapseRest (d :: cs) = ' ' :: collapseChars (d :: cs) := by
          simp [collapseRest, startsBlank, blank, solid]
        rw [spaced, collapseChars, words]
        simp [List.intercalate]
    | false =>
      obtain ⟨word, others, first, grown⟩ := wordChars_before_solid h blank cs
      have solid : collapseRest (d :: cs) = collapseChars (d :: cs) := by
        simp [collapseRest, startsBlank, blank]
      rw [solid, collapseChars, grown, collapseChars, first]
      cases others <;> simp [List.intercalate]

theorem isBlank_space : isBlank ' ' = true := by decide

theorem mem_collapseRest {c : Char} (h : isBlank c = false) (cs : List Char) :
    c ∈ collapseRest cs ↔ c ∈ collapseChars cs := by
  have different : c ≠ ' ' := by
    rintro rfl
    rw [isBlank_space] at h
    cases h
  rw [collapseRest]
  split <;> simp [different]

theorem mem_collapseChars {c : Char} (h : isBlank c = false) (cs : List Char) :
    c ∈ collapseChars cs ↔ c ∈ cs := by
  induction cs with
  | nil => simp [collapseChars, wordChars, cutWhere]
  | cons d cs ih =>
    cases blank : isBlank d with
    | true =>
      have different : c ≠ d := by
        rintro rfl
        rw [h] at blank
        cases blank
      rw [collapseChars_cons_of_blank blank, ih]
      simp [different]
    | false =>
      rw [collapseChars_cons_of_solid blank, List.mem_cons, mem_collapseRest h, ih, List.mem_cons]

theorem dropEndBlanks_collapseChars (cs : List Char) :
    dropEndBlanks (collapseChars cs) = collapseChars cs := by
  induction cs with
  | nil => rfl
  | cons d cs ih =>
    cases blank : isBlank d with
    | true => rw [collapseChars_cons_of_blank blank, ih]
    | false =>
      have rest : dropEndBlanks (collapseRest cs) = collapseRest cs := by
        rw [collapseRest]
        split
        · next spaced =>
          have solid : collapseChars cs ≠ [] := by
            intro none
            simp [none] at spaced
          rw [dropEndBlanks_cons_of_rest (by rwa [ih]), ih]
        · exact ih
      rw [collapseChars_cons_of_solid blank, dropEndBlanks_cons_of_not_blank blank, rest]

theorem trimChars_collapseChars (cs : List Char) :
    trimChars (collapseChars cs) = collapseChars cs := by
  induction cs with
  | nil => rfl
  | cons d cs ih =>
    cases blank : isBlank d with
    | true => rw [collapseChars_cons_of_blank blank, ih]
    | false =>
      have kept := dropEndBlanks_collapseChars (d :: cs)
      rw [collapseChars_cons_of_solid blank] at kept ⊢
      rw [trimChars_cons_of_solid blank, ← dropEndBlanks_cons_of_not_blank blank, kept]

theorem trimChars_collapseRest (cs : List Char) :
    trimChars (collapseRest cs) = collapseChars cs := by
  rw [collapseRest]
  split
  · rw [trimChars_cons_of_blank isBlank_space, trimChars_collapseChars]
  · exact trimChars_collapseChars cs

theorem trim_collapseBlanks (s : String) : trim (collapseBlanks s) = collapseBlanks s := by
  apply String.toList_injective
  rw [toList_trim, toList_collapseBlanks, trimChars_collapseChars]

theorem collapseChars_eq_trimChars {cs : List Char}
    (h : ∀ c ∈ collapseChars cs, isBlank c = false) : collapseChars cs = trimChars cs := by
  -- What follows a character is collapsed by a function of its own, so that the induction is on both.
  have both : ((∀ c ∈ collapseChars cs, isBlank c = false) → collapseChars cs = trimChars cs) ∧
      ((∀ c ∈ collapseRest cs, isBlank c = false) → collapseRest cs = dropEndBlanks cs) := by
    clear h
    induction cs with
    | nil => exact ⟨fun _ => rfl, fun _ => rfl⟩
    | cons c cs ih =>
      obtain ⟨whole, rest⟩ := ih
      cases blank : isBlank c with
      | true =>
        refine ⟨fun h => ?_, fun h => ?_⟩
        · rw [collapseChars_cons_of_blank blank] at h ⊢
          rw [trimChars_cons_of_blank blank, whole h]
        · have none : collapseChars cs = [] := by
            cases collapsed : collapseChars cs with
            | nil => rfl
            | cons d ds =>
              have space := h ' ' (by
                simp [collapseRest, startsBlank, blank, collapseChars_cons_of_blank, collapsed])
              rw [isBlank_space] at space
              cases space
          have nothing : collapseRest cs = [] := by simp [collapseRest, none]
          have gone : dropEndBlanks cs = [] := by
            rw [← rest (by simp [nothing]), nothing]
          simp [collapseRest, collapseChars_cons_of_blank blank, none, dropEndBlanks, gone, blank]
      | false =>
        have solid : collapseRest (c :: cs) = collapseChars (c :: cs) := by
          simp [collapseRest, startsBlank, blank]
        have last : (∀ d ∈ collapseChars (c :: cs), isBlank d = false) →
            collapseChars (c :: cs) = c :: dropEndBlanks cs := by
          intro h
          rw [collapseChars_cons_of_solid blank] at h ⊢
          rw [rest fun d hd => h d (List.mem_cons_of_mem c hd)]
        refine ⟨fun h => ?_, fun h => ?_⟩
        · rw [trimChars_cons_of_solid blank, last h]
        · rw [solid] at h ⊢
          rw [dropEndBlanks_cons_of_not_blank blank, last h]
  exact both.1 h

theorem cutAtFirst_collapseChars {mark : Char} (hm : isBlank mark = false)
    {cs before after : List Char} (h : cutAtFirst mark cs = some (before, after)) :
    ∃ before' after', cutAtFirst mark (collapseChars cs) = some (before', after') ∧
      dropEndBlanks before' = collapseChars before ∧ trimChars after' = collapseChars after := by
  induction cs generalizing before with
  | nil => cases h
  | cons c cs ih =>
    rw [cutAtFirst] at h
    split at h
    · next found =>
      cases h
      rw [beq_iff_eq] at found
      subst found
      refine ⟨[], collapseRest after, ?_, rfl, trimChars_collapseRest after⟩
      rw [collapseChars_cons_of_solid hm, cutAtFirst, if_pos (beq_self_eq_true c)]
    · next other =>
      obtain ⟨⟨first, rest⟩, found, same⟩ := Option.map_eq_some_iff.mp h
      cases same
      obtain ⟨before', after', cut, ends, behind⟩ := ih found
      cases blank : isBlank c with
      | true =>
        refine ⟨before', after', ?_, ?_, behind⟩
        · rw [collapseChars_cons_of_blank blank, cut]
        · rw [ends, collapseChars_cons_of_blank blank]
      | false =>
        have whole := (cutAtFirst_eq_some_iff.mp found).1
        have full : (collapseChars cs).isEmpty = false := by
          cases none : collapseChars cs with
          | nil =>
            rw [none] at cut
            cases cut
          | cons d ds => rfl
        have opening : startsBlank cs = startsBlank first := by
          rw [whole]
          cases first with
          | nil => simp [startsBlank, hm]
          | cons d ds => rfl
        rw [collapseChars_cons_of_solid blank, collapseChars_cons_of_solid blank, cutAtFirst,
          if_neg other, collapseRest, collapseRest, opening, full]
        cases startsBlank first with
        | false =>
          refine ⟨c :: before', after', ?_, ?_, behind⟩
          · simp [cut]
          · simp [dropEndBlanks_cons_of_not_blank blank, ends]
        | true =>
          have space : (' ' == mark) = false := by
            rw [beq_eq_false_iff_ne]
            rintro rfl
            rw [isBlank_space] at hm
            cases hm
          refine ⟨c :: ' ' :: before', after', ?_, ?_, behind⟩
          · simp [cutAtFirst, space, cut]
          · rw [dropEndBlanks_cons_of_not_blank blank, dropEndBlanks, ends]
            cases collapseChars first <;> simp [isBlank_space]

end AddressBook.Text

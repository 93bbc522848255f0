import AddressBook.Text.Basic

/-! Trimming and cutting. A trimmed text is one without outer blanks; the pieces that a text is cut
into hold no separator, and joined again they are cut in the same places. -/

namespace AddressBook.Text

theorem dropEndBlanks_cons_of_not_blank {c : Char} (h : isBlank c = false) (cs : List Char) :
    dropEndBlanks (c :: cs) = c :: dropEndBlanks cs := by
  rw [dropEndBlanks]
  split
  · next none => simp [h, none]
  · next kept => rfl

theorem dropEndBlanks_cons_of_rest {cs : List Char} (h : dropEndBlanks cs ≠ []) (c : Char) :
    dropEndBlanks (c :: cs) = c :: dropEndBlanks cs := by
  rw [dropEndBlanks]
  split
  · next none => exact absurd none h
  · rfl

theorem dropEndBlanks_isPrefixOf (cs : List Char) : dropEndBlanks cs <+: cs := by
  induction cs with
  | nil => exact List.prefix_refl _
  | cons c cs ih =>
    rw [dropEndBlanks]
    split
    · split
      · exact List.nil_prefix
      · exact ⟨cs, rfl⟩
    · exact List.cons_prefix_cons.mpr ⟨rfl, ih⟩

theorem getLast?_dropEndBlanks {cs : List Char} {c : Char}
    (h : (dropEndBlanks cs).getLast? = some c) : isBlank c = false := by
  induction cs with
  | nil => cases h
  | cons d cs ih =>
    rw [dropEndBlanks] at h
    split at h
    · split at h
      · cases h
      · next solid =>
        cases h
        exact Bool.eq_false_iff.mpr solid
    · next kept nonempty =>
      refine ih ?_
      rw [List.getLast?_cons] at h
      cases rest : dropEndBlanks cs with
      | nil => exact absurd rest nonempty
      | cons e es =>
        rw [rest] at h
        rw [List.getLast?_cons]
        simpa [List.getLast?_cons] using h

theorem dropEndBlanks_eq_self {cs : List Char} (h : ∀ c ∈ cs.getLast?, isBlank c = false) :
    dropEndBlanks cs = cs := by
  induction cs with
  | nil => rfl
  | cons d cs ih =>
    cases cs with
    | nil =>
      have solid := h d rfl
      simp [dropEndBlanks, solid]
    | cons e es =>
      have rest : dropEndBlanks (e :: es) = e :: es := ih fun c hc => h c (by
        rw [List.getLast?_cons_cons]
        exact hc)
      rw [dropEndBlanks, rest]

theorem head?_dropWhile {cs : List Char} {c : Char} (h : (cs.dropWhile isBlank).head? = some c) :
    isBlank c = false := by
  have dropped := List.head?_dropWhile_not isBlank cs
  rw [h] at dropped
  simpa using dropped

theorem trimChars_eq_self {cs : List Char} (first : ∀ c ∈ cs.head?, isBlank c = false)
    (last : ∀ c ∈ cs.getLast?, isBlank c = false) : trimChars cs = cs := by
  have kept : cs.dropWhile isBlank = cs := by
    cases cs with
    | nil => rfl
    | cons d cs => exact List.dropWhile_cons_of_neg (by simpa using first d rfl)
  rw [trimChars, kept, dropEndBlanks_eq_self last]

theorem head?_trimChars {cs : List Char} {c : Char} (h : (trimChars cs).head? = some c) :
    isBlank c = false := by
  rw [trimChars] at h
  have opening : (cs.dropWhile isBlank).head? = some c → isBlank c = false := head?_dropWhile
  cases rest : cs.dropWhile isBlank with
  | nil =>
    rw [rest] at h
    cases h
  | cons d ds =>
    rw [rest] at h opening
    have same : (dropEndBlanks (d :: ds)).head? = some d ∨ dropEndBlanks (d :: ds) = [] := by
      cases kept : dropEndBlanks (d :: ds) with
      | nil => exact Or.inr rfl
      | cons e es =>
        have whole := dropEndBlanks_isPrefixOf (d :: ds)
        rw [kept] at whole
        rw [(List.cons_prefix_cons.mp whole).1]
        exact Or.inl rfl
    rcases same with same | none
    · rw [same] at h
      exact opening h
    · rw [none] at h
      cases h

theorem getLast?_trimChars {cs : List Char} {c : Char} (h : (trimChars cs).getLast? = some c) :
    isBlank c = false := getLast?_dropEndBlanks h

theorem trimChars_trimChars (cs : List Char) : trimChars (trimChars cs) = trimChars cs :=
  trimChars_eq_self (fun _ h => head?_trimChars h) fun _ h => getLast?_trimChars h

theorem dropWhile_append_cons {c : Char} (h : isBlank c = false) (before after : List Char) :
    (before ++ c :: after).dropWhile isBlank = before.dropWhile isBlank ++ c :: after := by
  induction before with
  | nil => exact List.dropWhile_cons_of_neg (by simp [h])
  | cons d ds ih =>
    cases blank : isBlank d with
    | true =>
      rw [List.cons_append, List.dropWhile_cons_of_pos blank, List.dropWhile_cons_of_pos blank, ih]
    | false =>
      rw [List.cons_append, List.dropWhile_cons_of_neg (by simp [blank]),
        List.dropWhile_cons_of_neg (by simp [blank]), List.cons_append]

theorem dropEndBlanks_append_cons {c : Char} (h : isBlank c = false) (before after : List Char) :
    dropEndBlanks (before ++ c :: after) = before ++ c :: dropEndBlanks after := by
  induction before with
  | nil => exact dropEndBlanks_cons_of_not_blank h after
  | cons d ds ih =>
    rw [List.cons_append, dropEndBlanks_cons_of_rest (by simp [ih]), ih, List.cons_append]

theorem trimChars_append_cons {c : Char} (h : isBlank c = false) (before after : List Char) :
    trimChars (before ++ c :: after) =
      before.dropWhile isBlank ++ c :: dropEndBlanks after := by
  rw [trimChars, dropWhile_append_cons h, dropEndBlanks_append_cons h]

theorem trimChars_cons_of_blank {c : Char} (h : isBlank c = true) (cs : List Char) :
    trimChars (c :: cs) = trimChars cs := by
  rw [trimChars, List.dropWhile_cons_of_pos h, trimChars]

theorem trimChars_cons_of_solid {c : Char} (h : isBlank c = false) (cs : List Char) :
    trimChars (c :: cs) = c :: dropEndBlanks cs := by
  rw [trimChars, List.dropWhile_cons_of_neg (by simp [h]), dropEndBlanks_cons_of_not_blank h]

theorem trimChars_dropWhile (cs : List Char) :
    trimChars (cs.dropWhile isBlank) = trimChars cs := by
  induction cs with
  | nil => rfl
  | cons c cs ih =>
    cases blank : isBlank c with
    | true => rw [List.dropWhile_cons_of_pos blank, ih, trimChars_cons_of_blank blank]
    | false => rw [List.dropWhile_cons_of_neg (by simp [blank])]

theorem trimChars_dropEndBlanks (cs : List Char) : trimChars (dropEndBlanks cs) = trimChars cs := by
  induction cs with
  | nil => rfl
  | cons c cs ih =>
    cases blank : isBlank c with
    | false =>
      have twice : dropEndBlanks (dropEndBlanks cs) = dropEndBlanks cs :=
        dropEndBlanks_eq_self fun _ h => getLast?_dropEndBlanks h
      rw [dropEndBlanks_cons_of_not_blank blank, trimChars_cons_of_solid blank,
        trimChars_cons_of_solid blank, twice]
    | true =>
      rw [trimChars_cons_of_blank blank, ← ih, dropEndBlanks]
      split
      · next none => rw [none, if_pos blank]
      · exact trimChars_cons_of_blank blank _

theorem mem_trimChars {c : Char} (h : isBlank c = false) {cs : List Char} (hc : c ∈ cs) :
    c ∈ trimChars cs := by
  obtain ⟨before, after, rfl⟩ := List.append_of_mem hc
  rw [trimChars_append_cons h]
  exact List.mem_append_right _ List.mem_cons_self

theorem trimChars_subset (cs : List Char) : trimChars cs ⊆ cs := fun _ h =>
  (List.dropWhile_sublist isBlank).subset ((dropEndBlanks_isPrefixOf _).subset h)

theorem toList_trim (s : String) : (trim s).toList = trimChars s.toList := by
  rw [trim, String.toList_ofList]

theorem trim_of_solid {s : String} (h : ∀ c ∈ s.toList, isBlank c = false) : trim s = s := by
  rw [trim, trimChars_eq_self (fun c hc => h c (List.mem_of_mem_head? hc))
    fun c hc => h c (List.mem_of_mem_getLast? hc), String.ofList_toList]

@[simp]
theorem trim_trim (s : String) : trim (trim s) = trim s := by
  rw [trim, toList_trim, trimChars_trimChars, trim]

section

variable {p : Char → Bool}

@[simp]
theorem cutWhere_ne_nil (cs : List Char) : cutWhere p cs ≠ [] := by
  cases cs with
  | nil => exact List.cons_ne_nil _ _
  | cons c cs =>
    rw [cutWhere]
    split
    · exact List.cons_ne_nil _ _
    · split <;> exact List.cons_ne_nil _ _

theorem cutWhere_cons_of_pos {c : Char} (h : p c = true) (cs : List Char) :
    cutWhere p (c :: cs) = [] :: cutWhere p cs := by
  rw [cutWhere, if_pos h]

theorem cutWhere_cons_of_neg {c : Char} (h : p c = false) (cs : List Char) :
    ∃ piece pieces, cutWhere p cs = piece :: pieces ∧
      cutWhere p (c :: cs) = (c :: piece) :: pieces := by
  rw [cutWhere, if_neg (by simp [h])]
  cases cut : cutWhere p cs with
  | nil => exact absurd cut (cutWhere_ne_nil cs)
  | cons piece pieces => exact ⟨piece, pieces, rfl, rfl⟩

theorem cutWhere_pieces (cs : List Char) :
    ∀ piece ∈ cutWhere p cs, ∀ c ∈ piece, p c = false ∧ c ∈ cs := by
  induction cs with
  | nil =>
    intro piece hpiece c hc
    rw [cutWhere, List.mem_singleton] at hpiece
    rw [hpiece] at hc
    cases hc
  | cons d cs ih =>
    have rest : ∀ piece ∈ cutWhere p cs, ∀ c ∈ piece, p c = false ∧ c ∈ d :: cs :=
      fun piece hpiece c hc => ⟨(ih piece hpiece c hc).1,
        List.mem_cons_of_mem d (ih piece hpiece c hc).2⟩
    cases separator : p d with
    | true =>
      rw [cutWhere_cons_of_pos separator]
      intro piece hpiece c hc
      rcases List.mem_cons.mp hpiece with rfl | hpiece
      · cases hc
      · exact rest piece hpiece c hc
    | false =>
      obtain ⟨first, others, cut, grown⟩ := cutWhere_cons_of_neg separator cs
      rw [grown]
      intro piece hpiece c hc
      rcases List.mem_cons.mp hpiece with rfl | hpiece
      · rcases List.mem_cons.mp hc with rfl | hc
        · exact ⟨separator, List.mem_cons_self⟩
        · exact rest first (by simp [cut]) c hc
      · exact rest piece (by simp [cut, hpiece]) c hc

theorem cutWhere_append {cs : List Char} (h : ∀ c ∈ cs, p c = false) (separator : Char)
    (hs : p separator = true) (rest : List Char) :
    cutWhere p (cs ++ separator :: rest) = cs :: cutWhere p rest := by
  induction cs with
  | nil => exact cutWhere_cons_of_pos hs rest
  | cons c cs ih =>
    have grown := ih fun d hd => h d (List.mem_cons_of_mem c hd)
    rw [List.cons_append, cutWhere, if_neg (by simp [h c List.mem_cons_self]), grown]

theorem cutWhere_eq_singleton {cs piece : List Char} (h : cutWhere p cs = [piece]) :
    piece = cs ∧ ∀ c ∈ cs, p c = false := by
  induction cs generalizing piece with
  | nil =>
    cases h
    exact ⟨rfl, fun _ hc => absurd hc List.not_mem_nil⟩
  | cons d cs ih =>
    cases separator : p d with
    | true =>
      rw [cutWhere_cons_of_pos separator, List.cons.injEq] at h
      exact absurd h.2 (cutWhere_ne_nil cs)
    | false =>
      obtain ⟨first, others, cut, grown⟩ := cutWhere_cons_of_neg separator cs
      rw [grown, List.cons.injEq] at h
      obtain ⟨rfl, rfl⟩ := h
      obtain ⟨rfl, whole⟩ := ih cut
      refine ⟨rfl, fun c hc => ?_⟩
      rcases List.mem_cons.mp hc with rfl | hc
      · exact separator
      · exact whole c hc

theorem cutWhere_of_forall {cs : List Char} (h : ∀ c ∈ cs, p c = false) : cutWhere p cs = [cs] := by
  induction cs with
  | nil => rfl
  | cons c cs ih =>
    have grown := ih fun d hd => h d (List.mem_cons_of_mem c hd)
    rw [cutWhere, if_neg (by simp [h c List.mem_cons_self]), grown]

end

theorem cutAtFirst_eq_some_iff {mark : Char} {cs before after : List Char} :
    cutAtFirst mark cs = some (before, after) ↔ cs = before ++ mark :: after ∧ mark ∉ before := by
  induction cs generalizing before with
  | nil => simp [cutAtFirst]
  | cons c cs ih =>
    rw [cutAtFirst]
    split
    · next found =>
      rw [beq_iff_eq] at found
      subst found
      constructor
      · intro h
        cases h
        exact ⟨rfl, List.not_mem_nil⟩
      · rintro ⟨whole, free⟩
        cases before with
        | nil =>
          cases whole
          rfl
        | cons d ds =>
          cases whole
          exact absurd List.mem_cons_self free
    · next other =>
      constructor
      · intro h
        obtain ⟨⟨first, rest⟩, found, same⟩ := Option.map_eq_some_iff.mp h
        cases same
        obtain ⟨rfl, free⟩ := ih.mp found
        refine ⟨rfl, fun hmem => ?_⟩
        rcases List.mem_cons.mp hmem with rfl | hmem
        · exact other (beq_self_eq_true _)
        · exact free hmem
      · rintro ⟨whole, free⟩
        cases before with
        | nil =>
          cases whole
          exact absurd (beq_self_eq_true mark) other
        | cons d ds =>
          cases whole
          have rest := ih.mpr ⟨rfl, fun hmem => free (List.mem_cons_of_mem c hmem)⟩
          rw [rest]
          rfl

theorem cutAtFirst_eq_none {mark : Char} {cs : List Char} (h : cutAtFirst mark cs = none) :
    mark ∉ cs := by
  induction cs with
  | nil => exact List.not_mem_nil
  | cons c cs ih =>
    rw [cutAtFirst] at h
    split at h
    · cases h
    · next other =>
      have rest := ih (Option.map_eq_none_iff.mp h)
      intro hmem
      rcases List.mem_cons.mp hmem with rfl | hmem
      · exact other (beq_self_eq_true _)
      · exact rest hmem

theorem splitOn_of_forall {separator : Char} {s : String}
    (h : ∀ c ∈ s.toList, (c == separator) = false) : splitOn separator s = [s] := by
  rw [splitOn, cutWhere_of_forall h]
  simp

theorem splitOn_eq_singleton {separator : Char} {s piece : String}
    (h : splitOn separator s = [piece]) :
    piece = s ∧ ∀ c ∈ s.toList, (c == separator) = false := by
  rw [splitOn, List.map_eq_singleton_iff] at h
  obtain ⟨cs, cut, rfl⟩ := h
  obtain ⟨rfl, whole⟩ := cutWhere_eq_singleton cut
  exact ⟨String.ofList_toList, whole⟩

theorem mem_splitOn {separator : Char} {s piece : String} (h : piece ∈ splitOn separator s) :
    ∀ c ∈ piece.toList, (c == separator) = false ∧ c ∈ s.toList := by
  rw [splitOn, List.mem_map] at h
  obtain ⟨cs, hcs, rfl⟩ := h
  rw [String.toList_ofList]
  exact cutWhere_pieces s.toList cs hcs

theorem trim_append_append {first last : String} (hf : trim first = first) (hf' : first ≠ "")
    (hl : trim last = last) (hl' : last ≠ "") (middle : String) :
    trim (first ++ middle ++ last) = first ++ middle ++ last := by
  have same : ∀ {s : String}, trim s = s → trimChars s.toList = s.toList := by
    intro s h
    rw [← toList_trim, h]
  have solid : ∀ {s : String}, s ≠ "" → s.toList ≠ [] := fun h none => h (String.toList_eq_nil_iff.mp none)
  have whole : trimChars (first.toList ++ middle.toList ++ last.toList) =
      first.toList ++ middle.toList ++ last.toList := by
    refine trimChars_eq_self (fun c hc => ?_) fun c hc => ?_
    · obtain ⟨a, ha⟩ := Option.ne_none_iff_exists'.mp fun none =>
        solid hf' (List.head?_eq_none_iff.mp none)
      rw [List.append_assoc, List.head?_append, ha, Option.some_or, ← ha, ← same hf] at hc
      exact head?_trimChars hc
    · obtain ⟨a, ha⟩ := Option.ne_none_iff_exists'.mp fun none =>
        solid hl' (List.getLast?_eq_none_iff.mp none)
      rw [List.getLast?_append, ha, Option.some_or, ← ha, ← same hl] at hc
      exact getLast?_trimChars hc
  rw [trim, String.toList_append, String.toList_append, whole, ← String.toList_append,
    ← String.toList_append, String.ofList_toList]

theorem join_cons_cons (separator first second : String) (rest : List String) :
    join separator (first :: second :: rest) = first ++ separator ++ join separator (second :: rest) := by
  apply String.toList_injective
  simp [join, List.intercalate, String.toList_append]

theorem splitOn_join {separator : Char} {pieces : List String} (solid : pieces ≠ [])
    (h : ∀ piece ∈ pieces, ∀ c ∈ piece.toList, (c == separator) = false) :
    splitOn separator (join (String.singleton separator) pieces) = pieces := by
  induction pieces with
  | nil => exact absurd rfl solid
  | cons first rest ih =>
    have whole := h first List.mem_cons_self
    cases rest with
    | nil =>
      have alone : join (String.singleton separator) [first] = first := by
        apply String.toList_injective
        simp [join, List.intercalate]
      rw [alone, splitOn_of_forall whole]
    | cons second rest =>
      have others := ih (List.cons_ne_nil _ _) fun piece hp => h piece (List.mem_cons_of_mem _ hp)
      rw [splitOn] at others
      rw [join_cons_cons, splitOn, String.toList_append, String.toList_append,
        String.toList_singleton, List.append_assoc, List.singleton_append,
        cutWhere_append whole separator (beq_self_eq_true separator), List.map_cons, others,
        String.ofList_toList]

theorem mem_list {separator : Char} {s piece : String} (h : piece ∈ list separator s) :
    trim piece = piece ∧ piece ≠ "" ∧ ∀ c ∈ piece.toList, (c == separator) = false := by
  rw [list, List.mem_filter, List.mem_map] at h
  obtain ⟨⟨cut, hcut, rfl⟩, solid⟩ := h
  refine ⟨trim_trim cut, ?_, ?_⟩
  · intro none
    rw [none] at solid
    cases solid
  · intro c hc
    rw [toList_trim] at hc
    exact (mem_splitOn hcut c (trimChars_subset _ hc)).1

theorem list_of_mem_list {separator : Char} {s piece : String} (h : piece ∈ list separator s) :
    list separator piece = [piece] := by
  obtain ⟨trimmed, solid, whole⟩ := mem_list h
  rw [list, splitOn_of_forall whole, List.map_singleton, trimmed]
  exact List.filter_cons_of_pos (by simpa using solid)

end AddressBook.Text

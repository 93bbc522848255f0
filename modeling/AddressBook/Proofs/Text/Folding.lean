import AddressBook.Proofs.Text.Lowering
import AddressBook.Proofs.Text.Trimming

/-! What names are made of besides their parts, in lower case: blanks, the marks between labels and
parts, and the letters of the labels. In lower case each comes from itself or its capital alone, so
that trimming and cutting at a mark can be done before or after lower-casing. -/

namespace AddressBook.Text

/-- A character that only itself and its ASCII capital have in lower case. -/
def isSteady (c : Char) : Bool := isBlank c || ['=', '/', 'c', 'n', 'o', 'u'].contains c

def isApart (table other : List (Nat × Nat)) : Bool :=
  table.all fun (low, high) => other.all fun (low', high') => Nat.blt high low' || Nat.blt high' low

theorem not_inRanges_of_isApart {table other : List (Nat × Nat)} {c : Char}
    (apart : isApart table other = true) (h : inRanges table c = true) : inRanges other c = false := by
  obtain ⟨range, mem, within⟩ := List.any_eq_true.mp h
  rw [inRanges, List.any_eq_false]
  intro range' mem' within'
  have parted := List.all_eq_true.mp (List.all_eq_true.mp apart _ mem) _ mem'
  simp only [Bool.or_eq_true, Nat.blt_eq, Bool.and_eq_true, decide_eq_true_eq] at parted within within'
  omega

def blanks : List (Nat × Nat) :=
  [(0x9, 0xD), (0x20, 0x20), (0x85, 0x85), (0xA0, 0xA0), (0x1680, 0x1680), (0x2000, 0x200A),
   (0x2028, 0x2029), (0x202F, 0x202F), (0x205F, 0x205F), (0x3000, 0x3000)]

theorem inRanges_blanks {c : Char} (h : isBlank c = true) : inRanges blanks c = true := by
  simp only [isBlank, Bool.or_eq_true, Bool.and_eq_true, decide_eq_true_eq, beq_iff_eq] at h
  simp only [inRanges, blanks, List.any_cons, List.any_nil, Bool.or_eq_true, Bool.and_eq_true,
    decide_eq_true_eq, Bool.or_false]
  omega

def capitals : List (Nat × Nat) :=
  CaseTable.smallCounterparts.map fun (first, count, step, _) => (first, first + count * step - 1)

def smalls : List (Nat × Nat) :=
  CaseTable.smallCounterparts.map fun (_, count, step, target) => (target, target + count * step - 1)

theorem smallCounterpart?_eq_none {c : Char} (h : inRanges capitals c = false) :
    smallCounterpart? c = none := by
  rw [smallCounterpart?, List.findSome?_eq_none_iff]
  rintro ⟨first, count, step, target⟩ run
  have outside := List.any_eq_false.mp h _ (List.mem_map_of_mem run)
  dsimp only
  rw [if_neg]
  simp only [Bool.and_eq_true, decide_eq_true_eq] at outside ⊢
  omega

theorem inRanges_smalls {c d : Char} (h : smallCounterpart? c = some d) :
    inRanges smalls d = true ∨ d.toNat = 0 := by
  obtain ⟨⟨first, count, step, target⟩, run, found⟩ := List.exists_of_findSome?_eq_some h
  dsimp only at found
  split at found
  · next within =>
    cases found
    simp only [Bool.and_eq_true, decide_eq_true_eq] at within
    delta Char.ofNat
    by_cases valid : (target + (c.toNat - first)).isValidChar
    · left
      rw [dif_pos valid]
      refine List.any_eq_true.mpr ⟨_, List.mem_map_of_mem run, ?_⟩
      change (decide (target ≤ target + (c.toNat - first)) &&
        decide (target + (c.toNat - first) ≤ target + count * step - 1)) = true
      simp only [Bool.and_eq_true, decide_eq_true_eq]
      omega
    · right
      rw [dif_neg valid]
      rfl
  · cases found

theorem isWall_of_isBlank {c : Char} (h : isBlank c = true) :
    isWall c = true ∧ lowerChar c = [c] := by
  have here := inRanges_blanks h
  by_cases ascii : c.toNat < 0x80
  · have code : c.toNat ∈ [0x9, 0xA, 0xB, 0xC, 0xD, 0x20] := by
      simp only [inRanges, blanks, List.any_cons, List.any_nil, Bool.or_eq_true, Bool.and_eq_true,
        decide_eq_true_eq, Bool.or_false] at here
      simp only [List.mem_cons, List.not_mem_nil, or_false]
      omega
    have all : ∀ n ∈ [0x9, 0xA, 0xB, 0xC, 0xD, 0x20],
        isWall (Char.ofNat n) = true ∧ lowerChar (Char.ofNat n) = [Char.ofNat n] := by
      decide
    have fixed := all _ code
    rwa [Char.ofNat_toNat] at fixed
  · have uncased : inRanges CaseTable.cased c = false :=
      not_inRanges_of_isApart (by decide) here
    have seen : inRanges CaseTable.ignorable c = false :=
      not_inRanges_of_isApart (by decide +kernel) here
    have kept : inRanges capitals c = false := not_inRanges_of_isApart (by decide) here
    have dotless : c.toNat ≠ 0x130 := by
      intro dotted
      rw [isBlank, dotted] at h
      cases h
    constructor
    · rw [isWall, isCased, if_neg ascii, isCaseIgnorable, if_neg ascii, uncased, seen]
      rfl
    · rw [lowerChar, if_neg ascii, if_neg (by simpa using dotless), smallCounterpart?_eq_none kept]
      rfl

def steady : List (Nat × Nat) :=
  [(0x2F, 0x2F), (0x3D, 0x3D), (0x63, 0x63), (0x6E, 0x6F), (0x75, 0x75)] ++ blanks

theorem inRanges_steady {c : Char} (h : isSteady c = true) : inRanges steady c = true := by
  rw [isSteady, Bool.or_eq_true, List.contains_iff_mem] at h
  rw [inRanges, steady, List.any_append, Bool.or_eq_true]
  rcases h with blank | letter
  · exact Or.inr (inRanges_blanks blank)
  · have letters : (['=', '/', 'c', 'n', 'o', 'u'].all fun d => inRanges (steady.take 5) d) = true := by
      decide
    exact Or.inl (List.all_eq_true.mp letters c letter)

theorem not_isSteady_smallCounterpart {c d : Char} (h : smallCounterpart? c = some d) :
    isSteady d = false := by
  rw [Bool.eq_false_iff]
  intro marked
  have here := inRanges_steady marked
  rcases inRanges_smalls h with small | zero
  · have outside : inRanges smalls d = false := not_inRanges_of_isApart (by decide) here
    rw [small] at outside
    cases outside
  · rw [inRanges, zero] at here
    cases here

theorem lowerChar_of_ascii {c : Char} (h : c.toNat < 0x80) : lowerChar c = [c.toLower] := by
  rw [lowerChar, if_pos h]

theorem lowerChar_of_mem {c d : Char} (hd : d ∈ lowerChar c) (h : isSteady d = true) :
    lowerChar c = [c.toLower] ∧ d = c.toLower := by
  by_cases ascii : c.toNat < 0x80
  · rw [lowerChar_of_ascii ascii] at hd ⊢
    exact ⟨rfl, List.mem_singleton.mp hd⟩
  · have same : c.toLower = c := by
      have lowered := toNat_toLower c
      rw [if_neg (by omega)] at lowered
      exact Char.toNat_inj.mp lowered
    rw [lowerChar, if_neg ascii] at hd ⊢
    split at hd
    · have none : (['i', Char.ofNat 0x307].all fun d => !isSteady d) = true := by decide
      have moving := List.all_eq_true.mp none d hd
      rw [h] at moving
      cases moving
    · next dotless =>
      rw [if_neg dotless, same]
      obtain rfl := List.mem_singleton.mp hd
      cases small : smallCounterpart? c with
      | none => exact ⟨rfl, rfl⟩
      | some e =>
        rw [small, Option.getD_some, not_isSteady_smallCounterpart small] at h
        cases h

/-- What a character comes to in lower case between two texts; the first is written last to first. -/
def lowerBetween (before : List Char) (c : Char) (behind : List Char) : List Char :=
  if c == capitalSigma then
    [if meetsCased before && !meetsCased behind then finalSigma else smallSigma]
  else lowerChar c

theorem lowerAfter_cons (before : List Char) (c : Char) (cs : List Char) :
    lowerAfter before (c :: cs) = lowerBetween before c cs ++ lowerAfter (c :: before) cs := rfl

@[simp]
theorem lowerBetween_ne_nil (before : List Char) (c : Char) (behind : List Char) :
    lowerBetween before c behind ≠ [] := by
  rw [lowerBetween, lowerChar]
  split
  · simp
  · split
    · simp
    · split <;> simp

theorem lowerBetween_of_mem {before behind : List Char} {c d : Char}
    (hd : d ∈ lowerBetween before c behind) (h : isSteady d = true) :
    lowerBetween before c behind = [c.toLower] ∧ d = c.toLower := by
  rw [lowerBetween] at hd ⊢
  split at hd
  · have sigmas : isSteady finalSigma = false ∧ isSteady smallSigma = false := by decide
    rw [List.mem_singleton.mp hd] at h
    split at h
    · rw [sigmas.1] at h
      cases h
    · rw [sigmas.2] at h
      cases h
  · next other =>
    rw [if_neg other]
    exact lowerChar_of_mem hd h

theorem lowerBetween_of_ascii {c : Char} (h : c.toNat < 0x80) (before behind : List Char) :
    lowerBetween before c behind = [c.toLower] := by
  rw [lowerBetween, if_neg, lowerChar_of_ascii h]
  rw [beq_iff_eq]
  rintro rfl
  exact absurd h (by decide)

theorem exists_of_mem_lowerAfter {before cs : List Char} {d : Char} (hd : d ∈ lowerAfter before cs)
    (h : isSteady d = true) : ∃ c ∈ cs, d = c.toLower := by
  induction cs generalizing before with
  | nil => cases hd
  | cons c cs ih =>
    rw [lowerAfter_cons, List.mem_append] at hd
    rcases hd with hd | hd
    · exact ⟨c, List.mem_cons_self, (lowerBetween_of_mem hd h).2⟩
    · obtain ⟨e, he, lowered⟩ := ih hd
      exact ⟨e, List.mem_cons_of_mem c he, lowered⟩

theorem lowerAfter_eq_map {before cs : List Char}
    (h : ∀ d ∈ lowerAfter before cs, isSteady d = true) :
    lowerAfter before cs = cs.map Char.toLower := by
  induction cs generalizing before with
  | nil => rfl
  | cons c cs ih =>
    rw [lowerAfter_cons] at h ⊢
    obtain ⟨first, others⟩ := List.forall_mem_append.mp h
    obtain ⟨d, ds, shape⟩ := List.exists_cons_of_ne_nil (lowerBetween_ne_nil before c cs)
    have here : d ∈ lowerBetween before c cs := by
      rw [shape]
      exact List.mem_cons_self
    rw [ih others, (lowerBetween_of_mem here (first d here)).1]
    rfl

theorem lowerAfter_of_ascii {cs : List Char} (h : ∀ c ∈ cs, c.toNat < 0x80) (before : List Char) :
    lowerAfter before cs = cs.map Char.toLower := by
  induction cs generalizing before with
  | nil => rfl
  | cons c cs ih =>
    obtain ⟨first, others⟩ := List.forall_mem_cons.mp h
    rw [lowerAfter_cons, lowerBetween_of_ascii first, ih others]
    rfl

/-! Trimming. -/

theorem isSteady_of_isBlank {c : Char} (h : isBlank c = true) : isSteady c = true := by
  rw [isSteady, h, Bool.true_or]

theorem isBlank_toLower (c : Char) : isBlank c.toLower = isBlank c := by
  have lowered := toNat_toLower c
  split at lowered
  · next capital =>
    have none : ∀ d : Char, 65 ≤ d.toNat → d.toNat ≤ 122 → isBlank d = false := by
      intro d low high
      rw [Bool.eq_false_iff]
      intro blank
      have outside : inRanges [(65, 122)] d = false :=
        not_inRanges_of_isApart (by decide) (inRanges_blanks blank)
      simp [inRanges, low, high] at outside
    rw [none c (by omega) (by omega), none c.toLower (by omega) (by omega)]
  · rw [Char.toNat_inj.mp lowered]

theorem lowerBetween_blank (before : List Char) (c : Char) (behind : List Char) :
    if isBlank c then lowerBetween before c behind = [c]
    else ∀ d ∈ lowerBetween before c behind, isBlank d = false := by
  split
  · next blank =>
    rw [lowerBetween, if_neg, (isWall_of_isBlank blank).2]
    rw [beq_iff_eq]
    rintro rfl
    exact absurd blank (by decide)
  · next solid =>
    intro d hd
    rw [Bool.eq_false_iff]
    intro blank
    rw [(lowerBetween_of_mem hd (isSteady_of_isBlank blank)).2, isBlank_toLower] at blank
    exact solid blank

theorem meetsCased_dropEndBlanks (cs : List Char) : meetsCased (dropEndBlanks cs) = meetsCased cs := by
  induction cs with
  | nil => rfl
  | cons c cs ih =>
    rw [dropEndBlanks]
    split
    · next none =>
      rw [none] at ih
      split
      · next blank => rw [meetsCased_wall (isWall_of_isBlank blank).1]; rfl
      · rw [meetsCased_cons, meetsCased_cons, ih]
    · rw [meetsCased_cons, meetsCased_cons, ih]

theorem dropEndBlanks_append {cs rest : List Char} (h : dropEndBlanks rest ≠ []) :
    dropEndBlanks (cs ++ rest) = cs ++ dropEndBlanks rest := by
  induction cs with
  | nil => rfl
  | cons c cs ih =>
    rw [List.cons_append, dropEndBlanks_cons_of_rest (by simp [ih, h]), ih, List.cons_append]

theorem dropEndBlanks_append_of_nil {cs rest : List Char} (h : dropEndBlanks rest = []) :
    dropEndBlanks (cs ++ rest) = dropEndBlanks cs := by
  induction cs with
  | nil => exact h
  | cons c cs ih => rw [List.cons_append, dropEndBlanks, dropEndBlanks, ih]

theorem dropEndBlanks_lowerAfter (before cs : List Char) :
    dropEndBlanks (lowerAfter before cs) = lowerAfter before (dropEndBlanks cs) := by
  induction cs generalizing before with
  | nil => rfl
  | cons c cs ih =>
    have first := lowerBetween_blank before c cs
    have same : lowerBetween before c (dropEndBlanks cs) = lowerBetween before c cs := by
      rw [lowerBetween, lowerBetween, meetsCased_dropEndBlanks]
    rw [lowerAfter_cons]
    by_cases rest : dropEndBlanks cs = []
    · have gone : dropEndBlanks (lowerAfter (c :: before) cs) = [] := by rw [ih, rest]; rfl
      rw [dropEndBlanks_append_of_nil gone]
      rw [dropEndBlanks, rest]
      dsimp only
      split at first
      · next blank =>
        rw [first, if_pos blank]
        simp [dropEndBlanks, blank, lowerAfter]
      · next solid =>
        rw [rest] at same
        rw [if_neg solid, lowerAfter_cons, same,
          dropEndBlanks_eq_self fun d hd => first d (List.mem_of_getLast? hd)]
        exact (List.append_nil _).symm
    · have stays : dropEndBlanks (lowerAfter (c :: before) cs) ≠ [] := by
        obtain ⟨d, ds, shape⟩ := List.exists_cons_of_ne_nil rest
        rw [ih, shape, lowerAfter_cons]
        exact fun none => lowerBetween_ne_nil _ _ _ (List.append_eq_nil_iff.mp none).1
      rw [dropEndBlanks_append stays, ih, dropEndBlanks_cons_of_rest rest, lowerAfter_cons, same]

theorem dropWhile_lowerChars (cs : List Char) :
    (lowerChars cs).dropWhile isBlank = lowerChars (cs.dropWhile isBlank) := by
  induction cs with
  | nil => rfl
  | cons c cs ih =>
    have first := lowerBetween_blank [] c cs
    rw [lowerChars, lowerAfter_cons]
    split at first
    · next blank =>
      have apart : meetsCased [c] = false := meetsCased_wall (isWall_of_isBlank blank).1 []
      rw [first, List.singleton_append, List.dropWhile_cons_of_pos blank,
        List.dropWhile_cons_of_pos blank, lowerAfter_of_not_meetsCased apart, ih]
    · next solid =>
      obtain ⟨d, ds, shape⟩ := List.exists_cons_of_ne_nil (lowerBetween_ne_nil [] c cs)
      have head : ¬ isBlank d = true := by
        rw [first d (by rw [shape]; exact List.mem_cons_self)]
        exact Bool.false_ne_true
      rw [List.dropWhile_cons_of_neg solid, lowerChars, lowerAfter_cons, shape, List.cons_append,
        List.dropWhile_cons_of_neg head]

/-- A text can be trimmed before or after it is put in lower case. -/
theorem lower_trim (s : String) : lower (trim s) = trim (lower s) := by
  rw [lower, toList_trim, trim, lower, String.toList_ofList, trimChars, trimChars,
    dropWhile_lowerChars]
  exact congrArg String.ofList (dropEndBlanks_lowerAfter [] _).symm

theorem lower_eq_empty_iff {s : String} : lower s = "" ↔ s = "" := by
  constructor
  · intro h
    have part : "".toList.Sublist s.toList := List.nil_sublist _
    exact (eq_of_lower_eq_of_sublist part h.symm).symm
  · rintro rfl
    rfl

/-! Marks. -/

theorem mem_lower_iff {mark : Char} (hm : mark = '=' ∨ mark = '/') (before cs : List Char) :
    mark ∈ lowerAfter before cs ↔ mark ∈ cs := by
  have steady : isSteady mark = true := by rcases hm with rfl | rfl <;> decide
  have codes : mark.toNat = 47 ∨ mark.toNat = 61 := by
    rcases hm with rfl | rfl
    · exact Or.inr rfl
    · exact Or.inl rfl
  constructor
  · intro h
    obtain ⟨c, hc, lowered⟩ := exists_of_mem_lowerAfter h steady
    have code := toNat_toLower c
    rw [← lowered] at code
    have same : c = mark := by
      refine Char.toNat_inj.mp ?_
      split at code <;> omega
    rwa [← same]
  · intro h
    induction cs generalizing before with
    | nil => cases h
    | cons c cs ih =>
      rw [lowerAfter_cons, List.mem_append]
      rcases List.mem_cons.mp h with rfl | h
      · left
        have code := toNat_toLower mark
        rw [if_neg (by omega)] at code
        rw [lowerBetween_of_ascii (by omega), Char.toNat_inj.mp code]
        exact List.mem_singleton_self _
      · exact Or.inr (ih _ h)

theorem cutAtFirst_of_lower {cs ds before after : List Char} (h : lowerChars cs = lowerChars ds)
    (cut : cutAtFirst '=' cs = some (before, after)) :
    ∃ before' after', cutAtFirst '=' ds = some (before', after') ∧
      lowerChars before = lowerChars before' ∧ lowerChars after = lowerChars after' := by
  have wall : isWall '=' = true ∧ lowerChar '=' = ['='] := by decide
  have parts : ∀ before after : List Char, '=' ∉ before →
      cutAtFirst '=' (lowerChars (before ++ '=' :: after)) =
        some (lowerChars before, lowerChars after) := by
    intro before after free
    rw [lowerChars, lowerAfter_append_wall wall.1 wall.2]
    exact cutAtFirst_eq_some_iff.mpr
      ⟨rfl, fun there => free ((mem_lower_iff (Or.inl rfl) [] before).mp there)⟩
  obtain ⟨rfl, free⟩ := cutAtFirst_eq_some_iff.mp cut
  have held : '=' ∈ ds := by
    rw [← mem_lower_iff (Or.inl rfl) []]
    change '=' ∈ lowerChars ds
    rw [← h]
    exact (mem_lower_iff (Or.inl rfl) [] _).mpr (List.mem_append_right _ List.mem_cons_self)
  cases cut' : cutAtFirst '=' ds with
  | none => exact absurd held (cutAtFirst_eq_none cut')
  | some pieces =>
    obtain ⟨before', after'⟩ := pieces
    obtain ⟨rfl, free'⟩ := cutAtFirst_eq_some_iff.mp cut'
    refine ⟨before', after', rfl, ?_⟩
    have both := parts before after free
    rw [h, parts before' after' free', Option.some.injEq, Prod.mk.injEq] at both
    exact ⟨both.1.symm, both.2.symm⟩

end AddressBook.Text

import AddressBook.Formula.Reader

/-! The grammar of formulas on tokens, one level for each strength of binding, and its half that
writers need: what derives from the grammar is read as the formula of the derivation. A phrase is
read with anything behind it that does not carry it on. -/

namespace AddressBook.Formula

inductive Level where
  | disjunction
  | conjunction
  | negation
  | comparison
  | list
  | atom
  deriving DecidableEq

/-- The tokens of a phrase of a level and the formula that the phrase stands for. -/
inductive Derives : Level → List Token → Formula → Prop where
  | conjunct {ts f} : Derives .conjunction ts f → Derives .disjunction ts f
  | either {ts us f g} : Derives .disjunction ts f → Derives .conjunction us g →
      Derives .disjunction (ts ++ .either :: us) (.either f g)
  | unary {ts f} : Derives .negation ts f → Derives .conjunction ts f
  | both {ts us f g} : Derives .conjunction ts f → Derives .negation us g →
      Derives .conjunction (ts ++ .both :: us) (.both f g)
  | affirmed {ts f} : Derives .comparison ts f → Derives .negation ts f
  | negation {ts f} : Derives .negation ts f → Derives .negation (.negation :: ts) (.negation f)
  | alone {ts f} : Derives .list ts f → Derives .comparison ts f
  | compare {ts us f g} (c : Comparison) : Derives .list ts f → Derives .list us g →
      Derives .comparison (ts ++ .comparison c :: us) (.compare c f g)
  | single {ts f} : Derives .atom ts f → Derives .list ts f
  | join {ts us values more} : Derives .list ts (.literal values) →
      Derives .atom us (.literal more) →
      Derives .list (ts ++ .colon :: us) (.literal (values ++ more))
  | enclosed {ts f} : Derives .disjunction ts f → Derives .atom (.opening :: (ts ++ [.closing])) f
  | text (s : String) : Derives .atom [.text s] (.literal [.text s])
  | number (n : Number) : Derives .atom [.number n] (.literal [.number n])
  | field (name : String) : Derives .atom [.field name] (.field name)
  | lowerCase {ts f name} : Function.ofName? name = some .lowerCase → Derives .disjunction ts f →
      Derives .atom (.function name :: .opening :: (ts ++ [.closing])) (.lowerCase f)
  | matching {ts us f g name place} : Function.ofName? name = some (.matching place) →
      Derives .disjunction ts f → Derives .disjunction us g →
      Derives .atom (.function name :: .opening :: (ts ++ .semicolon :: (us ++ [.closing])))
        (.matching place f g)

namespace Level

def carriesOn : Level → Token → Bool
  | .atom, _ => false
  | _, .colon => true
  | .list, _ => false
  | _, .comparison _ => true
  | .conjunction, .both => true
  | .disjunction, .both => true
  | .disjunction, .either => true
  | _, _ => false

def stops (level : Level) (rest : List Token) : Prop :=
  ∀ t us, rest = t :: us → level.carriesOn t = false

end Level

open Level

@[simp]
theorem stops_nil (level : Level) : level.stops [] := by
  intro t us h
  cases h

@[simp]
theorem stops_cons {level : Level} {t : Token} {us : List Token} :
    level.stops (t :: us) ↔ level.carriesOn t = false := by
  constructor
  · intro h
    exact h t us rfl
  · rintro h _ _ ⟨⟩
    exact h

theorem stops_closing (level : Level) (rest : List Token) : level.stops (.closing :: rest) := by
  cases level <;> exact stops_cons.mpr rfl

theorem stops_semicolon (level : Level) (rest : List Token) :
    level.stops (.semicolon :: rest) := by
  cases level <;> exact stops_cons.mpr rfl

theorem stops_of_tighter {loose tight : Level} {rest : List Token}
    (h : ∀ t, loose.carriesOn t = false → tight.carriesOn t = false) (hr : loose.stops rest) :
    tight.stops rest := by
  intro t us ht
  exact h t (hr t us ht)

theorem conjunction_of_disjunction (t : Token) (h : Level.disjunction.carriesOn t = false) :
    Level.conjunction.carriesOn t = false := by
  cases t <;> first | exact h | rfl

theorem negation_of_conjunction (t : Token) (h : Level.conjunction.carriesOn t = false) :
    Level.negation.carriesOn t = false := by
  cases t <;> first | exact h | rfl

theorem comparison_of_negation (t : Token) (h : Level.negation.carriesOn t = false) :
    Level.comparison.carriesOn t = false := by
  cases t <;> exact h

theorem list_of_comparison (t : Token) (h : Level.comparison.carriesOn t = false) :
    Level.list.carriesOn t = false := by
  cases t <;> first | exact h | rfl

theorem Derives.head {level : Level} {ts : List Token} {f : Formula} (h : Derives level ts f) :
    ∃ t us, ts = t :: us ∧
      (level = .comparison ∨ level = .list ∨ level = .atom → t ≠ .negation) := by
  induction h with
  | conjunct _ ih => obtain ⟨t, us, rfl, _⟩ := ih; exact ⟨t, us, rfl, by simp⟩
  | either _ _ ih _ => obtain ⟨t, us, rfl, _⟩ := ih; exact ⟨t, _, rfl, by simp⟩
  | unary _ ih => obtain ⟨t, us, rfl, _⟩ := ih; exact ⟨t, us, rfl, by simp⟩
  | both _ _ ih _ => obtain ⟨t, us, rfl, _⟩ := ih; exact ⟨t, _, rfl, by simp⟩
  | affirmed _ ih => obtain ⟨t, us, rfl, _⟩ := ih; exact ⟨t, us, rfl, by simp⟩
  | negation _ _ => exact ⟨_, _, rfl, by simp⟩
  | alone _ ih => obtain ⟨t, us, rfl, ht⟩ := ih; exact ⟨t, us, rfl, by simpa using ht⟩
  | compare _ _ _ ih _ => obtain ⟨t, us, rfl, ht⟩ := ih; exact ⟨t, _, rfl, by simpa using ht⟩
  | single _ ih => obtain ⟨t, us, rfl, ht⟩ := ih; exact ⟨t, us, rfl, by simpa using ht⟩
  | join _ _ ih _ => obtain ⟨t, us, rfl, ht⟩ := ih; exact ⟨t, _, rfl, by simpa using ht⟩
  | enclosed | text | number | field | lowerCase | matching => exact ⟨_, _, rfl, by simp⟩

theorem Derives.length_pos {level : Level} {ts : List Token} {f : Formula}
    (h : Derives level ts f) : 0 < ts.length := by
  obtain ⟨t, us, rfl, _⟩ := h.head
  simp

/-- What reading does with the tokens of a phrase and the tokens behind it. A chain is read up to
its last link, where the reader of further links takes over. -/
def Reads : Level → List Token → Formula → Prop
  | .disjunction, ts, f => ∀ fuel rest, 8 * ts.length + 6 ≤ fuel → Level.conjunction.stops rest →
      ∃ left, fuel ≤ left + ts.length ∧
        readEither fuel (ts ++ rest) = readEitherTail left f rest
  | .conjunction, ts, f => ∀ fuel rest, 8 * ts.length + 5 ≤ fuel → Level.negation.stops rest →
      ∃ left, fuel ≤ left + ts.length ∧
        readBoth fuel (ts ++ rest) = readBothTail left f rest
  | .negation, ts, f => ∀ fuel rest, 8 * ts.length + 4 ≤ fuel → Level.negation.stops rest →
      readNegation fuel (ts ++ rest) = .ok (f, rest)
  | .comparison, ts, f => ∀ fuel rest, 8 * ts.length + 3 ≤ fuel → Level.comparison.stops rest →
      readCompare fuel (ts ++ rest) = .ok (f, rest)
  | .list, ts, f => ∀ fuel rest, 8 * ts.length + 2 ≤ fuel →
      (Level.list.stops rest → readList fuel (ts ++ rest) = .ok (f, rest)) ∧
      ∀ values us, f = .literal values → rest = .colon :: us →
        ∃ left, fuel ≤ left + ts.length ∧
          readList fuel (ts ++ rest) = readListTail left values rest
  | .atom, ts, f => ∀ fuel rest, 8 * ts.length + 1 ≤ fuel →
      readAtom fuel (ts ++ rest) = .ok (f, rest)

theorem readEitherTail_stop {left : Nat} {f : Formula} {rest : List Token} (hl : 0 < left)
    (hr : Level.disjunction.stops rest) : readEitherTail left f rest = .ok (f, rest) := by
  obtain ⟨left, rfl⟩ := Nat.exists_eq_succ_of_ne_zero (Nat.pos_iff_ne_zero.mp hl)
  rw [readEitherTail]
  intro us hu
  exact absurd (hr _ _ hu) (by decide)

theorem readBothTail_stop {left : Nat} {f : Formula} {rest : List Token} (hl : 0 < left)
    (hr : Level.conjunction.stops rest) : readBothTail left f rest = .ok (f, rest) := by
  obtain ⟨left, rfl⟩ := Nat.exists_eq_succ_of_ne_zero (Nat.pos_iff_ne_zero.mp hl)
  rw [readBothTail]
  intro us hu
  exact absurd (hr _ _ hu) (by decide)

theorem readListTail_stop {left : Nat} {values : List Scalar} {rest : List Token} (hl : 0 < left)
    (hr : Level.list.stops rest) : readListTail left values rest = .ok (.literal values, rest) := by
  obtain ⟨left, rfl⟩ := Nat.exists_eq_succ_of_ne_zero (Nat.pos_iff_ne_zero.mp hl)
  rw [readListTail]
  intro us hu
  exact absurd (hr _ _ hu) (by decide)

theorem Reads.disjunction {ts : List Token} {f : Formula} (h : Reads .disjunction ts f)
    (hpos : 0 < ts.length) (fuel : Nat) {rest : List Token} (hf : 8 * ts.length + 6 ≤ fuel)
    (hr : Level.disjunction.stops rest) : readEither fuel (ts ++ rest) = .ok (f, rest) := by
  obtain ⟨left, hl, he⟩ := h fuel rest hf (stops_of_tighter conjunction_of_disjunction hr)
  rw [he, readEitherTail_stop (by omega) hr]

theorem Reads.conjunction {ts : List Token} {f : Formula} (h : Reads .conjunction ts f)
    (fuel : Nat) {rest : List Token} (hf : 8 * ts.length + 5 ≤ fuel)
    (hr : Level.conjunction.stops rest) : readBoth fuel (ts ++ rest) = .ok (f, rest) := by
  obtain ⟨left, hl, he⟩ := h fuel rest hf (stops_of_tighter negation_of_conjunction hr)
  rw [he, readBothTail_stop (by omega) hr]

section

variable {ts us : List Token} {f g : Formula}

theorem reads_conjunct (h : Derives .conjunction ts f) (ih : Reads .conjunction ts f) :
    Reads .disjunction ts f := by
  intro fuel rest hf hr
  obtain ⟨fuel, rfl⟩ := Nat.exists_eq_add_of_lt (show 0 < fuel by omega)
  have hpos := h.length_pos
  refine ⟨fuel, by omega, ?_⟩
  rw [Nat.zero_add, readEither, ih.conjunction fuel (by omega) hr]
  rfl

theorem reads_either (hg : Derives .conjunction us g) (ihf : Reads .disjunction ts f)
    (ihg : Reads .conjunction us g) : Reads .disjunction (ts ++ .either :: us) (.either f g) := by
  intro fuel rest hfuel hr
  simp only [List.length_append, List.length_cons] at hfuel ⊢
  have hus := hg.length_pos
  obtain ⟨left, hl, he⟩ := ihf fuel (.either :: (us ++ rest)) (by omega) (stops_cons.mpr rfl)
  obtain ⟨left, rfl⟩ := Nat.exists_eq_add_of_lt (show 0 < left by omega)
  refine ⟨left, by omega, ?_⟩
  rw [List.append_assoc, List.cons_append, he, Nat.zero_add, readEitherTail,
    ihg.conjunction left (by omega) hr]
  rfl

theorem reads_unary (h : Derives .negation ts f) (ih : Reads .negation ts f) :
    Reads .conjunction ts f := by
  intro fuel rest hf hr
  obtain ⟨fuel, rfl⟩ := Nat.exists_eq_add_of_lt (show 0 < fuel by omega)
  have hpos := h.length_pos
  refine ⟨fuel, by omega, ?_⟩
  rw [Nat.zero_add, readBoth, ih fuel rest (by omega) hr]
  rfl

theorem reads_both (hg : Derives .negation us g) (ihf : Reads .conjunction ts f)
    (ihg : Reads .negation us g) : Reads .conjunction (ts ++ .both :: us) (.both f g) := by
  intro fuel rest hfuel hr
  simp only [List.length_append, List.length_cons] at hfuel ⊢
  have hus := hg.length_pos
  obtain ⟨left, hl, he⟩ := ihf fuel (.both :: (us ++ rest)) (by omega) (stops_cons.mpr rfl)
  obtain ⟨left, rfl⟩ := Nat.exists_eq_add_of_lt (show 0 < left by omega)
  refine ⟨left, by omega, ?_⟩
  rw [List.append_assoc, List.cons_append, he, Nat.zero_add, readBothTail,
    ihg left rest (by omega) hr]
  rfl

theorem reads_affirmed (h : Derives .comparison ts f) (ih : Reads .comparison ts f) :
    Reads .negation ts f := by
  intro fuel rest hf hr
  obtain ⟨fuel, rfl⟩ := Nat.exists_eq_add_of_lt (show 0 < fuel by omega)
  obtain ⟨t, us, rfl, ht⟩ := h.head
  have comparison := ih fuel rest (by omega) (stops_of_tighter comparison_of_negation hr)
  rw [Nat.zero_add, List.cons_append, readNegation]
  · exact comparison
  · rintro _ ⟨⟩
    exact ht (Or.inl rfl) rfl

theorem reads_negation (ih : Reads .negation ts f) :
    Reads .negation (.negation :: ts) (.negation f) := by
  intro fuel rest hf hr
  simp only [List.length_cons] at hf
  obtain ⟨fuel, rfl⟩ := Nat.exists_eq_add_of_lt (show 0 < fuel by omega)
  rw [Nat.zero_add, List.cons_append, readNegation, ih fuel rest (by omega) hr]
  rfl

theorem reads_alone (ih : Reads .list ts f) : Reads .comparison ts f := by
  intro fuel rest hf hr
  obtain ⟨fuel, rfl⟩ := Nat.exists_eq_add_of_lt (show 0 < fuel by omega)
  have list := stops_of_tighter list_of_comparison hr
  rw [Nat.zero_add, readCompare, (ih fuel rest (by omega)).1 list]
  cases rest with
  | nil => rfl
  | cons t us =>
    have step := stops_cons.mp hr
    cases t <;> first | rfl | cases step

theorem reads_compare (c : Comparison) (ihf : Reads .list ts f) (ihg : Reads .list us g) :
    Reads .comparison (ts ++ .comparison c :: us) (.compare c f g) := by
  intro fuel rest hfuel hr
  simp only [List.length_append, List.length_cons] at hfuel
  obtain ⟨fuel, rfl⟩ := Nat.exists_eq_add_of_lt (show 0 < fuel by omega)
  have list := stops_of_tighter list_of_comparison hr
  have first := (ihf fuel (.comparison c :: (us ++ rest)) (by omega)).1 (stops_cons.mpr rfl)
  have second := (ihg fuel rest (by omega)).1 list
  rw [Nat.zero_add, List.append_assoc, List.cons_append, readCompare, first]
  simp only [bind, Except.bind, second]
  rfl

theorem reads_single (h : Derives .atom ts f) (ih : Reads .atom ts f) : Reads .list ts f := by
  intro fuel rest hf
  obtain ⟨fuel, rfl⟩ := Nat.exists_eq_add_of_lt (show 0 < fuel by omega)
  have hpos := h.length_pos
  rw [Nat.zero_add, readList, ih fuel rest (by omega)]
  refine ⟨fun hr => ?_, ?_⟩
  · cases rest with
    | nil => rfl
    | cons t us =>
      have step := stops_cons.mp hr
      cases t <;> first | rfl | cases step
  · rintro values us rfl rfl
    exact ⟨fuel, by omega, rfl⟩

theorem reads_join {values more : List Scalar} (hg : Derives .atom us (.literal more))
    (ihf : Reads .list ts (.literal values)) (ihg : Reads .atom us (.literal more)) :
    Reads .list (ts ++ .colon :: us) (.literal (values ++ more)) := by
  intro fuel rest hfuel
  simp only [List.length_append, List.length_cons] at hfuel ⊢
  have hus := hg.length_pos
  obtain ⟨left, hl, he⟩ := (ihf fuel (.colon :: (us ++ rest)) (by omega)).2 values _ rfl rfl
  obtain ⟨left, rfl⟩ := Nat.exists_eq_add_of_lt (show 0 < left by omega)
  have joined : readList fuel (ts ++ .colon :: us ++ rest) =
      readListTail left (values ++ more) rest := by
    rw [List.append_assoc, List.cons_append, he, Nat.zero_add, readListTail,
      ihg left rest (by omega)]
    rfl
  rw [joined]
  refine ⟨readListTail_stop (by omega), ?_⟩
  rintro _ _ ⟨⟩ _
  exact ⟨left, by omega, rfl⟩

theorem reads_enclosed (h : Derives .disjunction ts f) (ih : Reads .disjunction ts f) :
    Reads .atom (.opening :: (ts ++ [.closing])) f := by
  intro fuel rest hf
  simp only [List.length_append, List.length_cons, List.length_nil] at hf
  obtain ⟨fuel, rfl⟩ := Nat.exists_eq_add_of_lt (show 0 < fuel by omega)
  have inner := ih.disjunction h.length_pos fuel (by omega)
    (stops_closing .disjunction rest)
  rw [Nat.zero_add, List.cons_append, List.append_assoc, List.singleton_append, readAtom, inner]
  rfl

theorem reads_lowerCase {name : String} (hn : Function.ofName? name = some .lowerCase)
    (h : Derives .disjunction ts f) (ih : Reads .disjunction ts f) :
    Reads .atom (.function name :: .opening :: (ts ++ [.closing])) (.lowerCase f) := by
  intro fuel rest hf
  simp only [List.length_append, List.length_cons, List.length_nil] at hf
  obtain ⟨fuel, rfl⟩ := Nat.exists_eq_add_of_lt (show 1 < fuel by omega)
  have inner := ih.disjunction h.length_pos fuel (by omega)
    (stops_closing .disjunction rest)
  rw [show 1 + fuel + 1 = fuel + 2 by omega, List.cons_append, List.cons_append,
    List.append_assoc, readAtom]
  simp only [expect, if_true, bind, Except.bind, readCall, hn, List.singleton_append, inner]
  rfl

theorem reads_matching {name : String} {place : Place}
    (hn : Function.ofName? name = some (.matching place)) (hf : Derives .disjunction ts f)
    (hg : Derives .disjunction us g) (ihf : Reads .disjunction ts f)
    (ihg : Reads .disjunction us g) :
    Reads .atom (.function name :: .opening :: (ts ++ .semicolon :: (us ++ [.closing])))
      (.matching place f g) := by
  intro fuel rest hfuel
  simp only [List.length_append, List.length_cons, List.length_nil] at hfuel
  obtain ⟨fuel, rfl⟩ := Nat.exists_eq_add_of_lt (show 1 < fuel by omega)
  have first := ihf.disjunction hf.length_pos fuel (by omega)
    (stops_semicolon .disjunction (us ++ .closing :: rest))
  have second := ihg.disjunction hg.length_pos fuel (by omega)
    (stops_closing .disjunction rest)
  rw [show 1 + fuel + 1 = fuel + 2 by omega]
  simp only [List.cons_append, List.append_assoc, List.nil_append, readAtom, expect, if_true,
    bind, Except.bind, readCall, hn, first, second]
  rfl

end

theorem Derives.reads {level : Level} {ts : List Token} {f : Formula} (h : Derives level ts f) :
    Reads level ts f := by
  induction h with
  | conjunct h ih => exact reads_conjunct h ih
  | either _ hg ihf ihg => exact reads_either hg ihf ihg
  | unary h ih => exact reads_unary h ih
  | both _ hg ihf ihg => exact reads_both hg ihf ihg
  | affirmed h ih => exact reads_affirmed h ih
  | negation _ ih => exact reads_negation ih
  | alone _ ih => exact reads_alone ih
  | compare c _ _ ihf ihg => exact reads_compare c ihf ihg
  | single h ih => exact reads_single h ih
  | join _ hg ihf ihg => exact reads_join hg ihf ihg
  | enclosed h ih => exact reads_enclosed h ih
  | text | number | field =>
    intro fuel rest hf
    obtain ⟨fuel, rfl⟩ := Nat.exists_eq_add_of_lt (show 0 < fuel by omega)
    rfl
  | lowerCase hn h ih => exact reads_lowerCase hn h ih
  | matching hn hf hg ihf ihg => exact reads_matching hn hf hg ihf ihg

/-- What derives from the grammar as a whole is read as the formula of the derivation. -/
theorem ofTokens_of_derives {ts : List Token} {f : Formula} (h : Derives .disjunction ts f) :
    ofTokens ts = .ok f := by
  have whole := h.reads.disjunction h.length_pos (8 * ts.length + 8) (by omega)
    (stops_nil .disjunction)
  rw [List.append_nil] at whole
  rw [ofTokens, whole]
  rfl

end AddressBook.Formula

import AddressBook.Proofs.Filter.Cutting
import AddressBook.Proofs.Filter.Values

/-! Reading derived texts. A leaf is cut at its operator, and a text of a level falls apart where the
derivation put it together. -/

namespace AddressBook.Filter

open Text

variable {cs : List Char}

namespace Operator

def symbol (operator : Operator) : String := " " ++ operator.word ++ " "

theorem toList_symbol (operator : Operator) :
    operator.symbol.toList = ' ' :: (operator.word.toList ++ [' ']) := by
  rw [symbol, String.toList_append, String.toList_append]
  rfl

theorem find?_symbol (operator : Operator) :
    operators.find? (fun entry => entry.1 == operator.symbol) = some (operator.symbol, operator) := by
  rcases operator with _ | _ | _ | (_ | _ | _ | _) | (_ | _ | _) <;> rfl

theorem eq_of_word_eq {operator other : Operator} (h : operator.word = other.word) :
    operator = other := by
  have found := operator.find?_symbol
  rw [symbol, h, ← symbol, find?_symbol] at found
  exact (congrArg Prod.snd (Option.some.inj found)).symm

theorem mark_or_symbol : ∀ entry ∈ operators,
    (entry.1.toList.head?.any fun c => !isSolid c && c != ' ') = true ∨ entry.1 = entry.2.symbol := by
  decide

end Operator

theorem not_startsWithWord_word {operator other : Operator} (h : other ≠ operator)
    (rest : List Char) :
    startsWithWord (other.word.toList ++ [' ']) (operator.word.toList ++ ' ' :: rest) = false := by
  rw [Bool.eq_false_iff]
  intro starts
  have unbroken : ' ' ∉ other.word.toList := fun blank => absurd (other.solid_word _ blank) (by decide)
  obtain ⟨a, b, letters, -, ha, hb⟩ := operator.exists_word
  have same := lower_of_startsWithWord unbroken operator.solid_word starts
  rw [letters, List.map_cons, List.map_singleton, ha, hb, ← letters, String.toList_inj] at same
  exact h (Operator.eq_of_word_eq same.symm)

section Leaf

variable {name : String} {value : Json} (operator : Operator)

theorem splitAt?_mark {symbol : String} {w : Char} {word : List Char}
    (chars : symbol.toList = w :: word) (hw : isSolid w = false) (blank : w ≠ ' ')
    (identifier : isIdentifier name = true) (h : WrittenValue cs value) :
    splitAt? symbol (name.toList ++ ' ' :: (operator.word.toList ++ ' ' :: cs)) = none := by
  have apart : ' '.toLower ≠ w := Ne.symm blank
  have passed : Passes false (w :: word) 0 _ [] := passes_leaf hw operator identifier h
    (startsWithWord_of_ne apart _ _) (startsWithWord_of_ne apart _ _)
  rw [Passes, List.append_nil] at passed
  rw [splitAt?, chars, passed]
  rfl

theorem splitAt?_other {other : Operator} (ne : other ≠ operator)
    (identifier : isIdentifier name = true) (h : WrittenValue cs value) :
    splitAt? other.symbol (name.toList ++ ' ' :: (operator.word.toList ++ ' ' :: cs)) = none := by
  have before := not_startsWithWord_word ne (cs ++ [])
  have behind : startsWithWord (other.word.toList ++ [' ']) (cs ++ []) = false := by
    obtain ⟨a, b, letters, initial, -, -⟩ := other.exists_word
    obtain ⟨c, ds, rfl, apart⟩ := h.exists_cons
    rw [letters]
    refine startsWithWord_of_ne (fun same => apart ?_) _ _
    rw [same]
    exact List.mem_cons_of_mem _ (List.mem_cons_of_mem _ initial)
  have passed : Passes false (' ' :: (other.word.toList ++ [' '])) 0 _ [] :=
    passes_leaf rfl operator identifier h before behind
  rw [Passes, List.append_nil] at passed
  rw [splitAt?, other.toList_symbol, passed]
  rfl

theorem splitAt?_symbol (identifier : isIdentifier name = true) (h : WrittenValue cs value) :
    splitAt? operator.symbol (name.toList ++ ' ' :: (operator.word.toList ++ ' ' :: cs)) =
      some (name.toList, cs) := by
  obtain ⟨c, rest, chars, -, solid⟩ := exists_of_isIdentifier identifier
  obtain ⟨a, b, letters, -, small, small'⟩ := operator.exists_word
  have found : cutAtWord false (' ' :: (operator.word.toList ++ [' '])) 0 false
      (' ' :: (operator.word.toList ++ ' ' :: cs)) = some ([], cs) := by
    rw [cutAtWord_cons (by decide) (by decide), letters]
    simp [startsWithWord, small, small']
  have passed : Passes false (' ' :: (operator.word.toList ++ [' '])) 0 name.toList
      (' ' :: (operator.word.toList ++ ' ' :: cs)) := passes_of_solid rfl solid _
  have firm := Firm.of_solid (by rw [chars]; exact List.cons_ne_nil c rest) solid
  rw [Passes, found] at passed
  rw [splitAt?, operator.toList_symbol, passed]
  simp [prepend, firm.trimChars_eq, h.firm.trimChars_eq, firm.ne_nil, h.firm.ne_nil]

theorem eq_of_splitAt? (identifier : isIdentifier name = true) (h : WrittenValue cs value)
    {entry : String × Operator} (hentry : entry ∈ operators) {sides : List Char × List Char}
    (cut : splitAt? entry.1 (name.toList ++ ' ' :: (operator.word.toList ++ ' ' :: cs)) = some sides) :
    (entry.2, sides) = (operator, name.toList, cs) := by
  obtain ⟨symbol, other⟩ := entry
  dsimp only at cut ⊢
  rcases Operator.mark_or_symbol _ hentry with mark | same
  · dsimp only at mark
    cases chars : symbol.toList with
    | nil =>
      rw [chars] at mark
      cases mark
    | cons w word =>
      rw [chars, List.head?_cons, Option.any_some, Bool.and_eq_true, Bool.not_eq_true',
        bne_iff_ne] at mark
      rw [splitAt?_mark operator chars mark.1 mark.2 identifier h] at cut
      cases cut
  · dsimp only at same
    subst same
    by_cases same : other = operator
    · subst same
      rw [splitAt?_symbol other identifier h] at cut
      rw [← Option.some.inj cut]
    · rw [splitAt?_other operator same identifier h] at cut
      cases cut

theorem readLeaf_eq (identifier : isIdentifier name = true) (h : WrittenValue cs value) :
    readLeaf (name.toList ++ ' ' :: (operator.word.toList ++ ' ' :: cs)) =
      .ok (operator.filter name value) := by
  rw [readLeaf]
  dsimp only
  split
  · next none =>
    have missing := List.findSome?_eq_none_iff.mp none _
      (List.mem_of_find?_eq_some operator.find?_symbol)
    dsimp only at missing
    rw [splitAt?_symbol operator identifier h] at missing
    cases missing
  · next other left right some =>
    obtain ⟨entry, hentry, cut⟩ := List.exists_of_findSome?_eq_some some
    obtain ⟨sides, divided, same⟩ := Option.map_eq_some_iff.mp cut
    rw [eq_of_splitAt? operator identifier h hentry divided] at same
    cases same
    rw [h.valuesOf_eq, String.ofList_toList]
    cases operator <;> rfl

end Leaf

theorem readChars_eq (solid : trimChars cs = cs) (hne : cs ≠ []) :
    readChars cs =
      match enclosed? cs with
      | some inner => readChars inner
      | none =>
        match cutAtJoint " or " cs with
        | some (left, right) => do return .either (← readChars left) (← readChars right)
        | none =>
          match cutAtJoint " and " cs with
          | some (left, right) => do return .both (← readChars left) (← readChars right)
          | none =>
            match negated? cs with
            | some inner => do return .negation (← readChars inner)
            | none => readLeaf cs := by
  rw [readChars]
  simp only [solid, hne, dite_false]
  split
  · next he =>
    rw [solid] at he
    simp only [he]
  · next he =>
    rw [solid] at he
    simp only [he]
    split
    · next ho =>
      rw [solid] at ho
      simp only [ho]
    · next ho =>
      rw [solid] at ho
      simp only [ho]
      split
      · next ha =>
        rw [solid] at ha
        simp only [ha]
      · next ha =>
        rw [solid] at ha
        simp only [ha]
        split
        · next hn =>
          rw [solid] at hn
          simp only [hn]
        · next hn =>
          rw [solid] at hn
          simp only [hn]

theorem readChars_leaf {name : String} {value : Json} (operator : Operator)
    (identifier : isIdentifier name = true) (free : isReserved name = false)
    (h : WrittenValue cs value) :
    readChars (name.toList ++ ' ' :: (operator.word.toList ++ ' ' :: cs)) =
      .ok (operator.filter name value) := by
  have text := Derives.leaf operator identifier free h
  obtain ⟨c, rest, chars, start, -⟩ := exists_of_isIdentifier identifier
  have bare : enclosed? (name.toList ++ ' ' :: (operator.word.toList ++ ' ' :: cs)) = none := by
    rw [chars]
    refine enclosed?_of_ne ?_ _
    rintro rfl
    cases start
  have plain : negated? (name.toList ++ ' ' :: (operator.word.toList ++ ' ' :: cs)) = none := by
    rw [negated?, if_neg]
    rw [Bool.not_eq_true]
    exact not_startsWithWord_name "not" (by decide) identifier free _
  rw [readChars_eq text.firm.trimChars_eq text.firm.ne_nil, bare]
  dsimp only
  rw [text.cutAtJoint_eq_none (by decide) (by decide),
    text.cutAtJoint_eq_none (by decide) (by decide), plain]
  exact readLeaf_eq operator identifier h

/-- Every derived text is read as the filter that the derivation gives it. -/
theorem Derives.readChars_eq_ok {level : Level} {f : Filter} (h : Derives level cs f) :
    readChars cs = .ok f := by
  induction h with
  | leaf operator identifier free h => exact readChars_leaf operator identifier free h
  | enclosed h ih =>
    have text := Derives.enclosed h
    rw [readChars_eq text.firm.trimChars_eq text.firm.ne_nil, enclosed?_brackets h.balanced]
    exact ih
  | @negation cs f h ih =>
    have text := Derives.negation h
    have bare : enclosed? ("not ".toList ++ cs) = none := enclosed?_of_ne (by decide) _
    have negated : negated? ("not ".toList ++ cs) = some cs := rfl
    rw [readChars_eq text.firm.trimChars_eq text.firm.ne_nil, bare]
    dsimp only
    rw [text.cutAtJoint_eq_none (by decide) (by decide),
      text.cutAtJoint_eq_none (by decide) (by decide), negated]
    dsimp only
    rw [ih]
    rfl
  | single _ ih => exact ih
  | both left right ihl ihr =>
    have text := Derives.both left right
    rw [readChars_eq text.firm.trimChars_eq text.firm.ne_nil,
      left.enclosed?_joint (by decide)]
    dsimp only
    rw [text.cutAtJoint_eq_none (by decide) (by decide),
      left.cutAtJoint_eq_some (by decide) (by decide)]
    dsimp only
    rw [ihl, ihr]
    rfl
  | only _ ih => exact ih
  | either left right ihl ihr =>
    have text := Derives.either left right
    rw [readChars_eq text.firm.trimChars_eq text.firm.ne_nil,
      left.enclosed?_joint (by decide)]
    dsimp only
    rw [left.cutAtJoint_eq_some (by decide) (by decide)]
    dsimp only
    rw [ihl, ihr]
    rfl

/-- A text of the grammar is read as the filter of its derivation, however deep it is and whatever its
quoted texts contain. -/
theorem read_derived {f : Filter} (h : Derives .disjunction cs f) :
    read (String.ofList cs) = .ok f := by
  rw [read, String.toList_ofList, h.readChars_eq_ok]
  rfl

theorem read_derived_sample :
    read "not (size ge -7 or title ne \"a \\\" or (\\\\\") and name sw \"(x eq\" or active eq true" =
      .ok (.either
        (.both
          (.negation (.either (.ordered .atLeast "size" (.integer (-7)))
            (.negation (.equals "title" [.text "a \" or (\\"]))))
          (.matching .atStart "name" (.text "(x eq")))
        (.equals "active" [.bool true])) := by
  have size := @Derives.leaf "size" _ _ (.ordered .atLeast) (by decide) (by decide)
    (.integer (.negative (by decide : isDigits ['7'] = true)) (by decide) (by decide))
  have title := @Derives.leaf "title" _ _ .unequal (by decide) (by decide) (.text "a \" or (\\")
  have name := @Derives.leaf "name" _ _ (.matching .atStart) (by decide) (by decide)
    (.text "(x eq")
  have active := @Derives.leaf "active" _ _ .equal (by decide) (by decide) .truth
  have inner := Derives.enclosed (.either (.single size) (.only (.single title)))
  have text := Derives.either (.both (.negation inner) (.single name)) (.only (.single active))
  exact (congrArg read (by decide)).trans (read_derived text)

/-- No text is derived in two ways that differ in their filters. -/
theorem Derives.unique {level level' : Level} {f g : Filter} (h : Derives level cs f)
    (h' : Derives level' cs g) : f = g :=
  Except.ok.inj (h.readChars_eq_ok.symm.trans h'.readChars_eq_ok)

end AddressBook.Filter

import AddressBook.Proofs.Filter.Query
import AddressBook.Proofs.Text.Lowering
import AddressBook.Proofs.Text.Trimming

/-! Literals in lower case. A list of literals that is written and then brought into lower case as one
text is the list of the literals in lower case, whatever quotes, escapes or sigmas their texts hold. -/

namespace AddressBook.Query

open Text

theorem isCaseless_of_isNumeric {c : Char} (h : Number.isNumeric c = true) : isCaseless c = true := by
  rcases (Bool.or_eq_true _ _).mp h with digit | mark
  · have bounds := toNat_of_isDigit digit
    have lowered := toNat_toLower c
    rw [if_neg (by omega)] at lowered
    have ascii : lowerChar c = [c] := by
      rw [lowerChar, if_pos (by omega), Char.toNat_inj.mp lowered]
    have other : c ≠ capitalSigma := by
      rintro rfl
      revert digit
      decide
    rw [isCaseless, ascii, bne_iff_ne.mpr other, beq_self_eq_true, Bool.and_self]
  · have marks : ['-', '+', '.', 'e'].all isCaseless = true := by decide
    exact List.all_eq_true.mp marks c (List.contains_iff_mem.mp mark)

namespace Literal

def IsPlain : Literal → Prop
  | .text _ => True
  | .number (.integer _) => True
  | .number (.real n) => n.isFinite = true
  | .number _ => False

theorem isNumeric_of_mem_compact {json : Json} (h : (Literal.number json).IsPlain) :
    ∀ c ∈ json.compact.toList, Number.isNumeric c = true := by
  cases json with
  | integer i =>
    rw [compact_integer]
    exact (Number.isSigned_toString i).isNumeric
  | real n => exact Number.isNumeric_of_mem_compact h
  | null | bool b | text s | list items | object members => cases h

theorem lowerAfter_write {l : Literal} (h : l.IsPlain) (before rest : List Char) :
    ∃ before', lowerAfter before (l.write.toList ++ rest) =
      l.lowerCase.write.toList ++ lowerAfter before' rest := by
  cases l with
  | text s => exact ⟨[], lowerAfter_quote before s rest⟩
  | number json =>
    exact ⟨_, lowerAfter_caseless
      (fun c hc => isCaseless_of_isNumeric (isNumeric_of_mem_compact h c hc)) before rest⟩

theorem lower_write {l : Literal} (h : l.IsPlain) : lower l.write = l.lowerCase.write := by
  obtain ⟨before, written⟩ := lowerAfter_write h [] []
  rw [List.append_nil] at written
  rw [lower, lowerChars, written]
  simp [lowerAfter]

end Literal

theorem lowerAfter_join {ls : List Literal} (h : ∀ l ∈ ls, l.IsPlain) (before : List Char) :
    lowerAfter before (join ":" (ls.map Literal.write)).toList =
      (join ":" ((ls.map Literal.lowerCase).map Literal.write)).toList := by
  induction ls generalizing before with
  | nil => rfl
  | cons l ls ih =>
    obtain ⟨first, others⟩ := List.forall_mem_cons.mp h
    cases ls with
    | nil =>
      have alone : ∀ s, join ":" [s] = s := fun s => by simp [join, List.intercalate]
      obtain ⟨_, written⟩ := Literal.lowerAfter_write first before []
      rw [List.append_nil] at written
      rw [List.map_singleton, List.map_singleton, List.map_singleton, alone, alone, written]
      exact List.append_nil _
    | cons m ms =>
      have colon : ∀ c ∈ [':'], isCaseless c = true := List.forall_mem_singleton.mpr (by decide)
      obtain ⟨between, written⟩ := Literal.lowerAfter_write first before
        ([':'] ++ (join ":" ((m :: ms).map Literal.write)).toList)
      rw [lowerAfter_caseless colon, ih others] at written
      simp only [List.map_cons, join_cons_cons, String.toList_append, List.append_assoc] at written ⊢
      exact written

theorem lower_join {ls : List Literal} (h : ∀ l ∈ ls, l.IsPlain) :
    lower (join ":" (ls.map Literal.write)) = join ":" ((ls.map Literal.lowerCase).map Literal.write) := by
  rw [lower, lowerChars, lowerAfter_join h, String.ofList_toList]

section

variable {kind : EntryClass} {name : String} {isPattern : Bool} {value : Json} {values : List Json}

theorem isPlain_literal? (finite : ∀ n, value = .real n → n.isFinite = true) {l : Literal}
    (h : Filter.literal? kind name isPattern value = some l) : l.IsPlain := by
  cases value with
  | null | list items | object members => cases h
  | bool b | integer i | text s =>
    cases h
    trivial
  | real n =>
    cases h
    exact finite n rfl

theorem isPlain_literals (finite : ∀ n, Json.real n ∈ values → n.isFinite = true) {ls : List Literal}
    (h : literals kind name values = .ok ls) : ∀ l ∈ ls, l.IsPlain := by
  intro l hl
  rw [← Filter.filterMap_of_literals h] at hl
  obtain ⟨value, given, made⟩ := List.mem_filterMap.mp hl
  exact isPlain_literal? (fun n real => finite n (real ▸ given)) made

variable {rules : SearchRules} {negated : Bool} {field : String}

theorem write_equalityOf (finite : ∀ n, Json.real n ∈ values → n.isFinite = true) {ls : List Literal}
    (h : literals kind name values = .ok ls) (ignores : ignoresCase rules field ls = true) :
    (equalityOf rules negated field ls).write =
      "(" ++ ("@LowerCase(" ++ field ++ ")") ++ (if negated then "!=" else "=") ++
        lower (join ":" (ls.map Literal.write)) ++ ")" := by
  rw [equalityOf, if_pos ignores, lower_join (isPlain_literals finite h)]
  rfl

theorem write_matchingOf (finite : ∀ n, value = .real n → n.isFinite = true) {l : Literal}
    (h : literal? kind name isPattern value = .ok (some l)) {place : Place}
    (ignores : ignoresCase rules field [l] = true) :
    (matchingOf rules negated place field l).write =
      (if negated then "!" else "") ++ place.function ++ "(" ++ ("@LowerCase(" ++ field ++ ")") ++
        "; " ++ lower l.write ++ ")" := by
  rw [matchingOf, if_pos ignores,
    Literal.lower_write (isPlain_literal? finite (Filter.literal?_of_literal? h))]
  rfl

end

end AddressBook.Query

import AddressBook.Proofs.Except
import AddressBook.Proofs.Filter.Values
import AddressBook.Proofs.Number.Whole
import AddressBook.Proofs.Provisioning.Reading
import AddressBook.Proofs.Query.Orderings

/-! Whole numbers that are stored as text. Writing takes every number of 64 bits, in any of its
spellings, and reading shows those of 32 bits and leaves out the others: what was written is shown
exactly if all of it is short. -/

namespace AddressBook

open Query (IsShort)

variable {kind : EntryClass} {name : String} {a : Schema.Attribute}

/-- The whole number that a value stands for, by itself or as a text that spells it. -/
inductive AttributeValue.StandsFor : AttributeValue → Int → Prop
  | integer (i : Int) : StandsFor (.integer i) i
  | long (i : Int) : StandsFor (.long i) i
  | text {s : String} {i : Int} (h : Filter.Decimal (Text.trim s).toList i) : StandsFor (.text s) i

theorem AttributeValue.StandsFor.unique : Relator.RightUnique AttributeValue.StandsFor := by
  intro value i k hi hk
  cases hi with
  | integer => cases hk; rfl
  | long => cases hk; rfl
  | text spelled =>
    cases hk with
    | text again => exact Option.some.inj (spelled.readInt?_eq.symm.trans again.readInt?_eq)

namespace Entry

/-! What is written. -/

theorem standsFor_of_integerOf {value : AttributeValue} {i : Int}
    (h : integerOf name value = .ok i) : value.StandsFor i := by
  cases value with
  | integer k => cases h; exact .integer i
  | long k => cases h; exact .long i
  | boolean b => cases h
  | secret s => cases h
  | text s =>
    unfold integerOf at h
    dsimp only at h
    split at h
    · next k read =>
      cases h
      exact .text (.of_readInt? (Option.filter_eq_some_iff.mp read).1)
    · cases h

def wholeText (i : Int) : Note.Value := .text (toString i)

theorem storedValue_fromText (known : Schema.find? kind name = some a)
    (stored : a.coercion = some .fromText) {value : AttributeValue} {item : Note.Value}
    (h : storedValue kind name value = .ok item) :
    ∃ i, value.StandsFor i ∧ item = wholeText i := by
  have whole : (Schema.find? kind name).bind (·.coercion) = some .fromText := by
    rw [known, Option.bind_some, stored]
  rw [storedValue.eq_def] at h
  split at h
  · cases h
  · rw [whole] at h
    obtain ⟨i, read, made⟩ := bind_eq_ok h
    cases made
    exact ⟨i, standsFor_of_integerOf read, rfl⟩

theorem storedValues_fromText (known : Schema.find? kind name = some a)
    (stored : a.coercion = some .fromText) {values : List AttributeValue} {items : List Note.Value}
    (accepted : storedValues kind name values = .ok items) :
    ∃ written, List.Forall₂ AttributeValue.StandsFor values written ∧
      items = written.map wholeText := by
  have paired := forall₂_of_mapM_ok accepted
  clear accepted
  induction paired with
  | nil => exact ⟨[], .nil, rfl⟩
  | cons first _ ih =>
    obtain ⟨i, stands, rfl⟩ := storedValue_fromText known stored first
    obtain ⟨written, others, rfl⟩ := ih
    exact ⟨i :: written, .cons stands others, rfl⟩

/-! What is shown. -/

theorem integer?_wholeText (i : Int) :
    integer? (some .fromText) (wholeText i) = if IsShort i then some i else none := by
  unfold integer? wholeText
  dsimp only
  rw [trim_toString, readIntWithin?, Number.readInt?_toString, Option.filter_some]
  refine if_congr ?_ rfl rfl
  rw [Bool.and_eq_true, decide_eq_true_eq, decide_eq_true_eq, IsShort]

theorem filterMap_wholeText (written : List Int) :
    (written.map wholeText).filterMap (integer? (some .fromText)) =
      written.filter fun i => IsShort i := by
  rw [List.filterMap_map, ← List.filterMap_eq_filter]
  refine List.filterMap_congr fun i _ => ?_
  rw [Function.comp_apply, integer?_wholeText, Option.guard]
  simp

theorem valuesOf_integral (known : Schema.find? kind name = some a)
    (whole : a.coercion.isSome = true) {n : Note} {items : List Note.Value}
    (held : n.item? name = some items) :
    valuesOf kind n name = (items.filterMap (integer? a.coercion)).map .integer := by
  obtain ⟨readable, type⟩ := Schema.shown_integral known whole
  have apart : ∀ special ∈ Schema.namesApart, Text.sameAscii name special = false :=
    fun special hs => Schema.sameAscii_name_integral known whole hs
  rw [valuesOf, apart _ (by decide), apart _ (by decide), held, known]
  rw [if_neg Bool.false_ne_true, if_neg Bool.false_ne_true]
  dsimp only
  rw [valuesOfItem, readable, type]
  rfl

theorem valuesOf_fromText (known : Schema.find? kind name = some a)
    (stored : a.coercion = some .fromText) {n : Note} {written : List Int}
    (held : n.item? name = some (written.map wholeText)) :
    valuesOf kind n name = (written.filter fun i => IsShort i).map .integer := by
  have whole : a.coercion.isSome = true := by rw [stored]; rfl
  rw [valuesOf_integral known whole held, stored, filterMap_wholeText]

/-! What an entry takes over. -/

theorem valuesOf_of_foldl_fill {n : Note} {names : List String} {e : Entry}
    (plain : ∀ e : Entry, e.get? name = none → e.isPlain name = true)
    (none : (names.foldl (fill n) e).get? name = none) :
    e.get? name = .none ∧ (name ∈ names → valuesOf e.kind n name = []) := by
  induction names generalizing e with
  | nil => exact ⟨none, fun h => absurd h List.not_mem_nil⟩
  | cons other names ih =>
    obtain ⟨absent, rest⟩ := ih none
    rw [(sameHead_fill n e other).1] at rest
    by_cases same : name = other
    · subst same
      rw [fill] at absent
      split at absent
      · simp at absent
      · next kept =>
        refine ⟨absent, fun _ => ?_⟩
        rw [plain e absent] at kept
        simpa using kept
    · refine ⟨?_, fun h => rest (List.mem_of_ne_of_mem same h)⟩
      rw [fill] at absent
      split at absent
      · simpa [same] using absent
      · exact absent

theorem getD_ofNote_integral (known : Schema.find? kind name = some a)
    (whole : a.coercion.isSome = true) {n : Note} {selection : Selection} {e : Entry}
    (made : ofNote kind n selection = .ok e) (asked : name ∈ selection.names) :
    (e.get? name).getD [] = valuesOf kind n name := by
  have apart : ∀ special ∈ Schema.namesApart, Text.sameAscii special name = false := by
    intro special hs
    rw [Text.sameAscii_comm]
    exact Schema.sameAscii_name_integral known whole hs
  have other : name ∉ Schema.namesApart := by
    intro special
    have same := apart name special
    rw [Text.sameAscii_refl] at same
    cases same
  cases shown : e.get? name with
  | some values =>
    have header : ∀ special ∈ headerNames, special ∈ Schema.namesApart := by decide
    rw [Option.getD_some, get?_ofNote made (fun h => other (header name h)) shown]
  | none =>
    have derived : isRelation name = false := by
      have relation : ∀ special ∈ ["GroupList", "__ENABLE__", "MemberGroups", "MemberPeople"],
          special ∈ Schema.namesApart := by
        decide
      rw [isRelation, List.any_eq_false]
      intro special hs
      rw [apart special (relation special hs)]
      exact Bool.false_ne_true
    have plain : ∀ e : Entry, e.get? name = none → e.isPlain name = true := by
      intro e absent
      have named : name ≠ Schema.nameAttribute := fun h => other (h ▸ by decide)
      have identified : name ≠ Schema.uidAttribute := fun h => other (h ▸ by decide)
      simp [isPlain, absent, derived, named, identified]
    rw [ofNote] at made
    split at made
    · cases made
    · next id _ =>
      cases made
      rw [Option.getD_none, ← (valuesOf_of_foldl_fill plain shown).2 asked, kind_header]

/-- Each value is shown, in its place, as the whole number that it stands for. -/
def ShownWhole (values shown : List AttributeValue) : Prop :=
  List.Forall₂ (fun value s => ∃ i, value.StandsFor i ∧ s = .integer i) values shown

theorem shownWhole_filter_iff {values : List AttributeValue} {written : List Int}
    (stands : List.Forall₂ AttributeValue.StandsFor values written) :
    ShownWhole values ((written.filter fun i => IsShort i).map .integer) ↔
      ∀ i ∈ written, IsShort i := by
  have kept : (∀ i ∈ written, IsShort i) ↔ ∀ i ∈ written, decide (IsShort i) = true := by
    simp only [decide_eq_true_eq]
  rw [kept]
  constructor
  · intro shown
    have length := shown.length_eq
    rw [List.length_map, stands.length_eq] at length
    exact List.length_filter_eq_length_iff.mp length.symm
  · intro short
    rw [List.filter_eq_self.mpr short, ShownWhole, List.forall₂_map_right_iff]
    exact stands.imp fun _ i h => ⟨i, h, rfl⟩

/-- What is written as text for whole numbers is shown with the numbers left out that 32 bits do not
hold, so it is shown as it was written exactly if all of them are short. -/
theorem integers_read_back_iff (known : Schema.find? kind name = some a)
    (stored : a.coercion = some .fromText) {values : List AttributeValue} {items : List Note.Value}
    (accepted : storedValues kind name values = .ok items) {n : Note}
    (held : n.item? name = some items) :
    (∃ written, List.Forall₂ AttributeValue.StandsFor values written ∧
      valuesOf kind n name = (written.filter fun i => IsShort i).map .integer ∧
      (ShownWhole values (valuesOf kind n name) ↔ ∀ i ∈ written, IsShort i)) ∧
    ∀ selection e, ofNote kind n selection = .ok e → name ∈ selection.names →
      (e.get? name).getD [] = valuesOf kind n name := by
  have whole : a.coercion.isSome = true := by rw [stored]; rfl
  refine ⟨?_, fun selection e made asked => getD_ofNote_integral known whole made asked⟩
  obtain ⟨written, stands, rfl⟩ := storedValues_fromText known stored accepted
  have shown := valuesOf_fromText known stored held
  refine ⟨written, stands, shown, ?_⟩
  rw [shown]
  exact shownWhole_filter_iff stands

def twoTypes : List AttributeValue := [.text " +7 ", .long 2147483648]

def groupOfTwoTypes : Note :=
  (Note.ofClass .group).setItem "GroupType" ([7, 2147483648].map wholeText)

theorem storedValues_twoTypes :
    storedValues .group "grouptype" twoTypes = .ok ([7, 2147483648].map wholeText) := by
  rfl

theorem item?_groupOfTwoTypes :
    groupOfTwoTypes.item? "grouptype" = some ([7, 2147483648].map wholeText) :=
  Note.item?_setItem_of_same (by decide) _ _

theorem standsFor_twoTypes :
    List.Forall₂ AttributeValue.StandsFor twoTypes [7, 2147483648] :=
  .cons (.text (.of_readInt? (by decide))) (.cons (.long _) .nil)

theorem integers_read_back_sample :
    valuesOf .group groupOfTwoTypes "grouptype" = [.integer 7] ∧
      ¬ ShownWhole twoTypes (valuesOf .group groupOfTwoTypes "grouptype") := by
  obtain ⟨a, known, stored⟩ := Query.find?_grouptype
  obtain ⟨⟨written, stands, shown, whole⟩, -⟩ :=
    integers_read_back_iff known stored storedValues_twoTypes item?_groupOfTwoTypes
  obtain rfl : written = [7, 2147483648] :=
    List.right_unique_forall₂' AttributeValue.StandsFor.unique stands standsFor_twoTypes
  refine ⟨shown, fun all => ?_⟩
  exact absurd (whole.mp all 2147483648 (by decide)) (by decide)

/-- A number that 32 bits do not hold is written and not shown. -/
theorem not_always_integers_read_back :
    ¬ ∀ (kind : EntryClass) (name : String) (a : Schema.Attribute) (values : List AttributeValue)
      (items : List Note.Value) (n : Note),
      Schema.find? kind name = some a → a.coercion = some .fromText →
      storedValues kind name values = .ok items → n.item? name = some items →
        ShownWhole values (valuesOf kind n name) := by
  intro always
  obtain ⟨a, known, stored⟩ := Query.find?_grouptype
  have shown := always .group "grouptype" a twoTypes _ groupOfTwoTypes known stored
    storedValues_twoTypes item?_groupOfTwoTypes
  rw [valuesOf_fromText known stored item?_groupOfTwoTypes,
    shownWhole_filter_iff standsFor_twoTypes] at shown
  exact absurd (shown 2147483648 (by decide)) (by decide)

end Entry

end AddressBook

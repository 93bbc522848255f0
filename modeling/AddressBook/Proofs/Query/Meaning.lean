import AddressBook.Proofs.Except
import AddressBook.Proofs.Filter.Meaning
import AddressBook.Proofs.Formula.Truth
import AddressBook.Proofs.Query.Reading

/-! The query of a filter says of every note what the filter says, also once it was written and read
again. The induction is on the filter, for both signs at once, since negation moves to the leaves. -/

namespace AddressBook

namespace Query

open AddressBook.Filter

theorem isIdentifier_of_find? {kind : EntryClass} {name : String} {a : Schema.Attribute}
    (h : Schema.find? kind name = some a) : Text.isIdentifier a.name = true := by
  have all : ∀ kind, ∀ a ∈ Schema.attributes kind, Text.isIdentifier a.name = true := by
    intro kind
    cases kind <;> decide
  exact all kind a (List.mem_of_find?_eq_some h)

theorem isIdentifier_fieldName {kind : EntryClass} {name : String}
    (h : Text.isIdentifier name = true ∨ (Schema.find? kind name).isSome = true) :
    Text.isIdentifier (fieldName kind name) = true := by
  rw [fieldName]
  split
  · cases kind <;> decide
  · split
    · cases kind <;> decide
    · cases found : Schema.find? kind name with
      | none =>
        rw [found] at h
        exact h.resolve_right Bool.false_ne_true
      | some a => exact isIdentifier_of_find? found

theorem isText_scalar (l : Literal) : l.scalar.isText = l.isText := by
  cases l <;> rfl

theorem scalar_lowerCase (l : Literal) : l.lowerCase.scalar = l.scalar.lowerCase := by
  cases l <;> rfl

theorem any_isText (ls : List Literal) :
    (ls.map Literal.scalar).any Scalar.isText = ls.any Literal.isText := by
  simp only [List.any_map, Function.comp_def, isText_scalar]

theorem readable_lowerCase {l : Literal} (h : l.Readable) : l.lowerCase.Readable := by
  cases l with
  | text s => trivial
  | number json => exact h

theorem compact_integer (i : Int) : (Json.integer i).compact = toString i := by
  simp only [Json.compact, Json.writeScalar]

theorem readable_integer (i : Int) : (Literal.number (.integer i)).Readable := by
  change Number.IsSigned (Json.integer i).compact.toList
  rw [compact_integer]
  exact Number.isSigned_toString i

theorem scalar_integer (i : Int) : (Literal.number (.integer i)).scalar = .number (Number.ofInt i) := by
  rw [Literal.scalar, compact_integer, Number.read?_toString, Option.getD_some]

theorem literal?_reads {kind : EntryClass} {name : String} {isPattern : Bool} {value : Json}
    {l : Option Literal} (hv : isPlainValue value = true)
    (h : literal? kind name isPattern value = .ok l) :
    (∀ m ∈ l, m.Readable) ∧ given? kind name isPattern value = l.map Literal.scalar := by
  cases value with
  | null => cases h; exact ⟨by simp, rfl⟩
  | bool b => cases h; exact ⟨by simp [Literal.Readable], rfl⟩
  | integer i =>
    cases h
    refine ⟨by simpa using readable_integer i, ?_⟩
    rw [given?, Option.map_some, scalar_integer]
  | text s =>
    rw [literal?] at h
    rw [given?]
    split at h
    · next pattern =>
      cases h
      rw [if_pos pattern]
      exact ⟨by simp [Literal.Readable], rfl⟩
    · next pattern =>
      rw [if_neg pattern]
      cases stored : storedForm kind name s with
      | error fault =>
        rw [stored] at h
        cases h
      | ok text =>
        rw [stored] at h
        cases h
        exact ⟨by simp [Literal.Readable], rfl⟩
  | real n => cases hv
  | list values => cases hv
  | object members => cases hv

theorem literals_read {kind : EntryClass} {name : String} {values : List Json}
    {ls : List Literal} (hv : values.all isPlainValue = true)
    (h : literals kind name values = .ok ls) :
    (∀ m ∈ ls, m.Readable) ∧ values.filterMap (given? kind name false) = ls.map Literal.scalar := by
  induction values generalizing ls with
  | nil =>
    cases h
    exact ⟨by simp, rfl⟩
  | cons value values ih =>
    rw [List.all_cons, Bool.and_eq_true] at hv
    rw [literals] at h
    obtain ⟨l, first, h⟩ := bind_eq_ok h
    obtain ⟨ms, others, h⟩ := bind_eq_ok h
    cases h
    obtain ⟨readable, scalar⟩ := literal?_reads hv.1 first
    obtain ⟨readables, scalars⟩ := ih hv.2 others
    constructor
    · intro m hm
      rcases List.mem_append.mp hm with hm | hm
      · exact readable m (Option.mem_toList.mp hm)
      · exact readables m hm
    · rw [List.map_append, ← scalars]
      cases l with
      | none => rw [List.filterMap_cons_none scalar]; rfl
      | some l => rw [List.filterMap_cons_some scalar]; rfl

theorem values_formula (f : Field) (n : Note) :
    f.formula.values n =
      if f.lowered then (n.fieldValues f.name).map Scalar.lowerCase else n.fieldValues f.name := by
  rw [Field.formula]
  split <;> rfl

theorem sides_eq (rules : SearchRules) (field : String) (n : Note) (ls : List Literal) :
    sides rules field n (ls.map Literal.scalar) =
      if ignoresCase rules field ls then
        ((Field.formula ⟨field, true⟩).values n, (ls.map Literal.lowerCase).map Literal.scalar)
      else ((Field.formula ⟨field, false⟩).values n, ls.map Literal.scalar) := by
  rw [sides, any_isText, values_formula, values_formula, if_pos rfl, if_neg Bool.false_ne_true,
    ignoresCase]
  simp only [List.map_map, Function.comp_def, scalar_lowerCase]

theorem holds_equalityOf (rules : SearchRules) (negated : Bool) (field : String)
    (ls : List Literal) (n : Note) :
    (equalityOf rules negated field ls).formula.holds n =
      (negated ^^ hasEqual rules field n (ls.map Literal.scalar)) := by
  rw [equalityOf, hasEqual, sides_eq]
  split <;> cases negated <;> simp [formula, Formula.holds_compare, Comparison.holds, Formula.values]

theorem holds_matchingOf (rules : SearchRules) (negated : Bool) (place : Place) (field : String)
    (l : Literal) (n : Note) :
    (matchingOf rules negated place field l).formula.holds n =
      (negated ^^ hasMatch rules field n place l.scalar) := by
  have both := sides_eq rules field n [l]
  rw [List.map_cons, List.map_nil] at both
  rw [matchingOf, hasMatch, both]
  split <;> cases negated <;>
    simp [formula, Formula.holds_matching, Formula.holds_negation, Formula.values]

theorem readable_equalityOf {rules : SearchRules} {negated : Bool} {field : String}
    {ls : List Literal} (hf : Text.isIdentifier field = true) (hne : ls ≠ [])
    (hl : ∀ l ∈ ls, l.Readable) : (equalityOf rules negated field ls).Readable := by
  rw [equalityOf]
  split
  · refine ⟨hf, by simpa using hne, ?_⟩
    intro l hlow
    obtain ⟨m, hm, rfl⟩ := List.mem_map.mp hlow
    exact readable_lowerCase (hl m hm)
  · exact ⟨hf, hne, hl⟩

theorem readable_matchingOf {rules : SearchRules} {negated : Bool} {place : Place}
    {field : String} {l : Literal} (hf : Text.isIdentifier field = true) (hl : l.Readable) :
    (matchingOf rules negated place field l).Readable := by
  rw [matchingOf]
  split
  · exact ⟨hf, readable_lowerCase hl⟩
  · exact ⟨hf, hl⟩

def verdict (q : Option Query) (n : Note) : Option Bool := q.map fun c => c.formula.holds n

/-- A query can be read and says of every note what `reading` does. -/
def Means (q : Option Query) (reading : Note → Option Bool) : Prop :=
  (∀ c ∈ q, c.Readable) ∧ ∀ n, reading n = verdict q n

theorem means_joined {p q : Option Query} {r s : Note → Option Bool} (conjunction : Bool)
    (hp : Means p r) (hq : Means q s) :
    Means (joined conjunction p q) fun n =>
      Option.merge (if conjunction then and else or) (r n) (s n) := by
  obtain ⟨readable, verdict⟩ := hp
  obtain ⟨readable', verdict'⟩ := hq
  constructor
  · cases p with
    | none =>
      cases q with
      | none => exact readable
      | some q => exact readable'
    | some p =>
      cases q with
      | none => exact readable
      | some q =>
        have both : p.Readable ∧ q.Readable := ⟨readable p rfl, readable' q rfl⟩
        cases conjunction <;> simpa [joined, Readable] using both
  · intro n
    change Option.merge _ (r n) (s n) = _
    rw [verdict, verdict']
    cases p with
    | none => cases q <;> rfl
    | some p =>
      cases q with
      | none => rfl
      | some q =>
        cases conjunction <;>
          simp [joined, Query.verdict, formula, Formula.holds_both, Formula.holds_either]

theorem means_ofMatching {rules : SearchRules} {kind : EntryClass} {negated : Bool}
    {place : Place} {isPattern : Bool} {name : String} {value : Json} {q : Option Query}
    (hn : Text.isIdentifier name = true) (hv : isPlainValue value = true)
    (h : ofMatching rules kind negated place isPattern name value = .ok q) :
    Means q fun n => (given? kind name isPattern value).map fun g =>
      negated ^^ hasMatch rules (fieldName kind name) n place g := by
  rw [ofMatching] at h
  obtain ⟨l, read, h⟩ := bind_eq_ok h
  cases h
  obtain ⟨readable, scalar⟩ := literal?_reads hv read
  constructor
  · intro c hc
    obtain ⟨l, rfl, rfl⟩ := Option.map_eq_some_iff.mp hc
    exact readable_matchingOf (isIdentifier_fieldName (.inl hn)) (readable l rfl)
  · intro n
    dsimp only
    rw [scalar, verdict, Option.map_map, Option.map_map]
    simp only [Function.comp_def, holds_matchingOf]

@[simp]
theorem hasEvery_cons (rules : SearchRules) (field : String) (n : Note) (negated : Bool)
    (g : Scalar) (gs : List Scalar) :
    hasEvery rules field n negated (g :: gs) =
      Option.merge (if !negated then and else or)
        (some (negated ^^ hasMatch rules field n .anywhere g))
        (hasEvery rules field n negated gs) := by
  cases gs with
  | nil => simp [hasEvery]
  | cons h gs => cases negated <;> simp [hasEvery]

theorem merge_assoc (conjunction : Bool) (a b c : Option Bool) :
    Option.merge (if conjunction then and else or)
        (Option.merge (if conjunction then and else or) a b) c =
      Option.merge (if conjunction then and else or) a
        (Option.merge (if conjunction then and else or) b c) := by
  cases conjunction <;> cases a <;> cases b <;> cases c <;>
    simp [Bool.and_assoc, Bool.or_assoc]

theorem means_ofEvery {rules : SearchRules} {kind : EntryClass} {negated : Bool} {name : String}
    {earlier : Option Query} {values : List Json} {q : Option Query} {r : Note → Option Bool}
    (hn : Text.isIdentifier name = true) (hv : values.all isPlainValue = true)
    (he : Means earlier r) (h : ofEvery rules kind negated name earlier values = .ok q) :
    Means q fun n => Option.merge (if !negated then and else or) (r n)
      (hasEvery rules (fieldName kind name) n negated
        (values.filterMap (given? kind name false))) := by
  induction values generalizing earlier r with
  | nil =>
    cases h
    simpa [hasEvery] using he
  | cons value values ih =>
    rw [List.all_cons, Bool.and_eq_true] at hv
    rw [ofEvery] at h
    obtain ⟨next, read, h⟩ := bind_eq_ok h
    have first := means_ofMatching hn hv.1 read
    have means := ih hv.2 (means_joined (!negated) he first) h
    refine ⟨means.1, fun n => Eq.trans ?_ (means.2 n)⟩
    dsimp only
    rw [merge_assoc]
    cases scalar : given? kind name false value with
    | none => rw [List.filterMap_cons_none scalar]; simp
    | some g => rw [List.filterMap_cons_some scalar, hasEvery_cons]; rfl

theorem means_ofContainsAll {rules : SearchRules} {kind : EntryClass} {negated : Bool}
    {name : String} {values : List Json} {q : Option Query} (hn : Text.isIdentifier name = true)
    (hv : values.all isPlainValue = true)
    (h : ofContainsAll rules kind negated name values = .ok q) :
    Means q fun n => hasEvery rules (fieldName kind name) n negated
      ((sought rules values).filterMap (given? kind name false)) := by
  have nothing : Means none fun _ => none := ⟨by simp, fun _ => rfl⟩
  have plain : (sought rules values).all isPlainValue = true := by
    rw [List.all_eq_true] at hv ⊢
    intro v hs
    rw [sought] at hs
    split at hs
    · exact hv v hs
    · exact hv v (List.mem_of_mem_take hs)
  have every : ofEvery rules kind negated name none (sought rules values) = .ok q := by
    rw [← h, ofContainsAll, sought]
    cases rules.containsAll <;> rfl
  have means := means_ofEvery hn plain nothing every
  refine ⟨means.1, fun n => Eq.trans ?_ (means.2 n)⟩
  simp

section

variable {rules : SearchRules} {kind : EntryClass} {negated : Bool} {name : String}
  {q : Option Query}

theorem means_equals {values : List Json} (hf : (Filter.equals name values).Readable)
    (h : compile rules kind negated (.equals name values) = .ok q) :
    Means q fun n => (Filter.equals name values).reading rules kind n negated := by
  rw [compile] at h
  obtain ⟨ls, found, h⟩ := bind_eq_ok h
  obtain ⟨readable, scalars⟩ := literals_read hf.2 found
  cases ls with
  | nil =>
    cases h
    refine ⟨by simp, fun n => ?_⟩
    simp [Filter.reading, scalars, verdict]
  | cons l ls =>
    cases h
    constructor
    · rintro c ⟨⟩
      exact readable_equalityOf (isIdentifier_fieldName (.inl hf.1)) (by simp) readable
    · intro n
      rw [verdict, Option.map_some, holds_equalityOf]
      simp [Filter.reading, scalars]

/-- The complement of a relation asks of each value what the negation of the relation does. -/
theorem holds_ordering (relation : Relation) (field : String) (l : Literal) (n : Note) :
    (Query.ordering (if negated then relation.complement else relation) field l).formula.holds n =
      hasOrdered field n negated relation l.scalar := by
  rw [formula, Formula.holds_compare]
  cases negated <;> simp [Comparison.holds, hasOrdered, Formula.values, Relation.holds_complement]

theorem means_ordered {relation : Relation} {value : Json}
    (hf : (Filter.ordered relation name value).Readable)
    (h : compile rules kind negated (.ordered relation name value) = .ok q) :
    Means q fun n => (Filter.ordered relation name value).reading rules kind n negated := by
  rw [compile] at h
  obtain ⟨l, read, h⟩ := bind_eq_ok h
  cases h
  obtain ⟨readable, scalar⟩ := literal?_reads hf.2 read
  constructor
  · intro c hc
    obtain ⟨l, rfl, rfl⟩ := Option.map_eq_some_iff.mp hc
    exact ⟨isIdentifier_fieldName (.inl hf.1), readable l rfl⟩
  · intro n
    dsimp only
    rw [Filter.reading, scalar, verdict, Option.map_map, Option.map_map]
    simp only [Function.comp_def, holds_ordering]

theorem means_compile_joined {left right : Filter} (conjunction : Bool)
    (ihl : ∀ {p}, compile rules kind negated left = .ok p →
      Means p fun n => left.reading rules kind n negated)
    (ihr : ∀ {p}, compile rules kind negated right = .ok p →
      Means p fun n => right.reading rules kind n negated)
    (h : (do
        let p ← compile rules kind negated left
        let p' ← compile rules kind negated right
        return joined conjunction p p') = .ok q) :
    Means q fun n => Option.merge (if conjunction then and else or)
      (left.reading rules kind n negated) (right.reading rules kind n negated) := by
  obtain ⟨p, first, h⟩ := bind_eq_ok h
  obtain ⟨p', second, h⟩ := bind_eq_ok h
  cases h
  exact means_joined conjunction (ihl first) (ihr second)

theorem means_compile {f : Filter} (hf : f.Readable) (h : compile rules kind negated f = .ok q) :
    Means q fun n => f.reading rules kind n negated := by
  induction f generalizing negated q with
  | equals name values => exact means_equals hf h
  | containsAll name values => exact means_ofContainsAll hf.1 hf.2 h
  | ordered relation name value => exact means_ordered hf h
  | matching place name value => exact means_ofMatching hf.1 hf.2 h
  | both left right ihl ihr =>
    have means := means_compile_joined (!negated) (ihl hf.1) (ihr hf.2) h
    cases negated <;> exact means
  | either left right ihl ihr => exact means_compile_joined negated (ihl hf.1) (ihr hf.2) h
  | negation inner ih => exact ih hf h

end

theorem holds_formFormula (kind : EntryClass) (n : Note) :
    (formFormula kind).holds n = true ↔
      Note.Value.text kind.form ∈ (n.item? "Form").getD [] := by
  have letter : 'r' ∈ kind.form.toList := by cases kind <;> decide
  rw [← Note.any_fieldValues_eq (by decide) letter (by decide), formFormula,
    Formula.holds_compare]
  simp [Comparison.holds, Formula.values]

/-- The written query of a filter is read, and a note satisfies what was read when it has the form
of the class and the filter says so of it, if it says anything. -/
theorem read_ofFilter_iff {rules : SearchRules} {kind : EntryClass} {f : Filter}
    {q : Option Query} (hf : f.Readable) (h : ofFilter rules kind f = .ok q) :
    ∃ formula, Formula.read (confined kind (q.map write)) = .ok formula ∧
      ∀ n, formula.holds n = true ↔
        Note.Value.text kind.form ∈ (n.item? "Form").getD [] ∧
          (q = none ∨ f.reading rules kind n false = some true) := by
  obtain ⟨readable, agrees⟩ := means_compile hf h
  refine ⟨confinedFormula kind q, read_confined kind readable, fun n => ?_⟩
  have reads : f.reading rules kind n false = verdict q n := agrees n
  rw [reads]
  cases q with
  | none => simp [confinedFormula, holds_formFormula]
  | some q => simp [confinedFormula, Formula.holds_both, holds_formFormula, verdict]

def sampleFilter : Filter :=
  .either (.negation (.both (.equals "firstname" [.text "Ann", .null, .text "Bob"])
    (.ordered .less "Location" (.integer 10)))) (.matching .atStart "__UID__" (.integer 5))

def sampleChoice : Filter :=
  .both sampleFilter (.negation (.either (.equals "__NAME__" [.text "Zed/Acme"])
    (.matching .atEnd "__UID__" (.text "x"))))

def samplePerson (id first location full : String) : Note :=
  { (((Note.ofClass .account).setTexts "FirstName" [first]).setTexts "Location"
      [location]).setTexts "FullName" [full] with id := some id }

def samplePeople : List Note :=
  [samplePerson "21" "Ann" "12" "CN=Ann/O=Acme", samplePerson "22" "ANN" "04" "CN=Ann/O=Acme",
    samplePerson "53" "Bob" "04" "CN=Bob/O=Acme", samplePerson "54" "Cid" "12" "CN=Zed/O=Acme",
    samplePerson "5X" "Bob" "04" "CN=Bob/O=Acme", samplePerson "5x" "Bob" "04" "CN=Bob/O=Acme"]

theorem verdicts_samplePeople :
    (samplePeople.map fun n => sampleChoice.reading {} .account n false == some true) =
      [true, false, true, false, true, false] := by
  decide +kernel

theorem read_ofFilter_iff_sample :
    sampleChoice.Readable ∧ ∃ q, ofFilter {} .account sampleChoice = .ok (some q) ∧
      ∃ formula, Formula.read (confined .account (some q.write)) = .ok formula ∧
        (∀ n, formula.holds n = true ↔
          Note.Value.text "Person" ∈ (n.item? "Form").getD [] ∧
            (some q = none ∨ sampleChoice.reading {} .account n false = some true)) ∧
          samplePeople.map formula.holds = [true, false, true, false, true, false] := by
  have readable : sampleChoice.Readable :=
    ⟨⟨⟨⟨by decide, by decide⟩, ⟨by decide, by decide⟩⟩, ⟨by decide, by decide⟩⟩,
      ⟨by decide, by decide⟩, ⟨by decide, by decide⟩⟩
  have compiled : (ofFilter {} .account sampleChoice).toOption.join.isSome = true := by
    decide
  obtain ⟨q, hq⟩ := Option.isSome_iff_exists.mp compiled
  have query := eq_ok_of_toOption (Option.join_eq_some_iff.mp hq)
  obtain ⟨formula, read, meaning⟩ := read_ofFilter_iff readable query
  refine ⟨readable, q, query, formula, read, meaning, ?_⟩
  rw [← verdicts_samplePeople]
  refine List.map_congr_left fun n hn => ?_
  have form : ∀ n ∈ samplePeople, Note.Value.text "Person" ∈ (n.item? "Form").getD [] := by
    decide
  rw [Bool.eq_iff_iff, meaning n, beq_iff_eq]
  exact ⟨fun holds => holds.2.resolve_left (Option.some_ne_none q),
    fun reading => ⟨form n hn, Or.inr reading⟩⟩

end Query

end AddressBook

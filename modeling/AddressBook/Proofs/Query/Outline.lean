import AddressBook.Proofs.Filter.Query

/-! No text in a filter can change what a query asks. The outline of a filter has its texts left empty,
and so has that of a formula; the outline of the formula that is read depends on the outline of the
filter alone, and the scalars in the formula are the literals of the filter, one for one. -/

namespace AddressBook

def Scalar.outline : Scalar → Scalar
  | .text _ => .text ""
  | .number n => .number n

namespace Formula

/-- A formula with its texts left empty. -/
def outline : Formula → Formula
  | .literal values => .literal (values.map Scalar.outline)
  | .field name => .field name
  | .lowerCase inner => .lowerCase inner.outline
  | .matching place text pattern => .matching place text.outline pattern.outline
  | .compare c left right => .compare c left.outline right.outline
  | .both left right => .both left.outline right.outline
  | .either left right => .either left.outline right.outline
  | .negation inner => .negation inner.outline

def scalars : Formula → List Scalar
  | .literal values => values
  | .field _ => []
  | .lowerCase inner => inner.scalars
  | .matching _ text pattern => text.scalars ++ pattern.scalars
  | .compare _ left right => left.scalars ++ right.scalars
  | .both left right => left.scalars ++ right.scalars
  | .either left right => left.scalars ++ right.scalars
  | .negation inner => inner.scalars

end Formula

namespace Query

namespace Literal

def outline : Literal → Literal
  | .text _ => .text ""
  | .number json => .number json

theorem isText_outline (l : Literal) : l.outline.isText = l.isText := by
  cases l <;> rfl

theorem scalar_outline (l : Literal) : l.outline.scalar = l.scalar.outline := by
  cases l <;> rfl

theorem outline_lowerCase (l : Literal) : l.lowerCase.scalar.outline = l.scalar.outline := by
  cases l <;> rfl

end Literal

def outline (q : Query) : Formula := q.formula.outline

theorem outline_field (f : Field) : f.formula.outline = f.formula := by
  rw [Field.formula]
  split <;> rfl

theorem scalars_field (f : Field) : f.formula.scalars = [] := by
  rw [Field.formula]
  split <;> rfl

theorem scalars_formula (q : Query) :
    q.formula.scalars = q.writtenLiterals.map Literal.scalar := by
  induction q with
  | equality negated f values =>
    simp [formula, Formula.scalars, scalars_field, writtenLiterals]
  | ordering relation name value => rfl
  | matching negated place f value =>
    cases negated <;> simp [formula, Formula.scalars, scalars_field, writtenLiterals]
  | both left right ihl ihr | either left right ihl ihr =>
    rw [formula, Formula.scalars, ihl, ihr, writtenLiterals, List.map_append]

variable {rules : SearchRules} {negated : Bool} {field : String} {ls ms : List Literal}

theorem ignoresCase_congr (h : ls.map Literal.outline = ms.map Literal.outline) :
    ignoresCase rules field ls = ignoresCase rules field ms := by
  have texts : ∀ ls : List Literal,
      ls.any Literal.isText = (ls.map Literal.outline).any Literal.isText := by
    intro ls
    rw [List.any_map]
    exact List.any_congr rfl fun l => (Literal.isText_outline l).symm
  rw [ignoresCase, ignoresCase, texts ls, texts ms, h]

theorem outline_scalars_congr (h : ls.map Literal.outline = ms.map Literal.outline) :
    (ls.map Literal.scalar).map Scalar.outline = (ms.map Literal.scalar).map Scalar.outline := by
  have scalars := congrArg (List.map Literal.scalar) h
  simpa only [List.map_map, Function.comp_def, Literal.scalar_outline] using scalars

theorem outline_lowered (ls : List Literal) :
    ((ls.map Literal.lowerCase).map Literal.scalar).map Scalar.outline =
      (ls.map Literal.scalar).map Scalar.outline := by
  simp only [List.map_map, Function.comp_def, Literal.outline_lowerCase]

theorem outline_equalityOf (h : ls.map Literal.outline = ms.map Literal.outline) :
    (equalityOf rules negated field ls).outline = (equalityOf rules negated field ms).outline := by
  have scalars := outline_scalars_congr h
  rw [equalityOf, equalityOf, ignoresCase_congr h]
  split <;>
    simp only [outline, formula, Formula.outline, outline_field, outline_lowered, scalars]

theorem outline_matchingOf {l m : Literal} (place : Place) (h : l.outline = m.outline) :
    (matchingOf rules negated place field l).outline =
      (matchingOf rules negated place field m).outline := by
  have lists : [l].map Literal.outline = [m].map Literal.outline := by
    rw [List.map_singleton, List.map_singleton, h]
  have scalars : l.scalar.outline = m.scalar.outline := by
    rw [← Literal.scalar_outline, h, Literal.scalar_outline]
  rw [matchingOf, matchingOf, ignoresCase_congr lists]
  split <;> cases negated <;>
    simp [outline, formula, Formula.outline, outline_field, Literal.outline_lowerCase, scalars]

theorem outline_ordering (relation : Relation) {l m : Literal} (h : l.outline = m.outline) :
    (Query.ordering relation field l).outline = (Query.ordering relation field m).outline := by
  have scalars : l.scalar.outline = m.scalar.outline := by
    rw [← Literal.scalar_outline, h, Literal.scalar_outline]
  simp only [outline, formula, Formula.outline, List.map_singleton, scalars]

theorem outline_map {make : Literal → Query} {l m : Option Literal}
    (hm : ∀ {l m : Literal}, l.outline = m.outline → (make l).outline = (make m).outline)
    (h : l.map Literal.outline = m.map Literal.outline) :
    (l.map make).map outline = (m.map make).map outline := by
  cases l with
  | none =>
    cases m with
    | none => rfl
    | some m => cases h
  | some l =>
    cases m with
    | none => cases h
    | some m => exact congrArg some (hm (Option.some.inj h))

theorem outline_joined (conjunction : Bool) {p p' q q' : Option Query}
    (hp : p.map outline = p'.map outline) (hq : q.map outline = q'.map outline) :
    (joined conjunction p q).map outline = (joined conjunction p' q').map outline := by
  cases p <;> cases p' <;> cases q <;> cases q' <;> cases conjunction <;>
    simp_all [joined, outline, formula, Formula.outline]

end Query

namespace Filter

open Query (Literal fieldName)

def outlineValue : Json → Json
  | .text _ => .text ""
  | value => value

/-- A filter with its texts left empty. -/
def outline : Filter → Filter
  | .equals name values => .equals name (values.map outlineValue)
  | .containsAll name values => .containsAll name (values.map outlineValue)
  | .ordered relation name value => .ordered relation name (outlineValue value)
  | .matching place name value => .matching place name (outlineValue value)
  | .both left right => .both left.outline right.outline
  | .either left right => .either left.outline right.outline
  | .negation inner => .negation inner.outline

theorem readable_outline (f : Filter) : f.outline.Readable ↔ f.Readable := by
  have plain : ∀ v, isPlainValue (outlineValue v) = isPlainValue v := by
    intro v
    cases v <;> rfl
  induction f with
  | equals name values | containsAll name values =>
    simp only [outline, Readable, List.all_map, Function.comp_def, plain]
  | ordered relation name value | matching place name value =>
    simp only [outline, Readable, plain]
  | both left right ihl ihr | either left right ihl ihr => exact and_congr ihl ihr
  | negation inner ih => exact ih

variable {rules : SearchRules} {kind : EntryClass} {negated : Bool} {name : String}

theorem literal?_outlineValue (isPattern : Bool) (value : Json) :
    (literal? kind name isPattern (outlineValue value)).map Literal.outline =
      (literal? kind name isPattern value).map Literal.outline := by
  cases value <;> rfl

theorem outline_given (values : List Json) :
    ((values.map outlineValue).filterMap (literal? kind name false)).map Literal.outline =
      (values.filterMap (literal? kind name false)).map Literal.outline := by
  rw [List.map_filterMap, List.map_filterMap, List.filterMap_map]
  exact congrArg (List.filterMap · values) (funext (literal?_outlineValue false))

theorem outline_everyMatch {field : String} {ls ms : List Literal} {earlier earlier' : Option Query}
    (he : earlier.map Query.outline = earlier'.map Query.outline)
    (h : ls.map Literal.outline = ms.map Literal.outline) :
    (everyMatch rules negated field earlier ls).map Query.outline =
      (everyMatch rules negated field earlier' ms).map Query.outline := by
  induction ls generalizing ms earlier earlier' with
  | nil =>
    obtain rfl := List.map_eq_nil_iff.mp h.symm
    exact he
  | cons l ls ih =>
    obtain ⟨m, ms, rfl, first, others⟩ := List.map_eq_cons_iff.mp h.symm
    rw [everyMatch, everyMatch]
    refine ih (Query.outline_joined _ he ?_) others.symm
    rw [Option.map_some, Option.map_some, Query.outline_matchingOf .anywhere first.symm]

theorem sought_outline (values : List Json) :
    sought rules (values.map outlineValue) = (sought rules values).map outlineValue := by
  rw [sought, sought]
  split
  · rfl
  · rw [List.map_take]

/-- The outline of the query depends on the outline of the filter. -/
theorem outline_query (f : Filter) (negated : Bool) :
    (f.outline.query rules kind negated).map Query.outline =
      (f.query rules kind negated).map Query.outline := by
  induction f generalizing negated with
  | equals name values =>
    have given := @outline_given kind name values
    rw [outline, query, query]
    split
    · next none =>
      rw [none, List.map_nil] at given
      rw [List.map_eq_nil_iff.mp given.symm]
    · next nonempty =>
      split
      · next none =>
        rw [none, List.map_nil] at given
        exact absurd (List.map_eq_nil_iff.mp given) nonempty
      · rw [Option.map_some, Option.map_some, Query.outline_equalityOf given]
  | containsAll name values =>
    rw [outline, query, query, sought_outline]
    exact outline_everyMatch rfl (outline_given _)
  | ordered relation name value =>
    exact Query.outline_map (Query.outline_ordering _) (literal?_outlineValue false value)
  | matching place name value =>
    exact Query.outline_map (Query.outline_matchingOf place) (literal?_outlineValue true value)
  | both left right ihl ihr => exact Query.outline_joined _ (ihl _) (ihr _)
  | either left right ihl ihr => exact Query.outline_joined _ (ihl _) (ihr _)
  | negation inner ih => exact ih _

end Filter

namespace Query

variable {rules : SearchRules} {kind : EntryClass} {f g : Filter} {p q : Option Query}

theorem scalars_confinedFormula (c : Query) :
    (confinedFormula kind (some c)).scalars =
      .text kind.form :: c.writtenLiterals.map Literal.scalar := by
  rw [confinedFormula, Formula.scalars, scalars_formula]
  rfl

/-- Filters with the same outline place no constraint, or both are read as formulas with the same
outline; and the scalars in these are the form of the class and then the literals of the filters. -/
theorem reads_outline (readable : f.Readable) (same : f.outline = g.outline)
    (hp : ofFilter rules kind f = .ok p) (hq : ofFilter rules kind g = .ok q) :
    p = none ∧ q = none ∨
      ∃ a b F G, p = some a ∧ q = some b ∧
        Formula.read (confined kind (some a.write)) = .ok F ∧
        Formula.read (confined kind (some b.write)) = .ok G ∧ F.outline = G.outline ∧
        F.scalars = .text kind.form :: (f.literals rules kind).map Literal.scalar ∧
        G.scalars = .text kind.form :: (g.literals rules kind).map Literal.scalar := by
  have readable' : g.Readable := by rwa [← Filter.readable_outline, ← same, Filter.readable_outline]
  obtain ⟨each, -⟩ := means_compile readable hp
  obtain ⟨each', -⟩ := means_compile readable' hq
  obtain rfl := Filter.query_of_compile hp
  obtain rfl := Filter.query_of_compile hq
  have outlines : (f.query rules kind false).map outline = (g.query rules kind false).map outline := by
    rw [← Filter.outline_query f, same, Filter.outline_query g]
  have written := @Filter.writtenLiterals_query rules kind f false
  have written' := @Filter.writtenLiterals_query rules kind g false
  cases hf : f.query rules kind false with
  | none =>
    cases hg : g.query rules kind false with
    | none => exact Or.inl ⟨rfl, rfl⟩
    | some b =>
      rw [hf, hg] at outlines
      cases outlines
  | some a =>
    cases hg : g.query rules kind false with
    | none =>
      rw [hf, hg] at outlines
      cases outlines
    | some b =>
      rw [hf, hg, Option.map_some, Option.map_some, Option.some.injEq] at outlines
      rw [hf, Option.map_some, Option.getD_some] at written
      rw [hg, Option.map_some, Option.getD_some] at written'
      rw [hf] at each
      rw [hg] at each'
      have read := read_confined kind each
      have read' := read_confined kind each'
      rw [Option.map_some] at read read'
      refine Or.inr ⟨a, b, confinedFormula kind (some a), confinedFormula kind (some b), rfl, rfl,
        read, read', ?_, ?_, ?_⟩
      · rw [confinedFormula, confinedFormula, Formula.outline, Formula.outline]
        exact congrArg _ outlines
      · rw [scalars_confinedFormula, written]
      · rw [scalars_confinedFormula, written']

def sampleSearch (last part name : String) : Filter :=
  .both (.equals "LastName" [.text last])
    (.both (.negation (.matching .anywhere "__NAME__" (.text part))) (.equals "__NAME__" [.text name]))

/-- A text that closes the literal and the list and goes on as a query would. -/
def slyText : String := "Lee\" : \"\")) | (Form != \"\\"

def slyName : String := "Al \"X\" Lee/Acme"

def plainSearch : Filter := sampleSearch "Lee" "ann" "Ann Lee/Acme"

def slySearch : Filter := sampleSearch slyText slyText slyName

theorem reads_outline_sample :
    plainSearch.Readable ∧ plainSearch.outline = slySearch.outline ∧
      ∃ a b F G, ofFilter {} .account plainSearch = .ok (some a) ∧
        ofFilter {} .account slySearch = .ok (some b) ∧
        Formula.read (confined .account (some a.write)) = .ok F ∧
        Formula.read (confined .account (some b.write)) = .ok G ∧ F.outline = G.outline ∧
        F.scalars = [.text "Person", .text "lee", .text "ann", .text "cn=ann lee/o=acme"] ∧
        G.scalars = [.text "Person", .text (Text.lower slyText), .text (Text.lower slyText),
          .text "cn=al \"x\" lee/o=acme"] := by
  have readable : plainSearch.Readable :=
    ⟨⟨by decide, by decide⟩, ⟨by decide, by decide⟩, ⟨by decide, by decide⟩⟩
  have same : plainSearch.outline = slySearch.outline := rfl
  have compiled : ∀ f ∈ [plainSearch, slySearch], ∃ q, ofFilter {} .account f = .ok (some q) := by
    have each : ∀ f ∈ [plainSearch, slySearch],
        (ofFilter {} .account f).toOption.join.isSome = true := by
      decide
    intro f hf
    obtain ⟨q, hq⟩ := Option.isSome_iff_exists.mp (each f hf)
    exact ⟨q, eq_ok_of_toOption (Option.join_eq_some_iff.mp hq)⟩
  obtain ⟨a, ha⟩ := compiled _ List.mem_cons_self
  obtain ⟨b, hb⟩ := compiled _ (List.mem_cons_of_mem _ List.mem_cons_self)
  rcases reads_outline readable same ha hb with ⟨none, -⟩ | ⟨a', b', F, G, first, second, rest⟩
  · cases none
  · cases first
    cases second
    obtain ⟨read, read', outlines, scalars, scalars'⟩ := rest
    have texts : (plainSearch.literals {} .account).map Literal.scalar =
        [.text "lee", .text "ann", .text "cn=ann lee/o=acme"] := by
      decide
    have texts' : (slySearch.literals {} .account).map Literal.scalar =
        [.text (Text.lower slyText), .text (Text.lower slyText), .text "cn=al \"x\" lee/o=acme"] := by
      decide
    rw [texts] at scalars
    rw [texts'] at scalars'
    exact ⟨readable, same, _, _, F, G, ha, hb, read, read', outlines, scalars, scalars'⟩

end Query

end AddressBook

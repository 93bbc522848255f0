import AddressBook.Proofs.Filter.Compiling
import AddressBook.Proofs.Query.Alike
import AddressBook.Proofs.Query.Spellings

/-! The case of attribute names in filters. Filters that spell their names in other ways look for the
same values under the same connectives, so they differ at most in the fields and in the texts that are
brought into a stored form; and what is written tells the fields. -/

namespace AddressBook

open Text

namespace Filter

open Query (Literal fieldName)
open Schema

/-- The same filter with other names, each of which stands for one that it is related to. -/
inductive Renamed (R : String → String → Prop) : Filter → Filter → Prop
  | equals {a b : String} (h : R a b) (values : List Json) :
      Renamed R (.equals a values) (.equals b values)
  | containsAll {a b : String} (h : R a b) (values : List Json) :
      Renamed R (.containsAll a values) (.containsAll b values)
  | ordered {a b : String} (relation : Relation) (h : R a b) (value : Json) :
      Renamed R (.ordered relation a value) (.ordered relation b value)
  | matching {a b : String} (place : Place) (h : R a b) (value : Json) :
      Renamed R (.matching place a value) (.matching place b value)
  | both {left right left' right' : Filter} (first : Renamed R left left')
      (second : Renamed R right right') : Renamed R (.both left right) (.both left' right')
  | either {left right left' right' : Filter} (first : Renamed R left left')
      (second : Renamed R right right') : Renamed R (.either left right) (.either left' right')
  | negation {inner inner' : Filter} (same : Renamed R inner inner') :
      Renamed R (.negation inner) (.negation inner')

/-- The names under which something is looked for, one for each comparison. An equality with several
values is one comparison, and what is null is looked for nowhere. -/
def placedNames (rules : SearchRules) (kind : EntryClass) : Filter → List String
  | .equals name values => ((values.filterMap (literal? kind name false)).take 1).map fun _ => name
  | .containsAll name values =>
    ((sought rules values).filterMap (literal? kind name false)).map fun _ => name
  | .ordered _ name value => ([value].filterMap (literal? kind name false)).map fun _ => name
  | .matching _ name value => ([value].filterMap (literal? kind name true)).map fun _ => name
  | .both left right => left.placedNames rules kind ++ right.placedNames rules kind
  | .either left right => left.placedNames rules kind ++ right.placedNames rules kind
  | .negation inner => inner.placedNames rules kind

variable {rules : SearchRules} {kind : EntryClass} {negated : Bool}

/-! The query of a leaf, by the list of its literals. -/

theorem query_equals (name : String) (values : List Json) :
    (Filter.equals name values).query rules kind negated =
      if (values.filterMap (literal? kind name false)).isEmpty then none
      else some (Query.equalityOf rules negated (fieldName kind name)
        (values.filterMap (literal? kind name false))) := by
  rw [query]
  cases values.filterMap (literal? kind name false) <;> rfl

theorem query_ordered (relation : Relation) (name : String) (value : Json) :
    (Filter.ordered relation name value).query rules kind negated =
      ([value].filterMap (literal? kind name false)).head?.map
        (.ordering (if negated then relation.complement else relation) (fieldName kind name)) := by
  rw [query, List.filterMap_cons, List.filterMap_nil]
  cases literal? kind name false value <;> rfl

theorem query_matching (place : Place) (name : String) (value : Json) :
    (Filter.matching place name value).query rules kind negated =
      ([value].filterMap (literal? kind name true)).head?.map
        (Query.matchingOf rules negated place (fieldName kind name)) := by
  rw [query, List.filterMap_cons, List.filterMap_nil]
  cases literal? kind name true value <;> rfl

/-! The fields of a query. -/

theorem fieldNames_joined (conjunction : Bool) (p q : Option Query) :
    ((Query.joined conjunction p q).map Query.fieldNames).getD [] =
      (p.map Query.fieldNames).getD [] ++ (q.map Query.fieldNames).getD [] := by
  cases p <;> cases q <;> cases conjunction <;> simp [Query.joined, Query.fieldNames]

theorem fieldNames_everyMatch (field : String) (earlier : Option Query) (ls : List Literal) :
    ((everyMatch rules negated field earlier ls).map Query.fieldNames).getD [] =
      (earlier.map Query.fieldNames).getD [] ++ ls.map fun _ => field := by
  induction ls generalizing earlier with
  | nil => simp [everyMatch]
  | cons l ls ih =>
    rw [everyMatch, ih, fieldNames_joined, matchingOf_eq, List.map_cons, List.append_assoc]
    rfl

theorem fieldNames_query (f : Filter) (negated : Bool) :
    ((f.query rules kind negated).map Query.fieldNames).getD [] =
      (f.placedNames rules kind).map (fieldName kind) := by
  induction f generalizing negated with
  | equals name values =>
    rw [query_equals, placedNames]
    cases values.filterMap (literal? kind name false) with
    | nil => rfl
    | cons l ls =>
      rw [equalityOf_eq]
      rfl
  | containsAll name values =>
    rw [query, placedNames, fieldNames_everyMatch, List.map_map]
    rfl
  | ordered relation name value =>
    rw [query, placedNames, List.filterMap_cons, List.filterMap_nil]
    cases literal? kind name false value <;> rfl
  | matching place name value =>
    rw [query, placedNames, List.filterMap_cons, List.filterMap_nil]
    cases literal? kind name true value with
    | none => rfl
    | some l =>
      rw [Option.map_some, matchingOf_eq]
      rfl
  | both left right ihl ihr | either left right ihl ihr =>
    rw [query, placedNames, fieldNames_joined, ihl, ihr, List.map_append]
  | negation inner ih => exact ih _

/-! Renamed filters have queries that are built alike. -/

section

variable {a b : String}

theorem alike_literal? (isPattern : Bool) (value : Json) :
    Option.Rel Literal.Alike (literal? kind a isPattern value) (literal? kind b isPattern value) := by
  cases value with
  | null | list items | object members => exact .none
  | bool truth => exact .some (.text _ _)
  | integer i => exact .some (.number _)
  | real n => exact .some (.number _)
  | text s => exact .some (.text _ _)

theorem alike_literals (isPattern : Bool) (values : List Json) :
    List.Forall₂ Literal.Alike (values.filterMap (literal? kind a isPattern))
      (values.filterMap (literal? kind b isPattern)) := by
  refine List.rel_filterMap (R := Eq) ?_ (List.forall₂_refl values)
  rintro value _ rfl
  exact alike_literal? isPattern value

theorem alike_folded (field field' : String) {l m : Literal} (h : l.Alike m) :
    (folded rules field l).Alike (folded rules field' m) := by
  rw [folded, folded]
  cases h with
  | text s t => split <;> split <;> exact .text _ _
  | number json => split <;> split <;> exact .number json

theorem alike_matchingOf (place : Place) {field field' : String} (hf : isIdentifier field = true)
    (hf' : isIdentifier field' = true) {l m : Literal} (h : l.Alike m) :
    (Query.matchingOf rules negated place field l).Alike
      (Query.matchingOf rules negated place field' m) := by
  rw [matchingOf_eq, matchingOf_eq]
  exact .matching negated place hf hf' (alike_folded field field' h)

theorem alike_joined (conjunction : Bool) {p q p' q' : Option Query}
    (first : Option.Rel Query.Alike p p') (second : Option.Rel Query.Alike q q') :
    Option.Rel Query.Alike (Query.joined conjunction p q) (Query.joined conjunction p' q') := by
  cases first with
  | none =>
    cases second with
    | none => exact .none
    | some second => exact .some second
  | some first =>
    cases second with
    | none => exact .some first
    | some second => cases conjunction with
      | true => exact .some (.both first second)
      | false => exact .some (.either first second)

theorem alike_everyMatch {field field' : String} (hf : isIdentifier field = true)
    (hf' : isIdentifier field' = true) {earlier earlier' : Option Query}
    (he : Option.Rel Query.Alike earlier earlier') {ls ms : List Literal}
    (h : List.Forall₂ Literal.Alike ls ms) :
    Option.Rel Query.Alike (everyMatch rules negated field earlier ls)
      (everyMatch rules negated field' earlier' ms) := by
  induction h generalizing earlier earlier' with
  | nil => exact he
  | cons first _ ih =>
    exact ih (alike_joined _ he (.some (alike_matchingOf .anywhere hf hf' first)))

theorem alike_head {ls ms : List Literal} (h : List.Forall₂ Literal.Alike ls ms)
    {make make' : Literal → Query} (each : ∀ l m, l.Alike m → (make l).Alike (make' m)) :
    Option.Rel Query.Alike (ls.head?.map make) (ms.head?.map make') := by
  cases h with
  | nil => exact .none
  | cons first _ => exact .some (each _ _ first)

end

variable {f g : Filter}

theorem Renamed.alike_query (h : f.Renamed (Respelled kind) g) (negated : Bool) :
    Option.Rel Query.Alike (f.query rules kind negated) (g.query rules kind negated) := by
  induction h generalizing negated with
  | @equals a b h values =>
    have literals := @alike_literals kind a b false values
    rw [query_equals, query_equals]
    generalize values.filterMap (literal? kind a false) = ls at literals ⊢
    generalize values.filterMap (literal? kind b false) = ms at literals ⊢
    cases literals with
    | nil => exact .none
    | cons first rest =>
      rw [equalityOf_eq, equalityOf_eq]
      refine .some (.equality negated (Query.isIdentifier_of_named h.2)
        (Query.isIdentifier_of_named h.symm.2) ?_)
      rw [List.forall₂_map_left_iff, List.forall₂_map_right_iff]
      exact (List.Forall₂.cons first rest).imp fun l m => alike_folded _ _
  | containsAll h values =>
    exact alike_everyMatch (Query.isIdentifier_of_named h.2) (Query.isIdentifier_of_named h.symm.2)
      .none (alike_literals false _)
  | ordered relation h value =>
    rw [query_ordered, query_ordered]
    exact alike_head (alike_literals false _) fun l m => .ordering _
      (Query.isIdentifier_of_named h.2) (Query.isIdentifier_of_named h.symm.2)
  | matching place h value =>
    rw [query_matching, query_matching]
    exact alike_head (alike_literals true _) fun l m => alike_matchingOf place
      (Query.isIdentifier_of_named h.2) (Query.isIdentifier_of_named h.symm.2)
  | both _ _ ihl ihr => exact alike_joined _ (ihl _) (ihr _)
  | either _ _ ihl ihr => exact alike_joined _ (ihl _) (ihr _)
  | negation _ ih => exact ih _

/-! The names of what is looked for. -/

section

variable {R : String → String → Prop} {a b : String}

theorem forall₂_names (h : R a b) {ls ms : List Literal} (same : List.Forall₂ Literal.Alike ls ms) :
    List.Forall₂ R (ls.map fun _ => a) (ms.map fun _ => b) := by
  rw [List.forall₂_map_left_iff, List.forall₂_map_right_iff]
  exact same.imp fun _ _ _ => h

theorem rel_of_forall₂_names {ls ms : List Literal}
    (h : List.Forall₂ R (ls.map fun _ => a) (ms.map fun _ => b)) (some : ls ≠ []) : R a b := by
  cases ls with
  | nil => exact absurd rfl some
  | cons l ls => cases ms with
    | nil => cases h
    | cons m ms => exact (List.forall₂_cons.mp h).1

theorem forall₂_of_append {as bs cs ds : List String} (same : as.length = cs.length)
    (h : List.Forall₂ R (as ++ bs) (cs ++ ds)) : List.Forall₂ R as cs ∧ List.Forall₂ R bs ds := by
  have front := List.forall₂_take_append _ _ _ h
  have back := List.forall₂_drop_append _ _ _ h
  rw [← same, List.take_left] at front
  rw [← same, List.drop_left] at back
  exact ⟨front, back⟩

theorem Renamed.forall₂_placedNames (h : f.Renamed R g) :
    List.Forall₂ R (f.placedNames rules kind) (g.placedNames rules kind) := by
  induction h with
  | equals h values => exact forall₂_names h (List.forall₂_take 1 (alike_literals false values))
  | containsAll h values => exact forall₂_names h (alike_literals false _)
  | ordered relation h value => exact forall₂_names h (alike_literals false _)
  | matching place h value => exact forall₂_names h (alike_literals true _)
  | both _ _ ihl ihr | either _ _ ihl ihr => exact List.rel_append ihl ihr
  | negation _ ih => exact ih

end

/-! Names by which the same is meant. -/

section

variable {a b : String}

theorem literal?_congr (h : Respelled kind a b) (means : Interchangeable a b) (isPattern : Bool) :
    literal? kind a isPattern = literal? kind b isPattern := by
  funext value
  cases value with
  | text s => rw [literal?, literal?, storedText, storedText, Query.storedForm_congr h.1 means]
  | _ => rfl

theorem takes_congr (h : Respelled kind a b) (means : Interchangeable a b) {isPattern : Bool}
    {value : Json} : Takes kind a isPattern value ↔ Takes kind b isPattern value := by
  cases value with
  | text s => rw [Takes, Takes, Query.literal?, Query.literal?, Query.storedForm_congr h.1 means]
  | list items | object members => exact iff_of_false (by rintro ⟨_, ⟨⟩⟩) (by rintro ⟨_, ⟨⟩⟩)
  | _ => exact Iff.rfl

theorem leaf_congr (make : String → List Literal → Option Query)
    (empty : ∀ field, make field [] = none) (h : Respelled kind a b) {isPattern : Bool}
    {values : List Json}
    (means : values.filterMap (literal? kind a isPattern) ≠ [] → Interchangeable a b) :
    make (fieldName kind a) (values.filterMap (literal? kind a isPattern)) =
      make (fieldName kind b) (values.filterMap (literal? kind b isPattern)) := by
  by_cases nothing : values.filterMap (literal? kind a isPattern) = []
  · have literals := @alike_literals kind a b isPattern values
    rw [nothing] at literals
    rw [nothing, List.forall₂_nil_left_iff.mp literals, empty, empty]
  · rw [literal?_congr h (means nothing), (Query.fieldName_eq_iff h).mpr (means nothing)]

end

theorem Renamed.compiles_iff
    (h : f.Renamed (fun a b => Respelled kind a b ∧ Interchangeable a b) g) :
    f.Compiles rules kind ↔ g.Compiles rules kind := by
  induction h with
  | equals h values | containsAll h values =>
    exact forall₂_congr fun _ _ => takes_congr h.1 h.2
  | ordered relation h value | matching place h value => exact takes_congr h.1 h.2
  | both _ _ ihl ihr | either _ _ ihl ihr => exact and_congr ihl ihr
  | negation _ ih => exact ih

theorem Renamed.query_eq (h : f.Renamed (Respelled kind) g)
    (means : List.Forall₂ Interchangeable (f.placedNames rules kind) (g.placedNames rules kind))
    (negated : Bool) : f.query rules kind negated = g.query rules kind negated := by
  induction h generalizing negated with
  | equals h values =>
    rw [query_equals, query_equals]
    refine leaf_congr (fun field ls =>
      if ls.isEmpty then none else some (Query.equalityOf rules negated field ls)) (fun _ => rfl) h
      fun some => rel_of_forall₂_names means ?_
    exact fun cut => some (List.take_eq_nil_iff.mp cut |>.resolve_left Nat.one_ne_zero)
  | containsAll h values =>
    exact leaf_congr (fun field ls => everyMatch rules negated field none ls) (fun _ => rfl) h
      (rel_of_forall₂_names means)
  | ordered relation h value =>
    rw [query_ordered, query_ordered]
    exact leaf_congr (fun field ls => ls.head?.map
      (.ordering (if negated then relation.complement else relation) field)) (fun _ => rfl) h
      (rel_of_forall₂_names means)
  | matching place h value =>
    rw [query_matching, query_matching]
    exact leaf_congr (fun field ls => ls.head?.map (Query.matchingOf rules negated place field))
      (fun _ => rfl) h (rel_of_forall₂_names means)
  | both first second ihl ihr | either first second ihl ihr =>
    obtain ⟨meansl, meansr⟩ := forall₂_of_append first.forall₂_placedNames.length_eq means
    rw [query, query, ihl meansl, ihr meansr]
  | negation _ ih => exact ih means _

theorem Renamed.and {R S : String → String → Prop} (h : f.Renamed R g) (h' : f.Renamed S g) :
    f.Renamed (fun a b => R a b ∧ S a b) g := by
  induction h with
  | equals h values => cases h' with | equals h' => exact .equals ⟨h, h'⟩ values
  | containsAll h values => cases h' with | containsAll h' => exact .containsAll ⟨h, h'⟩ values
  | ordered relation h value => cases h' with | ordered _ h' => exact .ordered relation ⟨h, h'⟩ value
  | matching place h value => cases h' with | matching _ h' => exact .matching place ⟨h, h'⟩ value
  | both _ _ ihl ihr => cases h' with | both first second => exact .both (ihl first) (ihr second)
  | either _ _ ihl ihr => cases h' with | either first second => exact .either (ihl first) (ihr second)
  | negation _ ih => cases h' with | negation same => exact .negation (ih same)

end Filter

namespace Query

open Schema

variable {rules : SearchRules} {kind : EntryClass} {f g : Filter}

theorem forall₂_interchangeable_iff {as bs : List String} (h : List.Forall₂ (Respelled kind) as bs) :
    List.Forall₂ Interchangeable as bs ↔ as.map (fieldName kind) = bs.map (fieldName kind) := by
  induction h with
  | nil => exact iff_of_true .nil rfl
  | cons first _ ih =>
    rw [List.forall₂_cons, ih, List.map_cons, List.map_cons, List.cons.injEq, fieldName_eq_iff first]

theorem write_query_eq_iff (h : f.Renamed (Respelled kind) g) :
    (f.query rules kind false).map write = (g.query rules kind false).map write ↔
      List.Forall₂ Interchangeable (f.placedNames rules kind) (g.placedNames rules kind) := by
  constructor
  · intro same
    rw [forall₂_interchangeable_iff h.forall₂_placedNames, ← Filter.fieldNames_query f false,
      ← Filter.fieldNames_query g false]
    have alike : Option.Rel Alike (f.query rules kind false) (g.query rules kind false) :=
      h.alike_query false
    generalize f.query rules kind false = p at alike same ⊢
    generalize g.query rules kind false = q at alike same ⊢
    cases alike with
    | none => rfl
    | some alike => exact alike.forces.eq (congrArg String.toList (Option.some.inj same))
  · intro means
    rw [h.query_eq means]

/-- Filters whose names are spelled in other cases have the same translation if the same is meant by
these. They have it exactly if both compile or neither, and the same is meant wherever a comparison is
made by filters that compile. -/
theorem translation_of_respelled (h : f.Renamed (Respelled kind) g) (rules : SearchRules) :
    (f.Renamed Interchangeable g → translation rules kind f = translation rules kind g) ∧
      (translation rules kind f = translation rules kind g ↔
        (f.Compiles rules kind ↔ g.Compiles rules kind) ∧ (f.Compiles rules kind →
          List.Forall₂ Interchangeable (f.placedNames rules kind) (g.placedNames rules kind))) := by
  have texts : (f.query rules kind false).map write = (g.query rules kind false).map write ↔
      List.Forall₂ Interchangeable (f.placedNames rules kind) (g.placedNames rules kind) :=
    write_query_eq_iff h
  rw [translation_eq_iff, texts]
  exact ⟨fun means => ⟨(h.and means).compiles_iff, fun _ => means.forall₂_placedNames⟩, Iff.rfl⟩

def sampleSpelled (name other : String) : Filter :=
  .both (.equals name [.text "Staff"]) (.negation (.matching .atStart other (.text "All")))

theorem renamed_sampleSpelled {a b c d : String} (general : sameAscii a nameAttribute = true)
    (first : sameAscii a b = true) (other : sameAscii c "ListName" = true)
    (second : sameAscii c d = true) :
    (sampleSpelled a c).Renamed (Respelled .group) (sampleSpelled b d) := by
  have known : Named .group c := by
    refine Or.inl ?_
    rw [find?_congr other]
    decide
  exact .both (.equals ⟨first, Or.inr (Or.inl general)⟩ _) (.negation (.matching _ ⟨second, known⟩ _))

theorem translation_of_respelled_samples :
    translation {} .group (sampleSpelled "__name__" "LISTNAME") =
        translation {} .group (sampleSpelled "__Name__" "listname") ∧
      (sampleSpelled "__NAME__" "ListName").Compiles {} .group ∧
      translation {} .group (sampleSpelled "__NAME__" "ListName") ≠
        translation {} .group (sampleSpelled "__name__" "ListName") := by
  have compiles : (sampleSpelled "__NAME__" "ListName").Compiles {} .group :=
    ⟨List.forall_mem_singleton.mpr ⟨_, rfl⟩, _, rfl⟩
  refine ⟨?_, compiles, fun same => ?_⟩
  · refine (translation_of_respelled
      (renamed_sampleSpelled (by decide) (by decide) (by decide) (by decide)) {}).1 ?_
    exact .both (.equals (by decide) _) (.negation (.matching _ (by decide) _))
  · have means := ((translation_of_respelled
      (renamed_sampleSpelled (by decide) (by decide) (by decide) (by decide)) {}).2.mp same).2 compiles
    change List.Forall₂ Interchangeable ["__NAME__", "ListName"] ["__name__", "ListName"] at means
    exact absurd (List.forall₂_cons.mp means).1 (by decide)

/-- In small letters the general name is looked for in a field of that name, which no note has. -/
theorem not_always_translation_of_respelled :
    ¬ ∀ (rules : SearchRules) (kind : EntryClass) (f g : Filter), f.Renamed (Respelled kind) g →
      translation rules kind f = translation rules kind g := by
  intro always
  have same := always {} .group (.equals "__NAME__" [.text "Staff"]) (.equals "__name__" [.text "Staff"])
    (.equals ⟨by decide, Or.inr (Or.inl (by decide))⟩ _)
  have capitals : translation {} .group (.equals "__NAME__" [.text "Staff"]) =
      some (some "(@LowerCase(ListName)=\"staff\")") := by
    decide
  have small : translation {} .group (.equals "__name__" [.text "Staff"]) =
      some (some "(@LowerCase(__NAME__)=\"staff\")") := by
    decide
  rw [capitals, small] at same
  exact absurd same (by decide)

end Query

end AddressBook

import AddressBook.Proofs.Directory.Store
import AddressBook.Proofs.Query.Meaning

/-! A filter and its negation. Both compile or neither does, and where they give queries each note
satisfies exactly one of the two. An ordering asks whether some value stands in a relation, so that its
negation by the complement of the relation needs a field with one value. -/

namespace AddressBook

open AddressBook.Filter

namespace Filter

/-- The fields on which a filter orders values. -/
def orderedFields (kind : EntryClass) : Filter → List String
  | .ordered _ name _ => [Query.fieldName kind name]
  | .both left right => left.orderedFields kind ++ right.orderedFields kind
  | .either left right => left.orderedFields kind ++ right.orderedFields kind
  | .negation inner => inner.orderedFields kind
  | .equals _ _ => []
  | .containsAll _ _ => []
  | .matching _ _ _ => []

end Filter

namespace Note

/-- A note has an id, the form of the class, and at most one value in each of the fields. -/
structure Settles (n : Note) (kind : EntryClass) (fields : List String) : Prop where
  id : n.id.isSome = true
  form : Value.text kind.form ∈ (n.item? "Form").getD []
  single : ∀ field ∈ fields, ((n.item? field).getD []).length ≤ 1

theorem fieldValues_eq_singleton {n : Note} {name : String} (hid : n.id.isSome = true)
    (h : ((n.item? name).getD []).length ≤ 1) : ∃ v, n.fieldValues name = [v] := by
  rw [fieldValues]
  split
  · obtain ⟨id, hid⟩ := Option.isSome_iff_exists.mp hid
    exact ⟨.text id, by rw [hid]; rfl⟩
  · cases held : (n.item? name).getD [] with
    | nil => exact ⟨.text "", rfl⟩
    | cons value values =>
      rw [held, List.length_cons] at h
      have none : values = [] := List.eq_nil_of_length_eq_zero (by omega)
      exact ⟨.ofValue value, by rw [none]; rfl⟩

end Note

namespace Filter

variable {rules : SearchRules} {kind : EntryClass} {n : Note}

theorem hasOrdered_true {field : String} (hid : n.id.isSome = true)
    (h : ((n.item? field).getD []).length ≤ 1) (relation : Relation) (given : Scalar) :
    hasOrdered field n true relation given = !hasOrdered field n false relation given := by
  obtain ⟨v, single⟩ := Note.fieldValues_eq_singleton hid h
  simp [hasOrdered, single]

theorem hasEvery_true (field : String) (given : List Scalar) :
    hasEvery rules field n true given = (hasEvery rules field n false given).map not := by
  cases given with
  | nil => rfl
  | cons g gs => simp [hasEvery]

theorem merge_or_map_not (a b : Option Bool) :
    Option.merge or (a.map not) (b.map not) = (Option.merge and a b).map not := by
  cases a <;> cases b <;> simp

theorem merge_and_map_not (a b : Option Bool) :
    Option.merge and (a.map not) (b.map not) = (Option.merge or a b).map not := by
  cases a <;> cases b <;> simp

theorem reading_true {f : Filter} (hn : n.Settles kind (f.orderedFields kind)) :
    f.reading rules kind n true = (f.reading rules kind n false).map not := by
  induction f with
  | equals name values =>
    rw [reading, reading]
    split <;> simp
  | containsAll name values => exact hasEvery_true _ _
  | ordered relation name value =>
    have single := hn.single (Query.fieldName kind name) (List.mem_singleton_self _)
    rw [reading, reading, Option.map_map]
    refine congrArg (Option.map · _) (funext fun given => ?_)
    exact hasOrdered_true hn.id single relation given
  | matching place name value => simp [reading, Option.map_map, Function.comp_def]
  | both left right ihl ihr =>
    have first := ihl ⟨hn.id, hn.form, fun x hx => hn.single x (List.mem_append_left _ hx)⟩
    have second := ihr ⟨hn.id, hn.form, fun x hx => hn.single x (List.mem_append_right _ hx)⟩
    rw [reading, reading, first, second, if_pos rfl, if_neg Bool.false_ne_true, merge_or_map_not]
  | either left right ihl ihr =>
    have first := ihl ⟨hn.id, hn.form, fun x hx => hn.single x (List.mem_append_left _ hx)⟩
    have second := ihr ⟨hn.id, hn.form, fun x hx => hn.single x (List.mem_append_right _ hx)⟩
    rw [reading, reading, first, second, if_pos rfl, if_neg Bool.false_ne_true, merge_and_map_not]
  | negation inner ih =>
    rw [reading, reading, Bool.not_true, Bool.not_false, ih hn, Option.map_map]
    cases inner.reading rules kind n false <;> simp

end Filter

namespace Query

variable {rules : SearchRules} {kind : EntryClass}

theorem isSome_joined (conjunction : Bool) (p q : Option Query) :
    (joined conjunction p q).isSome = (p.isSome || q.isSome) := by
  cases p <;> cases q <;> rfl

/-- Whether two results are the same fault, or values of which both or neither place a constraint. -/
def SameShape (x y : Except Fault (Option Query)) : Prop := x.map Option.isSome = y.map Option.isSome

theorem sameShape_ok {p q : Option Query} (h : p.isSome = q.isSome) :
    SameShape (.ok p) (.ok q) := congrArg Except.ok h

theorem SameShape.bind {x y : Except Fault (Option Query)}
    {f g : Option Query → Except Fault (Option Query)} (h : SameShape x y)
    (hf : ∀ p q : Option Query, p.isSome = q.isSome → SameShape (f p) (g q)) :
    SameShape (x >>= f) (y >>= g) := by
  cases x with
  | error fault =>
    cases y with
    | error other =>
      cases h
      rfl
    | ok q => cases h
  | ok p =>
    cases y with
    | error other => cases h
    | ok q => exact hf p q (Except.ok.inj h)

theorem sameShape_ofMatching (rules : SearchRules) (kind : EntryClass) (a b : Bool) (place : Place)
    (isPattern : Bool) (name : String) (value : Json) :
    SameShape (ofMatching rules kind a place isPattern name value)
      (ofMatching rules kind b place isPattern name value) := by
  rw [ofMatching, ofMatching]
  cases literal? kind name isPattern value with
  | error fault => rfl
  | ok l => exact sameShape_ok (by rw [Option.isSome_map, Option.isSome_map])

theorem sameShape_ofEvery (rules : SearchRules) (kind : EntryClass) (a b : Bool) (name : String)
    {p q : Option Query} (h : p.isSome = q.isSome) (values : List Json) :
    SameShape (ofEvery rules kind a name p values) (ofEvery rules kind b name q values) := by
  induction values generalizing p q with
  | nil => exact sameShape_ok h
  | cons value values ih =>
    refine (sameShape_ofMatching rules kind a b .anywhere false name value).bind fun p' q' h' => ?_
    exact ih (by rw [isSome_joined, isSome_joined, h, h'])

theorem sameShape_joined {left left' right right' : Except Fault (Option Query)} (c d : Bool)
    (first : SameShape left left') (second : SameShape right right') :
    SameShape (do return joined c (← left) (← right)) (do return joined d (← left') (← right')) := by
  refine first.bind fun p q h => ?_
  refine second.bind fun p' q' h' => sameShape_ok ?_
  rw [isSome_joined, isSome_joined, h, h']

/-- Whether a filter is compiled negated has no part in whether it can be compiled, and in whether it
places a constraint. -/
theorem sameShape_compile (rules : SearchRules) (kind : EntryClass) (f : Filter) (a b : Bool) :
    SameShape (compile rules kind a f) (compile rules kind b f) := by
  induction f generalizing a b with
  | equals name values =>
    rw [compile, compile]
    cases literals kind name values with
    | error fault => rfl
    | ok found => cases found <;> rfl
  | containsAll name values =>
    rw [compile, compile, ofContainsAll, ofContainsAll]
    split <;> exact sameShape_ofEvery rules kind a b name rfl _
  | ordered relation name value =>
    rw [compile, compile]
    cases literal? kind name false value with
    | error fault => rfl
    | ok l => exact sameShape_ok (by rw [Option.isSome_map, Option.isSome_map])
  | matching place name value => exact sameShape_ofMatching rules kind a b place true name value
  | both left right ihl ihr => exact sameShape_joined (!a) (!b) (ihl a b) (ihr a b)
  | either left right ihl ihr => exact sameShape_joined a b (ihl a b) (ihr a b)
  | negation inner ih => exact ih (!a) (!b)

/-- A filter and its negation fail with one fault, place no constraint, or give two queries; and both
queries are read, and a note that settles them satisfies one and not the other. -/
theorem ofFilter_negation {f : Filter} (hf : f.Readable) :
    SameShape (ofFilter rules kind (.negation f)) (ofFilter rules kind f) ∧
      ∀ p q, ofFilter rules kind f = .ok (some p) → ofFilter rules kind (.negation f) = .ok (some q) →
        ∃ affirmed denied, Formula.read (confined kind (some p.write)) = .ok affirmed ∧
          Formula.read (confined kind (some q.write)) = .ok denied ∧
          ∀ n : Note, n.Settles kind (f.orderedFields kind) → denied.holds n = !affirmed.holds n := by
  have negated : ofFilter rules kind (.negation f) = compile rules kind true f := by
    rw [ofFilter, compile, Bool.not_false]
  rw [negated]
  refine ⟨sameShape_compile rules kind f true false, fun p q hp hq => ?_⟩
  obtain ⟨readable, agrees⟩ := means_compile hf hp
  obtain ⟨readable', agrees'⟩ := means_compile hf hq
  have read := read_confined kind readable
  have read' := read_confined kind readable'
  rw [Option.map_some] at read read'
  refine ⟨confinedFormula kind (some p), confinedFormula kind (some q), read, read', fun n hn => ?_⟩
  have opposite : verdict (some q) n = (verdict (some p) n).map not := by
    rw [← agrees n, ← agrees' n]
    exact reading_true hn
  have confined : (formFormula kind).holds n = true := (holds_formFormula kind n).mpr hn.form
  rw [confinedFormula, confinedFormula, Formula.holds_both, Formula.holds_both, confined,
    Bool.true_and, Bool.true_and]
  exact Option.some.inj opposite

def sampleNote : Note :=
  { (Note.ofClass .account).setTexts "FirstName" ["Ann", "Maria"] with id := some "1" }

theorem ofFilter_negation_sample :
    sampleFilter.Readable ∧ sampleNote.Settles .account (sampleFilter.orderedFields .account) ∧
      SameShape (ofFilter {} .account (.negation sampleFilter)) (ofFilter {} .account sampleFilter) ∧
      ∃ p q affirmed denied, ofFilter {} .account sampleFilter = .ok (some p) ∧
        ofFilter {} .account (.negation sampleFilter) = .ok (some q) ∧
        Formula.read (confined .account (some p.write)) = .ok affirmed ∧
        Formula.read (confined .account (some q.write)) = .ok denied ∧
        denied.holds sampleNote = !affirmed.holds sampleNote := by
  have readable : sampleFilter.Readable :=
    ⟨⟨⟨by decide, by decide⟩, ⟨by decide, by decide⟩⟩, ⟨by decide, by decide⟩⟩
  have settles : sampleNote.Settles .account (sampleFilter.orderedFields .account) :=
    ⟨by decide, by decide, by decide⟩
  obtain ⟨shape, opposed⟩ := @ofFilter_negation {} .account sampleFilter readable
  have compiled : ∀ f ∈ [sampleFilter, .negation sampleFilter],
      (ofFilter {} .account f).toOption.join.isSome = true := by
    decide
  have query : ∀ f ∈ [sampleFilter, .negation sampleFilter],
      ∃ q, ofFilter {} .account f = .ok (some q) := by
    intro f hf
    obtain ⟨q, hq⟩ := Option.isSome_iff_exists.mp (compiled f hf)
    exact ⟨q, eq_ok_of_toOption (Option.join_eq_some_iff.mp hq)⟩
  obtain ⟨p, hp⟩ := query _ (List.mem_cons_self)
  obtain ⟨q, hq⟩ := query _ (List.mem_cons_of_mem _ List.mem_cons_self)
  obtain ⟨affirmed, denied, read, read', opposite⟩ := opposed p q hp hq
  exact ⟨readable, settles, shape, p, q, affirmed, denied, hp, hq, read, read',
    opposite sampleNote settles⟩

end Query

end AddressBook

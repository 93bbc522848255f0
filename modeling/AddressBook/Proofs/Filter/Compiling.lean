import AddressBook.Proofs.Filter.Query

/-! Which filters compile. A filter does when every value that is looked for has a literal or is null,
whatever is negated, and it compiles to its query then; the translation of a filter is the text of that
query. -/

namespace AddressBook

namespace Filter

open Query (Literal fieldName)

def Takes (kind : EntryClass) (name : String) (isPattern : Bool) (value : Json) : Prop :=
  ∃ l, Query.literal? kind name isPattern value = .ok l

def Compiles (rules : SearchRules) (kind : EntryClass) : Filter → Prop
  | .equals name values => ∀ value ∈ values, Takes kind name false value
  | .containsAll name values => ∀ value ∈ sought rules values, Takes kind name false value
  | .ordered _ name value => Takes kind name false value
  | .matching _ name value => Takes kind name true value
  | .both left right => left.Compiles rules kind ∧ right.Compiles rules kind
  | .either left right => left.Compiles rules kind ∧ right.Compiles rules kind
  | .negation inner => inner.Compiles rules kind

variable {rules : SearchRules} {kind : EntryClass} {negated : Bool} {name : String}

theorem exists_literals_iff {values : List Json} :
    (∃ ls, Query.literals kind name values = .ok ls) ↔
      ∀ value ∈ values, Takes kind name false value := by
  induction values with
  | nil => exact ⟨fun _ _ hv => absurd hv List.not_mem_nil, fun _ => ⟨[], rfl⟩⟩
  | cons value values ih =>
    rw [List.forall_mem_cons, ← ih, Query.literals]
    constructor
    · rintro ⟨ls, h⟩
      obtain ⟨l, first, h⟩ := bind_eq_ok h
      obtain ⟨others, rest, -⟩ := bind_eq_ok h
      exact ⟨⟨l, first⟩, others, rest⟩
    · rintro ⟨⟨l, first⟩, others, rest⟩
      rw [first, rest]
      exact ⟨_, rfl⟩

theorem exists_ofMatching_iff {place : Place} {isPattern : Bool} {value : Json} :
    (∃ q, Query.ofMatching rules kind negated place isPattern name value = .ok q) ↔
      Takes kind name isPattern value := by
  rw [Query.ofMatching]
  constructor
  · rintro ⟨q, h⟩
    obtain ⟨l, made, -⟩ := bind_eq_ok h
    exact ⟨l, made⟩
  · rintro ⟨l, made⟩
    rw [made]
    exact ⟨_, rfl⟩

theorem exists_ofEvery_iff {earlier : Option Query} {values : List Json} :
    (∃ q, Query.ofEvery rules kind negated name earlier values = .ok q) ↔
      ∀ value ∈ values, Takes kind name false value := by
  induction values generalizing earlier with
  | nil => exact ⟨fun _ _ hv => absurd hv List.not_mem_nil, fun _ => ⟨earlier, rfl⟩⟩
  | cons value values ih =>
    rw [List.forall_mem_cons, Query.ofEvery]
    constructor
    · rintro ⟨q, h⟩
      obtain ⟨next, made, h⟩ := bind_eq_ok h
      exact ⟨exists_ofMatching_iff.mp ⟨next, made⟩, ih.mp ⟨q, h⟩⟩
    · rintro ⟨first, rest⟩
      have matched : ∃ q, Query.ofMatching rules kind negated .anywhere false name value = .ok q :=
        exists_ofMatching_iff.mpr first
      obtain ⟨next, made⟩ := matched
      rw [made]
      exact ih.mpr rest

theorem exists_compile_iff {f : Filter} :
    (∃ q, Query.compile rules kind negated f = .ok q) ↔ f.Compiles rules kind := by
  have joins : ∀ {left right : Except Fault (Option Query)} (conjunction : Bool),
      (∃ q, (do return Query.joined conjunction (← left) (← right) : Except Fault (Option Query)) =
        .ok q) ↔ (∃ p, left = .ok p) ∧ ∃ q, right = .ok q := by
    intro left right conjunction
    constructor
    · rintro ⟨q, h⟩
      obtain ⟨p, first, h⟩ := bind_eq_ok h
      obtain ⟨p', second, -⟩ := bind_eq_ok h
      exact ⟨⟨p, first⟩, p', second⟩
    · rintro ⟨⟨p, rfl⟩, p', rfl⟩
      exact ⟨_, rfl⟩
  induction f generalizing negated with
  | equals name values =>
    rw [Query.compile, Compiles, ← exists_literals_iff]
    constructor
    · rintro ⟨q, h⟩
      obtain ⟨ls, found, -⟩ := bind_eq_ok h
      exact ⟨ls, found⟩
    · rintro ⟨ls, found⟩
      rw [found]
      cases ls <;> exact ⟨_, rfl⟩
  | containsAll name values =>
    have same : Query.compile rules kind negated (.containsAll name values) =
        Query.ofEvery rules kind negated name none (sought rules values) := by
      rw [Query.compile, Query.ofContainsAll, sought]
      cases rules.containsAll <;> rfl
    rw [same]
    exact exists_ofEvery_iff
  | ordered relation name value =>
    rw [Query.compile, Compiles]
    constructor
    · rintro ⟨q, h⟩
      obtain ⟨l, made, -⟩ := bind_eq_ok h
      exact ⟨l, made⟩
    · rintro ⟨l, made⟩
      rw [made]
      exact ⟨_, rfl⟩
  | matching place name value => exact exists_ofMatching_iff
  | both left right ihl ihr =>
    rw [Query.compile, Compiles]
    exact (joins _).trans (and_congr ihl ihr)
  | either left right ihl ihr =>
    rw [Query.compile, Compiles]
    exact (joins _).trans (and_congr ihl ihr)
  | negation inner ih => exact ih

end Filter

namespace Query

variable {rules : SearchRules} {kind : EntryClass} {f g : Filter}

/-- The text of the query of a filter, if the filter compiles and if there is a query. -/
def translation (rules : SearchRules) (kind : EntryClass) (f : Filter) : Option (Option String) :=
  (ofFilter rules kind f).toOption.map (Option.map write)

theorem translation_of_ok {q : Option Query} (h : ofFilter rules kind f = .ok q) :
    translation rules kind f = some (q.map write) := by
  rw [translation, h]
  rfl

theorem translation_of_compiles (h : f.Compiles rules kind) :
    translation rules kind f = some ((f.query rules kind false).map write) := by
  have compiles : ∃ q, ofFilter rules kind f = .ok q := Filter.exists_compile_iff.mpr h
  obtain ⟨q, compiled⟩ := compiles
  rw [Filter.query_of_compile compiled]
  exact translation_of_ok compiled

theorem translation_eq_none (h : ¬ f.Compiles rules kind) : translation rules kind f = none := by
  rw [translation]
  cases compiled : ofFilter rules kind f with
  | error fault => rfl
  | ok q => exact absurd (Filter.exists_compile_iff.mp ⟨q, compiled⟩) h

theorem translation_eq_iff : translation rules kind f = translation rules kind g ↔
    (f.Compiles rules kind ↔ g.Compiles rules kind) ∧ (f.Compiles rules kind →
      (f.query rules kind false).map write = (g.query rules kind false).map write) := by
  by_cases hf : f.Compiles rules kind
  · by_cases hg : g.Compiles rules kind
    · rw [translation_of_compiles hf, translation_of_compiles hg, Option.some.injEq,
        and_iff_right (iff_of_true hf hg), imp_iff_right hf]
    · rw [translation_of_compiles hf, translation_eq_none hg]
      exact iff_of_false (Option.some_ne_none _) fun h => hg (h.1.mp hf)
  · by_cases hg : g.Compiles rules kind
    · rw [translation_eq_none hf, translation_of_compiles hg]
      exact iff_of_false (Option.some_ne_none _).symm fun h => hf (h.1.mpr hg)
    · rw [translation_eq_none hf, translation_eq_none hg]
      exact iff_of_true rfl ⟨iff_of_false hf hg, fun h => absurd h hf⟩

end Query

end AddressBook

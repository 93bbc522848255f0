import AddressBook.Proofs.Directory.Store
import AddressBook.Proofs.Query.Meaning

/-! The query of a filter as a function that cannot fail. Where a filter compiles, this is what it
compiles to; what the query has in it, its fields and its literals, is then read off the filter, one
case for each kind of leaf. -/

namespace AddressBook

namespace Query

def writtenLiterals : Query → List Literal
  | .equality _ _ values => values
  | .ordering _ _ value => [value]
  | .matching _ _ _ value => [value]
  | .both left right => left.writtenLiterals ++ right.writtenLiterals
  | .either left right => left.writtenLiterals ++ right.writtenLiterals

def fieldNames : Query → List String
  | .equality _ f _ => [f.name]
  | .ordering _ name _ => [name]
  | .matching _ _ f _ => [f.name]
  | .both left right => left.fieldNames ++ right.fieldNames
  | .either left right => left.fieldNames ++ right.fieldNames

def Listed : Query → Prop
  | .equality _ _ values => values ≠ []
  | .ordering _ _ _ => True
  | .matching _ _ _ _ => True
  | .both left right => left.Listed ∧ right.Listed
  | .either left right => left.Listed ∧ right.Listed

theorem readable_iff {q : Query} (listed : q.Listed) :
    q.Readable ↔ (∀ name ∈ q.fieldNames, Text.isIdentifier name = true) ∧
      ∀ l ∈ q.writtenLiterals, l.Readable := by
  induction q with
  | equality negated f values => simp [Readable, fieldNames, writtenLiterals, show values ≠ [] from listed]
  | ordering relation name value => simp [Readable, fieldNames, writtenLiterals]
  | matching negated place f value => simp [Readable, fieldNames, writtenLiterals]
  | both left right ihl ihr | either left right ihl ihr =>
    rw [Readable, ihl listed.1, ihr listed.2, fieldNames, writtenLiterals, List.forall_mem_append,
      List.forall_mem_append]
    exact and_and_and_comm

end Query

namespace Filter

open Query (Literal fieldName)

/-- A text as a field is compared with it: a pattern stays as it is, a name or an id is brought into
the stored form. -/
def storedText (kind : EntryClass) (name : String) (isPattern : Bool) (s : String) : String :=
  if isPattern then s else (Query.storedForm kind name s).toOption.getD s

def literal? (kind : EntryClass) (name : String) (isPattern : Bool) : Json → Option Literal
  | .bool b => some (.text (if b then "true" else "false"))
  | .integer i => some (.number (.integer i))
  | .real n => some (.number (.real n))
  | .text s => some (.text (storedText kind name isPattern s))
  | _ => none

def everyMatch (rules : SearchRules) (negated : Bool) (field : String) (earlier : Option Query) :
    List Literal → Option Query
  | [] => earlier
  | l :: ls =>
    everyMatch rules negated field (Query.joined (!negated) earlier
      (some (Query.matchingOf rules negated .anywhere field l))) ls

def query (rules : SearchRules) (kind : EntryClass) (negated : Bool) : Filter → Option Query
  | .equals name values =>
    match values.filterMap (literal? kind name false) with
    | [] => none
    | found => some (Query.equalityOf rules negated (fieldName kind name) found)
  | .containsAll name values =>
    everyMatch rules negated (fieldName kind name) none
      ((sought rules values).filterMap (literal? kind name false))
  | .ordered relation name value =>
    (literal? kind name false value).map
      (.ordering (if negated then relation.complement else relation) (fieldName kind name))
  | .matching place name value =>
    (literal? kind name true value).map
      (Query.matchingOf rules negated place (fieldName kind name))
  | .both left right =>
    Query.joined (!negated) (left.query rules kind negated) (right.query rules kind negated)
  | .either left right =>
    Query.joined negated (left.query rules kind negated) (right.query rules kind negated)
  | .negation inner => inner.query rules kind (!negated)

variable {rules : SearchRules} {kind : EntryClass} {negated : Bool} {name : String}

theorem literal?_of_literal? {isPattern : Bool} {value : Json} {l : Option Literal}
    (h : Query.literal? kind name isPattern value = .ok l) : literal? kind name isPattern value = l := by
  cases value with
  | null | bool b | integer i | real n =>
    cases h
    rfl
  | list items | object members => cases h
  | text s =>
    rw [Query.literal?] at h
    rw [literal?, storedText]
    split at h
    · next pattern =>
      cases h
      rw [if_pos pattern]
    · next pattern =>
      obtain ⟨stored, made, h⟩ := bind_eq_ok h
      cases h
      rw [if_neg pattern, made]
      rfl

theorem filterMap_of_literals {values : List Json} {ls : List Literal}
    (h : Query.literals kind name values = .ok ls) :
    values.filterMap (literal? kind name false) = ls := by
  induction values generalizing ls with
  | nil =>
    cases h
    rfl
  | cons value values ih =>
    rw [Query.literals] at h
    obtain ⟨first, read, h⟩ := bind_eq_ok h
    obtain ⟨others, made, h⟩ := bind_eq_ok h
    cases h
    rw [List.filterMap_cons, literal?_of_literal? read, ih made]
    cases first <;> rfl

theorem map_of_ofMatching {place : Place} {isPattern : Bool} {value : Json} {q : Option Query}
    (h : Query.ofMatching rules kind negated place isPattern name value = .ok q) :
    (literal? kind name isPattern value).map
      (Query.matchingOf rules negated place (fieldName kind name)) = q := by
  rw [Query.ofMatching] at h
  obtain ⟨l, read, h⟩ := bind_eq_ok h
  cases h
  rw [literal?_of_literal? read]

theorem everyMatch_of_ofEvery {earlier q : Option Query} {values : List Json}
    (h : Query.ofEvery rules kind negated name earlier values = .ok q) :
    everyMatch rules negated (fieldName kind name) earlier
      (values.filterMap (literal? kind name false)) = q := by
  induction values generalizing earlier with
  | nil =>
    cases h
    rfl
  | cons value values ih =>
    rw [Query.ofEvery] at h
    obtain ⟨next, made, h⟩ := bind_eq_ok h
    have first := map_of_ofMatching made
    have others := ih h
    rw [List.filterMap_cons]
    cases read : literal? kind name false value with
    | none =>
      rw [read, Option.map_none] at first
      rw [← first] at others
      cases earlier <;> exact others
    | some l =>
      rw [read, Option.map_some] at first
      rw [← first] at others
      exact others

theorem query_of_compile {f : Filter} {q : Option Query}
    (h : Query.compile rules kind negated f = .ok q) : f.query rules kind negated = q := by
  induction f generalizing negated q with
  | equals name values =>
    rw [Query.compile] at h
    obtain ⟨ls, found, h⟩ := bind_eq_ok h
    rw [query, filterMap_of_literals found]
    cases ls with
    | nil => cases h; rfl
    | cons l ls => cases h; rfl
  | containsAll name values =>
    have every : Query.ofEvery rules kind negated name none (sought rules values) = .ok q := by
      rw [← h, Query.compile, Query.ofContainsAll, sought]
      cases rules.containsAll <;> rfl
    exact everyMatch_of_ofEvery every
  | ordered relation name value =>
    rw [Query.compile] at h
    obtain ⟨l, read, h⟩ := bind_eq_ok h
    cases h
    rw [query, literal?_of_literal? read]
  | matching place name value => exact map_of_ofMatching h
  | both left right ihl ihr =>
    rw [Query.compile] at h
    obtain ⟨p, first, h⟩ := bind_eq_ok h
    obtain ⟨p', second, h⟩ := bind_eq_ok h
    cases h
    rw [query, ihl first, ihr second]
  | either left right ihl ihr =>
    rw [Query.compile] at h
    obtain ⟨p, first, h⟩ := bind_eq_ok h
    obtain ⟨p', second, h⟩ := bind_eq_ok h
    cases h
    rw [query, ihl first, ihr second]
  | negation inner ih => exact ih h

/-! What is in the query. -/

def names : Filter → List String
  | .equals name _ => [name]
  | .containsAll name _ => [name]
  | .ordered _ name _ => [name]
  | .matching _ name _ => [name]
  | .both left right => left.names ++ right.names
  | .either left right => left.names ++ right.names
  | .negation inner => inner.names

def soughtValues (rules : SearchRules) : Filter → List Json
  | .equals _ values => values
  | .containsAll _ values => sought rules values
  | .ordered _ _ value => [value]
  | .matching _ _ value => [value]
  | .both left right => left.soughtValues rules ++ right.soughtValues rules
  | .either left right => left.soughtValues rules ++ right.soughtValues rules
  | .negation inner => inner.soughtValues rules

def folded (rules : SearchRules) (field : String) (l : Literal) : Literal :=
  if rules.isExact field then l else l.lowerCase

def literals (rules : SearchRules) (kind : EntryClass) : Filter → List Literal
  | .equals name values =>
    (values.filterMap (literal? kind name false)).map (folded rules (fieldName kind name))
  | .containsAll name values =>
    ((sought rules values).filterMap (literal? kind name false)).map
      (folded rules (fieldName kind name))
  | .ordered _ name value => (literal? kind name false value).toList
  | .matching _ name value =>
    (literal? kind name true value).toList.map (folded rules (fieldName kind name))
  | .both left right => left.literals rules kind ++ right.literals rules kind
  | .either left right => left.literals rules kind ++ right.literals rules kind
  | .negation inner => inner.literals rules kind

theorem equalityOf_eq (field : String) (ls : List Literal) :
    Query.equalityOf rules negated field ls =
      .equality negated ⟨field, Query.ignoresCase rules field ls⟩ (ls.map (folded rules field)) := by
  rw [Query.equalityOf]
  cases exact : rules.isExact field with
  | true =>
    have same : folded rules field = id := by
      funext l
      rw [folded, exact, if_pos rfl, id]
    simp [Query.ignoresCase, exact, same]
  | false =>
    have lower : folded rules field = Literal.lowerCase := by
      funext l
      rw [folded, exact, if_neg Bool.false_ne_true]
    rw [lower]
    split
    · next fold => rw [fold]
    · next none =>
      have numbers : ∀ l ∈ ls, l.lowerCase = id l := by
        intro l hl
        cases l with
        | number json => rfl
        | text s =>
          refine absurd ?_ none
          rw [Query.ignoresCase, exact, Bool.not_false, Bool.and_true]
          exact List.any_eq_true.mpr ⟨_, hl, rfl⟩
      rw [List.map_congr_left numbers, List.map_id, Bool.eq_false_iff.mpr none]

theorem matchingOf_eq (place : Place) (field : String) (l : Literal) :
    Query.matchingOf rules negated place field l =
      .matching negated place ⟨field, Query.ignoresCase rules field [l]⟩ (folded rules field l) := by
  have equality := @equalityOf_eq rules negated field [l]
  rw [Query.equalityOf] at equality
  rw [Query.matchingOf]
  cases fold : Query.ignoresCase rules field [l] with
  | true | false =>
    rw [fold] at equality
    simp only [Bool.false_eq_true, if_true, if_false, List.map_cons, List.map_nil] at equality ⊢
    injection equality with _ _ literals
    exact congrArg _ (List.singleton_inj.mp literals)

theorem writtenLiterals_matchingOf (place : Place) (field : String) (l : Literal) :
    (Query.matchingOf rules negated place field l).writtenLiterals = [folded rules field l] := by
  rw [matchingOf_eq, Query.writtenLiterals]

theorem writtenLiterals_joined (conjunction : Bool) (p q : Option Query) :
    ((Query.joined conjunction p q).map Query.writtenLiterals).getD [] =
      (p.map Query.writtenLiterals).getD [] ++ (q.map Query.writtenLiterals).getD [] := by
  cases p <;> cases q <;> cases conjunction <;> simp [Query.joined, Query.writtenLiterals]

theorem writtenLiterals_everyMatch (field : String) (earlier : Option Query) (ls : List Literal) :
    ((everyMatch rules negated field earlier ls).map Query.writtenLiterals).getD [] =
      (earlier.map Query.writtenLiterals).getD [] ++ ls.map (folded rules field) := by
  induction ls generalizing earlier with
  | nil => simp [everyMatch]
  | cons l ls ih =>
    rw [everyMatch, ih, writtenLiterals_joined, Option.map_some, Option.getD_some,
      writtenLiterals_matchingOf, List.map_cons, List.append_assoc, List.singleton_append]

theorem writtenLiterals_query (f : Filter) (negated : Bool) :
    ((f.query rules kind negated).map Query.writtenLiterals).getD [] = f.literals rules kind := by
  induction f generalizing negated with
  | equals name values =>
    rw [query, literals]
    split
    · next none => rw [none]; rfl
    · rw [Option.map_some, Option.getD_some, equalityOf_eq, Query.writtenLiterals]
  | containsAll name values =>
    rw [query, literals, writtenLiterals_everyMatch]
    rfl
  | ordered relation name value =>
    rw [query, literals]
    cases literal? kind name false value <;> rfl
  | matching place name value =>
    rw [query, literals]
    cases literal? kind name true value with
    | none => rfl
    | some l => exact writtenLiterals_matchingOf place (fieldName kind name) l
  | both left right ihl ihr | either left right ihl ihr =>
    rw [query, literals, writtenLiterals_joined, ihl, ihr]
  | negation inner ih => exact ih _

def Within (fields : List String) (q : Query) : Prop :=
  q.Listed ∧ ∀ name ∈ q.fieldNames, name ∈ fields

variable {fields : List String}

theorem within_equalityOf {field : String} (hf : field ∈ fields) {ls : List Literal} (hl : ls ≠ []) :
    Within fields (Query.equalityOf rules negated field ls) := by
  rw [Query.equalityOf]
  split <;> exact ⟨by simpa [Query.Listed] using hl, by simpa [Query.fieldNames] using hf⟩

theorem within_matchingOf {field : String} (hf : field ∈ fields) (place : Place) (l : Literal) :
    Within fields (Query.matchingOf rules negated place field l) := by
  rw [Query.matchingOf]
  split <;> exact ⟨trivial, by simpa [Query.fieldNames] using hf⟩

theorem within_joined (conjunction : Bool) {p p' : Option Query} (hp : ∀ q ∈ p, Within fields q)
    (hp' : ∀ q ∈ p', Within fields q) : ∀ q ∈ Query.joined conjunction p p', Within fields q := by
  cases p with
  | none => cases p' <;> exact hp'
  | some left =>
    cases p' with
    | none => exact hp
    | some right =>
      obtain ⟨listed, known⟩ := hp left rfl
      obtain ⟨listed', known'⟩ := hp' right rfl
      have all : ∀ name ∈ left.fieldNames ++ right.fieldNames, name ∈ fields :=
        List.forall_mem_append.mpr ⟨known, known'⟩
      cases conjunction <;> rintro q ⟨⟩ <;> exact ⟨⟨listed, listed'⟩, all⟩

theorem within_everyMatch {field : String} (hf : field ∈ fields) {earlier : Option Query}
    (he : ∀ q ∈ earlier, Within fields q) (ls : List Literal) :
    ∀ q ∈ everyMatch rules negated field earlier ls, Within fields q := by
  induction ls generalizing earlier with
  | nil => exact he
  | cons l ls ih =>
    refine ih (within_joined _ he ?_)
    rintro q ⟨⟩
    exact within_matchingOf hf .anywhere l

theorem within_query {f : Filter} (h : ∀ name ∈ f.names, fieldName kind name ∈ fields)
    (negated : Bool) : ∀ q ∈ f.query rules kind negated, Within fields q := by
  induction f generalizing negated with
  | equals name values =>
    have known := h name List.mem_cons_self
    rw [query]
    split
    · simp
    · next nonempty =>
      rintro q ⟨⟩
      exact within_equalityOf known nonempty
  | containsAll name values =>
    exact within_everyMatch (h name List.mem_cons_self) (by simp) _
  | ordered relation name value =>
    intro q hq
    obtain ⟨l, -, rfl⟩ := Option.map_eq_some_iff.mp hq
    exact ⟨trivial, by simpa [Query.fieldNames] using h name List.mem_cons_self⟩
  | matching place name value =>
    intro q hq
    obtain ⟨l, -, rfl⟩ := Option.map_eq_some_iff.mp hq
    exact within_matchingOf (h name List.mem_cons_self) place l
  | both left right ihl ihr | either left right ihl ihr =>
    obtain ⟨first, second⟩ := List.forall_mem_append.mp h
    exact within_joined _ (ihl first _) (ihr second _)
  | negation inner ih => exact ih h _

end Filter

end AddressBook

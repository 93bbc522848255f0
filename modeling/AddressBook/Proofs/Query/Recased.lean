import Mathlib.Data.List.Forall2
import AddressBook.Proofs.Filter.Compiling
import AddressBook.Proofs.Name.Recased

/-! The case of the texts in a filter. Where a field is compared without regard to case, texts that
differ in the case of ASCII letters only have the same literals, however they are brought into the
stored form before; so the filters have the same translation. -/

namespace AddressBook

open Text

/-- The same value, or a text in another case. -/
inductive Json.Recased : Json → Json → Prop
  | refl (value : Json) : Recased value value
  | text {s t : String} (same : sameAscii s t = true) : Recased (.text s) (.text t)

theorem Json.Recased.symm {v w : Json} (h : v.Recased w) : w.Recased v := by
  cases h with
  | refl => exact .refl v
  | text same => exact .text (by rwa [sameAscii_comm])

namespace Query

variable {rules : SearchRules} {kind : EntryClass} {name : String}

theorem not_uid_of_loose (loose : rules.isExact (fieldName .account name) = false) :
    name ≠ Schema.uidAttribute := by
  rintro rfl
  rw [SearchRules.isExact, Bool.or_eq_false_iff, List.any_append, Bool.or_eq_false_iff] at loose
  exact absurd loose.2.1 (by decide)

theorem sameAscii_display {s t : String} (same : sameAscii s t = true) :
    sameAscii (Alias.display s) (Alias.display t) = true := by
  have folded : ∀ s, asciiLower (Alias.display s) = Alias.display (asciiLower s) := by
    intro s
    rw [Alias.display, Alias.display, Alias.split, Alias.split, list_asciiLower (by decide)]
    cases list ';' s <;> rfl
  rw [sameAscii_iff, folded, folded, sameAscii_iff.mp same]

theorem storedForm_of_sameAscii (loose : rules.isExact (fieldName kind name) = false) {s t : String}
    (same : sameAscii s t = true) {a : String} (h : storedForm kind name s = .ok a) :
    ∃ b, storedForm kind name t = .ok b ∧ sameAscii a b = true := by
  cases kind with
  | account =>
    rw [storedForm] at h ⊢
    split at h
    · next full =>
      obtain ⟨c, canonical, made⟩ := bind_eq_ok h
      cases made
      obtain ⟨d, canonical', recased⟩ := Name.canonicalize_of_sameAscii same canonical
      rw [if_pos full, canonical']
      exact ⟨_, rfl, recased⟩
    · next other =>
      split at h
      · next uid => exact absurd uid (not_uid_of_loose loose)
      · next plain =>
        cases h
        rw [if_neg other, if_neg plain]
        exact ⟨_, rfl, same⟩
  | group =>
    rw [storedForm] at h ⊢
    split at h
    · next shown =>
      cases h
      rw [if_pos shown]
      exact ⟨_, rfl, sameAscii_display same⟩
    · next plain =>
      cases h
      rw [if_neg plain]
      exact ⟨_, rfl, same⟩

end Query

namespace Filter

open Query (Literal fieldName)

variable {rules : SearchRules} {kind : EntryClass} {name : String} {isPattern : Bool}

theorem Takes.of_recased (loose : rules.isExact (fieldName kind name) = false) {v w : Json}
    (same : v.Recased w) (h : Takes kind name isPattern v) : Takes kind name isPattern w := by
  cases same with
  | refl => exact h
  | @text s t same =>
    cases isPattern with
    | true => exact ⟨_, rfl⟩
    | false =>
      obtain ⟨l, made⟩ := h
      obtain ⟨a, stored, -⟩ := bind_eq_ok made
      obtain ⟨b, stored', -⟩ := Query.storedForm_of_sameAscii loose same stored
      refine ⟨some (.text b), ?_⟩
      rw [Query.literal?, if_neg Bool.false_ne_true, stored']
      rfl

theorem takes_iff (loose : rules.isExact (fieldName kind name) = false) {v w : Json}
    (same : v.Recased w) : Takes kind name isPattern v ↔ Takes kind name isPattern w :=
  ⟨.of_recased loose same, .of_recased loose same.symm⟩

theorem sameAscii_storedText (loose : rules.isExact (fieldName kind name) = false) (isPattern : Bool)
    {s t : String} (same : sameAscii s t = true) :
    sameAscii (storedText kind name isPattern s) (storedText kind name isPattern t) = true := by
  rw [storedText, storedText]
  split
  · exact same
  · cases first : Query.storedForm kind name s with
    | ok a =>
      obtain ⟨b, second, recased⟩ := Query.storedForm_of_sameAscii loose same first
      rw [second]
      exact recased
    | error fault =>
      cases second : Query.storedForm kind name t with
      | error fault' => exact same
      | ok b =>
        obtain ⟨a, other, -⟩ :=
          Query.storedForm_of_sameAscii loose (by rwa [sameAscii_comm] : sameAscii t s = true) second
        rw [first] at other
        cases other

/-- Values that differ in case have literals that are the same once they are folded. -/
theorem folded_literal? (loose : rules.isExact (fieldName kind name) = false) (isPattern : Bool)
    {v w : Json} (same : v.Recased w) :
    (literal? kind name isPattern v).map (folded rules (fieldName kind name)) =
      (literal? kind name isPattern w).map (folded rules (fieldName kind name)) := by
  cases same with
  | refl => rfl
  | text same =>
    have lowered := lower_eq_of_sameAscii (sameAscii_storedText loose isPattern same)
    simp [literal?, folded, loose, Literal.lowerCase, lowered]

theorem folded_literals (loose : rules.isExact (fieldName kind name) = false) (isPattern : Bool)
    {vs ws : List Json} (same : List.Forall₂ Json.Recased vs ws) :
    (vs.filterMap (literal? kind name isPattern)).map (folded rules (fieldName kind name)) =
      (ws.filterMap (literal? kind name isPattern)).map (folded rules (fieldName kind name)) := by
  rw [List.map_filterMap, List.map_filterMap]
  induction same with
  | nil => rfl
  | cons first _ ih =>
    rw [List.filterMap_cons, List.filterMap_cons, folded_literal? loose isPattern first, ih]

/-! Queries whose literals are the same once they are folded. -/

section

variable {negated : Bool} {field : String} {ls ms : List Literal}

theorem ignoresCase_folded (ls : List Literal) :
    Query.ignoresCase rules field (ls.map (folded rules field)) = Query.ignoresCase rules field ls := by
  have text : Literal.isText ∘ folded rules field = Literal.isText := by
    funext l
    rw [Function.comp, folded]
    split
    · rfl
    · cases l <;> rfl
  rw [Query.ignoresCase, List.any_map, text, Query.ignoresCase]

theorem equalityOf_congr (h : ls.map (folded rules field) = ms.map (folded rules field)) :
    Query.equalityOf rules negated field ls = Query.equalityOf rules negated field ms := by
  rw [equalityOf_eq, equalityOf_eq, ← ignoresCase_folded ls, ← ignoresCase_folded ms, h]

theorem matchingOf_congr {l m : Literal} (place : Place)
    (h : folded rules field l = folded rules field m) :
    Query.matchingOf rules negated place field l = Query.matchingOf rules negated place field m := by
  rw [matchingOf_eq, matchingOf_eq, ← ignoresCase_folded [l], ← ignoresCase_folded [m],
    List.map_singleton, List.map_singleton, h]

theorem everyMatch_congr (h : ls.map (folded rules field) = ms.map (folded rules field))
    (earlier : Option Query) :
    everyMatch rules negated field earlier ls = everyMatch rules negated field earlier ms := by
  induction ls generalizing ms earlier with
  | nil =>
    obtain rfl := List.map_eq_nil_iff.mp h.symm
    rfl
  | cons l ls ih =>
    obtain ⟨m, ms, rfl, first, others⟩ := List.map_eq_cons_iff.mp h.symm
    rw [everyMatch, everyMatch, matchingOf_congr .anywhere first, ih others.symm]

end

/-- Filters that differ in the case of texts with which fields are compared without regard to case. -/
inductive Recased (rules : SearchRules) (kind : EntryClass) : Filter → Filter → Prop
  | refl (f : Filter) : Recased rules kind f f
  | equals {name : String} {vs ws : List Json}
      (loose : rules.isExact (fieldName kind name) = false)
      (same : List.Forall₂ Json.Recased vs ws) :
      Recased rules kind (.equals name vs) (.equals name ws)
  | containsAll {name : String} {vs ws : List Json}
      (loose : rules.isExact (fieldName kind name) = false)
      (same : List.Forall₂ Json.Recased vs ws) :
      Recased rules kind (.containsAll name vs) (.containsAll name ws)
  | matching {place : Place} {name : String} {v w : Json}
      (loose : rules.isExact (fieldName kind name) = false) (same : v.Recased w) :
      Recased rules kind (.matching place name v) (.matching place name w)
  | both {left right left' right' : Filter} (first : Recased rules kind left left')
      (second : Recased rules kind right right') :
      Recased rules kind (.both left right) (.both left' right')
  | either {left right left' right' : Filter} (first : Recased rules kind left left')
      (second : Recased rules kind right right') :
      Recased rules kind (.either left right) (.either left' right')
  | negation {inner inner' : Filter} (same : Recased rules kind inner inner') :
      Recased rules kind (.negation inner) (.negation inner')

theorem forall_takes_iff (loose : rules.isExact (fieldName kind name) = false) {vs ws : List Json}
    (same : List.Forall₂ Json.Recased vs ws) :
    (∀ v ∈ vs, Takes kind name isPattern v) ↔ ∀ w ∈ ws, Takes kind name isPattern w := by
  induction same with
  | nil => exact Iff.rfl
  | cons first _ ih => rw [List.forall_mem_cons, List.forall_mem_cons, takes_iff loose first, ih]

theorem recased_sought {vs ws : List Json} (same : List.Forall₂ Json.Recased vs ws) :
    List.Forall₂ Json.Recased (sought rules vs) (sought rules ws) := by
  rw [sought, sought]
  split
  · exact same
  · exact List.forall₂_take 1 same

theorem Recased.compiles_iff {f g : Filter} (h : Recased rules kind f g) :
    f.Compiles rules kind ↔ g.Compiles rules kind := by
  induction h with
  | refl => exact Iff.rfl
  | equals loose same => exact forall_takes_iff loose same
  | containsAll loose same => exact forall_takes_iff loose (recased_sought same)
  | matching loose same => exact takes_iff loose same
  | both _ _ ihl ihr | either _ _ ihl ihr => exact and_congr ihl ihr
  | negation _ ih => exact ih

theorem Recased.query_eq {f g : Filter} (h : Recased rules kind f g) (negated : Bool) :
    f.query rules kind negated = g.query rules kind negated := by
  induction h generalizing negated with
  | refl => rfl
  | @equals name vs ws loose same =>
    have folds := folded_literals loose false same
    rw [query, query]
    cases first : vs.filterMap (literal? kind name false) with
    | nil =>
      rw [first, List.map_nil] at folds
      rw [List.map_eq_nil_iff.mp folds.symm]
    | cons l ls =>
      cases second : ws.filterMap (literal? kind name false) with
      | nil =>
        rw [first, second] at folds
        cases folds
      | cons m ms =>
        rw [first, second] at folds
        exact congrArg some (equalityOf_congr folds)
  | containsAll loose same =>
    exact everyMatch_congr (folded_literals loose false (recased_sought same)) none
  | @matching place name v w loose same =>
    have folds := folded_literal? loose true same
    rw [query, query]
    cases first : literal? kind name true v with
    | none =>
      rw [first, Option.map_none] at folds
      rw [Option.map_eq_none_iff.mp folds.symm]
    | some l =>
      cases second : literal? kind name true w with
      | none =>
        rw [first, second] at folds
        cases folds
      | some m =>
        rw [first, second] at folds
        exact congrArg some (matchingOf_congr place (Option.some.inj folds))
  | both _ _ ihl ihr | either _ _ ihl ihr => rw [query, query, ihl, ihr]
  | negation _ ih => exact ih _

end Filter

namespace Query

/-- Filters that differ in the case of texts where case does not count have the same translation. -/
theorem translation_of_recased {rules : SearchRules} {kind : EntryClass} {f g : Filter}
    (h : f.Recased rules kind g) : translation rules kind f = translation rules kind g :=
  translation_eq_iff.mpr ⟨h.compiles_iff, fun _ => by rw [h.query_eq false]⟩

def sampleNames (full part : String) : Filter :=
  .both (.equals "__NAME__" [.text full, .null])
    (.negation (.containsAll "LastName" [.text part, .text "Lee"]))

theorem translation_of_recased_sample :
    (sampleNames "cn=Ann Lee / o=ACME" "L").Recased {} .account
        (sampleNames "CN=ANN LEE / O=Acme" "l") ∧
      ∃ text, text = "((@LowerCase(FullName)=\"cn=ann lee/o=acme\")) & " ++
          "(!@Contains(@LowerCase(LastName); \"l\"))" ∧
        translation {} .account (sampleNames "cn=Ann Lee / o=ACME" "L") = some (some text) ∧
        translation {} .account (sampleNames "CN=ANN LEE / O=Acme" "l") = some (some text) := by
  have recased : (sampleNames "cn=Ann Lee / o=ACME" "L").Recased {} .account
      (sampleNames "CN=ANN LEE / O=Acme" "l") :=
    .both
      (.equals (by decide) (.cons (.text (by decide)) (.cons (.refl _) .nil)))
      (.negation (.containsAll (by decide)
        (.cons (.text (by decide)) (.cons (.refl _) .nil))))
  refine ⟨recased, _, rfl, by decide, ?_⟩
  rw [← translation_of_recased recased]
  decide

end Query

end AddressBook

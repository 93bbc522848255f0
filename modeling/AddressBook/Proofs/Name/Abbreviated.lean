import AddressBook.Proofs.Name.Canonical
import Mathlib.Data.List.Forall2

/-! Abbreviated renderings. They hold the parts of a name without the labels, and the places of the
parts are guessed from how many there are and how long the last one is. The guess is right for a name
with a country of two characters, and for one without a country whose organization has another
length or stands alone. -/

namespace AddressBook

namespace Position

/-- Which part is the organization and which the country can be told from the parts alone. -/
def Unambiguous (p : Position) : Prop :=
  match p.country with
  | some country => country.length = 2
  | none => p.units = [] ∨ p.organization.length ≠ 2

instance (p : Position) : Decidable p.Unambiguous := by
  unfold Unambiguous
  split <;> infer_instance

end Position

namespace Name

open Text

def parts (n : Name) : List String := n.common :: (n.position.map Position.parts).getD []

def Unambiguous (n : Name) : Prop := ∀ p ∈ n.position, p.Unambiguous

/-- No part starts with a label, so that none is read as one once the labels are left out. -/
def Unlabelled (n : Name) : Prop := ∀ part ∈ n.parts, labelled? part = none

instance (n : Name) : Decidable n.Unambiguous :=
  inferInstanceAs (Decidable (∀ p ∈ n.position, p.Unambiguous))

instance (n : Name) : Decidable n.Unlabelled :=
  inferInstanceAs (Decidable (∀ part ∈ n.parts, labelled? part = none))

theorem positionOfBare_parts_iff (p : Position) :
    positionOfBare p.parts = some p ↔ p.Unambiguous := by
  obtain ⟨units, organization, country⟩ := p
  cases country with
  | some country =>
    have upwards : (Position.parts ⟨units, organization, some country⟩).reverse =
        country :: organization :: units.reverse := by
      simp [Position.parts]
    rw [positionOfBare, upwards, Position.Unambiguous]
    by_cases two : country.length = 2 <;> simp [two]
  | none =>
    have upwards : (Position.parts ⟨units, organization, none⟩).reverse =
        organization :: units.reverse := by
      simp [Position.parts]
    rw [positionOfBare, upwards, Position.Unambiguous]
    cases shape : units.reverse with
    | nil =>
      have alone : units = [] := List.reverse_eq_nil_iff.mp shape
      simp [alone]
    | cons last others =>
      have several : units = (last :: others).reverse := by
        rw [← shape, List.reverse_reverse]
      by_cases two : organization.length = 2 <;> simp [two, several]

theorem positionOfBare_position_iff (n : Name) :
    positionOfBare ((n.position.map Position.parts).getD []) = n.position ↔ n.Unambiguous := by
  rw [Unambiguous]
  cases n.position with
  | none => simp [positionOfBare]
  | some p => simpa using positionOfBare_parts_iff p

theorem abbreviated_eq_join (n : Name) : n.abbreviated = join "/" n.parts := by
  obtain ⟨common, position⟩ := n
  cases position with
  | some p => rfl
  | none =>
    apply String.toList_injective
    simp [abbreviated, parts, join, List.intercalate]

theorem WellFormed.isPart {n : Name} (h : n.WellFormed) : ∀ part ∈ n.parts, IsPart part := by
  intro part hpart
  rcases List.mem_cons.mp hpart with rfl | hpart
  · exact h.common
  · cases position : n.position with
    | none =>
      rw [position] at hpart
      cases hpart
    | some p =>
      rw [position] at hpart
      exact h.parts p position part hpart

theorem ofComponents_of_unlabelled {parts : List String} (hs : parts ≠ [])
    (h : ∀ part ∈ parts, labelled? part = none) : ofComponents parts = ofBare parts := by
  have none : parts.filterMap labelled? = [] := List.filterMap_eq_nil_iff.mpr h
  have some : ((0 : Nat) == parts.length) = false := by
    simpa using fun long => hs (List.length_eq_zero_iff.mp long.symm)
  rw [ofComponents, none]
  simp [some]

theorem abbreviate_of_parse {raw : String} {n : Name} (h : parse raw = .ok n) :
    abbreviate raw = .ok n.abbreviated := by
  rw [abbreviate, h]
  rfl

theorem ofComponents_parts {n : Name} (h : n.Unlabelled) :
    ofComponents n.parts = .ok ⟨n.common, positionOfBare ((n.position.map Position.parts).getD [])⟩ :=
  ofComponents_of_unlabelled (List.cons_ne_nil _ _) h

/-- A name is read back from its abbreviated rendering if and only if its parts tell their places. -/
theorem read_abbreviated_iff {n : Name} (h : n.WellFormed) (hl : n.Unlabelled) :
    read n.abbreviated = .ok n ↔ n.Unambiguous := by
  have some : n.parts ≠ [] := List.cons_ne_nil _ _
  have split := components_join some h.isPart
  obtain ⟨trimmed, -⟩ := trim_join some h.isPart
  have guessed := ofComponents_parts hl
  rw [abbreviated_eq_join, ← positionOfBare_position_iff]
  constructor
  · intro hread
    obtain ⟨-, found, -⟩ := ofComponents_of_read hread
    rw [trimmed, split] at found
    have same : (⟨n.common, _⟩ : Name) = n := Except.ok.inj (guessed.symm.trans found)
    exact congrArg Name.position same
  · intro right
    rw [right] at guessed
    exact read_of_components trimmed split h.isPart guessed h.few

theorem canonicalize_abbreviated_iff {n : Name} (h : n.WellFormed) (hl : n.Unlabelled) :
    canonicalize n.abbreviated = .ok ⟨n.canonical⟩ ↔ n.Unambiguous := by
  rw [← read_abbreviated_iff h hl, canonicalize_ok_iff]
  constructor
  · rintro ⟨m, hread, same⟩
    have rendered : n.canonical = m.canonical := congrArg CanonicalName.text same
    cases position : n.position with
    | none =>
      refine (read_abbreviated_iff h hl).mpr fun p hp => ?_
      rw [position] at hp
      cases hp
    | some p =>
      obtain rfl := eq_of_canonical_eq h (read_ok hread).1 position rendered
      exact hread
  · intro hread
    exact ⟨n, hread, rfl⟩

theorem sublist_join {within whole : List String}
    (h : List.Forall₂ (fun s t => s.toList.Sublist t.toList) within whole) :
    (join "/" within).toList.Sublist (join "/" whole).toList := by
  induction h with
  | nil => exact List.Sublist.refl _
  | cons here there ih =>
    cases there with
    | nil => simpa [join, List.intercalate] using here
    | cons next others =>
      rw [join_cons_cons, join_cons_cons]
      simp only [String.toList_append]
      exact (here.append (List.Sublist.refl _)).append ih

theorem sublist_labelled (mark value : String) : value.toList.Sublist (mark ++ value).toList := by
  rw [String.toList_append]
  exact List.sublist_append_right _ _

theorem sublist_abbreviated (n : Name) : n.abbreviated.toList.Sublist n.canonical.toList := by
  obtain ⟨common, position⟩ := n
  cases position with
  | none => exact List.Sublist.refl _
  | some p =>
    refine sublist_join (.cons (sublist_labelled "CN=" common) ?_)
    rw [Position.parts, Position.labelledParts]
    have below : ∀ (mark : String) (values : List String),
        List.Forall₂ (fun s t => s.toList.Sublist t.toList) values (values.map (mark ++ ·)) := by
      intro mark values
      rw [List.forall₂_map_right_iff]
      exact List.forall₂_same.mpr fun value _ => sublist_labelled mark value
    exact List.rel_append (below "OU=" p.units)
      (.cons (sublist_labelled "O=" p.organization) (below "C=" p.country.toList))

theorem sublist_of_labelled? {part value : String} {label : Label}
    (h : labelled? part = some (label, value)) : value.toList.Sublist part.toList := by
  obtain ⟨before, after, cut, -, rfl⟩ := labelled?_eq_some h
  rw [(cutAtFirst_eq_some_iff.mp cut).1, toList_trim, String.toList_ofList]
  have kept : (trimChars after).Sublist after :=
    (dropEndBlanks_isPrefixOf _).sublist.trans (List.dropWhile_sublist isBlank)
  exact (kept.cons _).trans (List.sublist_append_right before _)

theorem abbreviate_ok_iff {raw short : String} :
    abbreviate raw = .ok short ↔ ∃ n, read raw = .ok n ∧ n.abbreviated = short := by
  constructor
  · intro h
    cases parsed : parse raw with
    | error fault =>
      rw [abbreviate, parsed] at h
      cases h
    | ok n =>
      rw [abbreviate_of_parse parsed] at h
      cases h
      exact ⟨n, parse_ok_iff.mp parsed, rfl⟩
  · rintro ⟨n, hread, rfl⟩
    exact abbreviate_of_parse (parse_ok_iff.mpr hread)

theorem position_of_single {part : String} {n : Name} (h : ofComponents [part] = .ok n) :
    n.position = none := by
  rw [ofComponents] at h
  cases found : labelled? part with
  | none =>
    simp only [List.filterMap_cons_none found, List.filterMap_nil, List.length_nil,
      List.length_singleton] at h
    cases h
    rfl
  | some labelled =>
    obtain ⟨label, value⟩ := labelled
    simp only [List.filterMap_cons_some found, List.filterMap_nil, List.length_singleton,
      beq_self_eq_true, if_true, Draft.fill, Option.map_none, Option.getD_none] at h
    split at h
    · cases h
    · cases label <;> cases h
      rfl

theorem sublist_of_abbreviate {raw short : String} {c : CanonicalName}
    (h : canonicalize raw = .ok c) (shorter : abbreviate c.text = .ok short) :
    short.toList.Sublist c.text.toList := by
  obtain ⟨n, hread, rfl⟩ := canonicalize_ok_iff.mp h
  obtain ⟨m, again, rfl⟩ := abbreviate_ok_iff.mp shorter
  have formed := (read_ok hread).1
  cases position : n.position with
  | some p =>
    rw [read_canonical formed position] at again
    cases again
    exact sublist_abbreviated n
  | none =>
    have flat : n.canonical = n.common := by rw [canonical, position]
    have whole := formed.common
    dsimp only at again ⊢
    rw [flat] at again ⊢
    obtain ⟨-, made, -⟩ := ofComponents_of_read again
    rw [whole.trimmed, components_of_isPart whole] at made
    have place := position_of_single made
    obtain ⟨part, single, source⟩ := (read_ok again).2 place
    rw [whole.trimmed, components_of_isPart whole, List.singleton_inj] at single
    subst single
    rw [abbreviated, place]
    rcases source with ⟨-, same⟩ | labelled
    · dsimp only
      rw [same]
    · exact sublist_of_labelled? labelled

end Name

end AddressBook

import AddressBook.Proofs.Name.Canonical
import AddressBook.Proofs.Text.Recased

/-! Names in texts that differ in the case of ASCII letters only. Labels are known in any case, and
nothing else that is read counts the case of a letter; so both texts are names or neither is, and their
canonical forms differ in case only. -/

namespace AddressBook

open Text

namespace Position

def lowered (p : Position) : Position :=
  ⟨p.units.map asciiLower, asciiLower p.organization, p.country.map asciiLower⟩

end Position

namespace Name

def lowered (n : Name) : Name := ⟨asciiLower n.common, n.position.map Position.lowered⟩

theorem units_lowered (n : Name) : n.lowered.units = n.units.map asciiLower := by
  obtain ⟨common, _ | p⟩ := n <;> rfl

theorem canonical_lowered (n : Name) : asciiLower n.lowered.canonical = asciiLower n.canonical := by
  obtain ⟨common, _ | ⟨units, organization, country⟩⟩ := n
  · exact asciiLower_asciiLower common
  · change asciiLower (join _ _) = asciiLower (join _ _)
    rw [asciiLower_join, asciiLower_join]
    refine congrArg (join (asciiLower "/")) ?_
    cases country <;>
      simp [lowered, Position.lowered, Position.labelledParts, asciiLower_append,
        asciiLower_asciiLower]

/-! Labelled components. -/

theorem ofText?_asciiLower (s : String) : Label.ofText? (asciiLower s) = Label.ofText? s := by
  rw [Label.ofText?, asciiUpper_asciiLower, Label.ofText?]

theorem labelled?_eq_map {s : String} {before after : List Char}
    (cut : cutAtFirst '=' s.toList = some (before, after)) :
    labelled? s = (Label.ofText? (trim (String.ofList before))).map fun label =>
      (label, trim (String.ofList after)) := by
  cases known : Label.ofText? (trim (String.ofList before)) with
  | some label => exact labelled?_of_cut cut known
  | none =>
    rw [labelled?, cut]
    simp only [bind, Option.bind, known]
    rfl

theorem labelled?_asciiLower (component : String) :
    labelled? (asciiLower component) =
      (labelled? component).map fun part => (part.1, asciiLower part.2) := by
  have folded : ∀ cs : List Char, trim (String.ofList (cs.map Char.toLower)) =
      asciiLower (trim (String.ofList cs)) := by
    intro cs
    rw [← asciiLower_ofList, trim_asciiLower]
  have mark : ∀ c : Char, (c.toLower == '=') = (c == '=') := toLower_beq (by decide)
  have lowered := cutAtFirst_map mark component.toList
  rw [← toList_asciiLower] at lowered
  cases cut : cutAtFirst '=' component.toList with
  | none =>
    rw [cut] at lowered
    rw [labelled?, labelled?, cut, lowered]
    rfl
  | some parts =>
    obtain ⟨before, after⟩ := parts
    rw [cut] at lowered
    rw [labelled?_eq_map lowered, labelled?_eq_map cut, Option.map_map, folded, folded,
      ofText?_asciiLower]
    rfl

theorem filterMap_labelled?_asciiLower (parts : List String) :
    (parts.map asciiLower).filterMap labelled? =
      (parts.filterMap labelled?).map fun part => (part.1, asciiLower part.2) := by
  rw [List.filterMap_map, List.map_filterMap]
  exact congrArg (List.filterMap · parts) (funext labelled?_asciiLower)

namespace Draft

def lowered (d : Draft) : Draft :=
  ⟨d.common.map asciiLower, d.units.map asciiLower, d.organization.map asciiLower,
    d.country.map asciiLower⟩

@[simp]
theorem lowered_put (d : Draft) (label : Label) (value : String) :
    (d.put label value).lowered = d.lowered.put label (asciiLower value) := by
  cases label <;> simp [put, lowered]

theorem fill_lowered (d : Draft) (previous : Option Label) (parts : List (Label × String)) :
    d.lowered.fill previous (parts.map fun part => (part.1, asciiLower part.2)) =
      (d.fill previous parts).map lowered := by
  induction parts generalizing d previous with
  | nil => rfl
  | cons part rest ih =>
    obtain ⟨label, value⟩ := part
    rw [List.map_cons, fill, fill, isEmpty_asciiLower]
    split
    · rfl
    · split
      · rw [← lowered_put, ih]
      · rfl

theorem finish_lowered (d : Draft) : d.lowered.finish = d.finish.map Name.lowered := by
  obtain ⟨common, units, organization, country⟩ := d
  cases common with
  | none => rfl
  | some common =>
    cases organization with
    | some organization => rfl
    | none => cases units <;> cases country <;> rfl

end Draft

/-! Bare components. -/

theorem length_asciiLower (s : String) : (asciiLower s).length = s.length := by
  rw [← String.length_toList, toList_asciiLower, List.length_map, String.length_toList]

theorem positionOfBare_lowered (parts : List String) :
    positionOfBare (parts.map asciiLower) = (positionOfBare parts).map Position.lowered := by
  rw [positionOfBare, positionOfBare, ← List.map_reverse]
  cases parts.reverse with
  | nil => rfl
  | cons last above =>
    cases above with
    | nil => rfl
    | cons previous units =>
      simp only [List.map_cons, length_asciiLower]
      split <;> simp [Position.lowered]

theorem ofComponents_lowered (parts : List String) :
    ofComponents (parts.map asciiLower) = (ofComponents parts).map lowered := by
  rw [ofComponents, ofComponents, filterMap_labelled?_asciiLower]
  simp only [List.length_map, List.isEmpty_map]
  split
  · have filled := Draft.fill_lowered Draft.empty none (parts.filterMap labelled?)
    rw [show Draft.empty.lowered = Draft.empty from rfl] at filled
    rw [filled]
    cases Draft.empty.fill none (parts.filterMap labelled?) with
    | error flaw => rfl
    | ok d => exact d.finish_lowered
  · split
    · cases parts with
      | nil => rfl
      | cons common parts => simp [ofBare, lowered, positionOfBare_lowered, Except.map]
    · rfl

theorem components_asciiLower (s : String) :
    components (asciiLower s) = (components s).map asciiLower := by
  have trimmed : trim ∘ asciiLower = asciiLower ∘ trim := funext trim_asciiLower
  rw [components, splitOn_asciiLower (by decide), List.map_map, trimmed, ← List.map_map, components]

theorem read_of_sameAscii {raw other : String} (same : sameAscii raw other = true) {n : Name}
    (h : read raw = .ok n) : ∃ m, read other = .ok m ∧ m.lowered = n.lowered := by
  have parts : (components (trim raw)).map asciiLower = (components (trim other)).map asciiLower := by
    rw [← components_asciiLower, ← trim_asciiLower, sameAscii_iff.mp same, trim_asciiLower,
      components_asciiLower]
  obtain ⟨solid, made, few⟩ := read_ok_iff.mp h
  have lowered_made := ofComponents_lowered (components (trim other))
  rw [← parts, ofComponents_lowered, made] at lowered_made
  cases made' : ofComponents (components (trim other)) with
  | error flaw =>
    rw [made'] at lowered_made
    cases lowered_made
  | ok m =>
    rw [made'] at lowered_made
    have lowered_eq : m.lowered = n.lowered := (Except.ok.inj lowered_made).symm
    refine ⟨m, read_ok_iff.mpr ⟨fun part hpart none => ?_, made', ?_⟩, lowered_eq⟩
    · subst none
      have listed : "" ∈ (components (trim raw)).map asciiLower := by
        rw [parts]
        exact List.mem_map.mpr ⟨"", hpart, rfl⟩
      obtain ⟨part, hpart, empty⟩ := List.mem_map.mp listed
      refine solid part hpart ?_
      rw [← String.isEmpty_iff, ← isEmpty_asciiLower, empty, String.isEmpty_iff]
    · rw [← List.length_map asciiLower, ← units_lowered, lowered_eq, units_lowered, List.length_map]
      exact few

/-- The canonical form of a text in another case is the canonical form in another case. -/
theorem canonicalize_of_sameAscii {raw other : String} (same : sameAscii raw other = true)
    {c : CanonicalName} (h : canonicalize raw = .ok c) :
    ∃ d, canonicalize other = .ok d ∧ sameAscii c.text d.text = true := by
  obtain ⟨n, read_raw, rfl⟩ := canonicalize_ok_iff.mp h
  obtain ⟨m, read_other, lowered_eq⟩ := read_of_sameAscii same read_raw
  refine ⟨_, canonicalize_ok_iff.mpr ⟨m, read_other, rfl⟩, sameAscii_iff.mpr ?_⟩
  rw [← canonical_lowered n, ← lowered_eq, canonical_lowered m]

end Name

end AddressBook

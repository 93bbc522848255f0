import AddressBook.Name.Canonical
import AddressBook.Proofs.Except
import AddressBook.Proofs.Text.Trimming

/-! What reading a name gives, and that names below an organization are read back from their
canonical rendering. A flat name is rendered as its common name alone, which is read again as it
stands unless it starts with a label. -/

namespace AddressBook.Name

open Text

/-- A part of a name: trimmed, not empty, and without a slash. -/
structure IsPart (s : String) : Prop where
  trimmed : trim s = s
  solid : s ≠ ""
  whole : ∀ c ∈ s.toList, (c == '/') = false

structure WellFormed (n : Name) : Prop where
  common : IsPart n.common
  parts : ∀ p ∈ n.position, ∀ part ∈ p.parts, IsPart part
  few : n.units.length ≤ mostUnits

/-! The components of a text. -/

theorem isPart_of_mem_components {raw part : String} (h : part ∈ components raw)
    (solid : part ≠ "") : IsPart part := by
  rw [components, List.mem_map] at h
  obtain ⟨cut, hcut, rfl⟩ := h
  refine ⟨trim_trim cut, solid, fun c hc => ?_⟩
  rw [toList_trim] at hc
  exact (mem_splitOn hcut c (trimChars_subset _ hc)).1

theorem components_of_isPart {part : String} (h : IsPart part) : components part = [part] := by
  rw [components, splitOn_of_forall h.whole, List.map_singleton, h.trimmed]

theorem labelled?_eq_some {part value : String} {label : Label}
    (h : labelled? part = some (label, value)) :
    ∃ before after, cutAtFirst '=' part.toList = some (before, after) ∧
      Label.ofText? (trim (String.ofList before)) = some label ∧
        value = trim (String.ofList after) := by
  rw [labelled?] at h
  simp only [bind, Option.bind_eq_some_iff] at h
  obtain ⟨⟨before, after⟩, cut, l, hl, same⟩ := h
  cases same
  exact ⟨before, after, cut, hl, rfl⟩

theorem labelled?_of_cut {s : String} {before after : List Char} {label : Label}
    (cut : cutAtFirst '=' s.toList = some (before, after))
    (hl : Label.ofText? (trim (String.ofList before)) = some label) :
    labelled? s = some (label, trim (String.ofList after)) := by
  rw [labelled?, cut]
  simp only [bind, Option.bind, hl]
  rfl

theorem isPart_of_labelled? {part value : String} {label : Label} (hp : IsPart part)
    (h : labelled? part = some (label, value)) (solid : value ≠ "") : IsPart value := by
  obtain ⟨before, after, cut, -, rfl⟩ := labelled?_eq_some h
  refine ⟨trim_trim _, solid, fun c hc => ?_⟩
  rw [toList_trim, String.toList_ofList] at hc
  refine hp.whole c ?_
  rw [(cutAtFirst_eq_some_iff.mp cut).1]
  exact List.mem_append_right _ (List.mem_cons_of_mem _ (trimChars_subset _ hc))

/-! Labelled components. -/

namespace Draft

def isFlat (d : Draft) : Prop := d.units = [] ∧ d.organization = none ∧ d.country = none

structure WellFormed (d : Draft) : Prop where
  common : ∀ v ∈ d.common, IsPart v
  units : ∀ v ∈ d.units, IsPart v
  organization : ∀ v ∈ d.organization, IsPart v
  country : ∀ v ∈ d.country, IsPart v

theorem WellFormed.put {d : Draft} (h : d.WellFormed) {value : String} (hv : IsPart value)
    (label : Label) : (d.put label value).WellFormed := by
  have only : ∀ v ∈ some value, IsPart v := by
    rintro v ⟨⟩
    exact hv
  cases label with
  | common => exact ⟨only, h.units, h.organization, h.country⟩
  | unit =>
    refine ⟨h.common, fun v hmem => ?_, h.organization, h.country⟩
    rcases List.mem_append.mp hmem with hmem | hmem
    · exact h.units v hmem
    · rw [List.mem_singleton.mp hmem]
      exact hv
  | organization => exact ⟨h.common, h.units, only, h.country⟩
  | country => exact ⟨h.common, h.units, h.organization, only⟩

theorem fill_cons_ok {d d' : Draft} {previous : Option Label} {label : Label} {value : String}
    {rest : List (Label × String)} (h : d.fill previous ((label, value) :: rest) = .ok d') :
    value ≠ "" ∧ (previous.map fun p => p.allows label).getD true = true ∧
      (d.put label value).fill (some label) rest = .ok d' := by
  rw [fill] at h
  split at h
  · cases h
  · next solid =>
    split at h
    · next allowed => exact ⟨fun none => solid (by simp [none]), allowed, h⟩
    · cases h

theorem WellFormed.fill {d d' : Draft} {previous : Option Label} {parts : List (Label × String)}
    (h : d.WellFormed) (hp : ∀ part ∈ parts, part.2 ≠ "" → IsPart part.2)
    (hf : d.fill previous parts = .ok d') : d'.WellFormed := by
  induction parts generalizing d previous with
  | nil =>
    cases hf
    exact h
  | cons part rest ih =>
    obtain ⟨label, value⟩ := part
    obtain ⟨solid, _, hf⟩ := fill_cons_ok hf
    have value := hp (label, value) List.mem_cons_self solid
    exact ih (h.put value label) (fun p hmem => hp p (List.mem_cons_of_mem _ hmem)) hf

def marked (d : Draft) : List (Label × String) :=
  d.common.toList.map (fun c => (.common, c)) ++ d.units.map (fun u => (.unit, u)) ++
    d.organization.toList.map (fun o => (.organization, o)) ++
      d.country.toList.map fun c => (.country, c)

/-- Nothing in the draft stands at the place of the label or above it, further units apart. -/
def OpenTo (d : Draft) : Label → Prop
  | .common => d = empty
  | .unit | .organization => d.organization = none ∧ d.country = none
  | .country => d.country = none

theorem OpenTo.marked_put {d : Draft} {label : Label} (h : d.OpenTo label) (value : String) :
    (d.put label value).marked = d.marked ++ [(label, value)] := by
  cases label with
  | common =>
    cases h
    rfl
  | unit => simp [marked, put, h.1, h.2]
  | organization => simp [marked, put, h.1, h.2]
  | country =>
    have free : d.country = none := h
    simp [marked, put, free]

theorem OpenTo.put {d : Draft} {label later : Label} (h : d.OpenTo label) (value : String)
    (allowed : label.allows later = true) : (d.put label value).OpenTo later := by
  cases label with
  | common =>
    cases h
    cases later with
    | common => cases allowed
    | unit | organization => exact ⟨rfl, rfl⟩
    | country => rfl
  | unit =>
    cases later with
    | common => cases allowed
    | unit | organization => exact h
    | country => exact h.2
  | organization =>
    cases later with
    | common | unit | organization => cases allowed
    | country => exact h.2
  | country => cases later <;> cases allowed

theorem marked_of_fill {d d' : Draft} {previous : Option Label} {parts : List (Label × String)}
    (opening : ∀ label, (previous.map fun p => p.allows label).getD true = true → d.OpenTo label)
    (h : d.fill previous parts = .ok d') :
    d'.marked = d.marked ++ parts ∧ ∀ part ∈ parts, part.2 ≠ "" := by
  induction parts generalizing d previous with
  | nil =>
    cases h
    exact ⟨(List.append_nil _).symm, fun _ h => absurd h List.not_mem_nil⟩
  | cons part rest ih =>
    obtain ⟨label, value⟩ := part
    obtain ⟨solid, allowed, h⟩ := fill_cons_ok h
    have here := opening label allowed
    have further : ∀ later, ((some label).map fun p => p.allows later).getD true = true →
        (d.put label value).OpenTo later := fun later => here.put value
    obtain ⟨kept, others⟩ := ih further h
    refine ⟨?_, List.forall_mem_cons.mpr ⟨solid, others⟩⟩
    rw [kept, here.marked_put, List.append_assoc, List.singleton_append]

theorem eq_marked_of_fill {d : Draft} {parts : List (Label × String)}
    (h : empty.fill none parts = .ok d) : parts = d.marked ∧ ∀ part ∈ parts, part.2 ≠ "" := by
  have opening : ∀ label, empty.OpenTo label := by
    rintro ⟨⟩
    · rfl
    · exact ⟨rfl, rfl⟩
    · exact ⟨rfl, rfl⟩
    · rfl
  obtain ⟨kept, solid⟩ := marked_of_fill (fun label _ => opening label) h
  exact ⟨kept.symm, solid⟩

end Draft

theorem finish_ok {d : Draft} {n : Name} (h : d.finish = .ok n) :
    ∃ common, d.common = some common ∧
      (n = ⟨common, none⟩ ∧ d.isFlat ∨
        ∃ organization, d.organization = some organization ∧
          n = ⟨common, some ⟨d.units, organization, d.country⟩⟩) := by
  rw [Draft.finish] at h
  split at h
  · cases h
  · next common organization hc ho =>
    cases h
    exact ⟨common, hc, Or.inr ⟨organization, ho, rfl⟩⟩
  · next common hc ho =>
    split at h
    · next flat =>
      cases h
      rw [Bool.and_eq_true, List.isEmpty_iff, Option.isNone_iff_eq_none] at flat
      exact ⟨common, hc, Or.inl ⟨rfl, flat.1, ho, flat.2⟩⟩
    · cases h

theorem parts_of_finish {d : Draft} {n : Name} (hd : d.WellFormed) (h : d.finish = .ok n) :
    IsPart n.common ∧ ∀ p ∈ n.position, ∀ part ∈ p.parts, IsPart part := by
  obtain ⟨common, hc, ⟨rfl, _⟩ | ⟨organization, ho, rfl⟩⟩ := finish_ok h
  · exact ⟨hd.common common hc, fun p hp => absurd hp (by simp)⟩
  · refine ⟨hd.common common hc, ?_⟩
    rintro p ⟨⟩ part hpart
    rcases List.mem_append.mp hpart with hpart | hpart
    · exact hd.units part hpart
    · rcases List.mem_cons.mp hpart with rfl | hpart
      · exact hd.organization part ho
      · exact hd.country part (Option.mem_toList.mp hpart)

/-! Bare components. -/

theorem parts_of_positionOfBare {parts : List String} {p : Position}
    (h : positionOfBare parts = some p) : p.parts = parts := by
  have upwards : parts = parts.reverse.reverse := (List.reverse_reverse parts).symm
  rw [positionOfBare] at h
  split at h
  · cases h
  · next organization single =>
    cases h
    rw [upwards, single]
    rfl
  · next last previous units several =>
    rw [upwards, several]
    split at h <;> cases h <;> simp [Position.parts]

theorem positionOfBare_eq_none {parts : List String} (h : positionOfBare parts = none) :
    parts = [] := by
  rw [positionOfBare] at h
  split at h
  · next none => exact List.reverse_eq_nil_iff.mp none
  · cases h
  · split at h <;> cases h

/-! Whole names. -/

theorem parts_of_labelled {parts : List String} (hp : ∀ part ∈ parts, IsPart part) {d : Draft}
    {n : Name} (filled : Draft.empty.fill none (parts.filterMap labelled?) = .ok d)
    (finished : d.finish = .ok n) :
    IsPart n.common ∧ ∀ p ∈ n.position, ∀ part ∈ p.parts, IsPart part := by
  have empty : Draft.empty.WellFormed :=
    ⟨by simp [Draft.empty], by simp [Draft.empty], by simp [Draft.empty], by simp [Draft.empty]⟩
  refine parts_of_finish (empty.fill (fun part hmem solid => ?_) filled) finished
  obtain ⟨source, hsource, found⟩ := List.mem_filterMap.mp hmem
  exact isPart_of_labelled? (hp source hsource) found solid

/-- A flat name that is read off labels is read off its common name alone. -/
theorem labelled_of_flat {parts : List String}
    (full : parts.length = (parts.filterMap labelled?).length) {d : Draft} {n : Name}
    (filled : Draft.empty.fill none (parts.filterMap labelled?) = .ok d)
    (finished : d.finish = .ok n) (flat : n.position = none) :
    ∃ part, parts = [part] ∧ labelled? part = some (.common, n.common) := by
  obtain ⟨common, hc, ⟨rfl, shallow⟩ | ⟨organization, _, rfl⟩⟩ := finish_ok finished
  · have single : parts.filterMap labelled? = [(.common, common)] := by
      obtain ⟨units, organization, country⟩ := shallow
      rw [(Draft.eq_marked_of_fill filled).1]
      simp [Draft.marked, hc, units, organization, country]
    rw [single] at full
    obtain ⟨part, rfl⟩ := List.length_eq_one_iff.mp full
    refine ⟨part, rfl, ?_⟩
    cases found : labelled? part with
    | none => simp [List.filterMap, found] at single
    | some result =>
      have alone : [result] = [(Label.common, common)] := by
        simpa [List.filterMap, found] using single
      cases alone
      rfl
  · cases flat

theorem ofComponents_ok {parts : List String} (hp : ∀ part ∈ parts, IsPart part) {n : Name}
    (h : ofComponents parts = .ok n) :
    (IsPart n.common ∧ ∀ p ∈ n.position, ∀ part ∈ p.parts, IsPart part) ∧
      (n.position = none → ∃ part, parts = [part] ∧
        (labelled? part = none ∧ n.common = part ∨
          labelled? part = some (.common, n.common))) := by
  rw [ofComponents] at h
  split at h
  · next full =>
    rw [beq_iff_eq] at full
    cases filled : Draft.empty.fill none (parts.filterMap labelled?) with
    | error flaw =>
      rw [filled] at h
      cases h
    | ok d =>
      rw [filled] at h
      have finished : d.finish = .ok n := h
      refine ⟨parts_of_labelled hp filled finished, fun flat => ?_⟩
      obtain ⟨part, single, found⟩ := labelled_of_flat full.symm filled finished flat
      exact ⟨part, single, Or.inr found⟩
  · split at h
    · next none =>
      rw [List.isEmpty_iff] at none
      cases parts with
      | nil => cases h
      | cons common rest =>
        cases h
        refine ⟨⟨hp common List.mem_cons_self, fun p hmem part hpart => ?_⟩, fun flat => ?_⟩
        · rw [parts_of_positionOfBare hmem] at hpart
          exact hp part (List.mem_cons_of_mem _ hpart)
        · rw [positionOfBare_eq_none flat] at none ⊢
          refine ⟨common, rfl, Or.inl ⟨?_, rfl⟩⟩
          cases found : labelled? common with
          | none => rfl
          | some result => simp [List.filterMap, found] at none
    · cases h

theorem ofComponents_of_read {raw : String} {n : Name} (h : read raw = .ok n) :
    (∀ part ∈ components (trim raw), IsPart part) ∧
      ofComponents (components (trim raw)) = .ok n ∧ n.units.length ≤ mostUnits := by
  rw [read] at h
  dsimp only at h
  split at h
  · cases h
  · split at h
    · cases h
    · next solid =>
      cases found : ofComponents (components (trim raw)) with
      | error flaw =>
        simp only [found, bind, Except.bind] at h
        cases h
      | ok name =>
        simp only [found, bind, Except.bind, pure, Except.pure] at h
        split at h
        · cases h
        · next few =>
          cases h
          refine ⟨fun part hpart => isPart_of_mem_components hpart ?_, rfl, Nat.le_of_not_lt few⟩
          rintro rfl
          exact solid (List.any_eq_true.mpr ⟨"", hpart, rfl⟩)

theorem read_of_solid {raw : String} (solid : ∀ part ∈ components (trim raw), part ≠ "") :
    read raw = do
      let name ← ofComponents (components (trim raw))
      if mostUnits < name.units.length then throw .tooManyUnits
      return name := by
  have full : (components (trim raw)).any (·.isEmpty) = false := by
    simpa [List.any_eq_false] using solid
  have some : (trim raw).isEmpty = false := by
    rw [Bool.eq_false_iff, Ne, String.isEmpty_iff]
    intro nothing
    exact solid "" (by rw [nothing]; decide) rfl
  simp [read, some, full]

theorem read_ok_iff {raw : String} {n : Name} :
    read raw = .ok n ↔ (∀ part ∈ components (trim raw), part ≠ "") ∧
      ofComponents (components (trim raw)) = .ok n ∧ n.units.length ≤ mostUnits := by
  constructor
  · intro h
    obtain ⟨parts, made⟩ := ofComponents_of_read h
    exact ⟨fun part hpart => (parts part hpart).solid, made⟩
  · rintro ⟨solid, made, few⟩
    simp [read_of_solid solid, made, Nat.not_lt.mpr few, bind, Except.bind, pure, Except.pure]

theorem read_ok {raw : String} {n : Name} (h : read raw = .ok n) :
    n.WellFormed ∧
      (n.position = none → ∃ part, components (trim raw) = [part] ∧
        (labelled? part = none ∧ n.common = part ∨
          labelled? part = some (.common, n.common))) := by
  obtain ⟨parts, found, few⟩ := ofComponents_of_read h
  obtain ⟨⟨common, position⟩, flat⟩ := ofComponents_ok parts found
  exact ⟨⟨common, position, few⟩, flat⟩

theorem parse_ok_iff {raw : String} {n : Name} : parse raw = .ok n ↔ read raw = .ok n :=
  mapError_eq_ok

end AddressBook.Name

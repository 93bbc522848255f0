import AddressBook.Proofs.Name.Abbreviated
import AddressBook.Proofs.Name.Nested
import AddressBook.Proofs.Text.Same

/-! The names that texts spell. Either every component bears a label, and the labels read upwards from
the common name, or none does, and the places of the components are told by how many there are and how
long the last one is. Reading accepts these components and no others, and finds the name they spell. -/

namespace AddressBook.Name

open Text

/-! Components with a label and without. -/

def Label.mark : Label → String
  | .common => "CN"
  | .unit => "OU"
  | .organization => "O"
  | .country => "C"

/-- A label stands before the first equals sign of the component, up to case and outer blanks, and its
value behind it. -/
def Bears (component : String) (part : Label × String) : Prop :=
  ∃ before after, component.toList = before ++ '=' :: after ∧ '=' ∉ before ∧
    sameAscii (trim (String.ofList before)) part.1.mark = true ∧ part.2 = trim (String.ofList after)

def Bare (component : String) : Prop := ∀ part, ¬ Bears component part

theorem ofText?_eq_some_iff {s : String} {label : Label} :
    Label.ofText? s = some label ↔ sameAscii s label.mark = true := by
  have capitals : asciiUpper label.mark = label.mark := by cases label <;> decide
  rw [sameAscii_iff_asciiUpper, capitals, Label.ofText?]
  split
  · next same => cases label <;> simp [same, Label.mark]
  · next same => cases label <;> simp [same, Label.mark]
  · next same => cases label <;> simp [same, Label.mark]
  · next same => cases label <;> simp [same, Label.mark]
  · next cn ou o c =>
    cases label with
    | common => simpa [Label.mark] using cn
    | unit => simpa [Label.mark] using ou
    | organization => simpa [Label.mark] using o
    | country => simpa [Label.mark] using c

theorem labelled?_eq_some_iff {component : String} {part : Label × String} :
    labelled? component = some part ↔ Bears component part := by
  obtain ⟨label, value⟩ := part
  constructor
  · intro h
    obtain ⟨before, after, cut, named, same⟩ := labelled?_eq_some h
    obtain ⟨whole, free⟩ := cutAtFirst_eq_some_iff.mp cut
    exact ⟨before, after, whole, free, ofText?_eq_some_iff.mp named, same⟩
  · rintro ⟨before, after, whole, free, named, rfl⟩
    exact labelled?_of_cut (cutAtFirst_eq_some_iff.mpr ⟨whole, free⟩) (ofText?_eq_some_iff.mpr named)

theorem labelled?_eq_none_iff {component : String} : labelled? component = none ↔ Bare component := by
  rw [Option.eq_none_iff_forall_ne_some, Bare]
  exact forall_congr' fun part => not_congr labelled?_eq_some_iff

theorem forall₂_bears {components : List String}
    (h : (components.filterMap labelled?).length = components.length) :
    List.Forall₂ Bears components (components.filterMap labelled?) := by
  induction components with
  | nil => exact .nil
  | cons component rest ih =>
    cases found : labelled? component with
    | none =>
      rw [List.filterMap_cons_none found, List.length_cons] at h
      have fewer := List.length_filterMap_le labelled? rest
      omega
    | some part =>
      rw [List.filterMap_cons_some found] at h ⊢
      exact .cons (labelled?_eq_some_iff.mp found) (ih (Nat.succ.inj h))

theorem filterMap_of_bears {components : List String} {parts : List (Label × String)}
    (h : List.Forall₂ Bears components parts) : components.filterMap labelled? = parts := by
  induction h with
  | nil => rfl
  | cons here _ ih => rw [List.filterMap_cons_some (labelled?_eq_some_iff.mpr here), ih]

/-! What components spell. -/

def marked (n : Name) : List (Label × String) :=
  match n.position with
  | none => [(.common, n.common)]
  | some p => labels n.common p

theorem values_marked (n : Name) : n.marked.map Prod.snd = n.parts := by
  obtain ⟨common, position⟩ := n
  cases position with
  | none => rfl
  | some p => simp [marked, labels, parts, Position.parts, Function.comp_def]

/-- The last of bare components is a country if it has two characters and is not needed as the
organization. -/
def endsInCountry (components : List String) : Bool :=
  decide (3 ≤ components.length) && components.getLast?.any (·.length == 2)

inductive Spells (components : List String) (n : Name) : Prop
  | labelled (borne : List.Forall₂ Bears components n.marked) (solid : ∀ part ∈ n.marked, part.2 ≠ "")
  | bare (free : ∀ component ∈ components, Bare component) (same : components = n.parts)
      (placed : n.country.isSome = endsInCountry components)

theorem marked_of_finish {d : Draft} {n : Name} (h : d.finish = .ok n) : d.marked = n.marked := by
  obtain ⟨common, hc, ⟨rfl, units, organization, country⟩ | ⟨organization, ho, rfl⟩⟩ := finish_ok h
  · simp [Draft.marked, hc, units, organization, country, marked]
  · simp [Draft.marked, hc, ho, marked, labels]

theorem fill_marked {n : Name} (h : ∀ part ∈ n.marked, part.2 ≠ "") :
    ∃ d, Draft.empty.fill none n.marked = .ok d ∧ d.finish = .ok n := by
  have values : ∀ part ∈ n.parts, part ≠ "" := by
    rw [← values_marked]
    exact List.forall_mem_map.mpr h
  obtain ⟨common, position⟩ := n
  cases position with
  | none =>
    have solid : common.isEmpty = false := by simpa using values common List.mem_cons_self
    refine ⟨⟨some common, [], none, none⟩, ?_, rfl⟩
    simp [marked, Draft.fill, solid, Draft.empty, Draft.put]
  | some p =>
    have above : ∀ part ∈ p.parts, part ≠ "" := fun part hpart =>
      values part (List.mem_cons_of_mem common hpart)
    exact ⟨_, fill_labels (values common List.mem_cons_self) above, rfl⟩

theorem getLast?_parts (p : Position) :
    p.parts.getLast? = some (p.country.getD p.organization) := by
  obtain ⟨units, organization, country⟩ := p
  cases country <;> simp [Position.parts]

theorem length_parts (p : Position) :
    p.parts.length = p.units.length + 1 + p.country.toList.length := by
  simp [Position.parts]
  omega

theorem unambiguous_iff {n : Name} : n.Unambiguous ↔ n.country.isSome = endsInCountry n.parts := by
  obtain ⟨common, position⟩ := n
  cases position with
  | none => simp [Unambiguous, country, parts, endsInCountry]
  | some p =>
    have last : (common :: p.parts).getLast? = some (p.country.getD p.organization) := by
      rw [List.getLast?_cons, getLast?_parts, Option.getD_some]
    have long : (common :: p.parts).length = p.units.length + 2 + p.country.toList.length := by
      rw [List.length_cons, length_parts]
      omega
    have whole : parts ⟨common, some p⟩ = common :: p.parts := rfl
    rw [whole, endsInCountry, last, long]
    cases above : p.country with
    | none =>
      cases several : p.units <;>
        simp [Unambiguous, Position.Unambiguous, country, above, several]
    | some c => simp [Unambiguous, Position.Unambiguous, country, above]

theorem parts_positionOfBare (common : String) (rest : List String) :
    parts ⟨common, positionOfBare rest⟩ = common :: rest ∧
      (country ⟨common, positionOfBare rest⟩).isSome = endsInCountry (common :: rest) := by
  have above : ((positionOfBare rest).map Position.parts).getD [] = rest := by
    cases found : positionOfBare rest with
    | none => exact (positionOfBare_eq_none found).symm
    | some p => exact parts_of_positionOfBare found
  have same : parts ⟨common, positionOfBare rest⟩ = common :: rest := congrArg (common :: ·) above
  refine ⟨same, ?_⟩
  rw [← same, ← unambiguous_iff, ← positionOfBare_position_iff]
  exact congrArg positionOfBare above

theorem spells_of_ofComponents {components : List String} {n : Name}
    (h : ofComponents components = .ok n) : Spells components n := by
  rw [ofComponents] at h
  split at h
  · next full =>
    obtain ⟨d, filled, finished⟩ := bind_eq_ok h
    obtain ⟨kept, solid⟩ := Draft.eq_marked_of_fill filled
    rw [kept, marked_of_finish finished] at solid
    have borne := forall₂_bears (beq_iff_eq.mp full)
    rw [kept, marked_of_finish finished] at borne
    exact .labelled borne solid
  · split at h
    · next none =>
      have free : ∀ component ∈ components, Bare component := fun component hc =>
        labelled?_eq_none_iff.mp (List.filterMap_eq_nil_iff.mp (List.isEmpty_iff.mp none) component hc)
      cases components with
      | nil => cases h
      | cons common rest =>
        cases h
        obtain ⟨same, placed⟩ := parts_positionOfBare common rest
        exact .bare free same.symm placed
    · cases h

theorem ofComponents_of_spells {components : List String} {n : Name} (h : Spells components n) :
    ofComponents components = .ok n := by
  cases h with
  | labelled borne solid =>
    obtain ⟨d, filled, finished⟩ := fill_marked solid
    rw [ofComponents, filterMap_of_bears borne, borne.length_eq]
    simp [filled, finished, bind, Except.bind]
  | bare free same placed =>
    subst same
    rw [← unambiguous_iff, ← positionOfBare_position_iff] at placed
    have unlabelled : n.Unlabelled := fun part hpart => labelled?_eq_none_iff.mpr (free part hpart)
    rw [ofComponents_parts unlabelled, placed]

/-- Components are read as the name they spell. -/
theorem ofComponents_eq_ok_iff {components : List String} {n : Name} :
    ofComponents components = .ok n ↔ Spells components n :=
  ⟨spells_of_ofComponents, ofComponents_of_spells⟩

/-! Which components spell a name. -/

/-- The labels of a name, from the common name upwards. -/
inductive Hierarchy : List Label → Prop
  | flat : Hierarchy [.common]
  | organization (units : Nat) (few : units ≤ mostUnits) :
      Hierarchy (.common :: List.replicate units .unit ++ [.organization])
  | country (units : Nat) (few : units ≤ mostUnits) :
      Hierarchy (.common :: List.replicate units .unit ++ [.organization, .country])

def between (components : List String) : Nat :=
  components.length - if endsInCountry components then 3 else 2

structure IsHierarchical (components : List String) : Prop where
  solid : ∀ component ∈ components, component ≠ ""
  spelled :
    (∀ component ∈ components, Bare component) ∧ between components ≤ mostUnits ∨
      ∃ parts, List.Forall₂ Bears components parts ∧ (∀ part ∈ parts, part.2 ≠ "") ∧
        Hierarchy (parts.map Prod.fst)

theorem between_parts {n : Name} (placed : n.country.isSome = endsInCountry n.parts) :
    between n.parts = n.units.length := by
  rw [between, ← placed]
  obtain ⟨common, position⟩ := n
  cases position with
  | none => simp [parts, country, units]
  | some p =>
    have whole : parts ⟨common, some p⟩ = common :: p.parts := rfl
    rw [whole, List.length_cons, length_parts]
    cases above : p.country <;> simp [country, units, above]

theorem hierarchy_marked {n : Name} (few : n.units.length ≤ mostUnits) :
    Hierarchy (n.marked.map Prod.fst) := by
  obtain ⟨common, position⟩ := n
  cases position with
  | none => exact .flat
  | some p =>
    have units : (p.units.map fun u => (Label.unit, u)).map Prod.fst =
        List.replicate p.units.length Label.unit := by
      rw [List.map_map]
      exact List.map_const'
    cases above : p.country with
    | none =>
      have whole := Hierarchy.organization p.units.length few
      rw [← units] at whole
      simpa [marked, labels, above] using whole
    | some c =>
      have whole := Hierarchy.country p.units.length few
      rw [← units] at whole
      simpa [marked, labels, above] using whole

theorem map_of_fst_eq_replicate {parts : List (Label × String)} {label : Label} {n : Nat}
    (h : parts.map Prod.fst = List.replicate n label) :
    (parts.map Prod.snd).map (fun value => (label, value)) = parts ∧ parts.length = n := by
  obtain ⟨long, alike⟩ := List.eq_replicate_iff.mp h
  rw [List.forall_mem_map] at alike
  refine ⟨?_, by rwa [List.length_map] at long⟩
  rw [List.map_map]
  conv_rhs => rw [← List.map_id parts]
  exact List.map_congr_left fun part hpart => Prod.ext (alike part hpart).symm rfl

theorem exists_marked_of_hierarchy {parts : List (Label × String)}
    (h : Hierarchy (parts.map Prod.fst)) :
    ∃ n : Name, n.marked = parts ∧ n.units.length ≤ mostUnits := by
  generalize labelled : parts.map Prod.fst = labels at h
  cases h with
  | flat =>
    obtain ⟨⟨_, common⟩, rfl, rfl⟩ := List.map_eq_singleton_iff.mp labelled
    exact ⟨⟨common, none⟩, rfl, Nat.zero_le _⟩
  | organization units few =>
    obtain ⟨⟨_, common⟩, rest, rfl, rfl, above⟩ := List.map_eq_cons_iff.mp labelled
    obtain ⟨below, top, rfl, several, last⟩ := List.map_eq_append_iff.mp above
    obtain ⟨⟨_, organization⟩, rfl, rfl⟩ := List.map_eq_singleton_iff.mp last
    obtain ⟨same, rfl⟩ := map_of_fst_eq_replicate several
    refine ⟨⟨common, some ⟨below.map Prod.snd, organization, none⟩⟩, ?_, ?_⟩
    · simp [marked, Name.labels, same]
    · simpa [units] using few
  | country units few =>
    obtain ⟨⟨_, common⟩, rest, rfl, rfl, above⟩ := List.map_eq_cons_iff.mp labelled
    obtain ⟨below, top, rfl, several, last⟩ := List.map_eq_append_iff.mp above
    obtain ⟨⟨_, organization⟩, outer, rfl, rfl, outermost⟩ := List.map_eq_cons_iff.mp last
    obtain ⟨⟨_, country⟩, rfl, rfl⟩ := List.map_eq_singleton_iff.mp outermost
    obtain ⟨same, rfl⟩ := map_of_fst_eq_replicate several
    refine ⟨⟨common, some ⟨below.map Prod.snd, organization, some country⟩⟩, ?_, ?_⟩
    · simp [marked, Name.labels, same]
    · simpa [units] using few

theorem exists_parts_eq {components : List String} (h : components ≠ []) :
    ∃ n : Name, n.parts = components ∧ n.country.isSome = endsInCountry components := by
  cases components with
  | nil => exact absurd rfl h
  | cons common rest =>
    exact ⟨⟨common, positionOfBare rest⟩, parts_positionOfBare common rest⟩

theorem isHierarchical_iff {components : List String} (some : components ≠ []) :
    IsHierarchical components ↔ (∀ component ∈ components, component ≠ "") ∧
      ∃ n, Spells components n ∧ n.units.length ≤ mostUnits := by
  constructor
  · rintro ⟨solid, ⟨free, few⟩ | ⟨parts, borne, values, order⟩⟩
    · obtain ⟨n, rfl, placed⟩ := exists_parts_eq some
      rw [between_parts placed] at few
      exact ⟨solid, n, .bare free rfl placed, few⟩
    · obtain ⟨n, rfl, few⟩ := exists_marked_of_hierarchy order
      exact ⟨solid, n, .labelled borne values, few⟩
  · rintro ⟨solid, n, spelled, few⟩
    refine ⟨solid, ?_⟩
    cases spelled with
    | labelled borne values => exact Or.inr ⟨n.marked, borne, values, hierarchy_marked few⟩
    | bare free same placed =>
      subst same
      rw [← between_parts placed] at few
      exact Or.inl ⟨free, few⟩

/-! Whole texts. -/

@[simp]
theorem components_ne_nil (s : String) : components s ≠ [] := by
  rw [components, splitOn, Ne, List.map_eq_nil_iff, List.map_eq_nil_iff]
  exact cutWhere_ne_nil s.toList

theorem parse_eq_error {raw : String} (h : ¬∃ n, parse raw = .ok n) :
    ∃ flaw : Flaw, parse raw = .error (.nameFormat raw flaw.reason) := by
  cases found : read raw with
  | ok n => exact absurd ⟨n, parse_ok_iff.mpr found⟩ h
  | error flaw =>
    refine ⟨flaw, ?_⟩
    rw [parse, found]
    rfl

/-- A text is read as a name if and only if its components spell the name and none of them is empty;
every other text is refused with the flaw it was found to have. -/
theorem parses_exactly_spelled (raw : String) :
    (∀ n, parse raw = .ok n ↔
      (∀ component ∈ components (trim raw), component ≠ "") ∧
        Spells (components (trim raw)) n ∧ n.units.length ≤ mostUnits) ∧
    ((∃ n, parse raw = .ok n) ↔ IsHierarchical (components (trim raw))) ∧
    (¬IsHierarchical (components (trim raw)) →
      ∃ flaw : Flaw, parse raw = .error (.nameFormat raw flaw.reason)) := by
  have reading : ∀ n, parse raw = .ok n ↔
      (∀ component ∈ components (trim raw), component ≠ "") ∧
        Spells (components (trim raw)) n ∧ n.units.length ≤ mostUnits := by
    intro n
    rw [parse_ok_iff, read_ok_iff, ofComponents_eq_ok_iff]
  have accepting : (∃ n, parse raw = .ok n) ↔ IsHierarchical (components (trim raw)) := by
    rw [isHierarchical_iff (components_ne_nil _), ← exists_and_left]
    exact exists_congr reading
  exact ⟨reading, accepting, fun other => parse_eq_error (mt accepting.mp other)⟩

theorem parses_exactly_spelled_samples :
    Spells (components (trim " cn=Jo / OU = East/o=Acme")) ⟨"Jo", some ⟨["East"], "Acme", none⟩⟩ ∧
      Spells (components (trim "Jo/East/Acme/US")) ⟨"Jo", some ⟨["East"], "Acme", some "US"⟩⟩ ∧
        ¬IsHierarchical (components (trim "Jo/a/b/c/d/e/Acme")) ∧
          ∃ flaw : Flaw, parse "Jo/a/b/c/d/e/Acme" =
            .error (.nameFormat "Jo/a/b/c/d/e/Acme" flaw.reason) := by
  have refused : ¬IsHierarchical (components (trim "Jo/a/b/c/d/e/Acme")) := by
    rw [← (parses_exactly_spelled _).2.1]
    rintro ⟨n, accepted⟩
    have flawed : parse "Jo/a/b/c/d/e/Acme" =
      .error (.nameFormat "Jo/a/b/c/d/e/Acme" Flaw.tooManyUnits.reason) := by rfl
    rw [flawed] at accepted
    cases accepted
  exact ⟨(((parses_exactly_spelled _).1 _).mp (by rfl)).2.1,
    (((parses_exactly_spelled _).1 _).mp (by rfl)).2.1, refused, (parses_exactly_spelled _).2.2 refused⟩

/-! Canonical renderings. -/

theorem canonical_eq_iff {n m : Name} (hn : n.WellFormed) (hm : m.WellFormed) :
    n.canonical = m.canonical ↔ n = m := by
  constructor
  · intro same
    cases below : n.position with
    | some p => exact (eq_of_canonical_eq hn hm below same).symm
    | none =>
      cases above : m.position with
      | some q => exact eq_of_canonical_eq hm hn above same.symm
      | none =>
        obtain ⟨common, position⟩ := n
        obtain ⟨common', position'⟩ := m
        cases below
        cases above
        have alike : common = common' := same
        rw [alike]
  · rintro rfl
    rfl

theorem read_canonical_iff {n : Name} (h : n.WellFormed) :
    read n.canonical = .ok n ↔ n.organization.isSome = true ∨ Bare n.common := by
  cases position : n.position with
  | some p =>
    have placed : n.organization.isSome = true := by simp [organization, position]
    exact iff_of_true (read_canonical h position) (Or.inl placed)
  | none =>
    obtain ⟨common, position⟩ := n
    cases position
    have flat : ¬(organization ⟨common, none⟩).isSome = true := Bool.false_ne_true
    rw [or_iff_right flat, ← labelled?_eq_none_iff]
    refine ⟨fun hread => ?_, read_flat h.common⟩
    obtain ⟨part, single, source⟩ := (read_ok hread).2 rfl
    have whole : canonical ⟨common, none⟩ = common := rfl
    rw [whole, h.common.trimmed, components_of_isPart h.common, List.singleton_inj] at single
    subst single
    rcases source with ⟨bare, -⟩ | labelled
    · exact bare
    · exact absurd (length_lt_of_labelled? labelled) (Nat.lt_irrefl _)

/-- Texts have the same canonical rendering if and only if they are read as the same name. The name is
read back from the rendering below an organization, and else if no label starts the common name. -/
theorem canonicalize_identifies {a b : String} {n m : Name} (ha : parse a = .ok n)
    (hb : parse b = .ok m) :
    canonicalize a = .ok ⟨n.canonical⟩ ∧ canonicalize b = .ok ⟨m.canonical⟩ ∧
      (n.canonical = m.canonical ↔ n = m) ∧
      (parse n.canonical = .ok n ↔ n.organization.isSome = true ∨ Bare n.common) := by
  have formed : n.WellFormed := (read_ok (parse_ok_iff.mp ha)).1
  have formed' : m.WellFormed := (read_ok (parse_ok_iff.mp hb)).1
  exact ⟨canonicalize_of_parse ha, canonicalize_of_parse hb, canonical_eq_iff formed formed',
    parse_ok_iff.trans (read_canonical_iff formed)⟩

theorem canonicalize_identifies_label_like :
    canonicalize "cn = O=x/ OU=CN=y / O=Acme/C=US" = .ok ⟨"CN=O=x/OU=CN=y/O=Acme/C=US"⟩ ∧
      canonicalize "CN=x" ≠ canonicalize "cn = O=x/ OU=CN=y / O=Acme/C=US" ∧
        parse "CN=O=x/OU=CN=y/O=Acme/C=US" =
          .ok ⟨"O=x", some ⟨["CN=y"], "Acme", some "US"⟩⟩ := by
  have nested : parse "cn = O=x/ OU=CN=y / O=Acme/C=US" =
      .ok ⟨"O=x", some ⟨["CN=y"], "Acme", some "US"⟩⟩ := by rfl
  have flat : parse "CN=x" = .ok ⟨"x", none⟩ := by rfl
  obtain ⟨first, second, same, back⟩ := canonicalize_identifies nested flat
  refine ⟨first, ?_, back.mpr (Or.inl rfl)⟩
  rw [first, second]
  decide

end AddressBook.Name

import AddressBook.Proofs.Name.Reading

/-! Canonical renderings are read back: always below an organization, and for a flat name unless the
common name starts with a label. -/

namespace AddressBook.Name

open Text

theorem labelled?_labelled {mark value : String} {label : Label} (before : List Char)
    (cut : cutAtFirst '=' (mark.toList ++ value.toList) = some (before, value.toList))
    (hl : Label.ofText? (trim (String.ofList before)) = some label) (hv : trim value = value) :
    labelled? (mark ++ value) = some (label, value) := by
  rw [← String.toList_append] at cut
  rw [labelled?_of_cut cut hl, String.ofList_toList, hv]

theorem labelled?_common {value : String} (h : trim value = value) :
    labelled? ("CN=" ++ value) = some (.common, value) :=
  labelled?_labelled ['C', 'N'] rfl (by decide) h

theorem labelled?_unit {value : String} (h : trim value = value) :
    labelled? ("OU=" ++ value) = some (.unit, value) :=
  labelled?_labelled ['O', 'U'] rfl (by decide) h

theorem labelled?_organization {value : String} (h : trim value = value) :
    labelled? ("O=" ++ value) = some (.organization, value) :=
  labelled?_labelled ['O'] rfl (by decide) h

theorem labelled?_country {value : String} (h : trim value = value) :
    labelled? ("C=" ++ value) = some (.country, value) :=
  labelled?_labelled ['C'] rfl (by decide) h

theorem IsPart.labelled {mark value : String} (h : IsPart value) (hm : IsPart mark) :
    IsPart (mark ++ value) := by
  refine ⟨?_, fun none => ?_, fun c hc => ?_⟩
  · have whole := trim_append_append hm.trimmed hm.solid h.trimmed h.solid ""
    rwa [String.append_empty] at whole
  · exact hm.solid (String.append_eq_empty_iff.mp none).1
  · rw [String.toList_append, List.mem_append] at hc
    exact hc.elim (hm.whole c) (h.whole c)

def labelledTexts (common : String) (p : Position) : List String :=
  ("CN=" ++ common) :: p.labelledParts

def labels (common : String) (p : Position) : List (Label × String) :=
  (.common, common) :: (p.units.map fun u => (.unit, u)) ++
    (.organization, p.organization) :: p.country.toList.map fun c => (.country, c)

section

variable {common : String} {p : Position} (hc : IsPart common)
  (hp : ∀ part ∈ p.parts, IsPart part)

include hc hp

theorem isPart_labelledTexts : ∀ text ∈ labelledTexts common p, IsPart text := by
  have marks : IsPart "CN=" ∧ IsPart "OU=" ∧ IsPart "O=" ∧ IsPart "C=" :=
    ⟨⟨by decide, by decide, by simp⟩, ⟨by decide, by decide, by simp⟩,
      ⟨by decide, by decide, by simp⟩, ⟨by decide, by decide, by simp⟩⟩
  obtain ⟨cn, ou, o, c⟩ := marks
  intro text ht
  rw [labelledTexts, Position.labelledParts] at ht
  simp only [Position.parts, List.mem_append, List.mem_cons, List.mem_map] at hp ht
  rcases ht with rfl | ⟨unit, hu, rfl⟩ | rfl | ⟨country, hcountry, rfl⟩
  · exact hc.labelled cn
  · exact (hp unit (Or.inl hu)).labelled ou
  · exact (hp _ (Or.inr (Or.inl rfl))).labelled o
  · exact (hp country (Or.inr (Or.inr hcountry))).labelled c

theorem filterMap_labelledTexts :
    (labelledTexts common p).filterMap labelled? = labels common p := by
  have units : ∀ us : List String, (∀ u ∈ us, IsPart u) →
      (us.map ("OU=" ++ ·)).filterMap labelled? = us.map fun u => (Label.unit, u) := by
    intro us
    induction us with
    | nil => exact fun _ => rfl
    | cons u us ih =>
      intro h
      have first := labelled?_unit (h u List.mem_cons_self).trimmed
      rw [List.map_cons, List.filterMap_cons_some first,
        ih fun v hv => h v (List.mem_cons_of_mem u hv), List.map_cons]
  have parts : ∀ part ∈ p.units ++ p.organization :: p.country.toList, IsPart part := hp
  have above := units p.units fun u hu => parts u (List.mem_append_left _ hu)
  have organization := labelled?_organization
    (parts p.organization (List.mem_append_right _ List.mem_cons_self)).trimmed
  rw [labelledTexts, Position.labelledParts, List.filterMap_cons_some (labelled?_common hc.trimmed),
    List.filterMap_append, above, List.filterMap_cons_some organization, labels]
  cases country : p.country with
  | none => rfl
  | some c =>
    have last := labelled?_country (parts c (by simp [country])).trimmed
    simp [last]

end

theorem fill_units {label : Label} (h : label = .common ∨ label = .unit) (d : Draft)
    (units : List String) (hu : ∀ u ∈ units, u ≠ "") (rest : List (Label × String)) :
    ∃ last, (last = .common ∨ last = .unit) ∧
      d.fill (some label) (units.map (fun u => (Label.unit, u)) ++ rest) =
        Draft.fill { d with units := d.units ++ units } (some last) rest := by
  -- The label in front has to vary: it is a common name at first and a unit from then on.
  induction units generalizing d label with
  | nil => exact ⟨label, h, by simp⟩
  | cons u us ih =>
    have allowed : label.allows .unit = true := by
      rcases h with rfl | rfl <;> rfl
    obtain ⟨last, hlast, filled⟩ := ih (Or.inr rfl) (d.put .unit u)
      fun v hv => hu v (List.mem_cons_of_mem u hv)
    refine ⟨last, hlast, ?_⟩
    have step : d.fill (some label) (((Label.unit, u) :: us.map fun v => (Label.unit, v)) ++ rest) =
        (d.put .unit u).fill (some .unit) (us.map (fun v => (Label.unit, v)) ++ rest) := by
      have solid : u.isEmpty = false := by simpa using hu u List.mem_cons_self
      simp [Draft.fill, solid, allowed]
    rw [List.map_cons, step, filled]
    simp [Draft.put]

theorem fill_labels {common : String} {p : Position} (hc : common ≠ "")
    (hp : ∀ part ∈ p.parts, part ≠ "") :
    Draft.empty.fill none (labels common p) =
      .ok ⟨some common, p.units, some p.organization, p.country⟩ := by
  have parts : ∀ part ∈ p.units ++ p.organization :: p.country.toList, part ≠ "" := hp
  have named : common.isEmpty = false := by simpa using hc
  have organized : p.organization.isEmpty = false := by
    simpa using parts p.organization (List.mem_append_right _ List.mem_cons_self)
  obtain ⟨last, hlast, filled⟩ := fill_units (Or.inl rfl) (Draft.empty.put .common common) p.units
    (fun u hu => parts u (List.mem_append_left _ hu))
    ((Label.organization, p.organization) :: p.country.toList.map fun c => (Label.country, c))
  have first : Draft.empty.fill none (labels common p) =
      (Draft.empty.put .common common).fill (some .common) (p.units.map (fun u => (Label.unit, u)) ++
        (Label.organization, p.organization) :: p.country.toList.map fun c => (Label.country, c)) := by
    simp [labels, Draft.fill, named]
  have allowed : last.allows .organization = true := by
    rcases hlast with rfl | rfl <;> rfl
  rw [first, filled]
  cases country : p.country with
  | none => simp [Draft.fill, organized, allowed, Draft.put, Draft.empty]
  | some c =>
    have solid : c.isEmpty = false := by simpa using parts c (by simp [country])
    have below : Label.allows .organization .country = true := rfl
    simp [Draft.fill, organized, allowed, solid, below, Draft.put, Draft.empty]

theorem trim_join {parts : List String} (hs : parts ≠ []) (hp : ∀ part ∈ parts, IsPart part) :
    trim (join "/" parts) = join "/" parts ∧ join "/" parts ≠ "" := by
  induction parts with
  | nil => exact absurd rfl hs
  | cons first rest ih =>
    have opening := hp first List.mem_cons_self
    cases rest with
    | nil =>
      have alone : join "/" [first] = first := by
        apply String.toList_injective
        simp [join, List.intercalate]
      rw [alone]
      exact ⟨opening.trimmed, opening.solid⟩
    | cons second rest =>
      obtain ⟨trimmed, solid⟩ := ih (List.cons_ne_nil _ _) fun part h =>
        hp part (List.mem_cons_of_mem first h)
      rw [join_cons_cons]
      refine ⟨trim_append_append opening.trimmed opening.solid trimmed solid "/", fun none => ?_⟩
      exact solid (String.append_eq_empty_iff.mp none).2

theorem components_join {parts : List String} (hs : parts ≠ []) (hp : ∀ part ∈ parts, IsPart part) :
    components (join "/" parts) = parts := by
  have cut : splitOn '/' (join "/" parts) = parts :=
    splitOn_join hs fun part h => (hp part h).whole
  have same : parts.map trim = parts.map id :=
    List.map_congr_left fun part h => (hp part h).trimmed
  rw [components, cut, same, List.map_id]

theorem read_of_components {raw : String} {parts : List String} {n : Name}
    (ht : trim raw = raw) (hc : components raw = parts) (hp : ∀ part ∈ parts, IsPart part)
    (ho : ofComponents parts = .ok n) (hf : n.units.length ≤ mostUnits) : read raw = .ok n := by
  subst hc
  rw [read_ok_iff, ht]
  exact ⟨fun part hpart => (hp part hpart).solid, ho, hf⟩

/-- A name below an organization is read back from its canonical rendering. -/
theorem read_canonical {n : Name} (h : n.WellFormed) {p : Position} (hp : n.position = some p) :
    read n.canonical = .ok n := by
  obtain ⟨common, position⟩ := n
  cases hp
  have parts := h.parts p rfl
  have texts := isPart_labelledTexts h.common parts
  have solid : labelledTexts common p ≠ [] := List.cons_ne_nil _ _
  have rendered : canonical ⟨common, some p⟩ = join "/" (labelledTexts common p) := rfl
  obtain ⟨trimmed, -⟩ := trim_join solid texts
  rw [rendered]
  refine read_of_components trimmed (components_join solid texts) texts ?_ h.few
  have filled := fill_labels h.common.solid fun part hpart => (parts part hpart).solid
  have long : (labels common p).length = (labelledTexts common p).length := by
    simp [labels, labelledTexts, Position.labelledParts]
  rw [ofComponents, filterMap_labelledTexts h.common parts, long]
  simp [filled, bind, Except.bind, Draft.finish]

theorem read_flat {common : String} (h : IsPart common) (hl : labelled? common = none) :
    read common = .ok ⟨common, none⟩ := by
  refine read_of_components h.trimmed (components_of_isPart h) ?_ ?_ (Nat.zero_le _)
  · intro part hpart
    rw [List.mem_singleton.mp hpart]
    exact h
  · simp [ofComponents, hl, ofBare, positionOfBare]

theorem slash_mem_canonical {n : Name} {p : Position} (h : n.position = some p) :
    '/' ∈ n.canonical.toList := by
  obtain ⟨second, rest, parts⟩ : ∃ second rest, p.labelledParts = second :: rest :=
    List.exists_cons_of_ne_nil (by simp [Position.labelledParts])
  rw [canonical, h]
  dsimp only
  rw [parts, join_cons_cons, String.toList_append, String.toList_append]
  exact List.mem_append_left _ (List.mem_append_right _ (by decide))

theorem eq_of_canonical_eq {n m : Name} (hn : n.WellFormed) (hm : m.WellFormed) {p : Position}
    (hp : n.position = some p) (same : n.canonical = m.canonical) : m = n := by
  cases position : m.position with
  | none =>
    have slash := slash_mem_canonical hp
    rw [same, canonical, position] at slash
    exact absurd (hm.common.whole '/' slash) (by decide)
  | some q =>
    have first := read_canonical hn hp
    rw [same, read_canonical hm position] at first
    exact Except.ok.inj first

theorem canonicalize_of_parse {raw : String} {n : Name} (h : parse raw = .ok n) :
    canonicalize raw = .ok ⟨n.canonical⟩ := by
  rw [canonicalize, h]
  rfl

theorem canonicalize_ok_iff {raw : String} {c : CanonicalName} :
    canonicalize raw = .ok c ↔ ∃ n, read raw = .ok n ∧ c = ⟨n.canonical⟩ := by
  rw [canonicalize, parse]
  cases read raw with
  | error flaw =>
    constructor
    · intro h
      cases h
    · rintro ⟨_, h, _⟩
      cases h
  | ok n =>
    constructor
    · intro h
      cases h
      exact ⟨n, rfl, rfl⟩
    · rintro ⟨_, ⟨⟩, rfl⟩
      rfl

theorem WellFormed.trim_canonical {n : Name} (h : n.WellFormed) : trim n.canonical = n.canonical := by
  rw [canonical]
  split
  · exact h.common.trimmed
  · next p position =>
    have texts := isPart_labelledTexts h.common (h.parts p position)
    exact (trim_join (List.cons_ne_nil _ _) texts).1

theorem trim_of_canonicalize {raw : String} {c : CanonicalName} (h : canonicalize raw = .ok c) :
    trim c.text = c.text := by
  obtain ⟨n, hread, rfl⟩ := canonicalize_ok_iff.mp h
  exact (read_ok hread).1.trim_canonical

end AddressBook.Name

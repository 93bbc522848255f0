import AddressBook.Proofs.Name.Abbreviated
import AddressBook.Proofs.Name.Grammar
import AddressBook.Proofs.Provisioning.Written

/-! Accounts below the configured organization. A flat name is put there in its own spelling, where
the components above it are bare. So it is qualified if it was spelled bare as well, and refused if
it was spelled with the label of common names. -/

namespace AddressBook

open Text

namespace Name

variable {first common : String} {rest : List String}

theorem ofComponents_of_bare (bare : Bare first) (h : ∀ part ∈ rest, Bare part) :
    ofComponents (first :: rest) = .ok ⟨first, positionOfBare rest⟩ := by
  refine ofComponents_of_unlabelled (List.cons_ne_nil _ _) fun part hpart => ?_
  rcases List.mem_cons.mp hpart with rfl | hpart
  · exact labelled?_eq_none_iff.mpr bare
  · exact labelled?_eq_none_iff.mpr (h part hpart)

theorem ofComponents_cons_bare (bare : Bare first) {n : Name}
    (h : ofComponents (first :: rest) = .ok n) :
    (∀ part ∈ rest, Bare part) ∧ n = ⟨first, positionOfBare rest⟩ := by
  cases spells_of_ofComponents h with
  | labelled borne _ =>
    obtain ⟨part, _, here, -, -⟩ := List.forall₂_cons_left_iff.mp borne
    exact absurd here (bare part)
  | bare free _ _ =>
    have others := fun part hpart => free part (List.mem_cons_of_mem first hpart)
    exact ⟨others, Except.ok.inj (h.symm.trans (ofComponents_of_bare bare others))⟩

theorem ofComponents_mixed (labelled : ¬ Bare first) (some : rest ≠ [])
    (h : ∀ part ∈ rest, Bare part) : ofComponents (first :: rest) = .error .mixedLabels := by
  rw [← labelled?_eq_none_iff, ← Ne, Option.ne_none_iff_exists'] at labelled
  obtain ⟨part, found⟩ := labelled
  have bare : rest.filterMap labelled? = [] :=
    List.filterMap_eq_nil_iff.mpr fun part hpart => labelled?_eq_none_iff.mpr (h part hpart)
  have long : ((1 : Nat) == rest.length + 1) = false := by
    simpa using some
  rw [ofComponents, List.filterMap_cons_some found, bare]
  simp only [List.length_cons, List.length_nil, Nat.zero_add, long]
  rfl

theorem isPart_of_flat {raw : String} (trimmed : trim raw = raw)
    (flat : parse raw = .ok ⟨common, none⟩) :
    IsPart raw ∧ IsPart common ∧ (Bare raw → common = raw) := by
  have read := parse_ok_iff.mp flat
  obtain ⟨formed, alone⟩ := read_ok read
  obtain ⟨part, single, spelled⟩ := alone rfl
  have isPart : IsPart part := (ofComponents_of_read read).1 part (by rw [single]; simp)
  have same : part = raw := by
    rw [trimmed, components, List.map_eq_singleton_iff] at single
    obtain ⟨piece, cut, rfl⟩ := single
    rw [(splitOn_eq_singleton cut).1, trimmed]
  rw [same] at isPart spelled
  refine ⟨isPart, formed.common, fun bare => ?_⟩
  rcases spelled with ⟨-, here⟩ | found
  · exact here
  · exact absurd (labelled?_eq_some_iff.mp found) (bare _)

end Name

namespace Account

open Name Provisioning

/-- A text that can stand for a common name: without blanks, slashes and equals signs. -/
structure IsWord (s : String) : Prop where
  solid : s ≠ ""
  plain : ∀ c ∈ s.toList, isBlank c = false ∧ c ≠ '/' ∧ c ≠ '='

theorem IsWord.isPart {s : String} (h : IsWord s) : IsPart s :=
  ⟨trim_of_solid fun c hc => (h.plain c hc).1, h.solid,
    fun c hc => beq_eq_false_iff_ne.mpr (h.plain c hc).2.1⟩

theorem IsWord.bare {s : String} (h : IsWord s) : Bare s := by
  rintro part ⟨before, after, whole, -⟩
  exact (h.plain '=' (by rw [whole]; simp)).2.2 rfl

def unslashed (hierarchy : String) : String :=
  String.ofList ((trimChars hierarchy.toList).dropWhile (· == '/'))

variable {w hierarchy : String}

theorem toList_qualified (w hierarchy : String) :
    (qualified w hierarchy).toList = w.toList ++ '/' :: (unslashed hierarchy).toList := by
  rw [qualified, String.toList_append, String.toList_append, List.append_assoc]
  rfl

theorem trim_qualified (hw : IsPart w) : trim (qualified w hierarchy) = qualified w hierarchy := by
  have opening : ∀ c ∈ w.toList.head?, isBlank c = false := by
    rw [← hw.trimmed, toList_trim]
    exact fun c hc => head?_trimChars hc
  have closing : ∀ c ∈ (unslashed hierarchy).toList.getLast?, isBlank c = false := by
    intro c hc
    rw [unslashed, String.toList_ofList] at hc
    obtain ⟨slashes, whole⟩ := List.dropWhile_suffix (l := trimChars hierarchy.toList) (· == '/')
    have last : (trimChars hierarchy.toList).getLast? = some c := by
      rw [← whole, List.getLast?_append, hc, Option.some_or]
    exact getLast?_trimChars last
  obtain ⟨c, cs, chars⟩ := List.exists_cons_of_ne_nil
    fun none => hw.solid (String.toList_eq_nil_iff.mp none)
  apply String.toList_injective
  rw [toList_trim, toList_qualified]
  rw [chars] at opening ⊢
  refine trimChars_eq_self opening fun d hd => ?_
  rw [List.getLast?_append, List.getLast?_cons] at hd
  cases last : (unslashed hierarchy).toList.getLast? with
  | none =>
    rw [last] at hd
    cases hd
    rfl
  | some d' =>
    rw [last] at hd
    cases hd
    exact closing d' last

theorem components_qualified (hw : IsPart w) :
    components (qualified w hierarchy) = w :: components (unslashed hierarchy) := by
  have cut : splitOn '/' (qualified w hierarchy) = w :: splitOn '/' (unslashed hierarchy) := by
    rw [splitOn, toList_qualified, cutWhere_append hw.whole '/' rfl, List.map_cons,
      String.ofList_toList, splitOn]
  rw [components, cut, List.map_cons, hw.trimmed, components]

/-! What a hierarchy makes of a name. -/

theorem parts_of_parse {x : String} (word : IsWord x) {n : Name}
    (below : parse (qualified x hierarchy) = .ok n) :
    (∀ part ∈ components (unslashed hierarchy), IsPart part ∧ Bare part) ∧
      n = ⟨x, positionOfBare (components (unslashed hierarchy))⟩ ∧ n.units.length ≤ mostUnits := by
  obtain ⟨parts, found, few⟩ := ofComponents_of_read (parse_ok_iff.mp below)
  rw [trim_qualified word.isPart, components_qualified word.isPart] at parts found
  obtain ⟨bare, placed⟩ := ofComponents_cons_bare word.bare found
  exact ⟨fun part h => ⟨parts part (List.mem_cons_of_mem _ h), bare part h⟩, placed, few⟩

theorem parse_qualified {x : String} (word : IsWord x) {n : Name}
    (below : parse (qualified x hierarchy) = .ok n) (hw : IsPart w) :
    (Bare w → parse (qualified w hierarchy) = .ok ⟨w, n.position⟩) ∧
      (¬ Bare w → parse (qualified w hierarchy) =
        .error (.nameFormat (qualified w hierarchy) Flaw.mixedLabels.reason)) := by
  obtain ⟨parts, placed, few⟩ := parts_of_parse word below
  have position : n.position = positionOfBare (components (unslashed hierarchy)) := by rw [placed]
  have bare := fun part h => (parts part h).2
  have whole : components (trim (qualified w hierarchy)) =
      w :: components (unslashed hierarchy) := by
    rw [trim_qualified hw, components_qualified hw]
  have solid : ∀ part ∈ components (trim (qualified w hierarchy)), part ≠ "" := by
    rw [whole]
    exact List.forall_mem_cons.mpr ⟨hw.solid, fun part h => (parts part h).1.solid⟩
  constructor
  · intro plain
    refine parse_ok_iff.mpr (read_ok_iff.mpr ⟨solid, ?_, few⟩)
    rw [whole, ofComponents_of_bare plain bare, position]
  · intro labelled
    rw [parse, read_of_solid solid, whole,
      ofComponents_mixed labelled (components_ne_nil _) bare]
    rfl

theorem nameOf_flat {settings : DirectorySettings} {raw common : String}
    (configured : settings.certifierOrgHierarchy = some hierarchy)
    (flat : parse (collapseBlanks raw) = .ok ⟨common, none⟩) (bare : Bare common) :
    nameOf settings raw = canonicalize (qualified (collapseBlanks raw) hierarchy) := by
  obtain ⟨-, isPart, -⟩ := isPart_of_flat (trim_collapseBlanks raw) flat
  have again : parse common = .ok ⟨common, none⟩ :=
    parse_ok_iff.mpr (read_flat isPart (labelled?_eq_none_iff.mpr bare))
  have text : (⟨common, none⟩ : Name).canonical = common := rfl
  rw [nameOf, canonicalize_of_parse flat, configured, text]
  simp only [bind, Except.bind, again]
  rfl

section

variable {settings : Settings} {x raw common : String} {n : Name}

theorem nameOf_certified (configured : settings.directory.certifierOrgHierarchy = some hierarchy)
    (word : IsWord x) (below : parse (qualified x hierarchy) = .ok n)
    (flat : parse (collapseBlanks raw) = .ok ⟨common, none⟩) (bare : Bare common) :
    (Bare (collapseBlanks raw) → ∃ name, nameOf settings.directory raw = .ok name ∧
      parse name.text = .ok ⟨common, n.position⟩) ∧
    (¬ Bare (collapseBlanks raw) → nameOf settings.directory raw = .error (.nameFormat
      (qualified (collapseBlanks raw) hierarchy) Flaw.mixedLabels.reason)) := by
  obtain ⟨isPart, -, own⟩ := isPart_of_flat (trim_collapseBlanks raw) flat
  obtain ⟨placed, refused⟩ := parse_qualified word below isPart
  rw [nameOf_flat configured flat bare]
  constructor
  · intro plain
    have whole : parse (qualified (collapseBlanks raw) hierarchy) = .ok ⟨common, n.position⟩ := by
      rw [own plain]
      exact placed plain
    have formed := (read_ok (parse_ok_iff.mp whole)).1
    exact ⟨⟨Name.canonical ⟨common, n.position⟩⟩, canonicalize_of_parse whole,
      parse_ok_iff.mpr ((read_canonical_iff formed).mpr (Or.inr bare))⟩
  · intro labelled
    rw [canonicalize, refused labelled]
    rfl

def IsCalled (m : Note) (name : Name) : Prop :=
  ∃ full, m.item? "FullName" = some [.text full] ∧ parse full = .ok name

theorem isCalled_newNote {settings : DirectorySettings} {name : CanonicalName} {request : Request}
    {m : Note} (written : newNote settings name request = .ok m)
    (placed : parse name.text = .ok n) : IsCalled m n :=
  ⟨name.text, fullName_newNote written, placed⟩

/-- A flat name, once its blanks are collapsed, gets the position of a word below the configured
hierarchy exactly if it is spelled without a label. An account is written, and in memory stays, under
that name, and none is created under a name that is spelled with one. -/
theorem certified_iff (configured : settings.directory.certifierOrgHierarchy = some hierarchy)
    (word : IsWord x) (below : parse (qualified x hierarchy) = .ok n)
    (flat : parse (collapseBlanks raw) = .ok ⟨common, none⟩) (bare : Bare common) :
    (Bare (collapseBlanks raw) ↔ ∃ name, nameOf settings.directory raw = .ok name ∧
      parse name.text = .ok ⟨common, n.position⟩) ∧
    ∀ attributes d, (attributes.takeText Schema.nameAttribute).1 = some raw →
      (Bare (collapseBlanks raw) → ∀ uid d', create settings attributes d = .ok uid d' →
        (∃ m, d.journal ++ [.saved uid m.items] <+: d'.journal ∧ IsCalled m ⟨common, n.position⟩) ∧
          (d.InMemory → ∃ m, d'.store.notes.get? uid = some m ∧ IsCalled m ⟨common, n.position⟩)) ∧
      (¬ Bare (collapseBlanks raw) → create settings attributes d = .error (.nameFormat
        (qualified (collapseBlanks raw) hierarchy) Flaw.mixedLabels.reason) d) := by
  obtain ⟨named, refused⟩ := nameOf_certified configured word below flat bare
  refine ⟨⟨named, ?_⟩, fun attributes d given => ⟨fun plain uid d' created => ?_, ?_⟩⟩
  · rintro ⟨name, made, -⟩
    by_contra labelled
    rw [refused labelled] at made
    cases made
  · obtain ⟨name, made, placed⟩ := named plain
    have asked : givenName settings.directory attributes = .ok name := by
      rw [givenName, given]
      exact made
    refine ⟨?_, fun memory => ?_⟩
    · obtain ⟨name', request, m, asked', written, first⟩ := journal_create created
      obtain rfl : name = name' := Except.ok.inj (asked.symm.trans asked')
      exact ⟨m, first, isCalled_newNote written placed⟩
    · obtain ⟨name', request, n, m, asked', written, -, items, -, wrote⟩ :=
        wrote_create memory created
      obtain rfl : name = name' := Except.ok.inj (asked.symm.trans asked')
      obtain ⟨stored, stands, -, same⟩ := wrote.stands
      have full : stored.item? "FullName" = n.item? "FullName" := by
        rw [same "FullName" (by decide) (by decide), Note.item?, items, ← Note.item?]
      obtain ⟨text, held, read⟩ := isCalled_newNote written placed
      exact ⟨stored, stands, text, full.trans held, read⟩
  · intro labelled
    have unnamed : givenName settings.directory attributes = .error (.nameFormat
        (qualified (collapseBlanks raw) hierarchy) Flaw.mixedLabels.reason) := by
      rw [givenName, given]
      exact refused labelled
    rw [create_eq, unnamed]
    rfl

end

def acme : Settings := { directory := { certifierOrgHierarchy := some "/Acme" } }

theorem below_acme :
    IsWord "x" ∧ parse (qualified "x" "/Acme") = .ok ⟨"x", some ⟨[], "Acme", none⟩⟩ := by
  refine ⟨⟨by decide, fun c hc => ?_⟩, rfl⟩
  obtain rfl : c = 'x' := by simpa using hc
  decide

theorem flat_samples :
    parse (collapseBlanks " Ann  Lee ") = .ok ⟨"Ann Lee", none⟩ ∧
      parse (collapseBlanks "CN=Ann Lee") = .ok ⟨"Ann Lee", none⟩ ∧
        Bare "Ann Lee" ∧ Bare (collapseBlanks " Ann  Lee ") ∧
          ¬ Bare (collapseBlanks "CN=Ann Lee") := by
  simp only [← labelled?_eq_none_iff]
  exact ⟨rfl, rfl, rfl, rfl, by decide⟩

theorem certified_iff_sample :
    (∃ name, nameOf acme.directory " Ann  Lee " = .ok name ∧
      parse name.text = .ok ⟨"Ann Lee", some ⟨[], "Acme", none⟩⟩) ∧
    ∀ d, create acme [(Schema.nameAttribute, [.text "CN=Ann Lee"])] d =
      .error (.nameFormat "CN=Ann Lee/Acme" Flaw.mixedLabels.reason) d := by
  obtain ⟨word, below⟩ := below_acme
  obtain ⟨spaced, labelled, bare, own, marked⟩ := flat_samples
  exact ⟨(certified_iff rfl word below spaced bare).1.mp own,
    fun d => ((certified_iff rfl word below labelled bare).2 _ d rfl).2 marked⟩

/-- A name that is spelled with its label keeps it above an organization that has none. -/
theorem not_always_certified :
    ¬ ∀ (settings : Settings) (hierarchy x raw common : String) (n : Name),
      settings.directory.certifierOrgHierarchy = some hierarchy → IsWord x →
      parse (qualified x hierarchy) = .ok n →
      parse (collapseBlanks raw) = .ok ⟨common, none⟩ → Bare common →
        ∃ name, nameOf settings.directory raw = .ok name ∧
          parse name.text = .ok ⟨common, n.position⟩ := by
  intro always
  obtain ⟨word, below⟩ := below_acme
  obtain ⟨-, labelled, bare, -, marked⟩ := flat_samples
  obtain ⟨name, made, -⟩ :=
    always acme "/Acme" "x" "CN=Ann Lee" "Ann Lee" _ rfl word below labelled bare
  rw [(nameOf_certified rfl word below labelled bare).2 marked] at made
  cases made

end Account

end AddressBook

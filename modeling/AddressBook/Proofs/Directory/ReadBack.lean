import AddressBook.Proofs.Directory.Store

/-! Notes as a store gives them back. On a table numbers may come back changed, or not at all; texts
always come back, and with them what a note is known by. -/

namespace AddressBook

namespace Note

theorem texts_throughJson? {values values' : List Value}
    (h : values.mapM Value.throughJson? = some values') :
    values'.filterMap Value.text? = values.filterMap Value.text? := by
  induction values generalizing values' with
  | nil =>
    cases h
    rfl
  | cons v vs ih =>
    rw [List.mapM_cons, Option.bind_eq_bind, Option.bind_eq_some_iff] at h
    obtain ⟨w, first, h⟩ := h
    obtain ⟨ws, rest, made⟩ := Option.bind_eq_some_iff.mp h
    cases made
    have same : w.text? = v.text? := by
      cases v with
      | number x =>
        rw [Value.throughJson?] at first
        split at first
        · obtain ⟨y, -, rfl⟩ := Option.map_eq_some_iff.mp first
          rfl
        · cases first
      | text t =>
        cases first
        rfl
      | moment m =>
        cases first
        rfl
    rw [List.filterMap_cons, List.filterMap_cons, same, ih rest]

theorem texts_itemsThroughJson? {items items' : Keyed (List Value)}
    (h : itemsThroughJson? items = some items') (id id' : Option String)
    (modified modified' : Option Moment) (name : String) :
    texts ⟨id', items', modified'⟩ name = texts ⟨id, items, modified⟩ name := by
  induction items generalizing items' with
  | nil =>
    cases h
    rfl
  | cons entry entries ih =>
    obtain ⟨key, values⟩ := entry
    rw [itemsThroughJson?, List.mapM_cons, Option.bind_eq_bind, Option.bind_eq_some_iff] at h
    obtain ⟨back, first, h⟩ := h
    obtain ⟨backs, rest, made⟩ := Option.bind_eq_some_iff.mp h
    obtain ⟨values', through, rfl⟩ := Option.map_eq_some_iff.mp first
    cases made
    have others := ih rest
    rw [texts, texts, item?, item?] at others ⊢
    dsimp only at others ⊢
    rw [List.find?_cons, List.find?_cons]
    cases Text.sameAscii key name with
    | true => exact texts_throughJson? through
    | false => exact others

theorem text?_eq_head? (n : Note) (name : String) : n.text? name = (n.texts name).head? := by
  rw [text?, texts]
  cases n.item? name with
  | none => rfl
  | some values => exact (List.head?_filterMap).symm

end Note

namespace Store

variable {s : Store} {n m : Note}

theorem id_readBack (h : s.readBack n = .ok m) : m.id = n.id := by
  rw [readBack] at h
  split at h
  · cases h
    rfl
  · split at h
    · cases h
      rfl
    · cases h

theorem texts_readBack (h : s.readBack n = .ok m) (name : String) :
    m.texts name = n.texts name := by
  rw [readBack] at h
  split at h
  · cases h
    rfl
  · split at h
    · next items through =>
      cases h
      exact Note.texts_itemsThroughJson? through _ _ _ _ name
    · cases h

theorem isClass_readBack (h : s.readBack n = .ok m) (kind : EntryClass) :
    m.isClass kind = n.isClass kind := by
  rw [Note.isClass, Note.isClass, Note.form?, Note.form?, Note.text?_eq_head?,
    Note.text?_eq_head?, texts_readBack h]

theorem hasAlias_readBack (h : s.readBack n = .ok m) (name : String) :
    m.hasAlias name = n.hasAlias name := by
  rw [Note.hasAlias, Note.hasAlias, isClass_readBack h, Note.aliases, Note.aliases,
    texts_readBack h]

theorem isNamed_readBack (h : s.readBack n = .ok m) (name : CanonicalName) :
    m.isNamed name = n.isNamed name := by
  rw [Note.isNamed, Note.isNamed, isClass_readBack h, Note.text?_eq_head?, Note.text?_eq_head?,
    texts_readBack h]

def Returns (s : Store) (n : Note) : Prop := ∃ entry ∈ s.notes, s.readBack entry.2 = .ok n

theorem mem_of_returns (h : s.backing = .memory) (hn : s.Returns n) : ∃ id, (id, n) ∈ s.notes := by
  obtain ⟨⟨id, m⟩, he, read⟩ := hn
  rw [faithful_of_memory h _ he] at read
  cases read
  exact ⟨id, he⟩

theorem mem_of_ofClass {kind : EntryClass} {found : List Note} (h : s.ofClass kind = .ok found) :
    (∀ m ∈ found, m.isClass kind = true ∧ s.Returns m) ∧
      ∀ entry ∈ s.notes, entry.2.isClass kind = true →
        ∃ m ∈ found, s.readBack entry.2 = .ok m := by
  rw [ofClass] at h
  cases readable : s.checkReadable with
  | error fault =>
    rw [readable] at h
    cases h
  | ok u =>
    rw [readable] at h
    obtain ⟨back, forth⟩ := mem_of_mapM_ok h
    refine ⟨fun m hm => ?_, fun entry he hk => ?_⟩
    · obtain ⟨n, hn, read⟩ := back m hm
      obtain ⟨held, hk⟩ := List.mem_filter.mp hn
      obtain ⟨entry, he, rfl⟩ := List.mem_map.mp held
      exact ⟨(isClass_readBack read kind).trans hk, entry, he, read⟩
    · exact forth entry.2 (List.mem_filter.mpr ⟨List.mem_map_of_mem he, hk⟩)

theorem groupByAlias_eq_find? {name : String} {found : Option Note}
    (h : s.groupByAlias name = .ok found) :
    ∃ groups, s.ofClass .group = .ok groups ∧ found = groups.find? (·.hasAlias name) := by
  obtain ⟨groups, read, made⟩ := bind_eq_ok h
  cases made
  exact ⟨groups, read, rfl⟩

theorem returns_of_groupByAlias {name : String} (h : s.groupByAlias name = .ok (some n)) :
    n.isClass .group = true ∧ s.Returns n := by
  obtain ⟨groups, read, found⟩ := groupByAlias_eq_find? h
  exact (mem_of_ofClass read).1 n (List.mem_of_find?_eq_some found.symm)

theorem isSome_find?_ofClass {kind : EntryClass} {p : Note → Bool} {found : List Note}
    (h : s.ofClass kind = .ok found) (classed : ∀ n, p n = true → n.isClass kind = true)
    (back : ∀ n m, s.readBack n = .ok m → p m = p n) :
    (found.find? p).isSome = true ↔ ∃ entry ∈ s.notes, p entry.2 = true := by
  obtain ⟨returned, kept⟩ := mem_of_ofClass h
  rw [List.find?_isSome]
  constructor
  · rintro ⟨m, hm, has⟩
    obtain ⟨-, entry, he, read⟩ := returned m hm
    exact ⟨entry, he, by rwa [← back _ _ read]⟩
  · rintro ⟨entry, he, has⟩
    obtain ⟨m, hm, read⟩ := kept entry he (classed entry.2 has)
    exact ⟨m, hm, by rwa [back _ _ read]⟩

theorem isSome_groupByAlias {name : String} {found : Option Note}
    (h : s.groupByAlias name = .ok found) :
    found.isSome = true ↔ ∃ entry ∈ s.notes, entry.2.hasAlias name = true := by
  obtain ⟨groups, read, rfl⟩ := groupByAlias_eq_find? h
  refine isSome_find?_ofClass read (fun n has => ?_) fun n m back => hasAlias_readBack back name
  rw [Note.hasAlias, Bool.and_eq_true] at has
  exact has.1

theorem isSome_accountByName {name : CanonicalName} {found : Option Note}
    (h : s.accountByName name = .ok found) :
    found.isSome = true ↔ ∃ entry ∈ s.notes, entry.2.isNamed name = true := by
  obtain ⟨accounts, read, made⟩ := bind_eq_ok h
  cases made
  refine isSome_find?_ofClass read (fun n has => ?_) fun n m back => isNamed_readBack back name
  rw [Note.isNamed, Bool.and_eq_true] at has
  exact has.1

end Store

end AddressBook

import AddressBook.Proofs.Directory.Store
import AddressBook.Proofs.Membership.Table
import AddressBook.Proofs.Note.Items

/-! The aliases of the groups of a directory, by the ids of their notes. A name leads to the first
group that lists it; where every group is the first to list the name under which it is shown, names
are clear. -/

namespace AddressBook

open Text

abbrev AliasTable := String → Option (List String)

namespace AliasTable

variable {t : AliasTable} {id : String} {aliases : List String}

def set (t : AliasTable) (id : String) (aliases : Option (List String)) : AliasTable :=
  fun other => if other = id then aliases else t other

def Lists (t : AliasTable) (id name : String) : Prop :=
  ∃ aliases, t id = some aliases ∧ ∃ a ∈ aliases, sameName a name = true

/-- The group is the first that lists the name. -/
def Finds (t : AliasTable) (name id : String) : Prop :=
  t.Lists id name ∧ ∀ other, other < id → ¬ t.Lists other name

theorem Finds.unique {name other : String} (h : t.Finds name id) (h' : t.Finds name other) :
    other = id := by
  rcases Std.lt_trichotomy other id with less | same | less
  · exact absurd h'.1 (h.2 other less)
  · exact same
  · exact absurd h.1 (h'.2 id less)

def Clear (t : AliasTable) : Prop :=
  ∀ id aliases, t id = some aliases → t.Finds (aliases.headD "") id

/-- A group behind this one is shown under one of the aliases. -/
def Hides (t : AliasTable) (id : String) (aliases : List String) : Prop :=
  ∃ other shown, id < other ∧ t other = some shown ∧
    ∃ a ∈ aliases, sameName a (shown.headD "") = true

theorem set_eq_self {given : Option (List String)} (h : t id = given) : t.set id given = t :=
  Table.set_eq_self h

theorem lists_congr {name other : String} (h : sameName name other = true) :
    t.Lists id name ↔ t.Lists id other := by
  have same : ∀ a, sameName a name = sameName a other := by
    intro a
    rw [sameName_comm, sameName_congr h, sameName_comm]
  rw [Lists, Lists]
  simp only [same]

theorem finds_congr {name other : String} (h : sameName name other = true) :
    t.Finds name id ↔ t.Finds other id := by
  rw [Finds, Finds]
  simp only [lists_congr h]

@[simp]
theorem lists_set_self {name : String} :
    (t.set id (some aliases)).Lists id name ↔ ∃ a ∈ aliases, sameName a name = true := by
  rw [Lists, set, if_pos rfl]
  constructor
  · rintro ⟨_, ⟨⟩, found⟩
    exact found
  · intro found
    exact ⟨aliases, rfl, found⟩

@[simp]
theorem lists_set_of_ne {other name : String} (h : other ≠ id) {given : Option (List String)} :
    (t.set id given).Lists other name ↔ t.Lists other name := by
  rw [Lists, Lists, set, if_neg h]

theorem finds_set_self {first : String} {later : List String}
    (leads : ∀ other, other ≠ id → t.Lists other first → id < other) :
    (t.set id (some (first :: later))).Finds first id := by
  refine ⟨lists_set_self.mpr ⟨first, List.mem_cons_self, sameName_refl first⟩, ?_⟩
  intro earlier less lists
  have different : earlier ≠ id := by
    rintro rfl
    exact String.lt_irrefl _ less
  rw [lists_set_of_ne different] at lists
  exact String.lt_irrefl _ (String.lt_trans less (leads earlier different lists))

theorem clear_set (h : t.Clear) {first : String} {later : List String}
    (leads : ∀ other, other ≠ id → t.Lists other first → id < other)
    (passes : ∀ other shown, t other = some shown → id < other →
      sameName first (shown.headD "") = false) :
    (t.set id (some (first :: later))).Clear ↔ ¬ (t.set id (some (first :: later))).Hides id later := by
  constructor
  · rintro clear ⟨other, shown, less, stands, a, ha, same⟩
    have found := clear other shown stands
    exact found.2 id less (lists_set_self.mpr ⟨a, List.mem_cons_of_mem first ha, same⟩)
  · intro visible other shown stands
    by_cases this : other = id
    · subst this
      rw [set, if_pos rfl] at stands
      cases stands
      exact finds_set_self leads
    · have before : t other = some shown := by
        rwa [set, if_neg this] at stands
      have found := h other shown before
      refine ⟨(lists_set_of_ne this).mpr found.1, ?_⟩
      intro earlier less lists
      by_cases here : earlier = id
      · subst here
        obtain ⟨a, ha, same⟩ := lists_set_self.mp lists
        rcases List.mem_cons.mp ha with rfl | ha
        · rw [passes other shown before less] at same
          cases same
        · exact visible ⟨other, shown, less, stands, a, ha, same⟩
      · exact found.2 earlier less ((lists_set_of_ne here).mp lists)

theorem clear_added (h : t.Clear) (solid : aliases ≠ [])
    (unused : ∀ a ∈ aliases, ∀ other, ¬ t.Lists other a) : (t.set id (some aliases)).Clear := by
  have hidden : ∀ a ∈ aliases, ∀ other shown, t other = some shown →
      sameName a (shown.headD "") = false := by
    intro a ha other shown stands
    rw [Bool.eq_false_iff]
    intro same
    exact unused a ha other ((lists_congr same).mpr (h other shown stands).1)
  obtain ⟨first, later, rfl⟩ := List.exists_cons_of_ne_nil solid
  refine (clear_set h ?_ ?_).mpr ?_
  · exact fun other _ lists => absurd lists (unused first List.mem_cons_self other)
  · exact fun other shown stands _ => hidden first List.mem_cons_self other shown stands
  · rintro ⟨other, shown, less, stands, a, ha, same⟩
    have different : other ≠ id := by
      rintro rfl
      exact String.lt_irrefl _ less
    rw [set, if_neg different] at stands
    rw [hidden a (List.mem_cons_of_mem first ha) other shown stands] at same
    cases same

theorem clear_removed (h : t.Clear) (id : String) : (t.set id none).Clear := by
  intro other shown stands
  have different : other ≠ id := by
    rintro rfl
    rw [set, if_pos rfl] at stands
    cases stands
  rw [set, if_neg different] at stands
  have found := h other shown stands
  refine ⟨(lists_set_of_ne different).mpr found.1, ?_⟩
  rintro earlier less ⟨names, given, lists⟩
  by_cases here : earlier = id
  · rw [set, if_pos here] at given
    cases given
  · rw [set, if_neg here] at given
    exact found.2 earlier less ⟨names, given, lists⟩

/-- Where names are clear, a first alias that was checked leads to the group: it stays the same, leads
to the group already, or leads nowhere. -/
theorem leads_of_checked (h : t.Clear) {old : List String} (ho : t id = some old) {first : String}
    (checked : sameName first (old.headD "") = true ∨ t.Finds first id ∨
      ∀ other, ¬ t.Lists other first) :
    t.Finds first id ∨ ∀ other, ¬ t.Lists other first := by
  rcases checked with same | leads
  · exact Or.inl ((finds_congr same).mpr (h id old ho))
  · exact leads

theorem lt_of_leads {first : String} (leads : t.Finds first id ∨ ∀ other, ¬ t.Lists other first)
    {other : String} (different : other ≠ id) (lists : t.Lists other first) : id < other := by
  rcases leads with found | none
  · exact Keyed.lt_of_not_lt (fun same => different same.symm) fun less => found.2 other less lists
  · exact absurd lists (none other)

theorem clear_changed (h : t.Clear) {old : List String} (ho : t id = some old) {first : String}
    {later : List String}
    (checked : sameName first (old.headD "") = true ∨ t.Finds first id ∨
      ∀ other, ¬ t.Lists other first) :
    (t.set id (some (first :: later))).Clear ↔
      ¬ (t.set id (some (first :: later))).Hides id later := by
  have leads := leads_of_checked h ho checked
  refine clear_set h (fun other different lists => lt_of_leads leads different lists) ?_
  intro other shown stands less
  rw [Bool.eq_false_iff]
  intro same
  have lists := h other shown stands
  rcases leads with found | none
  · exact lists.2 id less ((lists_congr same).mp found.1)
  · exact none other ((lists_congr same).mpr lists.1)

end AliasTable

def Note.listed? (n : Note) : Option (List String) :=
  if n.isClass .group then some n.aliases else none

theorem Note.listed?_congr {n m : Note} (form : n.item? "Form" = m.item? "Form")
    (names : n.item? "ListName" = m.item? "ListName") : n.listed? = m.listed? := by
  rw [listed?, listed?, isClass_of_item? form, aliases, aliases, texts_congr names]

namespace Store

def aliasTable (s : Store) : AliasTable := fun id => (s.notes.get? id).bind Note.listed?

@[simp]
theorem aliasTable_put (s : Store) (id : String) (n : Note) :
    (s.put id n).aliasTable = s.aliasTable.set id n.listed? :=
  s.table_put id n

theorem aliasTable_erase {s : Store} (hs : s.Sound) (id : String) :
    (s.erase id).aliasTable = s.aliasTable.set id none :=
  table_erase hs id

theorem aliasTable_congr {s s' : Store} (h : s.notes = s'.notes) : s.aliasTable = s'.aliasTable :=
  table_congr h

theorem lists_aliasTable {s : Store} {id name : String} :
    s.aliasTable.Lists id name ↔ ∃ n, s.notes.get? id = some n ∧ n.hasAlias name = true := by
  rw [AliasTable.Lists, aliasTable]
  cases s.notes.get? id with
  | none => simp
  | some n =>
    rw [Option.bind_some]
    simp only [Note.listed?, Note.hasAlias, Option.some.injEq, exists_eq_left']
    cases n.isClass .group <;> simp

theorem find?_hasAlias (s : Store) (name : String) :
    (s.notesOf .group).find? (·.hasAlias name) =
      (s.notes.find? fun e => e.2.hasAlias name).map Prod.snd := by
  rw [notesOf, all, List.find?_filter, List.find?_map]
  congr 2
  funext e
  rw [Function.comp_apply, Note.hasAlias, Bool.eq_iff_iff]
  simp

theorem groupByAlias_eq {s : Store} (hm : s.backing = .memory) (name : String) :
    s.groupByAlias name = .ok ((s.notes.find? fun e => e.2.hasAlias name).map Prod.snd) := by
  rw [groupByAlias, ofClass_eq (faithful_of_memory hm), checkReadable_of_memory hm, ← find?_hasAlias]
  rfl

theorem find?_hasAlias_eq_some_iff {s : Store} (hs : s.Sound) {name : String} {g : Note} :
    (s.notesOf .group).find? (·.hasAlias name) = some g ↔
      ∃ id, s.notes.get? id = some g ∧ s.aliasTable.Finds name id := by
  rw [find?_hasAlias, Option.map_eq_some_iff]
  constructor
  · rintro ⟨⟨id, n⟩, found, rfl⟩
    obtain ⟨stands, lists, none⟩ := (Keyed.find?_eq_some_iff hs.sorted).mp found
    refine ⟨id, stands, lists_aliasTable.mpr ⟨n, stands, lists⟩, fun other less elsewhere => ?_⟩
    obtain ⟨m, hm, has⟩ := lists_aliasTable.mp elsewhere
    rw [none other m hm less] at has
    cases has
  · rintro ⟨id, stands, lists, none⟩
    obtain ⟨n, hn, has⟩ := lists_aliasTable.mp lists
    rw [stands, Option.some.injEq] at hn
    subst hn
    refine ⟨(id, g), (Keyed.find?_eq_some_iff hs.sorted).mpr ⟨stands, has, ?_⟩, rfl⟩
    intro other m hm less
    rw [Bool.eq_false_iff]
    exact fun has => none other less (lists_aliasTable.mpr ⟨m, hm, has⟩)

theorem groupByAlias_eq_some_iff {s : Store} (hs : s.Sound) (hm : s.backing = .memory)
    {name : String} {g : Note} :
    s.groupByAlias name = .ok (some g) ↔
      ∃ id, s.notes.get? id = some g ∧ s.aliasTable.Finds name id := by
  rw [groupByAlias_eq hm, Except.ok.injEq, ← find?_hasAlias, find?_hasAlias_eq_some_iff hs]

theorem groupByAlias_eq_none_iff {s : Store} (hs : s.Sound) (hm : s.backing = .memory)
    {name : String} :
    s.groupByAlias name = .ok none ↔ ∀ id, ¬ s.aliasTable.Lists id name := by
  rw [groupByAlias_eq hm, Except.ok.injEq, Option.map_eq_none_iff, List.find?_eq_none]
  constructor
  · intro none id lists
    obtain ⟨n, hn, has⟩ := lists_aliasTable.mp lists
    exact none (id, n) (Keyed.mem_of_get? hn) has
  · intro none e he has
    exact none e.1 (lists_aliasTable.mpr ⟨e.2, hs.get?_of_mem he, has⟩)

/-- Every group is found under the name under which it is shown. -/
def Findable (s : Store) : Prop :=
  ∀ g ∈ s.notesOf .group, s.groupByAlias g.displayName = .ok (some g)

theorem groupByAlias_congr (s : Store) {name other : String} (h : sameName name other = true) :
    s.groupByAlias name = s.groupByAlias other := by
  have same : (fun known => sameName known name) = fun known => sameName known other := by
    funext known
    rw [sameName_comm, sameName_congr h, sameName_comm]
  simp only [groupByAlias, Note.hasAlias, same]

/-- No two groups are shown under the same name. -/
def ShownApart (s : Store) : Prop :=
  ∀ g ∈ s.notesOf .group, ∀ g' ∈ s.notesOf .group,
    sameName g.displayName g'.displayName = true → g = g'

theorem Findable.shownApart {s : Store} (h : s.Findable) : s.ShownApart := by
  intro g hg g' hg' same
  have found := h g hg
  rw [s.groupByAlias_congr same, h g' hg'] at found
  cases found
  rfl

theorem findable_iff {s : Store} (hs : s.Sound) (hm : s.backing = .memory) :
    s.Findable ↔ s.aliasTable.Clear := by
  constructor
  · intro findable id aliases stands
    rw [aliasTable, Option.bind_eq_some_iff] at stands
    obtain ⟨g, hg, listed⟩ := stands
    rw [Note.listed?] at listed
    split at listed
    · next group =>
      cases listed
      have found := findable g (mem_notesOf.mpr ⟨⟨id, Keyed.mem_of_get? hg⟩, group⟩)
      obtain ⟨id', hg', finds⟩ := (groupByAlias_eq_some_iff hs hm).mp found
      have same := hs.id_of_get? hg
      rw [hs.id_of_get? hg', Option.some.injEq] at same
      rwa [same] at finds
    · cases listed
  · intro clear g hg
    obtain ⟨id, _, stands⟩ := hs.get?_of_mem_notesOf hg
    have group := (mem_notesOf.mp hg).2
    refine (groupByAlias_eq_some_iff hs hm).mpr ⟨id, stands, clear id g.aliases ?_⟩
    rw [aliasTable, stands, Option.bind_some, Note.listed?, if_pos group]

end Store

end AddressBook

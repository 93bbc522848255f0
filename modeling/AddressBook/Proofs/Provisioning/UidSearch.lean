import AddressBook.Proofs.Provisioning.ReadBack
import AddressBook.Proofs.Provisioning.Shortcut
import AddressBook.Proofs.Query.ShownNames

/-! Searching for an entry by its uid. The uid of an account is its id, the uid of a group lists its
aliases, of which the query takes the first. Where ids and aliases tell entries apart, the search hands
over the entry and no other, whichever way it takes. -/

namespace AddressBook

open Provisioning Text

namespace Alias

/-- A text that is an alias as it stands. -/
structure IsAlias (a : String) : Prop where
  trimmed : trim a = a
  solid : a ≠ ""
  whole : ';' ∉ a.toList

instance (a : String) : Decidable (IsAlias a) :=
  decidable_of_iff (trim a = a ∧ a ≠ "" ∧ ';' ∉ a.toList)
    ⟨fun ⟨trimmed, solid, whole⟩ => ⟨trimmed, solid, whole⟩, fun h => ⟨h.trimmed, h.solid, h.whole⟩⟩

theorem IsAlias.split_eq {a : String} (h : IsAlias a) : split a = [a] := by
  have whole : ∀ c ∈ a.toList, (c == ';') = false := by
    intro c hc
    rw [beq_eq_false_iff_ne]
    rintro rfl
    exact h.whole hc
  rw [split, list, splitOn_of_forall whole, List.map_singleton, h.trimmed]
  exact List.filter_cons_of_pos (by simpa using h.solid)

end Alias

namespace Note

variable {n : Note}

def HasAliases (n : Note) : Prop :=
  ∃ aliases : List String, n.item? "ListName" = some (aliases.map .text) ∧ aliases ≠ [] ∧
    ∀ a ∈ aliases, Alias.IsAlias a

theorem HasAliases.stored (h : n.HasAliases) :
    n.item? "ListName" = some (n.aliases.map .text) ∧ n.aliases ≠ [] ∧
      ∀ a ∈ n.aliases, Alias.IsAlias a := by
  obtain ⟨aliases, held, solid, each⟩ := h
  have read : n.aliases = aliases := by
    rw [Note.aliases, show n.texts "ListName" = aliases by simp [texts, held]]
    refine Group.splitAll_of_mem_split fun a ha => ⟨a, ?_⟩
    rw [(each a ha).split_eq]
    exact List.mem_singleton_self a
  rw [read]
  exact ⟨held, solid, each⟩

theorem HasAliases.displayName_mem (h : n.HasAliases) : n.displayName ∈ n.aliases := by
  obtain ⟨-, solid, -⟩ := h.stored
  obtain ⟨first, later, listed⟩ := List.exists_cons_of_ne_nil solid
  rw [displayName, listed, List.headD_cons]
  exact List.mem_cons_self

def HasForm (n : Note) : Prop := ∃ kind : EntryClass, n.item? "Form" = some [.text kind.form]

theorem HasForm.eq_of_isClass (h : n.HasForm) {kind : EntryClass} (classed : n.isClass kind = true) :
    n.item? "Form" = some [.text kind.form] := by
  obtain ⟨other, held⟩ := h
  have read : n.form? = some other.form := by
    rw [form?, text?, held]
    rfl
  rw [isClass, read] at classed
  cases kind <;> cases other
  · exact held
  · exact absurd classed (by decide)
  · exact absurd classed (by decide)
  · exact held

end Note

/-- In memory, every note stands under its own id and has the form of its class, the list names of
groups hold aliases, and an id or an alias leads to one note. One group may well list an alias twice. -/
structure Store.Catalogued (s : Store) : Prop where
  memory : s.backing = .memory
  sound : s.Sound
  alphanumeric : ∀ key ∈ s.notes.keys, key.toList.all isAsciiAlphanumeric = true
  distinct : ∀ key ∈ s.notes.keys, ∀ other ∈ s.notes.keys, sameAscii key other = true → key = other
  formed : ∀ entry ∈ s.notes, entry.2.HasForm
  named : ∀ entry ∈ s.notes, entry.2.isClass .group = true → entry.2.HasAliases
  apart : ∀ entry ∈ s.notes, ∀ other ∈ s.notes, entry.2.isClass .group = true →
    other.2.isClass .group = true → ∀ a ∈ entry.2.aliases, ∀ b ∈ other.2.aliases,
      sameName a b = true → entry.1 = other.1

namespace Query

variable {rules : SearchRules}

def uidText (kind : EntryClass) (uid : String) : String :=
  match kind with
  | .account => NoteId.extract uid
  | .group => Alias.display uid

/-- The query of a search by uid. -/
def uidQuery (rules : SearchRules) (kind : EntryClass) (uid : String) : Query :=
  equalityOf rules false kind.uidItem [.text (uidText kind uid)]

theorem ofFilter_uid (rules : SearchRules) (kind : EntryClass) (uid : String) :
    ofFilter rules kind (.equals Schema.uidAttribute [.text uid]) =
      .ok (some (uidQuery rules kind uid)) := by
  have stored : storedForm kind Schema.uidAttribute uid = .ok (uidText kind uid) := by
    cases kind <;> rfl
  have field : fieldName kind Schema.uidAttribute = kind.uidItem := by cases kind <;> rfl
  rw [ofFilter, compile, literals, literals, literal?, if_neg Bool.false_ne_true, stored, field]
  rfl

theorem uidQuery_account (rules : SearchRules) (uid : String) :
    uidQuery rules .account uid = idQuery (NoteId.extract uid) := by
  have exact : rules.isExact "NoteID" = true := by
    rw [SearchRules.isExact, Bool.or_eq_true, List.any_eq_true]
    exact Or.inr ⟨"NoteID", by simp [SearchRules.alwaysExact], sameAscii_refl _⟩
  have noticed : ignoresCase rules "NoteID" [.text (NoteId.extract uid)] = false := by
    rw [ignoresCase, exact, Bool.not_true, Bool.and_false]
  rw [uidQuery, uidText, equalityOf, EntryClass.uidItem, noticed]
  rfl

theorem read_uidQuery (rules : SearchRules) (kind : EntryClass) (uid : String) :
    Formula.read (confined kind (some (uidQuery rules kind uid).write)) =
      .ok (confinedFormula kind (some (uidQuery rules kind uid))) := by
  have readable : ∀ q ∈ some (uidQuery rules kind uid), q.Readable := by
    rintro q ⟨⟩
    refine readable_equalityOf (by cases kind <;> decide) (List.cons_ne_nil _ _) fun l hl => ?_
    rw [List.mem_singleton.mp hl]
    trivial
  have taken := read_confined kind readable
  rwa [Option.map_some] at taken

theorem eq_of_write_idQuery {id other : String} (h : (idQuery id).write = (idQuery other).write) :
    id = other := by
  have same := read_idQuery id
  rw [h, read_idQuery other] at same
  cases same
  rfl

theorem holds_uidQuery_group {n : Note} {uid : String} (h : n.HasAliases) :
    (confinedFormula .group (some (uidQuery rules .group uid))).holds n = true ↔
      Note.Value.text EntryClass.group.form ∈ (n.item? "Form").getD [] ∧
        ∃ a ∈ n.aliases, rules.Agree "ListName" a (Alias.display uid) := by
  obtain ⟨held, solid, -⟩ := h.stored
  rw [confinedFormula, Formula.holds_both, Bool.and_eq_true, holds_formFormula, uidQuery,
    holds_equalityOf, Bool.false_xor]
  exact and_congr_right fun _ => hasEqual_texts (by decide) held solid

end Query

namespace Store

open Query

theorem search_eq_singleton {s : Store} (sound : s.Sound) (hm : s.backing = .memory)
    {kind : EntryClass} {text : String} {formula : Formula} {n : Note}
    (read : Formula.read text = .ok formula) (hn : n ∈ s.notesOf kind)
    (alone : ∀ m ∈ s.notesOf kind, formula.holds m = true ↔ m = n) :
    s.search kind (some text) = .ok [n] := by
  have nodup : (s.notesOf kind).Nodup :=
    (sound.pairwise_notesOf kind).imp fun apart same => apart (congrArg Note.id same)
  have one : (s.notesOf kind).filter formula.holds = [n] := by
    refine List.perm_singleton.mp ?_
    rw [List.perm_ext_iff_of_nodup (nodup.filter _) (by simp)]
    intro m
    rw [List.mem_filter, List.mem_singleton]
    constructor
    · rintro ⟨listed, holds⟩
      exact (alone m listed).mp holds
    · rintro rfl
      exact ⟨hn, (alone m hn).mpr rfl⟩
  rw [search, read, ofClass_eq (faithful_of_memory hm), checkReadable_of_memory hm]
  exact congrArg Except.ok one

namespace Catalogued

variable {s : Store} {kind : EntryClass} {id : String} {n : Note}

theorem eq_of_lists (h : s.Catalogued) {other name : String} (lists : s.aliasTable.Lists id name)
    (lists' : s.aliasTable.Lists other name) : id = other := by
  obtain ⟨n, hn, has⟩ := lists_aliasTable.mp lists
  obtain ⟨m, hm, has'⟩ := lists_aliasTable.mp lists'
  rw [Note.hasAlias, Bool.and_eq_true, List.any_eq_true] at has has'
  obtain ⟨group, a, ha, same⟩ := has
  obtain ⟨group', b, hb, same'⟩ := has'
  rw [sameName_comm] at same'
  exact h.apart _ (Keyed.mem_of_get? hn) _ (Keyed.mem_of_get? hm) group group' a ha b hb
    (sameName_trans same same')

theorem lists_displayName (h : s.Catalogued) (stands : s.notes.get? id = some n)
    (group : n.isClass .group = true) : s.aliasTable.Lists id n.displayName := by
  refine lists_aliasTable.mpr ⟨n, stands, ?_⟩
  rw [Note.hasAlias, group, Bool.true_and, List.any_eq_true]
  exact ⟨_, (h.named _ (Keyed.mem_of_get? stands) group).displayName_mem, sameName_refl _⟩

theorem extract_key (h : s.Catalogued) (stands : s.notes.get? id = some n) :
    NoteId.extract id = id :=
  NoteId.extract_of_alphanumeric
    (h.alphanumeric id (List.mem_map.mpr ⟨(id, n), Keyed.mem_of_get? stands, rfl⟩))

theorem find_uidOf (h : s.Catalogued) (stands : s.notes.get? id = some n)
    (classed : n.isClass kind = true) : find kind (uidOf kind id n) s = .ok (some n) := by
  rw [Reading.find_uidOf_iff_of_store h.memory h.sound h.alphanumeric h.distinct stands]
  cases kind with
  | account => exact classed
  | group =>
    have own := h.lists_displayName stands classed
    refine ⟨own, fun other less elsewhere => ?_⟩
    rw [h.eq_of_lists elsewhere own] at less
    exact String.lt_irrefl _ less

theorem holds_uidQuery_iff (h : s.Catalogued) (stands : s.notes.get? id = some n)
    (classed : n.isClass kind = true) (rules : SearchRules) {m : Note} (hm : m ∈ s.notesOf kind) :
    (confinedFormula kind (some (uidQuery rules kind (uidOf kind id n)))).holds m = true ↔ m = n := by
  obtain ⟨other, hid, there⟩ := h.sound.get?_of_mem_notesOf hm
  have classed' := (mem_notesOf.mp hm).2
  have form : Note.Value.text kind.form ∈ (m.item? "Form").getD [] := by
    rw [(h.formed _ (Keyed.mem_of_get? there)).eq_of_isClass classed']
    exact List.mem_singleton_self _
  cases kind with
  | account =>
    rw [uidQuery_account, uidOf, h.extract_key stands, holds_idQuery, Bool.and_eq_true,
      List.contains_iff_mem, beq_iff_eq, and_iff_right form]
    constructor
    · intro same
      rw [hid, Option.some.injEq] at same
      rw [same, stands] at there
      exact (Option.some.inj there).symm
    · rintro rfl
      exact h.sound.id_of_get? stands
  | group =>
    have named := h.named _ (Keyed.mem_of_get? stands) classed
    have named' := h.named _ (Keyed.mem_of_get? there) classed'
    have shown : Alias.display (uidOf .group id n) = n.displayName := by
      rw [uidOf, Alias.display, Group.split_join_aliases, Note.displayName]
    rw [holds_uidQuery_group named', shown, and_iff_right form]
    constructor
    · rintro ⟨a, ha, agree⟩
      -- The other group lists the first alias too, and a name is listed by one group only.
      have trimmed := (named'.stored.2.2 a ha).trimmed
      have trimmed' := (named.stored.2.2 _ named.displayName_mem).trimmed
      have lists : s.aliasTable.Lists other n.displayName := by
        refine lists_aliasTable.mpr ⟨m, there, ?_⟩
        rw [Note.hasAlias, classed', Bool.true_and, List.any_eq_true]
        exact ⟨a, ha, agree.sameName trimmed trimmed'⟩
      rw [h.eq_of_lists lists (h.lists_displayName stands classed), stands] at there
      exact (Option.some.inj there).symm
    · rintro rfl
      exact ⟨m.displayName, named.displayName_mem, .refl rules _ _⟩

end Catalogued

end Store

namespace Reading

open Query

variable {kind : EntryClass} {id : String} {n : Note} {d d' : Directory}

/-- The query of its uid finds a note, by the lookup of an id or by a scan. -/
theorem found_uidQuery {s : Store} (h : s.Catalogued) (stands : s.notes.get? id = some n)
    (classed : n.isClass kind = true) (rules : SearchRules) :
    found s kind (some (uidQuery rules kind (uidOf kind id n)).write) = .ok [n] := by
  have scanned : s.search kind
      (some (confined kind (some (uidQuery rules kind (uidOf kind id n)).write))) = .ok [n] :=
    Store.search_eq_singleton h.sound h.memory (read_uidQuery rules kind _)
      (Store.mem_notesOf.mpr ⟨⟨id, Keyed.mem_of_get? stands⟩, classed⟩)
      fun m hm => h.holds_uidQuery_iff stands classed rules hm
  cases kind with
  | group => exact scanned
  | account =>
    cases direct : directId? (uidQuery rules .account (uidOf .account id n)).write with
    | none =>
      simp only [found, Option.bind_some, direct]
      exact scanned
    | some asked =>
      have written := write_of_directId? direct
      rw [uidQuery_account, uidOf] at written
      have looked : s.accountById asked = .ok (some n) := by
        rw [← eq_of_write_idQuery written]
        exact h.find_uidOf stands classed
      simp only [found, Option.bind_some, direct, looked, bind, Except.bind, pure, Except.pure,
        Option.toList_some]

theorem search_of_found {rules : SearchRules} {filter : Filter} {q : Query} {selection : Selection}
    {e : Entry} (compiled : ofFilter rules kind filter = .ok (some q))
    (reached : Directory.acquire d = .ok () d') (one : found d'.store kind (some q.write) = .ok [n])
    (derived : entryOf d'.store kind selection n = .ok e) (limit : Option Nat) :
    search rules kind (some filter) selection limit d = .ok [e] d' := by
  have lifted : (liftM (Except.ok (some q) : Except Fault (Option Query)) :
      Action (Option Query)) d = .ok (some q) d := Action.lift_ok_iff.mpr ⟨rfl, rfl⟩
  have whole : limited limit [n] = [n] := limited_toList limit (some n)
  simp only [search, compiled, Action.bind_apply, lifted, pure, EStateM.pure, reached,
    Option.map_some, Action.read_apply]
  simp [one, bind, Except.bind, whole, derived, pure, Except.pure]

/-- In a catalogued store the search for the uid of an entry hands over this entry and no other,
whatever the rules and the limit. An entry is missing only where the members of a group are to be
resolved and cannot be. -/
theorem search_of_uid (catalogued : d'.store.Catalogued) (reached : Directory.acquire d = .ok () d')
    (stands : d'.store.notes.get? id = some n) (classed : n.isClass kind = true)
    (rules : SearchRules) (selection : Selection) (limit : Option Nat) :
    ((∃ e, entryOf d'.store kind selection n = .ok e) ↔
        (kind = .group → Resolves d'.store selection n)) ∧
      ∀ e, entryOf d'.store kind selection n = .ok e →
        get kind (uidOf kind id n) selection d = .ok (some e) d' ∧ e.uid = uidOf kind id n ∧
          search rules kind (some (.equals Schema.uidAttribute [.text (uidOf kind id n)])) selection
            limit d = .ok [e] d' := by
  have hid := catalogued.sound.id_of_get? stands
  refine ⟨exists_entryOf_iff catalogued.memory hid, fun e derived => ⟨?_, ?_, ?_⟩⟩
  · exact get_of_acquire reached (catalogued.find_uidOf stands classed) derived
  · exact uid_of_entryOf derived hid
  · exact search_of_found (ofFilter_uid rules kind _) reached
      (found_uidQuery catalogued stands classed rules) derived limit

def salesNote : Note :=
  { id := some "B2",
    items := [("Form", [.text "Group"]), ("ListName", [.text "Sales", .text "Sales Team"]),
      ("Members", [.text "CN=Ann Lee/O=Acme"])] }

def officeNotes : Keyed Note :=
  [("A1", { id := some "A1", items := [("Form", [.text "Person"]), ("LastName", [.text "Lee"])] }),
    ("B2", salesNote),
    ("C3", { id := some "C3", items := [("Form", [.text "Group"]), ("ListName", [.text "All"])] })]

def officeDirectory : Directory := { store := { notes := officeNotes } }

theorem catalogued_officeNotes {s : Store} (hm : s.backing = .memory) (h : s.notes = officeNotes) :
    s.Catalogued := by
  have forms : ∀ entry ∈ officeNotes, ∃ kind ∈ [EntryClass.account, .group],
      entry.2.item? "Form" = some [.text kind.form] := by decide
  have names : ∀ entry ∈ officeNotes, entry.2.isClass .group = true →
      entry.2.item? "ListName" = some (entry.2.aliases.map .text) ∧ entry.2.aliases ≠ [] ∧
        ∀ a ∈ entry.2.aliases, Alias.IsAlias a := by decide
  constructor <;> try rw [h]
  · exact hm
  · exact ⟨by rw [h]; decide, by rw [h]; decide⟩
  · decide
  · decide
  · exact fun entry he => (forms entry he).imp fun kind => And.right
  · exact fun entry he group => ⟨entry.2.aliases, names entry he group⟩
  · decide

theorem search_of_uid_sample :
    ∃ e, entryOf (Action.acquired officeDirectory).store .group ⟨["Members"]⟩ salesNote = .ok e ∧
      e.uid = "Sales;Sales Team" ∧
      get .group "Sales;Sales Team" ⟨["Members"]⟩ officeDirectory =
        .ok (some e) (Action.acquired officeDirectory) ∧
      search {} .group (some (.equals "__UID__" [.text "Sales;Sales Team"])) ⟨["Members"]⟩ (some 1)
        officeDirectory = .ok [e] (Action.acquired officeDirectory) := by
  have uid : uidOf .group "B2" salesNote = "Sales;Sales Team" := by decide
  have stands : (Action.acquired officeDirectory).store.notes.get? "B2" = some salesNote := rfl
  have group : salesNote.isClass .group = true := by decide
  obtain ⟨shown, hands⟩ := search_of_uid (catalogued_officeNotes rfl rfl) (Action.acquire_of_live rfl)
    stands group {} ⟨["Members"]⟩ (some 1)
  obtain ⟨e, derived⟩ := shown.mpr fun _ wanted => absurd wanted (by decide)
  obtain ⟨got, own, searched⟩ := hands e derived
  rw [uid] at got own searched
  exact ⟨e, derived, own, got, searched⟩

end Reading

end AddressBook

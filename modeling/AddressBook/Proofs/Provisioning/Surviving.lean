import AddressBook.Proofs.Directory.Triple
import AddressBook.Proofs.Provisioning.AliasTable
import AddressBook.Proofs.Provisioning.Reading
import AddressBook.Proofs.Query.Reading

/-! Reading what somebody else wrote. A store in memory may hold anything; which notes can be read, one by
its uid or all of a class, is said here for every content. Nothing stands in the way but a member
whose canonical rendering is no name. -/

namespace AddressBook

theorem map_eq_of_mapM_ok {α β γ : Type} {f : α → Except Fault β} {p : α → γ} {q : β → γ}
    {as : List α} {bs : List β} (kept : ∀ a ∈ as, ∀ b, f a = .ok b → q b = p a)
    (h : as.mapM f = .ok bs) : bs.map q = as.map p := by
  induction as generalizing bs with
  | nil =>
    cases h
    rfl
  | cons a as ih =>
    rw [List.mapM_cons] at h
    obtain ⟨b, first, h⟩ := bind_eq_ok h
    obtain ⟨rest, others, made⟩ := bind_eq_ok h
    cases made
    rw [List.map_cons, List.map_cons, kept a List.mem_cons_self b first,
      ih (fun c hc => kept c (List.mem_cons_of_mem a hc)) others]

namespace Store

variable {s : Store}

def formed (s : Store) (kind : EntryClass) : List Note :=
  (s.notesOf kind).filter fun n => ((n.item? "Form").getD []).contains (.text kind.form)

theorem groupByAlias_eq_find?_notesOf (hm : s.backing = .memory) (name : String) :
    s.groupByAlias name = .ok ((s.notesOf .group).find? (·.hasAlias name)) := by
  rw [groupByAlias, ofClass_eq (faithful_of_memory hm), checkReadable_of_memory hm]
  rfl

theorem accountByName_eq (hm : s.backing = .memory) (name : CanonicalName) :
    s.accountByName name = .ok ((s.notesOf .account).find? (·.isNamed name)) := by
  rw [accountByName, ofClass_eq (faithful_of_memory hm), checkReadable_of_memory hm]
  rfl

theorem search_confined (hm : s.backing = .memory) (kind : EntryClass) :
    s.search kind (some (Query.confined kind none)) = .ok (s.formed kind) := by
  have readable : ∀ q ∈ (none : Option Query), q.Readable := by simp
  have read := Query.read_confined kind readable
  rw [Option.map_none] at read
  rw [search, read, ofClass_eq (faithful_of_memory hm), checkReadable_of_memory hm]
  simp only [bind, Except.bind, Except.map, pure, Except.pure, Except.ok.injEq]
  refine List.filter_congr fun n _ => ?_
  rw [Bool.eq_iff_iff, Query.confinedFormula, Query.holds_formFormula, List.contains_iff_mem]

end Store

namespace Entry

def head (e : Entry) : EntryClass × String × String := (e.kind, e.uid, e.name)

theorem head_eq {e e' : Entry} (h : e.SameHead e') : e.head = e'.head := by
  rw [head, head, h.1, h.2.1, h.2.2]

def headOf (kind : EntryClass) (selection : Selection) (n : Note) : EntryClass × String × String :=
  (header kind n (n.id.getD "") selection).head

end Entry

namespace Reading

open Provisioning

variable {s : Store} {kind : EntryClass} {selection : Selection} {n : Note}

/-- The member is no alias of a group, and there is an account that goes by its canonical rendering,
which is itself no name. -/
def Trips (s : Store) (member : String) : Prop :=
  (∀ g ∈ s.notesOf .group, g.hasAlias member = false) ∧
    ∃ name, Name.canonicalize member = .ok name ∧ (∃ a ∈ s.notesOf .account, a.isNamed name = true) ∧
      ∀ short, Name.abbreviate name.text ≠ .ok short

theorem exists_resolve_iff (hm : s.backing = .memory) {member : String} :
    (∃ resolved, resolve s member = .ok resolved) ↔ ¬ Trips s member := by
  rw [resolve, Store.groupByAlias_eq_find?_notesOf hm, Trips]
  simp only [bind, Except.bind]
  cases group : (s.notesOf .group).find? (·.hasAlias member) with
  | some g =>
    have listed := List.mem_of_find?_eq_some group
    have aliased := List.find?_some group
    refine ⟨fun _ trips => ?_, fun _ => ⟨_, rfl⟩⟩
    rw [trips.1 g listed] at aliased
    cases aliased
  | none =>
    have unlisted : ∀ g ∈ s.notesOf .group, g.hasAlias member = false := by
      simpa using group
    cases read : Name.canonicalize member with
    | error fault => exact ⟨fun _ ⟨_, _, named, _⟩ => (by cases named), fun _ => ⟨_, rfl⟩⟩
    | ok name =>
      dsimp only
      rw [Store.accountByName_eq hm]
      cases account : (s.notesOf .account).find? (·.isNamed name) with
      | none =>
        refine ⟨fun _ ⟨_, other, same, ⟨a, ha, named⟩, _⟩ => ?_, fun _ => ⟨_, rfl⟩⟩
        cases same
        exact absurd named (List.find?_eq_none.mp account a ha)
      | some a =>
        have goes := List.find?_some account
        have named : ∃ a ∈ s.notesOf .account, a.isNamed name = true :=
          ⟨a, List.mem_of_find?_eq_some account, goes⟩
        cases short : Name.abbreviate name.text with
        | ok text =>
          refine ⟨fun _ ⟨_, other, same, _, unread⟩ => ?_, fun _ => ?_⟩
          · cases same
            exact unread text short
          · exact ⟨.person text, rfl⟩
        | error fault =>
          refine ⟨fun ⟨resolved, made⟩ => ?_, fun steady => absurd ⟨unlisted, name, rfl, named, ?_⟩ steady⟩
          · cases made
          · rw [short]
            rintro _ ⟨⟩

/-- The note can be read: it is no group, or what its members are is not asked for, or none trips. -/
def Legible (s : Store) (kind : EntryClass) (selection : Selection) (n : Note) : Prop :=
  kind = .group → (selection.contains "MemberGroups" || selection.contains "MemberPeople") = true →
    ∀ m ∈ n.members, ¬ Trips s m

theorem exists_entryOf_iff_legible (hm : s.backing = .memory) {id : String} (hid : n.id = some id) :
    (∃ e, entryOf s kind selection n = .ok e) ↔ Legible s kind selection n := by
  rw [exists_entryOf_iff hm hid]
  simp only [Resolves, Legible, exists_resolve_iff hm]

theorem head_of_entryOf {e : Entry} (h : entryOf s kind selection n = .ok e) :
    e.head = Entry.headOf kind selection n := by
  obtain ⟨id, hid, same⟩ := entryOf_ok h
  rw [Entry.headOf, hid, Option.getD_some, Entry.head_eq same]

theorem exists_find (hm : s.backing = .memory) (kind : EntryClass) (uid : String) :
    ∃ found, find kind uid s = .ok found := by
  cases kind with
  | account => exact ⟨_, Store.accountById_eq hm _⟩
  | group => exact ⟨_, Store.groupByAlias_eq hm _⟩

theorem exists_id_of_find (hm : s.backing = .memory) (hs : s.Sound) {uid : String}
    (h : find kind uid s = .ok (some n)) : ∃ id, n.id = some id := by
  cases kind with
  | account =>
    obtain ⟨key, stands, -⟩ := Store.accountById_ok hm h
    exact ⟨key, hs.id_of_get? stands⟩
  | group =>
    obtain ⟨id, stands, -⟩ := (Store.groupByAlias_eq_some_iff hs hm).mp h
    exact ⟨id, hs.id_of_get? stands⟩

theorem exists_id_of_limited (hs : s.Sound) {limit : Option Nat}
    (h : n ∈ limited limit (s.formed kind)) : ∃ id, n.id = some id := by
  have formed : n ∈ s.formed kind := by
    cases limit with
    | none => exact h
    | some most => exact List.mem_of_mem_take h
  obtain ⟨id, hid, -⟩ := hs.get?_of_mem_notesOf (List.mem_filter.mp formed).1
  exact ⟨id, hid⟩

theorem get_apply {d d' : Directory} (reached : Directory.acquire d = .ok () d') {uid : String}
    {found : Option Note} (looked : find kind uid d'.store = .ok found) :
    get kind uid selection d =
      match found.mapM (entryOf d'.store kind selection) with
      | .ok entry => .ok entry d'
      | .error fault => .error fault d' := by
  rw [get, Action.bind_apply, reached]
  dsimp only
  rw [Action.read_apply, looked]
  cases found with
  | none => rfl
  | some n =>
    simp only [bind, Except.bind, Option.mapM_some]
    cases entryOf d'.store kind selection n <;> rfl

theorem search_apply {d d' : Directory} (reached : Directory.acquire d = .ok () d')
    (hm : d'.store.backing = .memory) (rules : SearchRules) (limit : Option Nat) :
    search rules kind none selection limit d =
      match (limited limit (d'.store.formed kind)).mapM (entryOf d'.store kind selection) with
      | .ok entries => .ok entries d'
      | .error fault => .error fault d' := by
  have whole : found d'.store kind none = .ok (d'.store.formed kind) := by
    rw [← Store.search_confined hm]
    cases kind <;> rfl
  rw [search]
  dsimp only
  rw [pure_bind, Action.bind_apply, reached]
  dsimp only
  rw [Action.read_apply, whole]
  simp only [bind, Except.bind]
  cases (limited limit (d'.store.formed kind)).mapM (entryOf d'.store kind selection) <;> rfl

/-- What can be read of a store in memory, whatever stands in it. A note is read by its uid exactly if it
can be read; a search without a filter succeeds exactly if all the notes it is to return can be read,
and then it returns each of them, in the order of the store. -/
theorem reads_iff {d d' : Directory} (reached : Directory.acquire d = .ok () d')
    (hm : d'.store.backing = .memory) (hs : d'.store.Sound) (kind : EntryClass)
    (selection : Selection) :
    (∀ uid, (∃ found, get kind uid selection d = .ok found d') ↔
      ∀ n, find kind uid d'.store = .ok (some n) → Legible d'.store kind selection n) ∧
    ∀ rules limit, (∃ entries, search rules kind none selection limit d = .ok entries d' ∧
        entries.map Entry.head =
          (limited limit (d'.store.formed kind)).map (Entry.headOf kind selection)) ↔
      ∀ n ∈ limited limit (d'.store.formed kind), Legible d'.store kind selection n := by
  constructor
  · intro uid
    obtain ⟨found, looked⟩ := exists_find hm kind uid
    rw [get_apply reached looked]
    cases found with
    | none =>
      refine ⟨fun _ n other => ?_, fun _ => ⟨none, rfl⟩⟩
      rw [looked] at other
      cases other
    | some n =>
      obtain ⟨id, hid⟩ := exists_id_of_find hm hs looked
      have only : (∀ m, find kind uid d'.store = .ok (some m) → Legible d'.store kind selection m) ↔
          Legible d'.store kind selection n := by
        rw [looked]
        exact ⟨fun all => all n rfl, fun legible m same => by cases same; exact legible⟩
      rw [only, ← exists_entryOf_iff_legible hm hid, Option.mapM_some]
      cases entryOf d'.store kind selection n with
      | ok e => exact ⟨fun _ => ⟨e, rfl⟩, fun _ => ⟨some e, rfl⟩⟩
      | error fault => exact ⟨fun ⟨_, made⟩ => (by cases made), fun ⟨_, made⟩ => (by cases made)⟩
  · intro rules limit
    have each : (∀ n ∈ limited limit (d'.store.formed kind), Legible d'.store kind selection n) ↔
        ∃ entries, (limited limit (d'.store.formed kind)).mapM (entryOf d'.store kind selection) =
          .ok entries := by
      rw [exists_mapM_ok_iff]
      refine forall₂_congr fun n hn => ?_
      obtain ⟨id, hid⟩ := exists_id_of_limited hs hn
      exact (exists_entryOf_iff_legible hm hid).symm
    rw [each, search_apply reached hm]
    constructor
    · rintro ⟨entries, made, -⟩
      cases mapped : (limited limit (d'.store.formed kind)).mapM (entryOf d'.store kind selection) with
      | ok found => exact ⟨found, rfl⟩
      | error fault =>
        rw [mapped] at made
        cases made
    · rintro ⟨entries, mapped⟩
      rw [mapped]
      exact ⟨entries, rfl, map_eq_of_mapM_ok (fun n _ e derived => head_of_entryOf derived) mapped⟩

def oddNotes : Keyed Note :=
  [("A1", { id := some "A1", items := [("Form", [.text "Person"]), ("FullName", [.text "OU=Staff"])] }),
   ("G1", { id := some "G1", items := [("Form", [.text "Group"]), ("ListName", [.text "Team"]),
     ("Members", [.text "CN=OU=Staff"])] }),
   ("G2", { id := some "G2", items := [("Form", [.text "Group"]), ("ListName", [.text "Other"])] })]

def oddDirectory : Directory := { store := { notes := oddNotes } }

theorem acquire_oddDirectory :
    Directory.acquire oddDirectory = .ok () (Action.ended Directory.acquire oddDirectory) :=
  Action.ok_of_value? (by decide)

theorem sound_oddNotes {s : Store} (h : s.notes = oddNotes) : s.Sound where
  sorted := by
    rw [h]
    decide
  ids := by
    rw [h]
    decide

theorem reads_iff_sample :
    ∃ d', Directory.acquire oddDirectory = .ok () d' ∧ d'.store.backing = .memory ∧ d'.store.Sound ∧
      ∃ entries, search {} .account none ⟨[]⟩ none oddDirectory = .ok entries d' ∧
        entries.map Entry.head = [(.account, "A1", "OU=Staff")] := by
  have memory : (Action.ended Directory.acquire oddDirectory).store.backing = .memory := rfl
  have sound : (Action.ended Directory.acquire oddDirectory).store.Sound := sound_oddNotes rfl
  have reads := reads_iff acquire_oddDirectory memory sound .account ⟨[]⟩
  obtain ⟨entries, searched, heads⟩ := (reads.2 {} none).mpr fun _ _ other => by cases other
  refine ⟨_, acquire_oddDirectory, memory, sound, entries, searched, ?_⟩
  rw [heads]
  decide

/-- A search of the groups may fail, because of one member of one of them. -/
theorem not_always_searched :
    ¬ ∀ d d' rules kind selection limit, Directory.acquire d = .ok () d' →
      d'.store.backing = .memory → d'.store.Sound →
        ∃ entries, search rules kind none selection limit d = .ok entries d' := by
  intro always
  obtain ⟨entries, found⟩ := always _ _ {} .group ⟨["ListName", "MemberPeople"]⟩ none
    acquire_oddDirectory rfl (sound_oddNotes rfl)
  have fails : Action.isOk (search {} .group none ⟨["ListName", "MemberPeople"]⟩ none oddDirectory) =
      false := by
    decide +kernel
  rw [found] at fails
  cases fails

end Reading

end AddressBook

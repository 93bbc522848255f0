import AddressBook.Proofs.Provisioning.ReadBack

/-! Deleting what was created. An entry leaves all groups before it goes, so that the name by which
groups list it is read once more. The name of an account was read when the account was made; the first
alias of a group may be any text. -/

namespace AddressBook

open AddressBook.Action Text

namespace Membership

variable {member : CanonicalName} {d d' : Directory} {fault : Fault}

theorem refused_of_removeEverywhere (hm : d.store.backing = .memory)
    (h : removeEverywhere member d = .error fault d') :
    ∃ identity cause, fault = .noteSave identity cause := by
  -- In memory the groups are found, so that saving one of them is all that is left to fail.
  obtain ⟨groups, held⟩ := exists_groupsOf hm member
  rw [removeEverywhere] at h
  rcases bind_error_iff.mp h with failed | ⟨_, _, _, h⟩
  · obtain ⟨failed, _⟩ := read_error_iff.mp failed
    rw [held] at failed
    cases failed
  rcases bind_error_iff.mp h with failed | ⟨_, _, _, counted⟩
  · obtain ⟨g, _, d₁, failed⟩ := mapM_error failed
    rw [removeMember] at failed
    split at failed
    · cases failed
    · rcases bind_error_iff.mp failed with failed | ⟨_, _, _, told⟩
      · exact Directory.refused_of_save (discard_error_iff.mp failed)
      · cases told
  · cases counted

theorem writable_frame :
    Frame (fun d => d.store.backing = .memory ∧ d.store.lasting = true ∧ d.store.readOnly = false)
      (fun _ => True) fun _ => True where
  memory _ hd := hd.1
  lasting _ hd := hd.2.1
  alike _ _ same hd :=
    ⟨same.backing.trans hd.1, same.lasting.trans hd.2.1, same.readOnly.trans hd.2.2⟩
  returned _ _ _ _ := trivial
  saved _ _ := leads_save
    (fun _ hd => ⟨⟨(Store.backing_spend _).trans hd.1, (Store.lasting_spend _).trans hd.2.1,
      (Store.readOnly_spend _).trans hd.2.2⟩, trivial, rfl⟩) fun _ hd => hd
  members _ _ _ _ _ := trivial
  marked _ _ _ _ := trivial

end Membership

namespace Directory

variable {d d₁ d₂ : Directory} {id : String} {m : Note}

/-- Of what notes tell besides members and marks, all is as before but for the note under the id, which
is gone. -/
structure Erased (d d' : Directory) (id : String) : Prop extends d'.InMemory where
  tables : ∀ {α : Type} {f : Note → Option α}, Steady f →
    d'.store.table f = (d.store.table f).set id none

theorem Wrote.undone (h : d.Wrote d₁ id m) (gone : d₁.Erased d₂ id)
    (fresh : d.store.notes.get? id = none) {α : Type} {f : Note → Option α} (hf : Steady f) :
    d₂.store.table f = d.store.table f := by
  rw [gone.tables hf, h.tables hf, Table.set_set, Table.set_eq_self]
  rw [Store.table, fresh]
  rfl

theorem exists_delete (hm : d.store.backing = .memory) (writable : d.store.readOnly = false)
    (id : String) :
    ∃ found d', Directory.delete id d = .ok found d' := by
  have allowed : d.store.checkWritable = .ok () := by
    rw [Store.checkWritable, Store.checkReadable_of_memory hm, writable]
    rfl
  rw [Directory.delete, bind_apply, read_apply, allowed]
  exact ⟨_, _, rfl⟩

end Directory

namespace Provisioning

variable {kind : EntryClass} {uid id : String} {n : Note} {settings : Settings}
  {d d' d₂ : Directory} {fault : Fault}

/-- The name by which groups list an entry. -/
def listedName (kind : EntryClass) (n : Note) : Except Fault CanonicalName :=
  match kind with
  | .account => Account.storedName n
  | .group => Name.canonicalize n.displayName

def letGo (kind : EntryClass) (n : Note) (id : String) : Action Unit := do
  let name ← listedName kind n
  discard (Membership.removeEverywhere name)
  discard (Directory.delete id)

theorem delete_eq (undenied : settings.directory.deleteDenyGroup = none) (kind : EntryClass)
    (uid : String) :
    Entries.delete settings kind uid = (do
      Directory.acquire
      let n ← findExisting kind uid
      letGo kind n (← idOf n)) := by
  cases kind with
  | account =>
    rw [Entries.delete, Account.delete]
    dsimp only
    rw [undenied]
    simp only [letGo, listedName]
  | group => simp only [Entries.delete, Group.delete, letGo, listedName]

theorem delete_apply (undenied : settings.directory.deleteDenyGroup = none)
    (reached : Directory.acquire d = .ok () d') (found : find kind uid d'.store = .ok (some n))
    (hid : n.id = some id) : Entries.delete settings kind uid d = letGo kind n id d' := by
  rw [delete_eq undenied, bind_apply, reached]
  dsimp only
  rw [bind_apply, findExisting_of_find found]
  dsimp only
  rw [idOf, hid]
  rfl

theorem letGo_ok (hd : d.InMemory) (h : letGo kind n id d = .ok () d') :
    (∃ c, listedName kind n = .ok c) ∧ d.Erased d' id := by
  rw [letGo] at h
  obtain ⟨name, _, lifted, h⟩ := bind_ok_iff.mp h
  obtain ⟨read, rfl⟩ := lift_ok_iff.mp lifted
  obtain ⟨⟨⟩, d₁, leaves, h⟩ := bind_ok_iff.mp h
  obtain ⟨count, leaves⟩ := discard_ok_iff.mp leaves
  obtain ⟨found, deletes⟩ := discard_ok_iff.mp h
  have erased : ∀ {α : Type} {f : Note → Option α}, Steady f →
      d'.Tells f ((d.store.table f).set id none) := by
    intro α f hf
    have left := ((hf.frame (d.store.table f)).keeps_removeEverywhere name).ok ⟨hd, rfl⟩ leaves
    have erases : Leads (Directory.Tells f (d.store.table f)) (Directory.delete id)
        (fun _ d' => d'.Tells f ((d.store.table f).set id none)) fun _ => True :=
      leads_delete (fun _ told journal => told.afterDelete id journal) fun _ _ => trivial
    have ends := erases.ends d₁ left.1
    rwa [deletes] at ends
  exact ⟨⟨name, read⟩, (erased Note.steady_listed?).toInMemory, fun hf => (erased hf).table⟩

theorem refused_of_letGo (hd : d.InMemory) (writable : d.store.readOnly = false) {c : CanonicalName}
    (read : listedName kind n = .ok c) (h : letGo kind n id d = .error fault d') :
    ∃ identity cause, fault = .noteSave identity cause := by
  rw [letGo, read] at h
  rcases bind_error_iff.mp h with failed | ⟨name, _, lifted, h⟩
  · cases failed
  obtain ⟨same, rfl⟩ := lift_ok_iff.mp lifted
  cases same
  rcases bind_error_iff.mp h with failed | ⟨⟨⟩, d₁, leaves, h⟩
  · exact Membership.refused_of_removeEverywhere hd.memory (discard_error_iff.mp failed)
  · obtain ⟨count, leaves⟩ := discard_ok_iff.mp leaves
    obtain ⟨⟨memory, _, writable⟩, _⟩ := (Membership.writable_frame.keeps_removeEverywhere c).ok
      ⟨hd.memory, hd.lasting, writable⟩ leaves
    obtain ⟨found, d₂, deletes⟩ := Directory.exists_delete memory writable id
    rw [discard_error_iff, deletes] at h
    cases h

variable (hd : d.InMemory) (undenied : settings.directory.deleteDenyGroup = none)
  (found : find kind uid d.store = .ok (some n)) (hid : n.id = some id)

include hd undenied found hid

theorem erased_of_delete (h : Entries.delete settings kind uid d = .ok () d₂) : d.Erased d₂ id := by
  obtain ⟨d', reached⟩ : ∃ d', Directory.acquire d = .ok () d' := by
    rw [delete_eq undenied] at h
    obtain ⟨⟨⟩, d', reached, _⟩ := bind_ok_iff.mp h
    exact ⟨d', reached⟩
  have alike := alike_of_acquire reached hd.lasting
  have memory := hd.alike alike
  rw [← find_congr hd.memory memory.memory alike.notes] at found
  rw [delete_apply undenied reached found hid] at h
  have gone := (letGo_ok memory h).2
  refine ⟨gone.toInMemory, fun {α f} hf => ?_⟩
  rw [gone.tables hf, Store.table_congr alike.notes]

/-- What is found can be deleted if groups know it by a name that can be read. -/
theorem delete_iff (live : ∃ d', Directory.acquire d = .ok () d')
    (writable : d.store.readOnly = false)
    (unrefused : isRefused (Entries.delete settings kind uid d) = false) :
    (∃ d₂, Entries.delete settings kind uid d = .ok () d₂) ↔
      ∃ c, listedName kind n = .ok c := by
  obtain ⟨d', reached⟩ := live
  have alike := alike_of_acquire reached hd.lasting
  have memory := hd.alike alike
  rw [← find_congr hd.memory memory.memory alike.notes] at found
  rw [delete_apply undenied reached found hid] at unrefused ⊢
  constructor
  · rintro ⟨d₂, letGone⟩
    exact (letGo_ok memory letGone).1
  · rintro ⟨c, read⟩
    cases result : letGo kind n id d' with
    | ok u d₂ => exact ⟨d₂, rfl⟩
    | error fault d₂ =>
      obtain ⟨identity, cause, rfl⟩ :=
        refused_of_letGo memory (alike.readOnly.trans writable) read result
      rw [result] at unrefused
      cases unrefused

omit hd undenied found hid

theorem exists_created {attributes : Attributes} (hx : d.Indexed)
    (unused : d.store.Unused d.supply.takeId.1) (ha : attributes.Distinct)
    (formless : attributes.Lacks "Form")
    (h : Entries.create settings kind attributes d = .ok uid d') :
    ∃ n, d'.store.notes.get? d.supply.takeId.1 = some n ∧ d.Wrote d' d.supply.takeId.1 n ∧
      uid = uidOf kind d.supply.takeId.1 n ∧ find kind uid d'.store = .ok (some n) := by
  have returns : (Call.create kind attributes).Returns settings uid d d' := h
  have distinct : (Call.create kind attributes).attributes.Distinct := ha
  obtain ⟨id, m, written⟩ := Call.writes hx.toInMemory distinct returns
  obtain ⟨n, stands, wrote⟩ := written.stands
  obtain rfl : d.supply.takeId.1 = id := Option.some.inj wrote.target
  have uid_eq : uid = uidOf kind d.supply.takeId.1 n := wrote.uid
  have indexed : d'.Indexed := by
    have after : (Step.after ⟨d, settings, .create kind attributes⟩).Indexed := Step.indexed hx unused
    rwa [returns.after] at after
  refine ⟨n, stands, wrote.toWrote, uid_eq, ?_⟩
  rw [uid_eq, Reading.find_uidOf_iff indexed stands]
  cases kind with
  | account => exact wrote.classed formless
  | group => exact wrote.finds rfl (wrote.classed formless) (Or.inl rfl)

def Missing (kind : EntryClass) (uid : String) (s : Store) : Prop :=
  match kind with
  | .account => ∀ key ∈ s.notes.keys, sameAscii key (NoteId.extract uid) = false
  | .group => ∀ other, ¬ s.aliasTable.Lists other (Alias.display uid)

theorem find_of_missing (hd : d.InMemory) (h : Missing kind uid d.store) :
    find kind uid d.store = .ok none := by
  cases kind with
  | account =>
    have none : (d.store.notes.keys.find? fun key => sameAscii key (NoteId.extract uid)) = none :=
      List.find?_eq_none.mpr fun key hkey => Bool.eq_false_iff.mp (h key hkey)
    rw [find, Store.accountById_eq hd.memory, none]
    rfl
  | group => exact (Store.groupByAlias_eq_none_iff hd.sound hd.memory).mpr h

theorem Missing.of_tables {s s' : Store} (h : Missing kind uid s)
    (same : ∀ {α : Type} {f : Note → Option α}, Steady f → s'.table f = s.table f) :
    Missing kind uid s' := by
  cases kind with
  | account =>
    intro key held
    rw [Store.mem_keys_iff, same fun _ _ _ => rfl, ← Store.mem_keys_iff] at held
    exact h key held
  | group =>
    have tables : s'.aliasTable = s.aliasTable := same Note.steady_listed?
    rw [Missing, tables]
    exact h

theorem missing_of_create {attributes : Attributes} (hd : d.InMemory)
    (unused : d.store.Unused d.supply.takeId.1)
    (h : Entries.create settings kind attributes d = .ok uid d') : Missing kind uid d.store := by
  cases kind with
  | account =>
    obtain ⟨_, _, _, _, -, -, -, -, rfl, -⟩ := Account.wrote_create hd h
    rw [Missing, NoteId.extract_of_alphanumeric unused.alphanumeric]
    exact unused.fresh
  | group =>
    obtain ⟨request, aliases, _, _, asked, named, -, -, unlisted, rfl, -⟩ :=
      Group.wrote_create hd h
    obtain ⟨solid, pieces⟩ := Group.aliases_ok asked named
    obtain ⟨first, later, rfl⟩ := List.exists_cons_of_ne_nil solid
    have shown : Alias.display (Alias.join (first :: later)) = first := by
      rw [Alias.display, Group.split_join_of_mem_split fun a ha => (pieces a ha).imp fun _ h => h.2]
      rfl
    rw [Missing, shown]
    exact unlisted first List.mem_cons_self

theorem exists_storedName {attributes : Attributes} (hd : d.InMemory)
    (ha : attributes.Lacks "LastName") (h : Account.create settings attributes d = .ok uid d')
    (stands : d'.store.notes.get? uid = some n) : ∃ c, Account.storedName n = .ok c := by
  obtain ⟨name, request, m, m', -, made, plain, items, rfl, wrote⟩ := Account.wrote_create hd h
  obtain ⟨parsed, read⟩ := Account.parse_of_newNote (ha.sublist plain) made
  obtain ⟨n', stands', -, same⟩ := wrote.stands
  rw [stands, Option.some.injEq] at stands'
  subst stands'
  have full : n.item? "FullName" = some [.text name.text] := by
    rw [same "FullName" (by decide) (by decide), Note.item?, items, ← Note.item?]
    exact Account.fullName_newNote made
  refine ⟨⟨parsed.canonical⟩, ?_⟩
  rw [Account.storedName, Note.text?, full]
  exact Name.canonicalize_of_parse read

theorem listedName_group {id : String} (h : uid = uidOf .group id n) :
    listedName .group n = Name.canonicalize (Alias.display uid) := by
  rw [listedName, h, uidOf, Alias.display, Group.split_join_aliases, Note.displayName]

theorem display_of_create {name : String}
    (h : Group.create [(Schema.nameAttribute, [.text name])] d = .ok uid d') :
    Alias.display uid = Alias.display name := by
  obtain ⟨request, aliases, _, _, _, asked, named, -, -, -, -, rfl⟩ := Group.create_ok h
  have given : (Attributes.takeText [(Schema.nameAttribute, [.text name])] Schema.nameAttribute).1 =
      some name := rfl
  have listless : Attributes.Lacks [(Schema.nameAttribute, [.text name])] "ListName" := by
    intro a ha
    rw [List.mem_singleton.mp ha]
    exact (by decide : sameAscii Schema.nameAttribute "ListName" = false)
  rw [Group.aliases_of_name asked given listless, Option.some.injEq] at named
  rw [← named, Alias.display, Group.split_join_of_mem_split fun a ha => ⟨name, ha⟩, Alias.display]

end Provisioning

namespace Run

open Provisioning

variable {start d d₀ d₁ : Directory} {steps : List Step} {settings : Settings} {kind : EntryClass}
  {name uid : String}

/-- After a run of calls, what was created by a name alone can be deleted and is not found any more,
if no save is refused and there is no deny list for the deleted. A group has to go by a first alias
that can be read as a name. -/
theorem delete_created_iff (hs : start.Empty) (run : Run start steps d) (resumes : d.Resumes d₀)
    (undenied : settings.directory.deleteDenyGroup = none)
    (h : Entries.create settings kind [(Schema.nameAttribute, [.text name])] d₀ = .ok uid d₁)
    (live : ∃ d', Directory.acquire d₁ = .ok () d') (writable : d₁.store.readOnly = false)
    (unrefused : isRefused (Entries.delete settings kind uid d₁) = false) :
    (∃ d₂, Entries.delete settings kind uid d₁ = .ok () d₂ ∧
      ∀ selection d₃, Directory.acquire d₂ = .ok () d₃ →
        Reading.get kind uid selection d₂ = .ok none d₃) ↔
      (kind = .group → ∃ c, Name.canonicalize (Alias.display name) = .ok c) := by
  have before := resumes.indexed (run.indexed hs)
  have unused := resumes.unused
  have lacks : ∀ other, sameAscii Schema.nameAttribute other = false →
      Attributes.Lacks [(Schema.nameAttribute, [.text name])] other := by
    intro other different a ha
    rw [List.mem_singleton.mp ha]
    exact different
  obtain ⟨n, stands, wrote, uid_eq, found⟩ := exists_created before unused
    (List.pairwise_singleton _ _) (lacks "Form" (by decide)) h
  have deletes := delete_iff wrote.toInMemory undenied found wrote.named live writable unrefused
  have readable : (∃ c, listedName kind n = .ok c) ↔
      (kind = .group → ∃ c, Name.canonicalize (Alias.display name) = .ok c) := by
    cases kind with
    | account =>
      rw [uidOf] at uid_eq
      rw [← uid_eq] at stands
      exact iff_of_true (exists_storedName before.toInMemory (lacks "LastName" (by decide)) h stands)
        fun other => by cases other
    | group =>
      rw [listedName_group uid_eq, display_of_create h]
      exact ⟨fun read _ => read, fun read => read rfl⟩
  rw [← readable, ← deletes]
  constructor
  · rintro ⟨d₂, deleted, -⟩
    exact ⟨d₂, deleted⟩
  · rintro ⟨d₂, deleted⟩
    have gone := erased_of_delete wrote.toInMemory undenied found wrote.named deleted
    refine ⟨d₂, deleted, fun selection d₃ again => Reading.get_of_missing again ?_⟩
    have later := alike_of_acquire again gone.lasting
    -- Creating and deleting cancel out in every table, and before there was no such entry.
    refine find_of_missing (gone.toInMemory.alike later) ?_
    refine (missing_of_create before.toInMemory unused h).of_tables fun {α f} hf => ?_
    rw [Store.table_congr later.notes, wrote.undone gone unused.get?_eq_none hf]

/-! Groups that are created after an account: one by a name that cannot be read, the other with such a
name behind a first alias. -/

def createGroup (name : String) : Action String :=
  Entries.create {} .group [(Schema.nameAttribute, [.text name])]

def groupBefore : Directory := { createAnn.after with supply := { ids := ["G1"] } }

def groupAfter (name : String) : Directory := ended (createGroup name) groupBefore

theorem resumes_groupBefore : createAnn.after.Resumes groupBefore :=
  ⟨.with_supply createAnn.after _, by decide, by decide⟩

/-- What was created cannot always be deleted. -/
theorem not_always_deleted :
    ¬ ∀ start steps d d₀ d₁, start.Empty → Run start steps d → d.Resumes d₀ →
      ∀ settings kind name uid, settings.directory.deleteDenyGroup = none →
        Entries.create settings kind [(Schema.nameAttribute, [.text name])] d₀ = .ok uid d₁ →
          (∃ d', Directory.acquire d₁ = .ok () d') → d₁.store.readOnly = false →
            isRefused (Entries.delete settings kind uid d₁) = false →
              ∃ d₂, Entries.delete settings kind uid d₁ = .ok () d₂ ∧
                ∀ selection d₃, Directory.acquire d₂ = .ok () d₃ →
                  Reading.get kind uid selection d₂ = .ok none d₃ := by
  intro always
  have runs : value? (createGroup "R//D" groupBefore) = some "R//D" ∧
      isOk (Directory.acquire (groupAfter "R//D")) = true ∧
        (groupAfter "R//D").store.readOnly = false ∧
          isRefused (Entries.delete {} .group "R//D" (groupAfter "R//D")) = false ∧
            isOk (Entries.delete {} .group "R//D" (groupAfter "R//D")) = false := by
    decide
  obtain ⟨created, reached, writable, unrefused, fails⟩ := runs
  obtain ⟨d₂, deletes, -⟩ := always {} _ _ _ _ ⟨rfl, rfl, rfl⟩ run_createAnn resumes_groupBefore {}
    .group "R//D" "R//D" rfl (ok_of_value? created) (exists_of_isOk reached) writable unrefused
  have deletes : Entries.delete {} .group "R//D" (groupAfter "R//D") = .ok () d₂ := deletes
  rw [deletes] at fails
  cases fails

theorem delete_created_iff_sample :
    ∃ d₂, createGroup "Crew;R//D" groupBefore = .ok "Crew;R//D" (groupAfter "Crew;R//D") ∧
      Entries.delete {} .group "Crew;R//D" (groupAfter "Crew;R//D") = .ok () d₂ ∧
        ∀ selection d₃, Directory.acquire d₂ = .ok () d₃ →
          Reading.get .group "Crew;R//D" selection d₂ = .ok none d₃ := by
  have runs : value? (createGroup "Crew;R//D" groupBefore) = some "Crew;R//D" ∧
      isOk (Directory.acquire (groupAfter "Crew;R//D")) = true ∧
        (groupAfter "Crew;R//D").store.readOnly = false ∧
          isRefused (Entries.delete {} .group "Crew;R//D" (groupAfter "Crew;R//D")) = false := by
    decide +kernel
  obtain ⟨created, reached, writable, unrefused⟩ := runs
  have run := ok_of_value? created
  have readable : Name.canonicalize (Alias.display "Crew;R//D") = .ok ⟨"Crew"⟩ :=
    eq_ok_of_toOption (by decide)
  obtain ⟨d₂, deletes, gone⟩ := (delete_created_iff ⟨rfl, rfl, rfl⟩ run_createAnn resumes_groupBefore
    rfl run (exists_of_isOk reached) writable unrefused).mpr fun _ => ⟨_, readable⟩
  exact ⟨d₂, run, deletes, gone⟩

end Run

end AddressBook

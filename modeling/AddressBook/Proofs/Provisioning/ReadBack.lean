import AddressBook.Proofs.Name.Abbreviated
import AddressBook.Proofs.Provisioning.Indexed
import AddressBook.Proofs.Provisioning.Renaming
import AddressBook.Proofs.Provisioning.Written

/-! Reading what was written. A call that returns a uid wrote a note; under the uid this note is read
again if it still has the form of its class and, for a group, if its first alias leads to it and its
members can be resolved. Attributes outside the registry go into the note as they are, the form
among them. -/

namespace AddressBook

open AddressBook.Action Text

namespace Reading

open Provisioning

variable {kind : EntryClass} {uid id : String} {selection : Selection} {n : Note}
  {d d' : Directory}

/-- What is read under the uid is an entry with this uid, and it is made of the note. -/
def Shows (kind : EntryClass) (uid : String) (selection : Selection) (n : Note)
    (d d' : Directory) : Prop :=
  ∃ e, get kind uid selection d = .ok (some e) d' ∧ e.uid = uid ∧
    find kind uid d'.store = .ok (some n) ∧ entryOf d'.store kind selection n = .ok e

/-- The note under the id can be read under its own uid. -/
def Readable (kind : EntryClass) (selection : Selection) (s : Store) (id : String) (n : Note) :
    Prop :=
  match kind with
  | .account => n.isClass .account = true
  | .group => s.aliasTable.Finds n.displayName id ∧ Resolves s selection n

theorem find_uidOf_iff_of_store {s : Store} (hm : s.backing = .memory) (sound : s.Sound)
    (alphanumeric : ∀ key ∈ s.notes.keys, key.toList.all isAsciiAlphanumeric = true)
    (distinct : ∀ key ∈ s.notes.keys, ∀ other ∈ s.notes.keys, sameAscii key other = true → key = other)
    (stands : s.notes.get? id = some n) :
    find kind (uidOf kind id n) s = .ok (some n) ↔
      match kind with
      | .account => n.isClass .account = true
      | .group => s.aliasTable.Finds n.displayName id := by
  cases kind with
  | account =>
    have held : id ∈ s.notes.keys := List.mem_map.mpr ⟨(id, n), Keyed.mem_of_get? stands, rfl⟩
    rw [uidOf, find, NoteId.extract_of_alphanumeric (alphanumeric id held)]
    constructor
    · intro found
      obtain ⟨_, _, _, account⟩ := Store.accountById_ok hm found
      exact account
    · intro account
      exact Store.accountById_of_get? hm stands account (sameAscii_refl id)
        fun key hkey same => distinct key hkey id held same
  | group =>
    have shown : Alias.display (Alias.join n.aliases) = n.displayName := by
      rw [Alias.display, Group.split_join_aliases, Note.displayName]
    rw [uidOf, find, shown, Store.groupByAlias_eq_some_iff sound hm]
    constructor
    · rintro ⟨other, there, finds⟩
      have same := sound.id_of_get? stands
      rw [sound.id_of_get? there, Option.some.injEq] at same
      rwa [same] at finds
    · exact fun finds => ⟨id, stands, finds⟩

theorem find_uidOf_iff (hx : d.Indexed) (stands : d.store.notes.get? id = some n) :
    find kind (uidOf kind id n) d.store = .ok (some n) ↔
      match kind with
      | .account => n.isClass .account = true
      | .group => d.store.aliasTable.Finds n.displayName id :=
  find_uidOf_iff_of_store hx.memory hx.sound hx.alphanumeric hx.distinct stands

theorem shows_iff (hx : d'.Indexed) (reached : Directory.acquire d = .ok () d')
    (stands : d'.store.notes.get? id = some n) :
    Shows kind (uidOf kind id n) selection n d d' ↔ Readable kind selection d'.store id n := by
  have hid := hx.sound.id_of_get? stands
  have derives : (∃ e, entryOf d'.store kind selection n = .ok e) ↔
      (kind = .group → Resolves d'.store selection n) := exists_entryOf_iff hx.memory hid
  have both : Shows kind (uidOf kind id n) selection n d d' ↔
      find kind (uidOf kind id n) d'.store = .ok (some n) ∧
        ∃ e, entryOf d'.store kind selection n = .ok e := by
    constructor
    · rintro ⟨e, -, -, found, derived⟩
      exact ⟨found, e, derived⟩
    · rintro ⟨found, e, derived⟩
      exact ⟨e, get_of_acquire reached found derived, uid_of_entryOf derived hid, found, derived⟩
  rw [both, find_uidOf_iff hx stands, derives]
  cases kind with
  | account => exact and_iff_left fun other => by cases other
  | group => exact and_congr_right fun _ => ⟨fun h => h rfl, fun h _ => h⟩

theorem resolves_of_canonical {s : Store} (hm : s.backing = .memory) (h : n.HasCanonicalMembers) :
    Resolves s selection n := by
  intro _ m hmem
  have canonical := n.canonicalize_of_mem_members h hmem
  obtain ⟨name, hread, _⟩ := Name.canonicalize_ok_iff.mp canonical
  have shown := Name.abbreviate_of_parse (Name.parse_ok_iff.mpr hread)
  obtain ⟨group, groups⟩ : ∃ group, s.groupByAlias m = .ok group :=
    ⟨_, Store.groupByAlias_eq hm m⟩
  obtain ⟨account, accounts⟩ : ∃ account, s.accountByName ⟨m⟩ = .ok account := by
    rw [Store.accountByName, Store.ofClass_eq (Store.faithful_of_memory hm),
      Store.checkReadable_of_memory hm]
    exact ⟨_, rfl⟩
  rw [resolve, groups, canonical]
  simp only [bind, Except.bind, accounts, shown]
  cases group <;> cases account <;> exact ⟨_, rfl⟩

end Reading

theorem Call.Returns.after {call : Call} {settings : Settings} {uid : String} {d d' : Directory}
    (h : call.Returns settings uid d d') : Step.after ⟨d, settings, call⟩ = d' := by
  have run : call.run settings d = .ok () d' := by
    cases call with
    | create kind attributes => exact discard_ok_iff.mpr ⟨uid, h⟩
    | update kind given attributes how => exact discard_ok_iff.mpr ⟨uid, h⟩
    | delete kind given => exact h.elim
  rw [Step.after]
  dsimp only
  rw [run]

namespace Run

open Reading

/-- After a run of calls, a call that returns a uid leaves a note that is read under this uid, as far
as it can be read. The form is the one of the class unless the call gives another; a new group is
found under its aliases; and whatever is left alone by calls that shadow no group and give no nested
names can be read. -/
theorem shows_written_iff {start d d₀ d₁ d₂ d₃ : Directory} {steps : List Step} (hs : start.Empty)
    (run : Run start steps d) (resumes : d.Resumes d₀) {call : Call}
    (ha : call.attributes.Distinct) {settings : Settings} {uid : String}
    (h : call.Returns settings uid d₀ d₁) (continues : d₁.Continues d₂)
    (reached : Directory.acquire d₂ = .ok () d₃) (selection : Selection) :
    ∃ id n, call.target? d₀ = some id ∧ d₁.store.notes.get? id = some n ∧
      (Shows call.kind uid selection n d₂ d₃ ↔ Readable call.kind selection d₃.store id n) ∧
      (call.attributes.Lacks "Form" → n.isClass call.kind = true) ∧
      (call.isCreation = true → call.kind = .group → call.attributes.Lacks "Form" →
        d₃.store.aliasTable.Finds n.displayName id) ∧
      ((∀ step ∈ steps, step.call.Proper ∧ step.call.Plain ∧ ¬ step.Shadows) → call.Proper →
        call.Plain → Readable call.kind selection d₃.store id n) := by
  have before := resumes.indexed (run.indexed hs)
  have longer : Run start (steps ++ [⟨d₀, settings, call⟩]) (Step.after ⟨d₀, settings, call⟩) :=
    .step run resumes
  rw [h.after] at longer
  have indexed := continues.indexed (longer.indexed hs)
  have later : d₂.Continues d₃ := .of_alike (alike_of_acquire reached indexed.lasting)
  have same : d₃.store.notes = d₁.store.notes := later.notes.trans continues.notes
  obtain ⟨id, m, written⟩ := Call.writes before.toInMemory ha h
  obtain ⟨n, stands, wrote⟩ := written.stands
  have finds : call.kind = .group → call.attributes.Lacks "Form" →
      call.isCreation = true ∨ d₀.store.aliasTable.Clear →
        d₃.store.aliasTable.Finds n.displayName id := by
    intro group formless clear
    have still := wrote.classed formless
    rw [group] at still
    rw [Store.aliasTable_congr same]
    exact wrote.finds group still clear
  refine ⟨id, n, wrote.target, stands, ?_, wrote.classed, fun creation group formless =>
    finds group formless (Or.inl creation), fun steady proper plain => ?_⟩
  · rw [wrote.uid]
    rw [← same] at stands
    exact shows_iff (later.indexed indexed) reached stands
  · cases kind : call.kind with
    | account =>
      have account := wrote.classed proper.formless
      rwa [kind] at account
    | group =>
      have clear := run.clear hs (fun s hs => (steady s hs).1) fun s hs => (steady s hs).2.2
      rw [← Store.aliasTable_congr resumes.notes] at clear
      refine ⟨finds kind proper.formless (Or.inr clear), ?_⟩
      have consistent : d₁.Consistent := longer.consistent hs
        (List.forall_mem_append.mpr
          ⟨fun s hs => (steady s hs).1, List.forall_mem_singleton.mpr proper⟩)
        (List.forall_mem_append.mpr
          ⟨fun s hs => (steady s hs).2.1, List.forall_mem_singleton.mpr plain⟩)
      have group := wrote.classed proper.formless
      rw [kind] at group
      refine resolves_of_canonical (later.indexed indexed).memory ?_
      exact (consistent.notes (id, n) (Keyed.mem_of_get? stands)).members group

/-! A new account that is given a form of its own. -/

def createMemo : Call :=
  .create .account [("Form", [.text "Memo"]), ("__NAME__", [.text "Ann Lee/Acme"])]

def memoBefore : Directory := { supply := { ids := ["A1"] } }

def memoAfter : Directory :=
  ended (Account.create {} createMemo.attributes) memoBefore

/-- What was written is not always read again. -/
theorem not_always_shows_written :
    ¬ ∀ start steps d d₀ d₁ d₂ d₃, start.Empty → Run start steps d → d.Resumes d₀ →
      ∀ (call : Call) settings uid, call.attributes.Distinct → call.Returns settings uid d₀ d₁ →
        d₁.Continues d₂ → Directory.acquire d₂ = .ok () d₃ → ∀ selection,
          ∃ id n, call.target? d₀ = some id ∧ d₁.store.notes.get? id = some n ∧
            Shows call.kind uid selection n d₂ d₃ := by
  intro always
  have runs : isOk (Account.create {} createMemo.attributes memoBefore) = true ∧
      memoAfter.session.current = some 0 ∧ memoAfter.store.isOpen = true ∧
        memoAfter.store.backing = .memory ∧
          (memoAfter.store.notes.get? "A1").map (·.isClass .account) = some false := by
    decide
  obtain ⟨created, current, isOpen, memory, other⟩ := runs
  obtain ⟨uid, run⟩ := ok_ended created
  have returns : createMemo.Returns {} uid memoBefore memoAfter := run
  have distinct : createMemo.attributes.Distinct := by decide
  have resumes : Directory.Resumes {} memoBefore :=
    ⟨.with_supply {} _, by decide, fun _ h => absurd h List.not_mem_nil⟩
  have reached := acquire_of_current current isOpen
  obtain ⟨id, n, target, stands, _, _, _, found, _⟩ :=
    always {} [] {} memoBefore memoAfter memoAfter memoAfter ⟨rfl, rfl, rfl⟩ .start resumes createMemo
      {} uid distinct returns (.refl _) reached ⟨["__NAME__"]⟩
  cases target
  have stands : memoAfter.store.notes.get? "A1" = some n := stands
  have found : memoAfter.store.accountById (NoteId.extract uid) = .ok (some n) := found
  obtain ⟨_, _, _, account⟩ := Store.accountById_ok memory found
  rw [stands, Option.map_some, account] at other
  cases other

theorem shows_written_iff_sample :
    ∃ uid d₁ n, createTeam.call.Returns {} uid createTeam.before d₁ ∧
      d₁.store.notes.get? "G1" = some n ∧
        Shows .group uid ⟨["__NAME__", "MemberPeople"]⟩ n d₁ d₁ := by
  have created : isOk (Group.create createTeam.call.attributes createTeam.before) = true := by
    decide
  obtain ⟨uid, run⟩ := ok_ended created
  have returns : createTeam.call.Returns {} uid createTeam.before
      (ended (Group.create createTeam.call.attributes) createTeam.before) := run
  have session : (ended (Group.create createTeam.call.attributes) createTeam.before).session.current =
      some 0 ∧ (ended (Group.create createTeam.call.attributes) createTeam.before).store.isOpen =
        true := by
    decide
  have proper := proper_createTeam createTeam (by simp)
  have plain := plain_createTeam createTeam (by simp)
  have resumes : createAnn.after.Resumes createTeam.before :=
    ⟨.with_supply createAnn.after _, by decide, by decide⟩
  obtain ⟨id, n, target, stands, shows, _, _, readable⟩ :=
    shows_written_iff ⟨rfl, rfl, rfl⟩ run_createAnn resumes proper.distinct returns (.refl _)
      (acquire_of_current session.1 session.2) ⟨["__NAME__", "MemberPeople"]⟩
  cases target
  refine ⟨uid, _, n, returns, stands, shows.mpr (readable ?_ proper plain)⟩
  intro step hstep
  rw [List.mem_singleton.mp hstep]
  refine ⟨proper_createTeam createAnn (by simp), plain_createTeam createAnn (by simp), ?_⟩
  rintro ⟨_, _, _, _, _, _, update, _⟩
  cases update

end Run

end AddressBook

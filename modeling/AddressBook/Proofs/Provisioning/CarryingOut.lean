import AddressBook.Proofs.Membership.Heeding
import AddressBook.Proofs.Membership.Retry
import AddressBook.Proofs.Provisioning.FullName
import AddressBook.Proofs.Provisioning.Views

/-! Carrying out an update of an account, step by step: its note is saved, the groups that list it are
renamed if it is, and then they heed what the request says about groups and access. -/

namespace AddressBook

open AddressBook.Action Text AddressBook.Membership AddressBook.Provisioning

namespace Account

variable {K : String → Prop} {t : Table (String → Option (List Note.Value))} {settings : Settings}
  {uid key : String} {attributes : Attributes} {how : UpdateKind} {p : Plan}
  {stored old new : CanonicalName} {n : Note} {d d₀ d₁ d' : Directory}

def Request.groupVerdict (request : Request) (settings : Settings) (how : UpdateKind) :
    Note → Option Bool :=
  match request.groups with
  | some groups => verdict how settings.replacePolicy (displayNames groups)
  | none => fun _ => none

def Request.accessVerdict (request : Request) (settings : Settings) : Note → Option Bool :=
  match request.enable with
  | some enabled => enableVerdict settings.directory enabled request.denyGroups
  | none => fun _ => none

/-- The members of groups after everything that a request says about them was heeded. -/
def Request.membersAfter (request : Request) (settings : Settings) (how : UpdateKind)
    (account : CanonicalName) (s : Store) (members : Table (List String)) : Table (List String) :=
  afterVerdict account (request.accessVerdict settings) s
    (afterVerdict account (request.groupVerdict settings how) s members)

theorem heeds_pure (account : CanonicalName) :
    Heeds K t account (fun _ => none) (pure () : Action Unit) := by
  have still : ∀ d d', Reaches (pure () : Action Unit) d d' → d' = d := by
    rintro d d' (⟨_, run⟩ | ⟨_, run⟩)
    · exact (pure_ok_iff.mp run).2.symm
    · cases run
  refine .of_memberTable_eq (fun d d' hd run => ?_) fun d d' _ run => ?_
  · rwa [still d d' run]
  · rw [still d d' run]

theorem heeds_regroup (hc : p.name.Settled) :
    Heeds K t p.name (p.request.groupVerdict settings how) (p.regroup settings how) := by
  rw [Request.groupVerdict, Plan.regroup]
  cases p.request.groups with
  | none => exact heeds_pure p.name
  | some groups => exact heeds_updateGroups hc settings.replacePolicy groups how

theorem heeds_access (hc : p.name.Settled) (hn : n.FitsShapes K t) (hk : n.isClass .account = true) :
    Heeds K t p.name (p.request.accessVerdict settings) (p.access settings n) := by
  rw [Request.accessVerdict, Plan.access]
  cases p.request.enable with
  | none => exact heeds_pure p.name
  | some enabled => exact heeds_setEnabled hc hn hk settings.directory enabled p.request.denyGroups

/-- The account of a uid stands under the key and goes by the name. -/
structure StoredAs (uid key : String) (name : CanonicalName) (s : Store) : Prop where
  same : sameAscii key (NoteId.extract uid) = true
  note : ∃ n, s.notes.get? key = some n ∧ n.isClass .account = true ∧ storedName n = .ok name

/-- A call that asks for a name, and for nothing that accounts may not have. -/
structure Asks (settings : Settings) (attributes : Attributes) (new : CanonicalName) : Prop where
  formless : attributes.Lacks "Form"
  plain : ∀ name ∈ attributes.given Schema.nameAttribute, Name.isNested name = false
  name : ∃ raw, (attributes.takeText Schema.nameAttribute).1 = some raw ∧
    nameOf settings.directory raw = .ok new

theorem Asks.settled (h : Asks settings attributes new) : new.Settled := by
  obtain ⟨raw, given, named⟩ := h.name
  exact Regularity.settled_given settings h.plain given named

theorem newNameIn_eq {directory : DirectorySettings} {raw : String} {s : Store}
    {renamed : Option CanonicalName} (named : nameOf directory raw = .ok new)
    (h : newNameIn directory n stored (some raw) s = .ok renamed) :
    renamed = if new.same stored then none else some new := by
  obtain ⟨other, hother, h⟩ := bind_eq_ok h
  obtain rfl := Except.ok.inj (named.symm.trans hother)
  split at h
  · next same =>
    rw [if_pos same]
    cases h
    rfl
  · next differs =>
    rw [if_neg differs]
    obtain ⟨found, _, h⟩ := bind_eq_ok h
    cases found with
    | none =>
      cases h
      rfl
    | some other =>
      dsimp only at h
      split at h
      · cases h
        rfl
      · cases h

structure Plan.Fits (p : Plan) (K : String → Prop) (t : Table (String → Option (List Note.Value)))
    (key : String) (stored new : CanonicalName) (attributes : Attributes) : Prop where
  old : p.old = stored
  renamed : p.renamed = if new.same stored then none else some new
  request : Request.ofAttributes (attributes.takeText Schema.nameAttribute).2 = .ok p.request
  id : p.note.id = some key
  note : p.note.FitsShapes K t
  account : p.note.isClass .account = true
  saved : new.same stored = false → p.changed = true ∧ p.note.text? "FullName" = some new.text

theorem plan_fits (hK : ∀ a b, K a → K b → sameAscii a b = true → a = b) (hd : d.Shaped K t)
    (known : StoredAs uid key stored d.store) (asks : Asks settings attributes new)
    (h : plan settings uid attributes how d.store = .ok p) : p.Fits K t key stored new attributes := by
  obtain ⟨n, hget, hk, hname⟩ := known.note
  obtain ⟨m, found, _, stands, checked, asked, updated⟩ := plan_ok h
  have isKey : ∀ {key}, d.store.notes.get? key = some n → K key := fun hget =>
    hd.1.keys _ (List.mem_map.mpr ⟨_, Keyed.mem_of_get? hget, rfl⟩)
  -- No two keys are the same up to case, so that the uid leads to the account that is known.
  have here : d.store.accountById (NoteId.extract uid) = .ok (some n) :=
    Store.accountById_of_get? hd.1.memory hget hk known.same fun other hother same =>
      hK other key (hd.1.keys other hother) (isKey hget)
        (sameAscii_trans same (by rw [sameAscii_comm, known.same]))
  obtain rfl : n = m := by
    rw [find, here] at found
    exact Option.some.inj (Except.ok.inj found)
  have old : p.old = stored := Except.ok.inj (stands.symm.trans hname)
  obtain ⟨raw, given, named⟩ := asks.name
  rw [given] at checked
  have renamed := newNameIn_eq named checked
  rw [old] at renamed
  have settled : ∀ c ∈ p.renamed, c.Settled := by
    intro c hc
    rw [renamed] at hc
    split at hc
    · cases hc
    · cases hc
      exact asks.settled
  have formless := asks.formless.sublist ((plain_sublist asked).trans (Attributes.take_sublist _ _))
  obtain ⟨regular, told⟩ := (shapedFrame K t).stored hd (Keyed.mem_of_get? hget)
  obtain ⟨regular', account⟩ :=
    Note.Regular.regimen.filed_updatedAccount formless regular hk settled updated
  have same := (sameItem_updatedNote updated (by decide) formless).trans
    (sameItem_renamedNote (by decide) n p.renamed)
  have id : p.note.id = some key := same.1.trans (hd.1.sound.id_of_get? hget)
  refine ⟨old, renamed, asked, id, ⟨regular', told.congr same.1 ?_⟩, account, fun differs => ?_⟩
  · rw [Note.shape?_eq_none_iff.mpr (Note.not_isClass_of_isClass account),
      Note.shape?_eq_none_iff.mpr (Note.not_isClass_of_isClass hk)]
  · rw [differs, if_neg Bool.false_ne_true] at renamed
    rw [renamed] at updated
    refine ⟨changed_of_renamed updated, ?_⟩
    rw [Note.text?, fullName_updatedNote updated]
    rfl

theorem continues_acquire (hl : d.store.lasting = true) (h : Reaches Directory.acquire d d') :
    d.Continues d' := by
  have alike := Directory.Continues.of_alike (alike_acquired hl)
  rcases h with ⟨_, h⟩ | ⟨_, h⟩
  all_goals
    rw [acquire_apply] at h
    split at h <;> cases h
    exact alike

theorem update_reaches (hl : d.store.lasting = true)
    (h : Reaches (update settings uid attributes how) d d') :
    ∃ d₀, d.Continues d₀ ∧ (d'.store = d₀.store ∨
      ∃ p n d₁, plan settings uid attributes how d₀.store = .ok p ∧ p.save d₀ = .ok n d₁ ∧
        Reaches (p.settle settings how n) d₁ d') := by
  rw [update_eq] at h
  rcases reaches_bind h with ⟨fault, failed⟩ | ⟨⟨⟩, d₀, acquires, h⟩
  · exact ⟨d', continues_acquire hl (Or.inr ⟨fault, failed⟩), Or.inl rfl⟩
  refine ⟨d₀, continues_acquire hl (Or.inl ⟨(), acquires⟩), ?_⟩
  rcases reaches_bind h with ⟨fault, failed⟩ | ⟨p, d₁, read, h⟩
  · rw [(read_error_iff.mp failed).2]
    exact Or.inl rfl
  obtain ⟨planned, rfl⟩ := read_ok_iff.mp read
  rw [Plan.carryOut_eq] at h
  rcases reaches_bind h with ⟨fault, failed⟩ | ⟨n, d₁, saved, h⟩
  · refine Or.inl ?_
    rw [Plan.save] at failed
    split at failed
    · exact Directory.save_error failed
    · cases failed
  refine Or.inr ⟨p, n, d₁, planned, saved, ?_⟩
  rcases reaches_bind h with ⟨fault, failed⟩ | ⟨⟨⟩, d₂, settled, h⟩
  · exact Or.inr ⟨fault, failed⟩
  · rcases h with ⟨_, h⟩ | ⟨_, h⟩
    · rw [← (pure_ok_iff.mp h).2]
      exact Or.inl ⟨(), settled⟩
    · cases h

theorem update_ok (hl : d.store.lasting = true) {id : String}
    (h : update settings uid attributes how d = .ok id d') :
    ∃ d₀ p n d₁, d.Continues d₀ ∧ plan settings uid attributes how d₀.store = .ok p ∧
      p.save d₀ = .ok n d₁ ∧ p.settle settings how n d₁ = .ok () d' ∧ id = p.uid := by
  rw [update_eq] at h
  obtain ⟨⟨⟩, d₀, acquires, h⟩ := bind_ok_iff.mp h
  obtain ⟨p, d₁, read, h⟩ := bind_ok_iff.mp h
  obtain ⟨planned, rfl⟩ := read_ok_iff.mp read
  rw [Plan.carryOut_eq] at h
  obtain ⟨n, d₁, saved, h⟩ := bind_ok_iff.mp h
  obtain ⟨⟨⟩, d₂, settled, h⟩ := bind_ok_iff.mp h
  obtain ⟨rfl, rfl⟩ := pure_ok_iff.mp h
  exact ⟨d₀, p, n, d₁, continues_acquire hl (Or.inl ⟨(), acquires⟩), planned, saved, settled, rfl⟩

theorem Plan.Fits.save_ok (hp : p.Fits K t key stored new attributes) (hd : d.Shaped K t)
    (h : p.save d = .ok n d₁) :
    d₁.Shaped K t ∧ (n.FitsShapes K t ∧ n.isClass .account = true) ∧
      d₁.store.memberTable = d.store.memberTable := by
  rw [Plan.save] at h
  split at h
  · obtain ⟨shaped, fits, items⟩ := ((shapedFrame K t).saved p.note hp.note).ok hd h
    refine ⟨shaped, ⟨fits, ?_⟩, memberTable_save_account hd hp.note hp.account h⟩
    rw [Note.isClass_of_items items, hp.account]
  · obtain ⟨rfl, rfl⟩ := pure_ok_iff.mp h
    exact ⟨hd, ⟨hp.note, hp.account⟩, rfl⟩

theorem Plan.Fits.storedAs (hp : p.Fits K t key stored new attributes) (hd : d.Shaped K t)
    (same : sameAscii key (NoteId.extract uid) = true) (hc : new.Settled)
    (differs : new.same stored = false) (saved : p.save d = .ok n d₁)
    (run : Reaches (p.settle settings how n) d₁ d') : StoredAs uid key new d'.store := by
  obtain ⟨shaped, ⟨_, account⟩, _⟩ := hp.save_ok hd saved
  obtain ⟨changed, full⟩ := hp.saved differs
  rw [Plan.save, changed, if_pos rfl] at saved
  obtain ⟨time, rfl, notes, _, _⟩ := Directory.save_ok_of_id hp.id saved
  have stands : d₁.store.table Note.fullName? key = some new.text := by
    simp only [Store.table, notes, Keyed.get?_put_self, Option.bind_some, Note.fullName?, account,
      if_true]
    exact full
  have told : Note.Told Note.fullName? (d₁.store.table Note.fullName?)
      { p.note with modified := some time } := by
    refine ⟨key, hp.id, ?_⟩
    simp [Store.table, notes]
  have kept := (Account.keeps_settle (Note.steady_fullName?.frame _).toUpkeep p settings how told
    account trivial).reaches ⟨shaped.1.toInMemory, rfl⟩ run
  rw [← kept.table, Store.table] at stands
  obtain ⟨m, hget, named⟩ := Option.bind_eq_some_iff.mp stands
  rw [Note.fullName?] at named
  split at named
  · next isAccount =>
    refine ⟨same, m, hget, isAccount, ?_⟩
    rw [storedName, named]
    exact hc
  · cases named

section

variable (hname : p.name = new) (hc : new.Settled) (hn : n.FitsShapes K t ∧ n.isClass .account = true)
  (hd : d.Shaped K t)

include hname hc hn hd

theorem follow_shaped (run : Reaches (p.follow settings how n) d d') : d'.Shaped K t := by
  subst hname
  exact Heeds.shaped_bind (heeds_regroup hc) (heeds_access hc hn.1 hn.2) hd run

theorem follow_unlisted {other : CanonicalName} (apart : new.same other = false)
    (run : Reaches (p.follow settings how n) d d') :
    Unlisted other d'.store.memberTable ↔ Unlisted other d.store.memberTable := by
  subst hname
  exact Heeds.unlisted_bind (heeds_regroup hc) (heeds_access hc hn.1 hn.2) hd run apart

theorem follow_ok (ha : AliasesDistinct d.store) (run : p.follow settings how n d = .ok () d') :
    d'.store.memberTable = p.request.membersAfter settings how new d.store d.store.memberTable := by
  subst hname
  exact Heeds.memberTable_bind (heeds_regroup hc) (heeds_access hc hn.1 hn.2) hd ha run

theorem follow_again (ha : AliasesDistinct d.store) (run : Reaches (p.follow settings how n) d d') :
    p.request.membersAfter settings how new d.store d'.store.memberTable =
      p.request.membersAfter settings how new d.store d.store.memberTable := by
  subst hname
  exact Heeds.afterVerdict_bind (heeds_regroup hc) (heeds_access hc hn.1 hn.2) hd hc ha run

end

theorem membersAfter_eq_of_shaped (request : Request) (hd : d.Shaped K t) (hd' : d'.Shaped K t) :
    request.membersAfter settings how new d'.store = request.membersAfter settings how new d.store := by
  have groups : Steady (Note.judged? (request.groupVerdict settings how)) := by
    rw [Request.groupVerdict]
    split
    · exact Note.steady_judged?_verdict _ _ _
    · exact Note.steady_judged?_none
  have access : Steady (Note.judged? (request.accessVerdict settings)) := by
    rw [Request.accessVerdict]
    split
    · rw [enableVerdict]
      split
      · exact Note.steady_judged?_verdict _ _ _
      · exact Note.steady_judged?_none
    · exact Note.steady_judged?_none
  funext members
  rw [Request.membersAfter, afterVerdict_eq_of_shaped access hd hd',
    afterVerdict_eq_of_shaped groups hd hd']
  rfl

theorem Plan.Fits.name_eq (hp : p.Fits K t key stored new attributes)
    (h : new.same stored = false ∨ stored = new) : p.name = new := by
  rw [Plan.name, hp.renamed, hp.old]
  rcases h with differs | rfl
  · rw [differs]
    rfl
  · split <;> rfl

theorem shaped_rename (hc : new.Settled) (hd : d.Shaped K t) {count : Nat}
    (h : rename stored new d = .ok count d') :
    d'.Shaped K t ∧ d'.store.memberTable = renamedTable stored new d.store.memberTable := by
  have held := Store.groupsOf_eq_filter hd.1.memory hd.1.notes stored
  exact ⟨((shapedFrame K t).keeps_rename stored hc).reaches hd (Or.inl ⟨count, h⟩),
    rename_ok hd.1.sound held h⟩

/-- A renaming that was cut short left a group with the old name, or was through. -/
theorem settle_reaches (hp : p.Fits K t key stored new attributes) (hc : new.Settled)
    (differs : new.same stored = false) (hd : d.Shaped K t)
    (run : Reaches (p.settle settings how n) d d') :
    d'.Shaped K t ∧ ¬ Unlisted stored d'.store.memberTable ∨
      ∃ d₁, d₁.Shaped K t ∧ d₁.store.memberTable = renamedTable stored new d.store.memberTable ∧
        Reaches (p.follow settings how n) d₁ d' := by
  have renamed : p.renamed.isSome = true := by
    rw [hp.renamed, differs]
    rfl
  rw [Plan.settle_eq, renamed, if_pos rfl, hp.old, hp.name_eq (Or.inl differs)] at run
  rcases reaches_bind run with ⟨fault, failed⟩ | ⟨⟨⟩, d₁, renames, run⟩
  · have failed := discard_error_iff.mp failed
    have held := Store.groupsOf_eq_filter hd.1.memory hd.1.notes stored
    exact Or.inl ⟨((shapedFrame K t).keeps_rename stored hc).reaches hd (Or.inr ⟨fault, failed⟩),
      rename_error hd.1.sound held failed⟩
  · obtain ⟨count, renames⟩ := discard_ok_iff.mp renames
    obtain ⟨shaped, members⟩ := shaped_rename hc hd renames
    exact Or.inr ⟨d₁, shaped, members, run⟩

theorem shaped_of_continues (h : d.Continues d') (hd : d.Shaped K t) : d'.Shaped K t := by
  have inMemory := h.inMemory hd.1.toInMemory
  refine ⟨⟨inMemory, ?_, ?_⟩, inMemory, (Store.table_congr h.notes).trans hd.2.table⟩ <;> rw [h.notes]
  · exact hd.1.keys
  · exact hd.1.notes

theorem memberTable_of_notes {s s' : Store} (h : s'.notes = s.notes) :
    s'.memberTable = s.memberTable := Store.table_congr h

theorem StoredAs.of_notes {s s' : Store} (h : StoredAs uid key stored s) (same : s'.notes = s.notes) :
    StoredAs uid key stored s' := by
  refine ⟨h.same, ?_⟩
  rw [same]
  exact h.note

end Account

end AddressBook

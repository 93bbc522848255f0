import AddressBook.Proofs.Membership.Table
import AddressBook.Proofs.Provisioning.Account
import AddressBook.Proofs.Provisioning.Group
import AddressBook.Proofs.Provisioning.Run

/-! The names of accounts stay different along a run of calls. A name is looked up before an account
takes it, nothing else writes names, and all notes that are saved behind that keep the names they
have, whatever fails on the way. -/

namespace AddressBook

open AddressBook.Action Text Directory

namespace Note

def fullName? (n : Note) : Option String := if n.isClass .account then n.text? "FullName" else none

theorem steady_fullName? : Steady fullName? := by
  intro n m same
  rw [fullName?, fullName?, isClass_of_item? (same "Form" (by decide) (by decide)),
    text?_congr (same "FullName" (by decide) (by decide))]

theorem fullName?_of_group {n : Note} (h : n.isClass .group = true) : n.fullName? = none := by
  rw [fullName?]
  split
  · next account =>
    rw [not_isClass_of_isClass account] at h
    cases h
  · rfl

end Note

namespace NameTable

variable {t : Table String} {id : String}

/-- No account but the one under the id has the name, up to case and outer blanks. -/
def Free (t : Table String) (id name : String) : Prop :=
  ∀ other a, t other = some a → sameName a name = true → other = id

def Distinct (t : Table String) : Prop := ∀ id name, t id = some name → Free t id name

theorem Distinct.set (h : Distinct t) {told : Option String} (free : ∀ name ∈ told, Free t id name) :
    Distinct (t.set id told) := by
  intro other a stands another b elsewhere same
  rw [Table.set] at stands elsewhere
  split at stands
  · next here =>
    split at elsewhere
    · next there => rw [here, there]
    · rw [here]
      exact free a stands another b elsewhere same
  · split at elsewhere
    · next there =>
      rw [sameName_comm] at same
      rw [there]
      exact (free b elsewhere other a stands same).symm
    · exact h other a stands another b elsewhere same

theorem free_of_accountByName {s : Store} (hs : s.Sound) (hm : s.backing = .memory)
    (hd : Distinct (s.table Note.fullName?)) {name : CanonicalName} {found : Option Note}
    (h : s.accountByName name = .ok found) (same : ∀ other ∈ found, other.id = some id) :
    Free (s.table Note.fullName?) id name.text := by
  intro other a stands hname
  obtain ⟨n, hn, told⟩ := Option.bind_eq_some_iff.mp stands
  have first := Store.accountByName_ok (Store.faithful_of_memory hm) h
  rw [Note.fullName?] at told
  split at told
  · next account =>
    have here : n ∈ s.notesOf .account := Store.mem_notesOf.mpr ⟨⟨other, Keyed.mem_of_get? hn⟩, account⟩
    have named : n.isNamed name = true := by
      rw [Note.isNamed, account, told]
      exact hname
    cases found with
    | none => exact absurd named (List.find?_eq_none.mp first.symm n here)
    | some m =>
      have taken := List.find?_some first.symm
      have there := List.mem_of_find?_eq_some first.symm
      obtain ⟨key, hkey, hget⟩ := hs.get?_of_mem_notesOf there
      have isKey := same m rfl
      rw [hkey, Option.some.injEq] at isKey
      subst isKey
      rw [Note.isNamed, Bool.and_eq_true] at taken
      cases full : m.text? "FullName" with
      | none =>
        rw [full] at taken
        cases taken.2
      | some b =>
        rw [full] at taken
        have holds : s.table Note.fullName? key = some b := by
          rw [Store.table, hget, Option.bind_some, Note.fullName?, taken.1, if_pos rfl, full]
        refine hd key b holds other a stands (sameName_trans hname ?_)
        rw [sameName_comm]
        exact taken.2
  · cases told

end NameTable

namespace Directory

/-- A sound store in memory where no two accounts have the same name. -/
def NamesDistinct (d : Directory) : Prop :=
  d.InMemory ∧ NameTable.Distinct (d.store.table Note.fullName?)

theorem NamesDistinct.of_tells {t : Table String} (ht : NameTable.Distinct t) {d : Directory}
    (h : d.Tells Note.fullName? t) : d.NamesDistinct := by
  refine ⟨h.toInMemory, ?_⟩
  rw [h.table]
  exact ht

end Directory

namespace NameTable

variable {t : Table String} {attributes : Attributes}

def Settled (n : Note) (d : Directory) : Prop :=
  ∃ t, Distinct t ∧ d.Tells Note.fullName? t ∧ n.Told Note.fullName? t ∧ n.isClass .account = true

theorem leads_of_settled {α : Type} {n : Note} {x : Action α}
    (h : ∀ t, n.Told Note.fullName? t → n.isClass .account = true →
      Keeps (Tells Note.fullName? t) x fun _ => True) :
    Leads (Settled n) x (fun _ d => d.NamesDistinct) NamesDistinct := by
  refine ⟨?_⟩
  rintro d ⟨t, distinct, hd, told, account⟩
  refine Leads.ends (P := Tells Note.fullName? t) ?_ d hd
  exact Leads.weaken (h t told account) (fun _ hd => hd) (fun _ _ hd => .of_tells distinct hd.1)
    fun _ hd => .of_tells distinct hd

theorem leads_save_account (ht : Distinct t) {n : Note} (hk : n.isClass .account = true)
    {F : Directory → Prop}
    (free : ∀ d, Tells Note.fullName? t d → F d →
      ∀ name ∈ n.fullName?, Free t (d.idFor n).1 name) :
    Leads (fun d => Tells Note.fullName? t d ∧ F d) (Directory.save n) (fun n' d => Settled n' d)
      NamesDistinct := by
  refine leads_save (fun d ⟨hd, hF⟩ => ?_) fun d ⟨hd, _⟩ => .of_tells ht (hd.afterRefusal n)
  have stamped : (d.stamped n).fullName? = n.fullName? := Note.steady_fullName?.of_items rfl
  refine ⟨_, ht.set (free d hd hF), hd.afterSave Note.steady_fullName? n, ⟨_, rfl, ?_⟩, ?_⟩
  · rw [stamped]
    exact if_pos rfl
  · rw [← hk]
    exact Note.isClass_of_items rfl .account

theorem leads_createAccount (settings : Settings) (ht : Distinct t) (ha : attributes.Lacks "Form") :
    Leads (fun d => Tells Note.fullName? t d ∧ t d.supply.takeId.1 = none)
      (Account.create settings attributes) (fun _ d => d.NamesDistinct) NamesDistinct := by
  have quiet : ∀ d, Tells Note.fullName? t d ∧ t d.supply.takeId.1 = none → d.NamesDistinct :=
    fun d hd => .of_tells ht hd.1
  rw [Account.create_eq]
  refine Leads.bind_of_keeps (A := fun _ => True) (keeps_lift fun _ _ => trivial) quiet
    fun name _ => ?_
  refine Leads.bind_of_keeps (Action.keeps_acquire (fun d hd => hd.1.lasting)
    fun d d' same hd => ⟨hd.1.alike same, by rw [same.supply]; exact hd.2⟩) quiet fun _ _ => ?_
  refine Leads.bind_of_keeps (A := fun c => c.note.id = none ∧ c.note.isClass .account = true ∧
      ∀ name ∈ c.note.fullName?, ∀ id, Free t id name)
    (keeps_read fun d c hd h => ?_) quiet fun c ⟨unsaved, account, free⟩ => ?_
  · obtain ⟨same, unused, asked, written⟩ := Account.creation_ok h
    have plain := (Account.plain_sublist asked).trans (Attributes.take_sublist _ _)
    obtain ⟨unsaved, form⟩ := Account.form_newNote (ha.sublist plain) written
    refine ⟨unsaved, Note.isClass_of_form form, fun full hfull id => ?_⟩
    have text : c.note.text? "FullName" = some name.text := by
      rw [Note.text?, Account.fullName_newNote written]
      rfl
    rw [Note.fullName?, Note.isClass_of_form form, if_pos rfl, text, Option.mem_some_iff] at hfull
    rw [← hfull, ← hd.1.table]
    refine free_of_accountByName hd.1.sound hd.1.memory ?_ unused fun _ h => absurd h (by simp)
    rw [hd.1.table]
    exact ht
  · rw [Account.Creation.carryOut]
    refine (leads_save_account ht account fun d _ _ name hname => free name hname _).bind
      fun saved => leads_of_settled fun t' told still => ?_
    refine (Provisioning.keeps_idOf saved).bind fun uid _ => ?_
    exact (Account.keeps_settle_creation (Note.steady_fullName?.frame t').toUpkeep c settings told
      still trivial).bind fun _ _ => keeps_pure trivial

theorem plan_free {settings : Settings} {uid : String} {how : UpdateKind} {s : Store}
    {p : Account.Plan} (hs : s.Sound) (hm : s.backing = .memory)
    (hd : Distinct (s.table Note.fullName?)) (ha : attributes.Lacks "Form")
    (h : Account.plan settings uid attributes how s = .ok p) :
    p.note.id = some p.uid ∧ p.note.isClass .account = true ∧
      (p.changed = false → s.table Note.fullName? p.uid = p.note.fullName?) ∧
        ∀ name ∈ p.note.fullName?, Free (s.table Note.fullName?) p.uid name := by
  obtain ⟨n, found, hid, _, checked, asked, updated⟩ := Account.plan_ok h
  have here := Account.mem_notesOf_of_accountById hm found
  obtain ⟨key, hkey, hget⟩ := hs.get?_of_mem_notesOf here
  rw [hid, Option.some.injEq] at hkey
  subst hkey
  have stands : s.table Note.fullName? p.uid = n.fullName? := by
    rw [Store.table, hget, Option.bind_some]
  have plain := (Account.plain_sublist asked).trans (Attributes.take_sublist _ _)
  have form : Note.SameItem "Form" p.note n :=
    (Account.sameItem_updatedNote updated (by decide) (ha.sublist plain)).trans
      (Account.sameItem_renamedNote (by decide) n p.renamed)
  have account : p.note.isClass .account = true := by
    rw [Note.isClass_of_item? form.2, (Store.mem_notesOf.mp here).2]
  have named := Account.fullName_updatedNote updated
  refine ⟨form.1.trans hid, account, ?_⟩
  -- A name that is kept was free already, and a new one was looked up by the plan.
  cases renamed : p.renamed with
  | none =>
    rw [renamed] at named
    have kept : p.note.fullName? = n.fullName? := by
      rw [Note.fullName?, Note.fullName?, Note.text?_congr named, Note.isClass_of_item? form.2]
    rw [kept, ← stands]
    exact ⟨fun _ => rfl, fun name hname => hd p.uid name hname⟩
  | some new =>
    obtain ⟨_, _, _, _, found, read, same⟩ := Account.newNameIn_ok checked new renamed
    refine ⟨fun unchanged => ?_, fun name hname => ?_⟩
    · rw [renamed] at updated
      rw [Account.changed_of_renamed updated] at unchanged
      cases unchanged
    · have text : p.note.text? "FullName" = some new.text := by
        rw [renamed] at named
        rw [Note.text?, named]
        rfl
      rw [Note.fullName?, account, if_pos rfl, text, Option.mem_some_iff] at hname
      rw [← hname]
      exact free_of_accountByName hs hm hd read fun other hother => by rw [same other hother, hid]

theorem leads_updateAccount (settings : Settings) (uid : String) (how : UpdateKind)
    (ht : Distinct t) (ha : attributes.Lacks "Form") :
    Leads (Tells Note.fullName? t) (Account.update settings uid attributes how)
      (fun _ d => d.NamesDistinct) NamesDistinct := by
  have quiet : ∀ d, Tells Note.fullName? t d → d.NamesDistinct := fun d hd => .of_tells ht hd
  have frame := Note.steady_fullName?.frame t
  rw [Account.update_eq]
  refine Leads.bind_of_keeps frame.keeps_acquire quiet fun _ _ => ?_
  refine Leads.bind_of_keeps (A := fun p => p.note.id = some p.uid ∧
      p.note.isClass .account = true ∧ (p.changed = false → t p.uid = p.note.fullName?) ∧
        ∀ name ∈ p.note.fullName?, Free t p.uid name)
    (keeps_read fun d p hd h => ?_) quiet fun p ⟨hid, account, unchanged, free⟩ => ?_
  · have distinct : Distinct (d.store.table Note.fullName?) := by
      rw [hd.table]
      exact ht
    have planned := plan_free hd.sound hd.memory distinct ha h
    rwa [hd.table] at planned
  · have settled : ∀ n, Leads (Settled n) (do
        p.settle settings how n
        return p.uid : Action String) (fun _ d => d.NamesDistinct) NamesDistinct :=
      fun n => leads_of_settled fun t' told still =>
        (Account.keeps_settle (Note.steady_fullName?.frame t').toUpkeep p settings how told still
          trivial).bind fun _ _ => keeps_pure trivial
    rw [Account.Plan.carryOut]
    split
    · refine Leads.bind (Leads.weaken (leads_save_account ht account (F := fun _ => True)
        fun d _ _ name hname => ?_) (fun _ hd => ⟨hd, trivial⟩) (fun _ _ hd => hd) fun _ hd => hd)
          settled
      rw [idFor_of_id hid]
      exact free name hname
    · next same =>
      refine Leads.bind (leads_pure fun d hd => ?_) settled
      exact ⟨t, ht, hd, ⟨p.uid, hid, unchanged (Bool.eq_false_iff.mpr same)⟩, account⟩

theorem leads_deleteAccount (settings : Settings) (uid : String) (ht : Distinct t) :
    Leads (Tells Note.fullName? t) (Account.delete settings uid) (fun _ d => d.NamesDistinct)
      NamesDistinct := by
  refine Account.leads_delete (Note.steady_fullName?.frame t) settings uid
    (fun _ hd => .of_tells ht hd) (fun _ _ _ _ _ => trivial) fun n id _ _ _ => ?_
  refine leads_delete (fun d hd journal => ?_) fun _ hd => .of_tells ht hd
  exact .of_tells (ht.set fun _ h => absurd h (by simp)) (hd.afterDelete id journal)

theorem leads_createGroup (ha : attributes.Lacks "Form") :
    Leads (fun d => Tells Note.fullName? t d ∧ t d.supply.takeId.1 = none) (Group.create attributes)
      (fun _ d => Tells Note.fullName? t d) (Tells Note.fullName? t) := by
  refine Group.leads_create (U := fun _ => True) (fun _ hd => hd.1)
    (Action.keeps_acquire (fun d hd => hd.1.lasting)
      fun d d' same hd => ⟨hd.1.alike same, by rw [same.supply]; exact hd.2⟩)
    (fun aliases => Group.keeps_checkUnused aliases) fun request aliases n hrequest _ _ hnew => ?_
  obtain ⟨unsaved, form⟩ := Group.form_newNote hnew (ha.sublist (Group.plain_sublist hrequest))
  refine leads_save (fun d ⟨hd, free⟩ => ?_) fun d ⟨hd, _⟩ => hd.afterRefusal n
  have none : t (d.idFor n).1 = n.fullName? := by
    rw [Note.fullName?_of_group (Note.isClass_of_form form), idFor, unsaved, free]
  have saved := hd.afterSave Note.steady_fullName? n
  rwa [Table.set_eq_self none] at saved

theorem leads_updateGroup (uid : String) (how : UpdateKind) (ha : attributes.Lacks "Form") :
    Leads (Tells Note.fullName? t) (Group.update uid attributes how)
      (fun _ d => Tells Note.fullName? t d) (Tells Note.fullName? t) := by
  have frame := Note.steady_fullName?.frame t
  refine Group.leads_update frame (C := fun _ _ => True) (G := fun _ => True) uid how
    (fun _ hd => hd) (fun _ hd => hd) (fun n aliases _ _ => Group.keeps_checkRename n aliases)
    (fun n request members changed n' hn group hrequest _ _ h => ?_)
    fun n old new _ _ => ?_
  · have same : Note.SameItem "Form" n' n :=
      (Group.sameItem_updatedNote h (by decide) (ha.sublist (Group.plain_sublist hrequest))).trans
        (Group.sameItem_renamedNote (by decide) n request.aliases)
    have still : n'.isClass .group = true := by
      rw [Note.isClass_of_item? same.2, group]
    have told : n'.Told Note.fullName? t := by
      refine hn.congr same.1 ?_
      rw [Note.fullName?_of_group still, Note.fullName?_of_group group]
    cases changed with
    | true =>
      exact Leads.weaken (frame.saved n' told) (fun _ hd => hd) (fun _ _ hd => ⟨hd.1, trivial⟩)
        fun _ hd => hd
    | false => exact leads_pure fun _ hd => ⟨hd, trivial⟩
  · exact Leads.weaken (frame.keeps_rename old trivial) (fun _ hd => hd) (fun _ _ hd => hd.1)
      fun _ hd => hd

theorem leads_deleteGroup (uid : String) :
    Leads (Tells Note.fullName? t) (Group.delete uid) (fun _ d => Tells Note.fullName? t d)
      (Tells Note.fullName? t) := by
  refine Group.leads_delete (Note.steady_fullName?.frame t) uid (fun _ hd => hd)
    fun n id hn group hid => ?_
  have none : t id = none := by
    obtain ⟨key, hkey, stands⟩ := hn
    rw [hid, Option.some.injEq] at hkey
    rw [hkey, stands, Note.fullName?_of_group group]
  refine leads_delete (fun d hd journal => ?_) fun _ hd => hd
  have gone := hd.afterDelete id journal
  rwa [Table.set_eq_self none] at gone

/-- Every call keeps names different, whether it succeeds or not. -/
theorem leads_run (settings : Settings) (ht : Distinct t) {call : Call}
    (ha : call.attributes.Lacks "Form") :
    Leads (fun d => Tells Note.fullName? t d ∧ t d.supply.takeId.1 = none) (call.run settings)
      (fun _ d => d.NamesDistinct) NamesDistinct := by
  have kept : ∀ {α} {P : Directory → Prop} {x : Action α},
      Leads P x (fun _ d => Tells Note.fullName? t d) (Tells Note.fullName? t) →
        Leads P x (fun _ d => d.NamesDistinct) NamesDistinct :=
    fun h => Leads.weaken h (fun _ hd => hd) (fun _ _ hd => .of_tells ht hd)
      fun _ hd => .of_tells ht hd
  have later : ∀ {x : Action Unit}, Leads (Tells Note.fullName? t) x (fun _ d => d.NamesDistinct)
      NamesDistinct → Leads (fun d => Tells Note.fullName? t d ∧ t d.supply.takeId.1 = none) x
        (fun _ d => d.NamesDistinct) NamesDistinct :=
    fun h => Leads.weaken h (fun _ hd => hd.1) (fun _ _ hd => hd) fun _ hd => hd
  cases call with
  | create kind attributes =>
    cases kind with
    | account => exact leads_discard (leads_createAccount settings ht ha)
    | group => exact leads_discard (kept (leads_createGroup ha))
  | update kind uid attributes how =>
    cases kind with
    | account => exact later (leads_discard (leads_updateAccount settings uid how ht ha))
    | group => exact later (leads_discard (kept (leads_updateGroup uid how ha)))
  | delete kind uid =>
    cases kind with
    | account => exact later (leads_deleteAccount settings uid ht)
    | group => exact later (kept (leads_deleteGroup uid))

end NameTable

theorem Step.namesDistinct {step : Step} (h : step.before.NamesDistinct)
    (hu : step.before.store.Unused step.before.supply.takeId.1)
    (ha : step.call.attributes.Lacks "Form") : step.after.NamesDistinct := by
  refine after_of_leads (NameTable.leads_run step.settings h.2 ha) ⟨⟨h.1, rfl⟩, ?_⟩
  rw [Store.table, hu.get?_eq_none]
  rfl

theorem Directory.Continues.namesDistinct {d d' : Directory} (h : d.Continues d')
    (hd : d.NamesDistinct) : d'.NamesDistinct := by
  refine ⟨h.inMemory hd.1, ?_⟩
  rw [Store.table_congr h.notes]
  exact hd.2

namespace Run

variable {start d : Directory} {steps : List Step}

theorem namesDistinct (hs : start.Empty) (run : Run start steps d)
    (ha : ∀ step ∈ steps, step.call.attributes.Lacks "Form") : d.NamesDistinct := by
  have first : start.NamesDistinct := by
    refine ⟨hs.inMemory, fun id name stands => ?_⟩
    rw [Store.table, hs.notes] at stands
    cases stands
  exact run.always first ha fun _ _ formless resumes before =>
    Step.namesDistinct (resumes.namesDistinct before) resumes.unused formless

/-- In every state of a run from an empty directory, accounts whose names are the same up to case and
outer blanks are one account. -/
theorem eq_of_sameName_fullName (hs : start.Empty) (run : Run start steps d)
    (ha : ∀ step ∈ steps, step.call.attributes.Lacks "Form") {n m : Note}
    (hn : n ∈ d.store.notesOf .account) (hm : m ∈ d.store.notesOf .account) {a b : String}
    (hna : n.text? "FullName" = some a) (hmb : m.text? "FullName" = some b)
    (same : sameName a b = true) : n = m := by
  obtain ⟨inMemory, distinct⟩ := run.namesDistinct hs ha
  have told : ∀ {n a}, n ∈ d.store.notesOf .account → n.text? "FullName" = some a →
      ∃ id, n.id = some id ∧ d.store.table Note.fullName? id = some a := by
    intro n a hn hna
    obtain ⟨id, hid, hget⟩ := inMemory.sound.get?_of_mem_notesOf hn
    refine ⟨id, hid, ?_⟩
    rw [Store.table, hget, Option.bind_some, Note.fullName?, (Store.mem_notesOf.mp hn).2, if_pos rfl,
      hna]
  obtain ⟨id, hid, hna⟩ := told hn hna
  obtain ⟨other, hother, hmb⟩ := told hm hmb
  refine inMemory.sound.eq_of_id hn hm ?_
  rw [hid, hother, distinct other b hmb id a hna same]

/-! Two accounts, one of which then asks for the name of the other in capitals. -/

def createAnn : Step :=
  ⟨{ supply := { ids := ["A1"] } }, {}, .create .account [("__NAME__", [.text "Ann Lee/Acme"])]⟩

def createBob : Step :=
  ⟨{ createAnn.after with supply := { ids := ["B2"] } }, {},
    .create .account [("__NAME__", [.text "Bob Ray/Acme"])]⟩

def renameBob : Step :=
  ⟨{ createBob.after with supply := { ids := ["C3"] } }, {},
    .update .account "B2" [("__NAME__", [.text "ANN LEE/ACME"])] .replace⟩

theorem keys_createAnn : createAnn.after.store.notes.keys = ["A1"] := by decide

theorem run_createAnn : Run {} [createAnn] createAnn.after :=
  Run.start.next _ _ (by decide) (by decide)

theorem eq_of_sameName_fullName_sample :
    Directory.Empty {} ∧ Run {} [createAnn, createBob, renameBob] renameBob.after ∧
      (∀ step ∈ [createAnn, createBob, renameBob], step.call.attributes.Lacks "Form") ∧
        ∃ n ∈ renameBob.after.store.notesOf .account, n.text? "FullName" = some "CN=Ann Lee/O=Acme" ∧
          ∀ m ∈ renameBob.after.store.notesOf .account, ∀ b, m.text? "FullName" = some b →
            sameName "CN=Ann Lee/O=Acme" b = true → n = m := by
  have second : Run {} [createAnn, createBob] createBob.after := by
    refine run_createAnn.next _ _ (by decide) ?_
    rw [keys_createAnn]
    decide
  have run : Run {} [createAnn, createBob, renameBob] renameBob.after :=
    second.next _ _ (by decide) (by decide +kernel)
  have formless : ∀ step ∈ [createAnn, createBob, renameBob],
      step.call.attributes.Lacks "Form" := by
    simp only [List.forall_mem_cons]
    refine ⟨?_, ?_, ?_, by simp⟩ <;>
      exact fun a ha => by
        rw [List.mem_singleton.mp ha]
        decide
  have named : ∃ n ∈ renameBob.after.store.notesOf .account,
      n.text? "FullName" = some "CN=Ann Lee/O=Acme" := by
    decide +kernel
  obtain ⟨n, hn, full⟩ := named
  exact ⟨⟨rfl, rfl, rfl⟩, run, formless, n, hn, full, fun m hm b hb same =>
    eq_of_sameName_fullName ⟨rfl, rfl, rfl⟩ run formless hn hm full hb same⟩

end Run

end AddressBook

import AddressBook.Proofs.Provisioning.Indexed
import AddressBook.Proofs.Provisioning.Orderly

/-! What calls keep true of every note. All notes are in order; what is asked of groups beyond that is
left open here, since calls keep it for the same reasons whatever it is. -/

namespace AddressBook

open AddressBook.Action Text

namespace Directory

/-- All notes satisfy one condition, and all ids another. -/
structure Stocked (P : Note → Prop) (K : String → Prop) (d : Directory) : Prop
    extends d.InMemory where
  keys : ∀ key ∈ d.store.notes.keys, K key
  notes : ∀ entry ∈ d.store.notes, P entry.2

variable {P : Note → Prop} {K : String → Prop} {d d' : Directory}

theorem Empty.stocked (h : d.Empty) : d.Stocked P K := by
  refine ⟨h.inMemory, ?_, ?_⟩ <;> rw [h.notes]
  · exact fun _ hk => absurd hk List.not_mem_nil
  · exact fun _ he => absurd he List.not_mem_nil

theorem Stocked.continues (h : d.Stocked P K) (continues : d.Continues d') : d'.Stocked P K := by
  refine ⟨continues.inMemory h.toInMemory, ?_, ?_⟩ <;> rw [continues.notes]
  · exact h.keys
  · exact h.notes

theorem Stocked.alike (h : d.Stocked P K) (same : Alike d d') : d'.Stocked P K :=
  h.continues (.of_alike same)

theorem Stocked.afterRefusal (h : d.Stocked P K) (n : Note) : (d.afterRefusal n).Stocked P K :=
  ⟨h.toInMemory.afterRefusal n, h.keys, h.notes⟩

theorem Stocked.afterSave (h : d.Stocked P K) {n : Note} (hn : P (d.stamped n))
    (hk : K (d.idFor n).1) : (d.afterSave n).Stocked P K := by
  have entries : ∀ entry ∈ (d.afterSave n).store.notes, K entry.1 ∧ P entry.2 := by
    rw [notes_afterSave]
    intro entry he
    rcases Keyed.mem_put he with rfl | he
    · exact ⟨hk, hn⟩
    · exact ⟨h.keys _ (List.mem_map_of_mem he), h.notes entry he⟩
  refine ⟨h.toInMemory.afterSave n, fun key hkey => ?_, fun entry he => (entries entry he).2⟩
  obtain ⟨entry, he, rfl⟩ := List.mem_map.mp hkey
  exact (entries entry he).1

theorem Stocked.afterDelete (h : d.Stocked P K) (id : String) (journal : List Write) :
    Stocked P K { d with store := d.store.erase id, journal } := by
  refine ⟨h.toInMemory.afterDelete id journal, fun key hkey => ?_, fun entry he => ?_⟩
  · obtain ⟨entry, he, rfl⟩ := List.mem_map.mp hkey
    exact h.keys _ (List.mem_map_of_mem (Keyed.mem_of_mem_erase he))
  · exact h.notes entry (Keyed.mem_of_mem_erase he)

end Directory

def Note.Filed (P : Note → Prop) (K : String → Prop) (n : Note) : Prop :=
  P n ∧ ∃ id, n.id = some id ∧ K id

/-- A condition on notes, and one on names, that changes of memberships keep. -/
structure Enduring (P : Note → Prop) (named : CanonicalName → Prop) : Prop where
  congr : ∀ n m : Note, P n → m.items = n.items → m.id = n.id → P m
  setMembers : ∀ g members, P g → g.isClass .group = true →
    Membership.MemberChange named g members → P (g.setMembers members)
  mark : ∀ n mark, P n → n.isClass .account = true → P (n.setText "CheckPassword" mark)

namespace Enduring

variable {P : Note → Prop} {named : CanonicalName → Prop} {K : String → Prop}
  (enduring : Enduring P named)

include enduring

theorem keeps_save {n : Note} (h : n.Filed P K) :
    Keeps (Directory.Stocked P K) (Directory.save n) fun n' =>
      n'.Filed P K ∧ n'.items = n.items := by
  obtain ⟨good, id, hid, known⟩ := h
  refine leads_save (fun d hd => ?_) fun d hd => hd.afterRefusal n
  have key : (d.idFor n).1 = id := by
    rw [Directory.idFor_of_id hid]
  have stamped : P (d.stamped n) := by
    refine enduring.congr n _ good rfl ?_
    rw [Directory.stamped, key, hid]
  refine ⟨hd.afterSave stamped (by rwa [key]), ⟨stamped, id, ?_, known⟩, rfl⟩
  rw [Directory.stamped, key]

theorem frame (K : String → Prop) :
    Membership.Frame (Directory.Stocked P K) (Note.Filed P K) named where
  memory _ hd := hd.memory
  lasting _ hd := hd.lasting
  alike _ _ same hd := hd.alike same
  returned := by
    intro d hd n hn
    obtain ⟨id, hm⟩ := Store.mem_of_returns hd.memory hn
    exact ⟨hd.notes _ hm, id, hd.sound.ids _ hm, hd.keys _ (List.mem_map_of_mem hm)⟩
  saved _ h := enduring.keeps_save h
  members g members hg hk change := ⟨enduring.setMembers g members hg.1 hk change, hg.2⟩
  marked n mark hn hk := ⟨enduring.mark n mark hn.1 hk, hn.2⟩

theorem leads_save_new {n : Note} (unsaved : n.id = none)
    (good : ∀ id, P { n with id := some id }) :
    Leads (fun d => d.Stocked P K ∧ K d.supply.takeId.1) (Directory.save n)
      (fun n' d => d.Stocked P K ∧ n'.Filed P K ∧ n'.items = n.items) (Directory.Stocked P K) := by
  refine leads_save (fun d ⟨hd, known⟩ => ?_) fun d ⟨hd, _⟩ => hd.afterRefusal n
  have key : K (d.idFor n).1 := by
    rwa [Directory.idFor, unsaved]
  have stamped : P (d.stamped n) := enduring.congr _ _ (good (d.idFor n).1) rfl rfl
  exact ⟨hd.afterSave stamped key, ⟨stamped, (d.idFor n).1, rfl, key⟩, rfl⟩

end Enduring

def Attributes.GiveNames (attributes : Attributes) (settings : DirectorySettings)
    (named : CanonicalName → Prop) : Prop :=
  ∀ raw ∈ (attributes.takeText Schema.nameAttribute).1, ∀ name,
    Account.nameOf settings raw = .ok name → named name

/-- Such a condition that the calls keep as well which are allowed. -/
structure Discipline (P : Note → Prop) (named : CanonicalName → Prop) (settings : Settings)
    (allowed : Call → Prop) : Prop extends Enduring P named where
  stored : ∀ n, P n → n.isClass .account = true → ∀ name, Account.storedName n = .ok name → named name
  shown : ∀ g, P g → g.isClass .group = true → ∀ name, Name.canonicalize g.displayName = .ok name →
    named name
  formless : ∀ call, allowed call → call.attributes.Lacks "Form"
  givenNew : ∀ attributes, allowed (.create .account attributes) →
    attributes.GiveNames settings.directory named
  given : ∀ uid attributes how, allowed (.update .account uid attributes how) →
    attributes.GiveNames settings.directory named
  newAccount : ∀ attributes name request n id, allowed (.create .account attributes) → named name →
    request.plain.Sublist attributes → Account.newNote settings.directory name request = .ok n →
      P { n with id := some id }
  updatedAccount : ∀ uid attributes how n n' renamed request changed,
    allowed (.update .account uid attributes how) → P n → n.isClass .account = true →
      (∀ c ∈ renamed, named c) →
        Account.Request.ofAttributes (attributes.takeText Schema.nameAttribute).2 = .ok request →
          Account.updatedNote settings.directory n renamed request how = .ok (changed, n') → P n'
  newGroup : ∀ attributes request aliases n id, allowed (.create .group attributes) →
    Group.Request.ofAttributes attributes = .ok request → request.aliases = some aliases →
      Group.newNote aliases request = .ok n → P { n with id := some id }
  updatedGroup : ∀ uid attributes how request members changed n n',
    allowed (.update .group uid attributes how) →
      Group.Request.ofAttributes attributes = .ok request → request.memberNames = .ok members →
        P n → n.isClass .group = true →
          Group.updatedNote n request members how = .ok (changed, n') → P n'

namespace Discipline

variable {P : Note → Prop} {named : CanonicalName → Prop} {settings : Settings}
  {allowed : Call → Prop} {K : String → Prop} (discipline : Discipline P named settings allowed)

theorem keeps_erase (id : String) :
    Leads (Directory.Stocked P K) (Directory.delete id) (fun _ d => d.Stocked P K)
      (Directory.Stocked P K) :=
  leads_delete (fun _ hd journal => hd.afterDelete id journal) fun _ hd => hd

include discipline

section

variable {attributes : Attributes}

theorem leads_createAccount (ha : allowed (.create .account attributes)) :
    Leads (fun d => d.Stocked P K ∧ K d.supply.takeId.1) (Account.create settings attributes)
      (fun _ d => d.Stocked P K) (Directory.Stocked P K) := by
  refine Account.keeps_create (discipline.frame K) settings (fun d d' same h => by rwa [same.supply])
    (discipline.givenNew attributes ha) fun name request n hname hplain hnew => ?_
  obtain ⟨unsaved, form⟩ := Account.form_newNote ((discipline.formless _ ha).sublist hplain) hnew
  refine Leads.weaken (discipline.leads_save_new unsaved fun id =>
    discipline.newAccount attributes name request n id ha hname hplain hnew) (fun _ hd => hd)
    (fun m _ hd => ⟨hd.1, hd.2.1, ?_⟩) fun _ hd => hd
  rw [Note.isClass_of_items hd.2.2, Note.isClass_of_form form]

theorem keeps_updateAccount {uid : String} {how : UpdateKind}
    (ha : allowed (.update .account uid attributes how)) :
    Keeps (Directory.Stocked P K) (Account.update settings uid attributes how) fun _ => True := by
  refine Account.keeps_update (discipline.frame K) settings uid how
    (discipline.given uid attributes how ha) (fun n hn hk => discipline.stored n hn.1 hk)
    fun n renamed request changed n' hn account hrenamed asked h => ?_
  have formless := (discipline.formless _ ha).sublist (Account.plain_sublist_of_asked asked)
  have kept := (Account.sameItem_updatedNote h (by decide) formless).trans
    (Account.sameItem_renamedNote (by decide) n renamed)
  obtain ⟨id, hid, known⟩ := hn.2
  refine ⟨⟨?_, id, kept.1.trans hid, known⟩, (Note.isClass_of_item? kept.2 .account).trans account⟩
  exact discipline.updatedAccount uid attributes how n n' renamed request changed ha hn.1 account
    hrenamed asked h

theorem keeps_deleteAccount (uid : String) :
    Keeps (Directory.Stocked P K) (Account.delete settings uid) fun _ => True := by
  refine Account.keeps_delete (discipline.frame K) settings uid
    (fun n hn hk => discipline.stored n hn.1 hk) fun n id _ _ _ => ?_
  exact Leads.weaken (keeps_erase id) (fun _ hd => hd) (fun _ _ hd => ⟨hd, trivial⟩) fun _ hd => hd

theorem leads_createGroup (ha : allowed (.create .group attributes)) :
    Leads (fun d => d.Stocked P K ∧ K d.supply.takeId.1) (Group.create attributes)
      (fun _ d => d.Stocked P K) (Directory.Stocked P K) := by
  refine Group.leads_create (U := fun _ => True) (fun _ hd => hd.1)
    (Action.keeps_acquire (fun d hd => hd.1.lasting)
      fun d d' same hd => ⟨hd.1.alike same, by rw [same.supply]; exact hd.2⟩)
    (fun aliases => Group.keeps_checkUnused aliases)
    fun request aliases n hrequest haliases _ hnew => ?_
  exact Leads.weaken (discipline.leads_save_new (Group.id_newNote hnew) fun id =>
    discipline.newGroup attributes request aliases n id ha hrequest haliases hnew) (fun _ hd => hd)
    (fun _ _ hd => hd.1) fun _ hd => hd

theorem leads_updateGroup {uid : String} {how : UpdateKind}
    (ha : allowed (.update .group uid attributes how)) :
    Leads (Directory.Stocked P K) (Group.update uid attributes how) (fun _ d => d.Stocked P K)
      (Directory.Stocked P K) := by
  refine Group.leads_update (discipline.frame K)
    (G := fun n => n.Filed P K ∧ n.isClass .group = true)
    (C := fun _ _ => True) uid how
    (fun _ hd => hd) (fun _ hd => hd) (fun n aliases _ _ => Group.keeps_checkRename n aliases)
    (fun n request members changed n' hn group hrequest hmembers _ h => ?_)
    fun n old new hn hnew => ?_
  · have formless := (discipline.formless _ ha).sublist (Group.plain_sublist hrequest)
    have still : n'.isClass .group = true := (Group.isClass_updatedNote h formless .group).trans group
    have good : n'.Filed P K := by
      obtain ⟨id, hid, known⟩ := hn.2
      exact ⟨discipline.updatedGroup uid attributes how request members changed n n' ha hrequest
        hmembers hn.1 group h, id, (Group.id_updatedNote h).trans hid, known⟩
    cases changed with
    | true =>
      refine Leads.weaken (discipline.keeps_save good) (fun _ hd => hd) (fun m _ hd => ?_)
        fun _ hd => hd
      exact ⟨hd.1, hd.2.1, by rw [Note.isClass_of_items hd.2.2, still]⟩
    | false => exact leads_pure fun _ hd => ⟨hd, good, still⟩
  · have proper := discipline.shown n hn.1.1 hn.2 new hnew
    exact Leads.weaken ((discipline.frame K).keeps_rename old proper) (fun _ hd => hd)
      (fun _ _ hd => hd.1) fun _ hd => hd

theorem leads_deleteGroup (uid : String) :
    Leads (Directory.Stocked P K) (Group.delete uid) (fun _ d => d.Stocked P K)
      (Directory.Stocked P K) :=
  Group.leads_delete (discipline.frame K) uid (fun _ hd => hd) fun _ id _ _ _ => keeps_erase id

end

theorem leads_call {call : Call} (ha : allowed call) :
    Leads (fun d => d.Stocked P K ∧ K d.supply.takeId.1) (call.run settings)
      (fun _ d => d.Stocked P K) (Directory.Stocked P K) := by
  have kept : ∀ {x : Action Unit}, Leads (Directory.Stocked P K) x (fun _ d => d.Stocked P K)
      (Directory.Stocked P K) → Leads (fun d => d.Stocked P K ∧ K d.supply.takeId.1) x
        (fun _ d => d.Stocked P K) (Directory.Stocked P K) :=
    fun h => Leads.weaken h (fun _ hd => hd.1) (fun _ _ hd => hd) fun _ hd => hd
  have quiet : ∀ {x : Action Unit}, Keeps (Directory.Stocked P K) x (fun _ => True) →
      Leads (Directory.Stocked P K) x (fun _ d => d.Stocked P K) (Directory.Stocked P K) :=
    fun h => Leads.weaken h (fun _ hd => hd) (fun _ _ hd => hd.1) fun _ hd => hd
  cases call with
  | create kind attributes =>
    cases kind with
    | account => exact leads_discard (discipline.leads_createAccount ha)
    | group => exact leads_discard (discipline.leads_createGroup ha)
  | update kind uid attributes how =>
    cases kind with
    | account => exact kept (quiet (keeps_discard (discipline.keeps_updateAccount ha)))
    | group => exact kept (leads_discard (discipline.leads_updateGroup ha))
  | delete kind uid =>
    cases kind with
    | account => exact kept (quiet (discipline.keeps_deleteAccount uid))
    | group => exact kept (discipline.leads_deleteGroup uid)

end Discipline

/-- Along a run of calls that are allowed a condition holds of every note that each of them keeps. -/
theorem Run.stocked {P : Note → Prop} {start d : Directory} {steps : List Step} (hs : start.Empty)
    (run : Run start steps d)
    (kept : ∀ step ∈ steps, Leads (fun d => d.Stocked P (fun _ => True) ∧ True)
      (step.call.run step.settings) (fun _ d => d.Stocked P fun _ => True)
      (Directory.Stocked P fun _ => True)) :
    d.Stocked P fun _ => True :=
  run.always hs.stocked kept fun _ _ keeps resumes hd =>
    Step.after_of_leads keeps ⟨hd.continues resumes.toContinues, trivial⟩

/-- A condition on notes in order that accounts satisfy at once, and groups as long as memberships
change and calls write them. -/
structure Regimen (P : Note → Prop) (allowed : Call → Prop) : Prop where
  orderly : ∀ n, P n → n.Orderly
  congr : ∀ n m : Note, P n → m.items = n.items → P m
  account : ∀ n : Note, n.isClass .account = true → n.Orderly → P n
  setMembers : ∀ g members, P g → g.isClass .group = true →
    Membership.MemberChange CanonicalName.Settled g members → P (g.setMembers members)
  formless : ∀ call, allowed call → call.attributes.Lacks "Form"
  plain : ∀ call, allowed call → call.Plain
  newGroup : ∀ attributes request aliases n, allowed (.create .group attributes) →
    Group.Request.ofAttributes attributes = .ok request → request.aliases = some aliases →
      Group.newNote aliases request = .ok n → P n
  updatedGroup : ∀ uid attributes how request members changed n n',
    allowed (.update .group uid attributes how) →
      Group.Request.ofAttributes attributes = .ok request → request.memberNames = .ok members →
        P n → n.isClass .group = true →
          Group.updatedNote n request members how = .ok (changed, n') → P n'

namespace Regimen

variable {P : Note → Prop} {allowed : Call → Prop} {K : String → Prop} (regimen : Regimen P allowed)

include regimen

theorem enduring : Enduring P CanonicalName.Settled where
  congr n m good items _ := regimen.congr n m good items
  setMembers := regimen.setMembers
  mark n mark good hk := by
    refine regimen.account _ ?_ ((regimen.orderly n good).mark hk mark)
    rw [← hk]
    exact Note.isClass_of_item? (Note.item?_setItem_of_ne (by decide) n _) .account

theorem frame (K : String → Prop) :
    Membership.Frame (Directory.Stocked P K) (Note.Filed P K) CanonicalName.Settled :=
  regimen.enduring.frame K

theorem filed_updatedAccount {directory : DirectorySettings} {n n' : Note}
    {renamed : Option CanonicalName} {request : Account.Request} {how : UpdateKind} {changed : Bool}
    (hf : request.plain.Lacks "Form") (hn : n.Filed P K) (account : n.isClass .account = true)
    (hrenamed : ∀ c ∈ renamed, c.Settled)
    (h : Account.updatedNote directory n renamed request how = .ok (changed, n')) :
    n'.Filed P K ∧ n'.isClass .account = true := by
  obtain ⟨orderly, account', same⟩ :=
    Regularity.orderly_updatedAccount hf (regimen.orderly n hn.1) account hrenamed h
  obtain ⟨id, hid, known⟩ := hn.2
  exact ⟨⟨regimen.account n' account' orderly, id, same.trans hid, known⟩, account'⟩

theorem discipline (settings : Settings) :
    Discipline P CanonicalName.Settled settings allowed where
  toEnduring := regimen.enduring
  stored n good hk _ h := Regularity.settled_storedName (regimen.orderly n good) hk h
  shown g good hk _ h := Name.settled_of_canonicalize h
    (Regularity.not_nested_displayName ((regimen.orderly g good).aliases hk))
  formless := regimen.formless
  givenNew _ ha _ hr _ h := Regularity.settled_given settings (regimen.plain _ ha) hr h
  given _ _ _ ha _ hr _ h := Regularity.settled_given settings (regimen.plain _ ha) hr h
  newAccount attributes name request n id ha hname hplain hnew := by
    obtain ⟨-, form⟩ := Account.form_newNote ((regimen.formless _ ha).sublist hplain) hnew
    have orderly : n.Orderly :=
      .of_account form (Note.settled_fullName (Account.fullName_newNote hnew) hname)
    exact regimen.congr n _ (regimen.account n (Note.isClass_of_form form) orderly) rfl
  updatedAccount uid attributes how n n' renamed request changed ha good account hrenamed asked h := by
    have formless := (regimen.formless _ ha).sublist (Account.plain_sublist_of_asked asked)
    obtain ⟨orderly, account', -⟩ :=
      Regularity.orderly_updatedAccount formless (regimen.orderly n good) account hrenamed h
    exact regimen.account n' account' orderly
  newGroup attributes request aliases n id ha hrequest haliases hnew :=
    regimen.congr n _ (regimen.newGroup attributes request aliases n ha hrequest haliases hnew) rfl
  updatedGroup := regimen.updatedGroup

theorem leads_run (settings : Settings) {call : Call} (ha : allowed call) :
    Leads (fun d => d.Stocked P K ∧ K d.supply.takeId.1) (call.run settings)
      (fun _ d => d.Stocked P K) (Directory.Stocked P K) :=
  (regimen.discipline settings).leads_call ha

/-- Along a run of calls that are allowed the condition holds of every note. -/
theorem stocked {start d : Directory} {steps : List Step} (hs : start.Empty)
    (run : Run start steps d) (ha : ∀ step ∈ steps, allowed step.call) :
    d.Stocked P fun _ => True :=
  run.stocked hs fun step h => regimen.leads_run step.settings (ha step h)

end Regimen

namespace Note

theorem Orderly.regimen :
    Regimen Note.Orderly fun call => call.attributes.Lacks "Form" ∧ call.Plain where
  orderly _ h := h
  congr _ _ h same := h.congr same
  account _ _ h := h
  setMembers _ _ h hk change := h.setMembers hk change.sources
  formless _ h := h.1
  plain _ h := h.2
  newGroup _ _ _ _ ha hr hs h := Regularity.orderly_newGroup ha.1 ha.2 hr hs h
  updatedGroup _ _ _ _ _ _ _ _ ha hr hm hn hk h :=
    Regularity.orderly_updatedGroup ha.1 ha.2 hr hm hn hk h

end Note

end AddressBook

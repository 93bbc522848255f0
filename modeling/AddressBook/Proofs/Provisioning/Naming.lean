import AddressBook.Proofs.Provisioning.Account
import AddressBook.Proofs.Provisioning.AliasTable
import AddressBook.Proofs.Provisioning.Group
import AddressBook.Proofs.Provisioning.Run

/-! Under which names groups are found along a run of calls. A new group may use no name that is in
use. An update checks the first alias only: what it lists behind it may be the name under which
another group is shown, and then the group that comes first is found in its place. -/

namespace AddressBook

open AddressBook.Action Text

namespace Directory

/-- The groups have the aliases of the table. -/
structure Holds (t : AliasTable) (d : Directory) : Prop extends d.InMemory where
  table : d.store.aliasTable = t

variable {t : AliasTable} {d d' : Directory}

theorem Holds.alike (h : Holds t d) (same : Alike d d') : Holds t d' :=
  ⟨h.toInMemory.alike same, (Store.aliasTable_congr same.notes).trans h.table⟩

theorem Holds.afterRefusal (h : Holds t d) (n : Note) : Holds t (d.afterRefusal n) :=
  ⟨h.toInMemory.afterRefusal n, h.table⟩

theorem Holds.afterSave (h : Holds t d) (n : Note) :
    Holds (t.set (d.idFor n).1 n.listed?) (d.afterSave n) := by
  refine ⟨h.toInMemory.afterSave n, ?_⟩
  have stamped : (d.stamped n).listed? = n.listed? := Note.listed?_congr rfl rfl
  have spent : (d.afterSave n).store.aliasTable = (d.store.put (d.idFor n).1 (d.stamped n)).aliasTable :=
    Store.aliasTable_congr (Store.notes_spend _)
  rw [spent, Store.aliasTable_put, stamped, h.table]

theorem Holds.afterDelete (h : Holds t d) (id : String) (journal : List Write) :
    Holds (t.set id none) { d with store := d.store.erase id, journal } := by
  refine ⟨h.toInMemory.afterDelete id journal, ?_⟩
  rw [← h.table]
  exact Store.aliasTable_erase h.sound id

end Directory

def Note.Listed (t : AliasTable) (n : Note) : Prop := ∃ id, n.id = some id ∧ t id = n.listed?

theorem Note.Listed.congr {t : AliasTable} {n m : Note} (h : n.Listed t) (id : m.id = n.id)
    (form : m.item? "Form" = n.item? "Form") (names : m.item? "ListName" = n.item? "ListName") :
    m.Listed t := by
  obtain ⟨key, hid, stands⟩ := h
  exact ⟨key, id.trans hid, by rw [stands, listed?_congr form names]⟩

namespace AliasTable

open Directory

theorem keeps_save (t : AliasTable) (n : Note) (h : n.Listed t) :
    Keeps (Holds t) (Directory.save n) fun n' => n'.Listed t ∧ n'.items = n.items := by
  refine leads_save (fun d hd => ⟨?_, ?_, rfl⟩) fun d hd => hd.afterRefusal n
  · obtain ⟨id, hid, stands⟩ := h
    have saved := hd.afterSave n
    rwa [idFor_of_id hid, set_eq_self stands] at saved
  · refine h.congr ?_ rfl rfl
    obtain ⟨id, hid, _⟩ := h
    rw [stamped, idFor_of_id hid, hid]

theorem frame (t : AliasTable) :
    Membership.Frame (Holds t) (Note.Listed t) fun _ => True where
  memory _ hd := hd.memory
  lasting _ hd := hd.lasting
  alike _ _ same hd := hd.alike same
  returned := by
    intro d hd n hn
    obtain ⟨id, hm⟩ := Store.mem_of_returns hd.memory hn
    refine ⟨id, hd.sound.ids _ hm, ?_⟩
    rw [← hd.table, Store.aliasTable, hd.sound.get?_of_mem hm]
    rfl
  saved := t.keeps_save
  members := by
    intro g members hg _ _
    exact hg.congr rfl (Note.item?_setItem_of_ne (by decide) g _)
      (Note.item?_setItem_of_ne (by decide) g _)
  marked := by
    intro n mark hn _
    exact hn.congr rfl (Note.item?_setItem_of_ne (by decide) n _)
      (Note.item?_setItem_of_ne (by decide) n _)

theorem listed_of_account {t : AliasTable} {n : Note} {id : String} (hid : n.id = some id)
    (h : n.isClass .account = true) (free : t id = none) : n.Listed t := by
  refine ⟨id, hid, ?_⟩
  rw [free, Note.listed?, Note.not_isClass_of_isClass h]
  rfl

theorem none_of_account {t : AliasTable} {n : Note} {id : String} (hn : n.Listed t)
    (hid : n.id = some id) (h : n.isClass .account = true) : t id = none := by
  obtain ⟨key, hkey, stands⟩ := hn
  rw [hid, Option.some.injEq] at hkey
  rw [hkey, stands, Note.listed?, Note.not_isClass_of_isClass h]
  rfl

section

variable (t : AliasTable) (settings : Settings) {attributes : Attributes}

theorem leads_createAccount (ha : attributes.Lacks "Form") :
    Leads (fun d => Holds t d ∧ t d.supply.takeId.1 = none) (Account.create settings attributes)
      (fun _ d => Holds t d) (Holds t) := by
  refine Account.keeps_create t.frame settings (fun d d' same h => by rwa [same.supply])
    (fun _ _ _ _ => trivial) fun name request n _ hplain hnew => ?_
  obtain ⟨unsaved, form⟩ := Account.form_newNote (ha.sublist hplain) hnew
  have account := Note.isClass_of_form form
  refine leads_save (fun d ⟨hd, free⟩ => ?_) fun d ⟨hd, _⟩ => hd.afterRefusal n
  have id : (d.idFor n).1 = d.supply.takeId.1 := by
    rw [idFor, unsaved]
  have none : t (d.idFor n).1 = n.listed? := by
    rw [id, free, Note.listed?, Note.not_isClass_of_isClass account]
    rfl
  refine ⟨?_, ⟨(d.idFor n).1, rfl, none.trans (Note.listed?_congr rfl rfl)⟩, ?_⟩
  · have saved := hd.afterSave n
    rwa [set_eq_self none] at saved
  · rw [← account]
    exact Note.isClass_of_items rfl .account

theorem keeps_updateAccount (uid : String) (how : UpdateKind) (ha : attributes.Lacks "Form") :
    Keeps (Holds t) (Account.update settings uid attributes how) fun _ => True := by
  refine Account.keeps_update t.frame settings uid how (fun _ _ _ _ => trivial)
    (fun _ _ _ _ _ => trivial) fun n renamed request changed n' hn account _ asked h => ?_
  have same : Note.SameItem "Form" n' (Account.renamedNote n renamed) :=
    Account.sameItem_updatedNote h (by decide) (ha.sublist (Account.plain_sublist_of_asked asked))
  have kept := same.trans (Account.sameItem_renamedNote (by decide) n renamed)
  have still : n'.isClass .account = true := by
    rw [Note.isClass_of_item? kept.2, account]
  obtain ⟨id, hid, _⟩ := id hn
  exact ⟨listed_of_account (kept.1.trans hid) still (none_of_account hn hid account), still⟩

theorem keeps_deleteAccount (uid : String) :
    Keeps (Holds t) (Account.delete settings uid) fun _ => True := by
  refine Account.keeps_delete t.frame settings uid (fun _ _ _ _ _ => trivial)
    fun n id hn account hid => ?_
  refine Leads.weaken (leads_delete (K := Holds t) (fun d hd journal => ?_) fun d hd => hd)
    (fun _ hd => hd) (fun _ _ hd => ⟨hd, trivial⟩) fun _ hd => hd
  have gone := hd.afterDelete id journal
  rwa [set_eq_self (none_of_account hn hid account)] at gone

end

/-- What a call may do to the aliases of groups. -/
inductive Change (t : AliasTable) : Call → AliasTable → Prop
  | kept (call : Call) : Change t call t
  | added {attributes : Attributes} {aliases : List String} (id : String) (solid : aliases ≠ [])
      (unused : ∀ a ∈ aliases, ∀ other, ¬ t.Lists other a) :
      Change t (.create .group attributes) (t.set id (some aliases))
  | changed {uid first id : String} {attributes : Attributes} {how : UpdateKind}
      {later old : List String}
      (asked : (Call.update .group uid attributes how).aliases = some (first :: later))
      (stands : t id = some old)
      (checked : sameName first (old.headD "") = true ∨ t.Finds first id ∨
        ∀ other, ¬ t.Lists other first) :
      Change t (.update .group uid attributes how) (t.set id (some (first :: later)))
  | removed {uid : String} (id : String) : Change t (.delete .group uid) (t.set id none)

def Changed (t : AliasTable) (call : Call) (d : Directory) : Prop :=
  ∃ t', t.Change call t' ∧ Holds t' d

theorem Changed.of_holds {t : AliasTable} {d : Directory} (call : Call) (h : Holds t d) :
    t.Changed call d := ⟨t, .kept call, h⟩

section

variable {t : AliasTable} {attributes : Attributes}

theorem keeps_checkUnused (aliases : List String) :
    Keeps (Holds t) (Group.checkUnused aliases) fun _ =>
      ∀ a ∈ aliases, ∀ other, ¬ t.Lists other a := by
  refine keeps_forM_forall fun a _ => ?_
  refine Keeps.bind (A := fun found => found = none → ∀ other, ¬ t.Lists other a)
    (keeps_read fun d found hd h none => ?_) fun found hfound => ?_
  · rw [none] at h
    rw [← hd.table]
    exact (Store.groupByAlias_eq_none_iff hd.sound hd.memory).mp h
  · cases found with
    | none => exact keeps_pure (hfound rfl)
    | some g => exact keeps_ite (fun _ => keeps_throw) fun unused => absurd rfl unused

theorem keeps_checkRename {n : Note} {aliases : List String} {id : String} (hid : n.id = some id) :
    Keeps (Holds t) (Group.checkRename n aliases) fun _ =>
      sameName (aliases.headD "") n.displayName = true ∨ t.Finds (aliases.headD "") id ∨
        ∀ other, ¬ t.Lists other (aliases.headD "") := by
  rw [Group.checkRename]
  split
  · next same => exact keeps_pure (Or.inl same)
  · refine Keeps.bind
      (A := fun found => (∀ g, found = some g → ∃ key, g.id = some key ∧
          t.Finds (aliases.headD "") key) ∧
        (found = none → ∀ other, ¬ t.Lists other (aliases.headD "")))
      (keeps_read fun d found hd h => ⟨fun g hg => ?_, fun none => ?_⟩) fun found hfound => ?_
    · rw [hg] at h
      obtain ⟨key, stands, finds⟩ := (Store.groupByAlias_eq_some_iff hd.sound hd.memory).mp h
      rw [hd.table] at finds
      exact ⟨key, hd.sound.id_of_get? stands, finds⟩
    · rw [none] at h
      rw [← hd.table]
      exact (Store.groupByAlias_eq_none_iff hd.sound hd.memory).mp h
    · cases found with
      | none => exact keeps_pure (Or.inr (Or.inr (hfound.2 rfl)))
      | some g =>
        dsimp only
        split
        · next same =>
          obtain ⟨key, hkey, finds⟩ := hfound.1 g rfl
          rw [hkey, hid, Option.some.injEq] at same
          subst same
          exact keeps_pure (Or.inr (Or.inl finds))
        · exact keeps_throw

theorem leads_createGroup (ha : (Call.create .group attributes).Proper) :
    Leads (Holds t) (Group.create attributes)
      (fun _ d => t.Changed (.create .group attributes) d)
      (t.Changed (.create .group attributes)) := by
  refine Group.leads_create (fun d hd => .of_holds _ hd) t.frame.keeps_acquire
    (fun aliases => keeps_checkUnused aliases)
    fun request aliases n hrequest haliases hunused hnew => ?_
  have solid := (Group.aliases_ok hrequest haliases).1
  have formless := ha.formless.sublist (Group.plain_sublist hrequest)
  have group := Note.isClass_of_form (Group.form_newNote hnew formless).2
  have named := Group.aliases_newNote hnew (Group.plain_lacks_listName ha.distinct hrequest)
    (Group.splitAll_aliases hrequest haliases)
  refine leads_save (fun d hd => ?_) fun d hd => .of_holds _ (hd.afterRefusal n)
  have saved := hd.afterSave n
  rw [Note.listed?, if_pos group, named] at saved
  exact ⟨_, .added _ solid hunused, saved⟩

theorem leads_updateGroup {uid : String} {how : UpdateKind}
    (ha : (Call.update .group uid attributes how).Proper) :
    Leads (Holds t) (Group.update uid attributes how)
      (fun _ d => t.Changed (.update .group uid attributes how) d)
      (t.Changed (.update .group uid attributes how)) := by
  refine Group.leads_update t.frame (G := fun _ => True)
    (C := fun n aliases => ∀ id, n.id = some id →
      sameName (aliases.headD "") n.displayName = true ∨ t.Finds (aliases.headD "") id ∨
        ∀ other, ¬ t.Lists other (aliases.headD ""))
    uid how (fun d hd => .of_holds _ hd) (fun d hd => hd) (fun n aliases hn _ => ?_)
    (fun n request members changed n' hn group hrequest _ hchecked h => ?_)
    fun n old new _ _ => ?_
  · obtain ⟨id, hid, _⟩ := hn
    refine (keeps_checkRename hid).weaken fun _ checked other hother => ?_
    rw [hid, Option.some.injEq] at hother
    rwa [← hother]
  · obtain ⟨id, hid, stands⟩ := hn
    rw [Note.listed?, if_pos group] at stands
    have formless := ha.formless.sublist (Group.plain_sublist hrequest)
    have written : Note.SameItem "Form" n' (Group.renamedNote n request.aliases) :=
      Group.sameItem_updatedNote h (by decide) formless
    have form := written.trans
      (Group.sameItem_renamedNote (by decide) n request.aliases)
    have still : n'.listed? = some n'.aliases := by
      rw [Note.listed?, Note.isClass_of_item? form.2, if_pos group]
    -- Without names in the request the aliases stay; names in it were checked against the table.
    have after : t.Change (.update .group uid attributes how) (t.set id (some n'.aliases)) := by
      rcases Group.aliases_updatedNote h hrequest ha.distinct with same | asked
      · rw [same, set_eq_self stands]
        exact .kept _
      · obtain ⟨first, later, hfirst⟩ :=
          List.exists_cons_of_ne_nil (Group.aliases_ok hrequest asked).1
        have checked := hchecked _ asked id hid
        rw [hfirst] at asked checked ⊢
        refine .changed ?_ stands checked
        rw [Call.aliases, Call.attributes, hrequest]
        exact asked
    cases changed with
    | true =>
      refine leads_save (fun d hd => ⟨⟨_, after, ?_⟩, trivial⟩)
        fun d hd => .of_holds _ (hd.afterRefusal n')
      have saved := hd.afterSave n'
      rwa [idFor_of_id (form.1.trans hid), still] at saved
    | false => exact leads_pure fun d hd => ⟨.of_holds _ hd, trivial⟩
  · refine ⟨?_⟩
    rintro d ⟨t', change, hd⟩
    refine Leads.ends (P := Holds t') ?_ d hd
    exact Leads.weaken (t'.frame.keeps_rename old trivial) (fun _ hd => hd)
      (fun _ d hd => ⟨t', change, hd.1⟩) fun d hd => ⟨t', change, hd⟩

theorem leads_deleteGroup (uid : String) :
    Leads (Holds t) (Group.delete uid) (fun _ d => t.Changed (.delete .group uid) d)
      (t.Changed (.delete .group uid)) := by
  refine Group.leads_delete t.frame uid (fun d hd => .of_holds _ hd) fun n id _ _ _ => ?_
  exact leads_delete (fun d hd journal => ⟨_, .removed id, hd.afterDelete id journal⟩)
    fun d hd => .of_holds _ hd

theorem leads_run (settings : Settings) {call : Call} (hp : call.Proper) :
    Leads (fun d => Holds t d ∧ t d.supply.takeId.1 = none) (call.run settings)
      (fun _ d => t.Changed call d) (t.Changed call) := by
  have kept : ∀ {x : Action Unit}, Keeps (Holds t) x (fun _ => True) →
      Leads (fun d => Holds t d ∧ t d.supply.takeId.1 = none) x
        (fun _ d => t.Changed call d) (t.Changed call) := by
    intro x h
    exact Leads.weaken h (fun _ hd => hd.1) (fun _ d hd => .of_holds call hd.1)
      fun d hd => .of_holds call hd
  cases call with
  | create kind attributes =>
    cases kind with
    | account =>
      refine leads_discard (Leads.weaken (t.leads_createAccount settings hp.formless)
        (fun _ hd => hd) (fun _ d hd => .of_holds _ hd) fun d hd => .of_holds _ hd)
    | group =>
      exact leads_discard (Leads.weaken (leads_createGroup hp) (fun _ hd => hd.1) (fun _ _ hd => hd)
        fun _ hd => hd)
  | update kind uid attributes how =>
    cases kind with
    | account => exact kept (keeps_discard (t.keeps_updateAccount settings uid how hp.formless))
    | group =>
      exact leads_discard (Leads.weaken (leads_updateGroup hp) (fun _ hd => hd.1) (fun _ _ hd => hd)
        fun _ hd => hd)
  | delete kind uid =>
    cases kind with
    | account => exact kept (t.keeps_deleteAccount settings uid)
    | group =>
      exact Leads.weaken (leads_deleteGroup uid) (fun _ hd => hd.1) (fun _ _ hd => hd)
        fun _ hd => hd

end

end AliasTable

namespace Step

open AliasTable

variable {step : Step}

theorem changed (hm : step.before.InMemory)
    (hu : step.before.store.Unused step.before.supply.takeId.1) (hp : step.call.Proper) :
    step.before.store.aliasTable.Changed step.call step.after := by
  refine after_of_leads (leads_run step.settings hp) ⟨⟨hm, rfl⟩, ?_⟩
  rw [Store.aliasTable, hu.get?_eq_none]
  rfl

/-- An update leaves a group with the aliases that it asks for, and one of them behind the first is
the name under which a later group is shown. -/
def Shadows (step : Step) : Prop :=
  ∃ uid attributes how first later id,
    step.call = .update .group uid attributes how ∧ step.call.aliases = some (first :: later) ∧
      step.after.store.aliasTable id = some (first :: later) ∧
        step.after.store.aliasTable.Hides id later

theorem not_shadows_of_clear (h : step.after.store.aliasTable.Clear) : ¬ step.Shadows := by
  rintro ⟨_, _, _, first, later, id, _, _, stands, other, shown, less, shows, a, ha, same⟩
  refine (h other shown shows).2 id less ?_
  exact ⟨first :: later, stands, a, List.mem_cons_of_mem first ha, same⟩

/-- A call on a directory where every group is found leaves such a directory, unless it is an update
that shadows a group. -/
theorem clear_after_iff (hm : step.before.InMemory)
    (hu : step.before.store.Unused step.before.supply.takeId.1) (hp : step.call.Proper)
    (hc : step.before.store.aliasTable.Clear) :
    step.after.InMemory ∧ (step.after.store.aliasTable.Clear ↔ ¬ step.Shadows) := by
  obtain ⟨t', change, inMemory, table⟩ := changed hm hu hp
  refine ⟨inMemory, not_shadows_of_clear, fun shown => ?_⟩
  rw [table]
  generalize made : step.call = call at change
  cases change with
  | kept => exact hc
  | added id solid unused => exact clear_added hc solid unused
  | @changed uid first id attributes how later old asked stands checked =>
    refine (clear_changed hc stands checked).mpr fun hides => shown ?_
    refine ⟨uid, attributes, how, first, later, id, made, made ▸ asked, ?_, ?_⟩
    · rw [table]
      exact if_pos rfl
    · rwa [table]
  | removed id => exact clear_removed hc id

end Step

namespace Run

variable {start d : Directory} {steps : List Step}

theorem inMemory (hs : start.Empty) (run : Run start steps d)
    (hp : ∀ step ∈ steps, step.call.Proper) : d.InMemory := by
  refine run.always hs.inMemory hp fun step d proper resumes before => ?_
  obtain ⟨_, _, after⟩ := Step.changed (resumes.inMemory before) resumes.unused proper
  exact after.toInMemory

theorem findable_last (hs : start.Empty) (run : Run start steps d)
    (h : ∀ step ∈ steps, step.after.store.Findable) : d.store.Findable := by
  cases run with
  | start =>
    intro g hg
    rw [Store.notesOf, Store.all, hs.notes] at hg
    cases hg
  | step earlier resumes => exact h _ (List.mem_append_right _ (List.mem_singleton_self _))

theorem clear (hs : start.Empty) (run : Run start steps d) (hp : ∀ step ∈ steps, step.call.Proper)
    (visible : ∀ step ∈ steps, ¬ step.Shadows) : d.store.aliasTable.Clear := by
  have first : start.InMemory ∧ start.store.aliasTable.Clear := by
    refine ⟨hs.inMemory, fun id aliases stands => ?_⟩
    rw [Store.aliasTable, hs.notes] at stands
    cases stands
  refine (run.always (P := fun d => d.InMemory ∧ d.store.aliasTable.Clear) first
    (fun step hstep => And.intro (hp step hstep) (visible step hstep)) ?_).2
  rintro step d ⟨proper, visible⟩ resumes ⟨inMemory, before⟩
  rw [← Store.aliasTable_congr resumes.notes] at before
  obtain ⟨after, clear⟩ :=
    Step.clear_after_iff (resumes.inMemory inMemory) resumes.unused proper before
  exact ⟨after, clear.mpr visible⟩

theorem findable_iff_steps (hs : start.Empty) (run : Run start steps d)
    (hp : ∀ step ∈ steps, step.call.Proper) :
    (∀ step ∈ steps, step.after.store.Findable) ↔ ∀ step ∈ steps, ¬ step.Shadows := by
  induction run with
  | start => simp
  | @step steps step d earlier resumes ih =>
    have proper : ∀ s ∈ steps, s.call.Proper := fun s hs => hp s (List.mem_append_left _ hs)
    have last := hp step (List.mem_append_right _ (List.mem_singleton_self _))
    have inMemory := resumes.inMemory (earlier.inMemory hs proper)
    simp only [List.forall_mem_append, List.forall_mem_singleton]
    rw [← ih proper]
    refine and_congr_right fun findable => ?_
    have before : step.before.store.aliasTable.Clear := by
      rw [Store.aliasTable_congr resumes.notes]
      have inMemory := earlier.inMemory hs proper
      exact (Store.findable_iff inMemory.sound inMemory.memory).mp
        (earlier.findable_last hs findable)
    obtain ⟨after, clear⟩ := Step.clear_after_iff inMemory resumes.unused last before
    rw [Store.findable_iff after.sound after.memory, clear]

/-- Along a run from an empty directory every group is found under the name under which it is shown,
in every state, exactly if no update shadows one. Then no two groups are shown under one name. -/
theorem findable_iff_not_shadows (hs : start.Empty) (run : Run start steps d)
    (hp : ∀ step ∈ steps, step.call.Proper) :
    ((∀ step ∈ steps, step.after.store.Findable) ↔ ∀ step ∈ steps, ¬ step.Shadows) ∧
      ((∀ step ∈ steps, ¬ step.Shadows) → ∀ step ∈ steps, step.after.store.ShownApart) := by
  have findable := findable_iff_steps hs run hp
  exact ⟨findable, fun visible step hstep => (findable.mpr visible step hstep).shownApart⟩

/-! A run in which an update shadows a group. -/

def createFirst : Step :=
  ⟨{ supply := { ids := ["A1"] } }, {}, .create .group [("__NAME__", [.text "A"])]⟩

def createSecond : Step :=
  ⟨{ createFirst.after with supply := { ids := ["B2"] } }, {},
    .create .group [("__NAME__", [.text "B"])]⟩

def listSecond : Step :=
  ⟨{ createSecond.after with supply := { ids := ["C3"] } }, {},
    .update .group "A" [("ListName", [.text "A", .text "B"])] .replace⟩

theorem run_createSecond : Run {} [createFirst, createSecond] createSecond.after := by
  have first : Run {} [createFirst] createFirst.after :=
    .step (.start : Run {} [] {}) ⟨⟨rfl, rfl, rfl⟩, by decide, by decide⟩
  exact .step first ⟨⟨rfl, rfl, rfl⟩, by decide, by decide⟩

theorem run_listSecond : Run {} [createFirst, createSecond, listSecond] listSecond.after :=
  .step run_createSecond ⟨⟨rfl, rfl, rfl⟩, by decide, by decide⟩

theorem proper_listSecond : ∀ step ∈ [createFirst, createSecond, listSecond], step.call.Proper := by
  decide

theorem not_findable_listSecond : ¬ listSecond.after.store.Findable := by
  intro findable
  have second : ∃ h ∈ listSecond.after.store.notesOf .group, h.displayName = "B" ∧ h.id = some "B2" := by
    decide
  obtain ⟨h, hh, shown, id⟩ := second
  have found := findable h hh
  rw [shown] at found
  have other : (listSecond.after.store.groupByAlias "B").toOption.join.bind Note.id = some "A1" := by
    decide
  rw [found] at other
  change h.id = some "A1" at other
  rw [id] at other
  exact absurd other (by decide)

/-- Groups are not always found under the name under which they are shown. -/
theorem not_always_findable :
    ¬ ∀ start steps d, start.Empty → Run start steps d → (∀ step ∈ steps, step.call.Proper) →
      d.store.Findable :=
  fun always => not_findable_listSecond (always {} _ _ ⟨rfl, rfl, rfl⟩ run_listSecond proper_listSecond)

theorem findable_iff_not_shadows_sample :
    (∀ step ∈ [createFirst, createSecond], step.after.store.Findable ∧ step.after.store.ShownApart) ∧
      (createSecond.after.store.notesOf .group).map Note.displayName = ["A", "B"] ∧
      ¬ (∀ step ∈ [createFirst, createSecond, listSecond], ¬ step.Shadows) := by
  have start : Directory.Empty {} := ⟨rfl, rfl, rfl⟩
  have proper : ∀ step ∈ [createFirst, createSecond], step.call.Proper := by decide
  obtain ⟨findable, apart⟩ := findable_iff_not_shadows start run_createSecond proper
  have visible : ∀ step ∈ [createFirst, createSecond], ¬ step.Shadows := by
    have creates : ∀ step ∈ [createFirst, createSecond], ∃ c attributes,
        step.call = .create c attributes := by
      simp [createFirst, createSecond]
    rintro step hstep ⟨_, _, _, _, _, _, updates, -⟩
    obtain ⟨_, _, made⟩ := creates step hstep
    cases made.symm.trans updates
  refine ⟨fun step hstep => ⟨findable.mpr visible step hstep, apart visible step hstep⟩, by decide, ?_⟩
  have listed := (findable_iff_not_shadows start run_listSecond proper_listSecond).1
  rw [← listed]
  intro always
  exact not_findable_listSecond (always listSecond (by simp))

end Run

end AddressBook

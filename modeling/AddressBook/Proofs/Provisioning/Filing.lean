import AddressBook.Proofs.Directory.Tabled
import AddressBook.Proofs.Provisioning.Regimen

/-! What calls without a form save: notes whose form is that of a class, under ids that are supplied or
were there before. -/

namespace AddressBook

open AddressBook.Action Text

def Supply.Gives (s : Supply) (id : String) : Prop :=
  id ∈ s.ids ∨ ∃ k, s.numbered < k ∧ id = Supply.idDigits k

theorem Supply.gives_takeId (s : Supply) : s.Gives s.takeId.1 := by
  rw [takeId]
  cases given : s.ids with
  | nil => exact Or.inr ⟨s.numbered + 1, Nat.lt_succ_self _, rfl⟩
  | cons id ids => exact Or.inl (by rw [given]; exact List.mem_cons_self)

theorem Supply.gives_of_takeId {s : Supply} {id : String} (h : s.takeId.2.Gives id) : s.Gives id := by
  rw [takeId] at h
  cases given : s.ids with
  | nil =>
    rw [given] at h
    rcases h with h | ⟨k, later, rfl⟩
    · exact absurd h List.not_mem_nil
    · exact Or.inr ⟨k, Nat.lt_of_succ_lt later, rfl⟩
  | cons next ids =>
    rw [given] at h
    rcases h with h | later
    · exact Or.inl (by rw [given]; exact List.mem_cons_of_mem next h)
    · exact Or.inr later

theorem Note.Classed.of_item? {n m : Note} (h : n.Classed) (same : m.item? "Form" = n.item? "Form") :
    m.Classed :=
  h.congr (Note.text?_congr same)

theorem Note.classed_of_item? {n : Note} {kind : EntryClass}
    (h : n.item? "Form" = some [.text kind.form]) : n.Classed := by
  refine ⟨kind, ?_⟩
  rw [form?, text?, h]
  rfl

theorem Note.Filed.mark {K : String → Prop} {n : Note} (h : n.Filed Note.Classed K) (mark : String) :
    (n.setText "CheckPassword" mark).Filed Note.Classed K :=
  ⟨h.1.of_item? (Note.item?_setItem_of_ne (by decide) n _), h.2⟩

namespace Directory

/-- All that is kept, and all that was saved, has the form of a class and an id that is known; so are the
ids that are supplied from now on. -/
structure Filing (K : String → Prop) (d : Directory) : Prop extends d.Stocked Note.Classed K where
  journal : ∀ id items, .saved id items ∈ d.journal → K id ∧ Note.Classed { items }
  supplied : ∀ id, d.supply.Gives id → K id

namespace Filing

variable {K : String → Prop} {d d' : Directory}

theorem alike (h : d.Filing K) (same : Alike d d') : d'.Filing K := by
  refine ⟨h.toStocked.alike same, ?_, ?_⟩
  · rw [same.journal]
    exact h.journal
  · rw [same.supply]
    exact h.supplied

theorem gives_idFor (h : d.Filing K) (n : Note) : ∀ id, (d.idFor n).2.Gives id → K id := by
  intro id gives
  rw [idFor] at gives
  split at gives
  · exact h.supplied id gives
  · exact h.supplied id (Supply.gives_of_takeId gives)

theorem afterRefusal (h : d.Filing K) (n : Note) : (d.afterRefusal n).Filing K := by
  refine ⟨h.toStocked.afterRefusal n, fun id items saved => ?_, h.gives_idFor n⟩
  rcases List.mem_append.mp saved with saved | saved
  · exact h.journal id items saved
  · cases List.mem_singleton.mp saved

theorem afterSave (h : d.Filing K) {n : Note} (hn : n.Classed) (hk : K (d.idFor n).1) :
    (d.afterSave n).Filing K := by
  refine ⟨h.toStocked.afterSave (hn.congr rfl) hk, fun id items saved => ?_, h.gives_idFor n⟩
  rcases List.mem_append.mp saved with saved | saved
  · exact h.journal id items saved
  · cases List.mem_singleton.mp saved
    exact ⟨hk, hn.congr rfl⟩

theorem keeps_save {n : Note} (h : n.Filed Note.Classed K) :
    Keeps (Directory.Filing K) (Directory.save n) fun n' =>
      n'.Filed Note.Classed K ∧ n'.items = n.items := by
  obtain ⟨classed, id, hid, known⟩ := h
  refine leads_save (fun d hd => ?_) fun d hd => hd.afterRefusal n
  have key : (d.idFor n).1 = id := by
    rw [Directory.idFor_of_id hid]
  refine ⟨hd.afterSave classed (by rwa [key]), ⟨classed.congr rfl, id, ?_, known⟩, rfl⟩
  rw [Directory.stamped, key]

theorem leads_save_new {n : Note} (unsaved : n.id = none) (classed : n.Classed) :
    Leads (Directory.Filing K) (Directory.save n)
      (fun n' d => d.Filing K ∧ n'.Filed Note.Classed K) (Directory.Filing K) := by
  refine leads_save (fun d hd => ?_) fun d hd => hd.afterRefusal n
  have known : K (d.idFor n).1 := by
    rw [idFor, unsaved]
    exact hd.supplied _ d.supply.gives_takeId
  exact ⟨hd.afterSave classed known, classed.congr rfl, _, rfl, known⟩

theorem afterDelete (h : d.Filing K) (id : String) (found : Bool) :
    Filing K { d with store := d.store.erase id, journal := d.journal ++ [.deleted id found] } := by
  refine ⟨h.toStocked.afterDelete id _, fun key items saved => ?_, h.supplied⟩
  rcases List.mem_append.mp saved with saved | saved
  · exact h.journal key items saved
  · cases List.mem_singleton.mp saved

theorem keeps_delete (id : String) :
    Keeps (Directory.Filing K) (Directory.delete id) fun _ => True := by
  refine ⟨fun d hd => ?_⟩
  rw [Directory.delete, bind_apply, read_apply]
  cases d.store.checkWritable with
  | error fault => exact hd
  | ok u => exact ⟨hd.afterDelete id _, trivial⟩

theorem frame (K : String → Prop) :
    Membership.Frame (Directory.Filing K) (Note.Filed Note.Classed K) fun _ => True where
  memory _ hd := hd.memory
  lasting _ hd := hd.lasting
  alike _ _ same hd := hd.alike same
  returned := by
    intro d hd n hn
    obtain ⟨id, hm⟩ := Store.mem_of_returns hd.memory hn
    exact ⟨hd.notes _ hm, id, hd.sound.ids _ hm, hd.keys _ (List.mem_map_of_mem hm)⟩
  saved _ h := keeps_save h
  members g _ hg _ _ :=
    ⟨hg.1.of_item? (Note.item?_setItem_of_ne (by decide) g _), hg.2⟩
  marked _ mark hn _ := hn.mark mark

variable (settings : Settings) {attributes : Attributes}

theorem leads_createAccount (ha : attributes.Lacks "Form") :
    Leads (Directory.Filing K) (Account.create settings attributes) (fun _ d => d.Filing K)
      (Directory.Filing K) := by
  refine Leads.weaken (Account.keeps_create_of_marked (frame K) settings (F := fun _ => True)
    (fun _ _ _ h => h) (fun _ _ _ _ => trivial) fun name request n _ plain hnew => ?_)
    (fun _ hd => ⟨hd, trivial⟩) (fun _ _ hd => hd) fun _ hd => hd
  obtain ⟨unsaved, form⟩ := Account.form_newNote (ha.sublist plain) hnew
  exact Leads.weaken (leads_save_new unsaved (Note.classed_of_item? form)) (fun _ hd => hd.1)
    (fun _ _ hd => ⟨hd.1, hd.2.mark⟩) fun _ hd => hd

theorem keeps_updateAccount (uid : String) (how : UpdateKind) (ha : attributes.Lacks "Form") :
    Keeps (Directory.Filing K) (Account.update settings uid attributes how) fun _ => True := by
  refine Account.keeps_update_of_marked (frame K) settings uid how (fun _ _ _ _ => trivial)
    (fun _ _ _ _ _ => trivial) fun n renamed request changed n' hn _ _ asked h => ?_
  have filed : n'.Filed Note.Classed K := by
    have formless := ha.sublist (Account.plain_sublist_of_asked asked)
    have same := (Account.sameItem_updatedNote h (by decide) formless).trans
      (Account.sameItem_renamedNote (by decide) n renamed)
    obtain ⟨id, hid, known⟩ := hn.2
    exact ⟨hn.1.of_item? same.2, id, same.1.trans hid, known⟩
  exact keeps_ite (fun _ => (keeps_save filed).weaken fun m hm => hm.1.mark)
    fun _ => keeps_pure filed.mark

theorem keeps_deleteAccount (uid : String) :
    Keeps (Directory.Filing K) (Account.delete settings uid) fun _ => True :=
  Account.keeps_delete (frame K) settings uid (fun _ _ _ _ _ => trivial) fun _ id _ _ _ =>
    keeps_delete id

theorem leads_createGroup (ha : attributes.Lacks "Form") :
    Leads (Directory.Filing K) (Group.create attributes) (fun _ d => d.Filing K)
      (Directory.Filing K) := by
  refine Group.leads_create (U := fun _ => True) (fun _ hd => hd) (frame K).keeps_acquire
    (fun aliases => Group.keeps_checkUnused aliases) fun request aliases n hr _ _ hnew => ?_
  obtain ⟨unsaved, form⟩ := Group.form_newNote hnew (ha.sublist (Group.plain_sublist hr))
  exact Leads.weaken (leads_save_new unsaved (Note.classed_of_item? form)) (fun _ hd => hd)
    (fun _ _ hd => hd.1) fun _ hd => hd

theorem leads_updateGroup (uid : String) (how : UpdateKind) (ha : attributes.Lacks "Form") :
    Leads (Directory.Filing K) (Group.update uid attributes how) (fun _ d => d.Filing K)
      (Directory.Filing K) := by
  refine Group.leads_update (frame K) (G := fun _ => True) (C := fun _ _ => True) uid how
    (fun _ hd => hd) (fun _ hd => hd) (fun n aliases _ _ => Group.keeps_checkRename n aliases)
    (fun n request members changed n' hn _ hr _ _ h => ?_) fun n old new _ _ => ?_
  · have filed : n'.Filed Note.Classed K := by
      have same := (Group.sameItem_updatedNote h (by decide)
        (ha.sublist (Group.plain_sublist hr))).trans (Group.sameItem_renamedNote (by decide) n _)
      obtain ⟨id, hid, known⟩ := hn.2
      exact ⟨hn.1.of_item? same.2, id, same.1.trans hid, known⟩
    cases changed with
    | true =>
      exact Leads.weaken (keeps_save filed) (fun _ hd => hd) (fun _ _ hd => ⟨hd.1, trivial⟩)
        fun _ hd => hd
    | false => exact leads_pure fun _ hd => ⟨hd, trivial⟩
  · exact Leads.weaken ((frame K).keeps_rename old trivial) (fun _ hd => hd) (fun _ _ hd => hd.1)
      fun _ hd => hd

theorem leads_deleteGroup (uid : String) :
    Leads (Directory.Filing K) (Group.delete uid) (fun _ d => d.Filing K)
      (Directory.Filing K) :=
  Group.leads_delete (frame K) uid (fun _ hd => hd) fun _ id _ _ _ =>
    Leads.weaken (keeps_delete id) (fun _ hd => hd) (fun _ _ hd => hd.1) fun _ hd => hd

end Filing

end Directory

end AddressBook

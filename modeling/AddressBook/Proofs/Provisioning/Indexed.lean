import AddressBook.Proofs.Provisioning.Account
import AddressBook.Proofs.Provisioning.Group
import AddressBook.Proofs.Provisioning.Run

/-! The ids of notes along a run of calls, whatever the calls are. They are letters and digits, and no
two of them are the same up to case, so that an id leads to one note. -/

namespace AddressBook

open AddressBook.Action Text

namespace Directory

structure Within (K : String → Prop) (d : Directory) : Prop extends d.InMemory where
  keys : ∀ key ∈ d.store.notes.keys, K key

/-- A sound store in memory where an id leads to one note. -/
structure Indexed (d : Directory) : Prop extends d.InMemory where
  alphanumeric : ∀ key ∈ d.store.notes.keys, key.toList.all isAsciiAlphanumeric = true
  distinct : ∀ key ∈ d.store.notes.keys, ∀ other ∈ d.store.notes.keys,
    sameAscii key other = true → key = other

variable {K : String → Prop} {d d' : Directory}

theorem Within.alike (h : d.Within K) (same : Alike d d') : d'.Within K := by
  refine ⟨h.toInMemory.alike same, ?_⟩
  rw [same.notes]
  exact h.keys

theorem Within.afterRefusal (h : d.Within K) (n : Note) : (d.afterRefusal n).Within K :=
  ⟨h.toInMemory.afterRefusal n, h.keys⟩

theorem Within.afterSave (h : d.Within K) {n : Note} (hk : K (d.idFor n).1) :
    (d.afterSave n).Within K := by
  refine ⟨h.toInMemory.afterSave n, fun key hkey => ?_⟩
  rw [notes_afterSave] at hkey
  obtain ⟨entry, he, rfl⟩ := List.mem_map.mp hkey
  rcases Keyed.mem_put he with rfl | he
  · exact hk
  · exact h.keys _ (List.mem_map_of_mem he)

theorem Within.afterDelete (h : d.Within K) (id : String) (journal : List Write) :
    Within K { d with store := d.store.erase id, journal } := by
  refine ⟨h.toInMemory.afterDelete id journal, fun key hkey => ?_⟩
  obtain ⟨entry, he, rfl⟩ := List.mem_map.mp hkey
  exact h.keys _ (List.mem_map_of_mem (Keyed.mem_of_mem_erase he))

theorem Indexed.congr (h : d.Indexed) (memory : d'.InMemory)
    (same : d'.store.notes = d.store.notes) : d'.Indexed := by
  refine ⟨memory, ?_, ?_⟩ <;> rw [same]
  · exact h.alphanumeric
  · exact h.distinct

theorem Continues.indexed (h : d.Continues d') (hd : d.Indexed) : d'.Indexed :=
  hd.congr (h.inMemory hd.toInMemory) h.notes

theorem Indexed.of_within (h : d.Indexed) {id : String} (hu : d.store.Unused id)
    (h' : d'.Within fun key => key ∈ d.store.notes.keys ∨ key = id) : d'.Indexed := by
  refine ⟨h'.toInMemory, fun key hk => ?_, fun key hk other ho same => ?_⟩
  · rcases h'.keys key hk with old | rfl
    · exact h.alphanumeric key old
    · exact hu.alphanumeric
  · rcases h'.keys key hk with old | rfl <;> rcases h'.keys other ho with older | rfl
    · exact h.distinct key old other older same
    · rw [hu.fresh key old] at same
      cases same
    · rw [sameAscii_comm, hu.fresh other older] at same
      cases same
    · rfl

end Directory

namespace Note

def Under (K : String → Prop) (n : Note) : Prop := ∃ id, n.id = some id ∧ K id

variable {K : String → Prop}

theorem Under.of_id {n m : Note} (h : n.Under K) (same : m.id = n.id) : m.Under K := by
  obtain ⟨id, hid, known⟩ := h
  exact ⟨id, same.trans hid, known⟩

end Note

namespace Within

open Directory

variable {K : String → Prop}

theorem keeps_save {n : Note} (h : n.Under K) :
    Keeps (Directory.Within K) (Directory.save n) fun n' => n'.Under K ∧ n'.items = n.items := by
  obtain ⟨id, hid, known⟩ := h
  refine leads_save (fun d hd => ?_) fun d hd => hd.afterRefusal n
  have key : (d.idFor n).1 = id := by rw [idFor_of_id hid]
  refine ⟨hd.afterSave (by rwa [key]), ⟨id, ?_, known⟩, rfl⟩
  rw [stamped, key]

theorem frame (K : String → Prop) :
    Membership.Frame (Directory.Within K) (Note.Under K) fun _ => True where
  memory _ hd := hd.memory
  lasting _ hd := hd.lasting
  alike _ _ same hd := hd.alike same
  returned := by
    intro d hd n hn
    obtain ⟨id, hm⟩ := Store.mem_of_returns hd.memory hn
    exact ⟨id, hd.sound.ids _ hm, hd.keys _ (List.mem_map_of_mem hm)⟩
  saved _ h := keeps_save h
  members _ _ hg _ _ := hg.of_id rfl
  marked _ _ hn _ := hn.of_id rfl

variable (settings : Settings) {attributes : Attributes}

theorem leads_createAccount :
    Leads (fun d => d.Within K ∧ K d.supply.takeId.1) (Account.create settings attributes)
      (fun _ d => d.Within K) (Directory.Within K) := by
  refine Account.keeps_create_of_marked (frame K) settings (fun d d' same h => by rwa [same.supply])
    (fun _ _ _ _ => trivial) fun name request n _ _ hnew => ?_
  have unsaved := Account.id_newNote hnew
  refine leads_save (fun d ⟨hd, known⟩ => ?_) fun d ⟨hd, _⟩ => hd.afterRefusal n
  have key : K (d.idFor n).1 := by rwa [idFor, unsaved]
  exact ⟨hd.afterSave key, fun mark => ⟨(d.idFor n).1, rfl, key⟩⟩

theorem keeps_updateAccount (uid : String) (how : UpdateKind) :
    Keeps (Directory.Within K) (Account.update settings uid attributes how) fun _ => True := by
  refine Account.keeps_update_of_marked (frame K) settings uid how (fun _ _ _ _ => trivial)
    (fun _ _ _ _ _ => trivial) fun n renamed request changed n' hn _ _ _ h => ?_
  have under : n'.Under K := hn.of_id (Account.id_updatedNote h)
  exact keeps_ite (fun _ => (keeps_save under).weaken fun m hm mark => hm.1.of_id rfl)
    fun _ => keeps_pure fun mark => under.of_id rfl

theorem keeps_erase (id : String) :
    Leads (Directory.Within K) (Directory.delete id) (fun _ d => d.Within K)
      (Directory.Within K) :=
  leads_delete (fun _ hd journal => hd.afterDelete id journal) fun _ hd => hd

theorem keeps_deleteAccount (uid : String) :
    Leads (Directory.Within K) (Account.delete settings uid) (fun _ d => d.Within K)
      (Directory.Within K) :=
  Account.leads_delete (frame K) settings uid (fun _ hd => hd) (fun _ _ _ _ _ => trivial)
    fun _ id _ _ _ => keeps_erase id

theorem leads_createGroup :
    Leads (fun d => d.Within K ∧ K d.supply.takeId.1) (Group.create attributes)
      (fun _ d => d.Within K) (Directory.Within K) := by
  refine Group.leads_create (U := fun _ => True) (fun _ hd => hd.1)
    (Action.keeps_acquire (fun d hd => hd.1.lasting)
      fun d d' same hd => ⟨hd.1.alike same, by rw [same.supply]; exact hd.2⟩)
    (fun aliases => Group.keeps_checkUnused aliases) fun request aliases n _ _ _ hnew => ?_
  refine leads_save (fun d ⟨hd, known⟩ => hd.afterSave ?_) fun d ⟨hd, _⟩ => hd.afterRefusal n
  rwa [idFor, Group.id_newNote hnew]

theorem leads_updateGroup (uid : String) (how : UpdateKind) :
    Leads (Directory.Within K) (Group.update uid attributes how) (fun _ d => d.Within K)
      (Directory.Within K) := by
  refine Group.leads_update (frame K) (G := fun _ => True) (C := fun _ _ => True) uid how
    (fun _ hd => hd) (fun _ hd => hd) (fun n aliases _ _ => Group.keeps_checkRename n aliases)
    (fun n request members changed n' hn _ _ _ _ h => ?_) fun n old new _ _ => ?_
  · have under : n'.Under K := hn.of_id (Group.id_updatedNote h)
    cases changed with
    | true =>
      exact Leads.weaken (keeps_save under) (fun _ hd => hd) (fun _ _ hd => ⟨hd.1, trivial⟩)
        fun _ hd => hd
    | false => exact leads_pure fun _ hd => ⟨hd, trivial⟩
  · exact Leads.weaken ((frame K).keeps_rename old trivial) (fun _ hd => hd) (fun _ _ hd => hd.1)
      fun _ hd => hd

theorem leads_run (call : Call) :
    Leads (fun d => d.Within K ∧ K d.supply.takeId.1) (call.run settings)
      (fun _ d => d.Within K) (Directory.Within K) := by
  have kept : ∀ {x : Action Unit}, Leads (Directory.Within K) x (fun _ d => d.Within K)
      (Directory.Within K) → Leads (fun d => d.Within K ∧ K d.supply.takeId.1) x
        (fun _ d => d.Within K) (Directory.Within K) :=
    fun h => Leads.weaken h (fun _ hd => hd.1) (fun _ _ hd => hd) fun _ hd => hd
  cases call with
  | create kind attributes =>
    cases kind with
    | account => exact leads_discard (leads_createAccount settings)
    | group => exact leads_discard leads_createGroup
  | update kind uid attributes how =>
    cases kind with
    | account =>
      refine kept (leads_discard (Leads.weaken (keeps_updateAccount settings uid how)
        (fun _ hd => hd) (fun _ _ hd => hd.1) fun _ hd => hd))
    | group => exact kept (leads_discard (leads_updateGroup uid how))
  | delete kind uid =>
    cases kind with
    | account => exact kept (keeps_deleteAccount settings uid)
    | group =>
      exact kept (Group.leads_delete (frame K) uid (fun _ hd => hd) fun _ id _ _ _ => keeps_erase id)

end Within

theorem Step.indexed {step : Step} (h : step.before.Indexed)
    (hu : step.before.store.Unused step.before.supply.takeId.1) : step.after.Indexed :=
  h.of_within hu <| after_of_leads (Within.leads_run step.settings step.call)
    ⟨⟨h.toInMemory, fun _ hk => Or.inl hk⟩, Or.inr rfl⟩

/-- In every state of a run from an empty directory, an id leads to one note. -/
theorem Run.indexed {start d : Directory} {steps : List Step} (hs : start.Empty)
    (run : Run start steps d) : d.Indexed := by
  have first : start.Indexed := by
    refine ⟨hs.inMemory, ?_, ?_⟩ <;> rw [hs.notes]
    · exact fun _ h => absurd h List.not_mem_nil
    · exact fun _ h => absurd h List.not_mem_nil
  exact run.always first (fun _ _ => trivial) fun _ _ _ resumes before =>
    Step.indexed (resumes.indexed before) resumes.unused

end AddressBook

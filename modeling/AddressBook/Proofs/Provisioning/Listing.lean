import AddressBook.Proofs.Name.Folding
import AddressBook.Proofs.Provisioning.Regimen

/-! The members of notes along a run of calls, whatever the calls are. Every call renders the members
that it writes, in groups and in notes of any other class, so that all of them are canonical. -/

namespace AddressBook

open AddressBook.Action Provisioning Text

namespace Note

/-- Members are texts of canonical renderings, under whatever spelling they are held. -/
def ListsCanonical (n : Note) : Prop := n.Lists fun name => Name.IsCanonical name.text

theorem ListsCanonical.isCanonical {n : Note} (h : n.ListsCanonical) :
    ∀ m ∈ n.members, Name.IsCanonical m := by
  intro m hm
  obtain ⟨name, canonical, same⟩ := h _ (holds_of_mem_texts hm)
  cases same
  exact canonical

theorem enduring_lists (named : CanonicalName → Prop) : Enduring (Note.Lists named) named where
  congr n m h items _ := by
    intro v hv
    rw [Holds, items] at hv
    exact h v hv
  setMembers g members h _ change := h.setMembers change.sources
  mark n mark h _ := h.setItem (by decide) _

end Note

theorem Attributes.nameMembers_isCanonical (attributes : Attributes) :
    attributes.NameMembers fun name => Name.IsCanonical name.text := fun raw _ _ found => ⟨raw, found⟩

namespace Account

variable {settings : DirectorySettings} {n n' : Note} {request : Request}

theorem isCanonical_nameOf {raw : String} {name : CanonicalName}
    (h : nameOf settings raw = .ok name) : Name.IsCanonical name.text := by
  rw [nameOf] at h
  obtain ⟨given, read, h⟩ := bind_eq_ok h
  split at h
  · cases h
    exact ⟨_, read⟩
  · obtain ⟨parsed, _, h⟩ := bind_eq_ok h
    split at h
    · exact ⟨_, h⟩
    · cases h
      exact ⟨_, read⟩

theorem isCanonical_storedName {name : CanonicalName} (h : storedName n = .ok name) :
    Name.IsCanonical name.text := by
  rw [storedName] at h
  split at h
  · cases h
  · exact ⟨_, h⟩

theorem listsCanonical_storePassword {password : Secret} (hn : n.ListsCanonical)
    (h : storePassword settings n password = .ok n') : n'.ListsCanonical := by
  obtain ⟨new, -, -, rfl⟩ := storePassword_ok h
  exact hn.setItem (by decide) _

theorem listsCanonical_newNote {name : CanonicalName}
    (h : newNote settings name request = .ok n) : n.ListsCanonical := by
  obtain ⟨n₁, n₂, written, defaults, stored⟩ := newNote_ok h
  have first : n₁.ListsCanonical :=
    Regularity.lists_of_brings request.plain.nameMembers_isCanonical
      ((Note.lists_ofClass .account).setItem (by decide) _) (.refl _)
      fun _ => holds_of_fillNew written
  have others : ∀ w ∈ defaulted, sameAscii w "Members" = false := by decide
  have second : n₂.ListsCanonical :=
    keeps_withDefaults (fun m hm w hw values => Note.Lists.setItem hm (others w hw) values) first
      defaults
  rcases stored with rfl | ⟨password, stored⟩
  · exact second
  · exact listsCanonical_storePassword second stored

theorem listsCanonical_updatedNote {renamed : Option CanonicalName} {how : UpdateKind}
    {changed : Bool} (hn : n.ListsCanonical)
    (h : updatedNote settings n renamed request how = .ok (changed, n')) : n'.ListsCanonical := by
  obtain ⟨_, n₁, first, updated⟩ := updatedNote_ok h
  have before : (renamedNote n renamed).ListsCanonical := by
    cases renamed with
    | none => exact hn
    | some name => exact hn.setItem (by decide) _
  have written : n₁.ListsCanonical := by
    rcases first with rfl | ⟨password, stored⟩
    · exact before
    · exact listsCanonical_storePassword before stored
  exact Regularity.lists_of_brings request.plain.nameMembers_isCanonical written (.refl _)
    fun _ => holds_of_updateAll updated

end Account

namespace Directory

abbrev Listing (d : Directory) : Prop := d.Stocked Note.ListsCanonical fun _ => True

namespace Listing

open AddressBook.Membership

theorem enduring : Enduring Note.ListsCanonical fun name => Name.IsCanonical name.text :=
  Note.enduring_lists _

theorem frame : Frame Directory.Listing (Note.Filed Note.ListsCanonical fun _ => True)
    fun name => Name.IsCanonical name.text := enduring.frame _

variable (settings : Settings) {attributes : Attributes}

theorem leads_createAccount :
    Leads (fun d => d.Listing ∧ True) (Account.create settings attributes) (fun _ d => d.Listing)
      Directory.Listing := by
  refine Account.keeps_create_of_marked frame settings (fun _ _ _ h => h)
    (fun _ _ _ h => Account.isCanonical_nameOf h) fun name request n _ _ hnew => ?_
  have lists := Account.listsCanonical_newNote hnew
  refine Leads.weaken (enduring.leads_save_new (Account.id_newNote hnew) fun id => lists)
    (fun _ hd => hd) (fun m _ hd => ⟨hd.1, fun mark => ⟨?_, hd.2.1.2⟩⟩) fun _ hd => hd
  exact hd.2.1.1.setItem (by decide) _

theorem keeps_updateAccount (uid : String) (how : UpdateKind) :
    Keeps Directory.Listing (Account.update settings uid attributes how) fun _ => True := by
  refine Account.keeps_update_of_marked frame settings uid how
    (fun _ _ _ h => Account.isCanonical_nameOf h) (fun _ _ _ _ h => Account.isCanonical_storedName h)
    fun n renamed request changed n' hn _ _ _ h => ?_
  obtain ⟨lists, id, hid, known⟩ := hn
  have filed : n'.Filed Note.ListsCanonical fun _ => True :=
    ⟨Account.listsCanonical_updatedNote lists h, id, (Account.id_updatedNote h).trans hid, known⟩
  have marked : ∀ m : Note, m.Filed Note.ListsCanonical (fun _ => True) → ∀ mark,
      (m.setText "CheckPassword" mark).Filed Note.ListsCanonical fun _ => True :=
    fun m hm mark => ⟨hm.1.setItem (by decide) _, hm.2⟩
  exact keeps_ite (fun _ => (enduring.keeps_save filed).weaken fun m hm => marked m hm.1)
    fun _ => keeps_pure (marked n' filed)

theorem keeps_deleteAccount (uid : String) :
    Leads Directory.Listing (Account.delete settings uid) (fun _ d => d.Listing)
      Directory.Listing :=
  Account.leads_delete frame settings uid (fun _ hd => hd)
    (fun _ _ _ _ h => Account.isCanonical_storedName h) fun _ id _ _ _ => Discipline.keeps_erase id

theorem leads_createGroup :
    Leads (fun d => d.Listing ∧ True) (Group.create attributes) (fun _ d => d.Listing)
      Directory.Listing := by
  refine Group.leads_create (U := fun _ => True) (fun _ hd => hd.1)
    (Action.keeps_acquire (fun d hd => hd.1.lasting) fun d d' same hd => ⟨hd.1.alike same, trivial⟩)
    (fun aliases => Group.keeps_checkUnused aliases)
    fun request aliases n hrequest _ _ hnew => ?_
  have lists := Regularity.lists_newGroup attributes.nameMembers_isCanonical hrequest hnew
  exact Leads.weaken (enduring.leads_save_new (Group.id_newNote hnew) fun id => lists)
    (fun _ hd => hd) (fun _ _ hd => hd.1) fun _ hd => hd

theorem leads_updateGroup (uid : String) (how : UpdateKind) :
    Leads Directory.Listing (Group.update uid attributes how) (fun _ d => d.Listing)
      Directory.Listing := by
  refine Group.leads_update frame (G := fun _ => True) (C := fun _ _ => True) uid how
    (fun _ hd => hd) (fun _ hd => hd) (fun n aliases _ _ => Group.keeps_checkRename n aliases)
    (fun n request members changed n' hn _ hrequest hmembers _ h => ?_) fun n old new _ hnew => ?_
  · obtain ⟨lists, id, hid, known⟩ := hn
    have filed : n'.Filed Note.ListsCanonical fun _ => True :=
      ⟨Regularity.lists_updatedGroup attributes.nameMembers_isCanonical hrequest hmembers lists h,
        id, (Group.id_updatedNote h).trans hid, known⟩
    cases changed with
    | true =>
      exact Leads.weaken (enduring.keeps_save filed) (fun _ hd => hd)
        (fun _ _ hd => ⟨hd.1, trivial⟩) fun _ hd => hd
    | false => exact leads_pure fun _ hd => ⟨hd, trivial⟩
  · exact Leads.weaken (frame.keeps_rename old ⟨_, hnew⟩) (fun _ hd => hd) (fun _ _ hd => hd.1)
      fun _ hd => hd

theorem leads_run (call : Call) :
    Leads (fun d => d.Listing ∧ True) (call.run settings) (fun _ d => d.Listing)
      Directory.Listing := by
  have kept : ∀ {x : Action Unit}, Leads Directory.Listing x (fun _ d => d.Listing)
      Directory.Listing → Leads (fun d => d.Listing ∧ True) x (fun _ d => d.Listing)
        Directory.Listing :=
    fun h => Leads.weaken h (fun _ hd => hd.1) (fun _ _ hd => hd) fun _ hd => hd
  cases call with
  | create kind attributes =>
    cases kind with
    | account => exact leads_discard (leads_createAccount settings)
    | group => exact leads_discard leads_createGroup
  | update kind uid attributes how =>
    cases kind with
    | account =>
      exact kept (leads_discard (Leads.weaken (keeps_updateAccount settings uid how)
        (fun _ hd => hd) (fun _ _ hd => hd.1) fun _ hd => hd))
    | group => exact kept (leads_discard (leads_updateGroup uid how))
  | delete kind uid =>
    cases kind with
    | account => exact kept (keeps_deleteAccount settings uid)
    | group =>
      exact kept (Group.leads_delete frame uid (fun _ hd => hd) fun _ id _ _ _ =>
        Discipline.keeps_erase id)

end Listing

end Directory

theorem Run.listing {start d : Directory} {steps : List Step} (hs : start.Empty)
    (run : Run start steps d) : d.Listing :=
  run.stocked hs fun step _ => Directory.Listing.leads_run step.settings step.call

end AddressBook

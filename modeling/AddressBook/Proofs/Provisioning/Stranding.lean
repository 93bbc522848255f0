import AddressBook.Proofs.Provisioning.Malformed
import AddressBook.Proofs.Provisioning.Rejection

/-! New accounts that are left behind. An account is saved before the groups that it is put in are
looked up. Those that are listed were looked up earlier; deny lists were not, and where one of them is
not there the creation fails when the account is saved already. From then on its name is taken. -/

namespace AddressBook

open AddressBook.Action Provisioning

def Store.HasAccount (s : Store) (name : CanonicalName) : Prop :=
  ∃ entry ∈ s.notes, entry.2.isNamed name = true

theorem Store.hasAccount_congr {s s' : Store} (same : s'.notesOf .account = s.notesOf .account)
    (name : CanonicalName) : s'.HasAccount name ↔ s.HasAccount name := by
  have among : ∀ s : Store, s.HasAccount name ↔ ∃ n ∈ s.notesOf .account, n.isNamed name = true := by
    intro s
    constructor
    · rintro ⟨⟨id, n⟩, he, named⟩
      have account : n.isClass .account = true := by
        rw [Note.isNamed, Bool.and_eq_true] at named
        exact named.1
      exact ⟨n, mem_notesOf.mpr ⟨⟨id, he⟩, account⟩, named⟩
    · rintro ⟨n, hn, named⟩
      obtain ⟨⟨id, he⟩, -⟩ := mem_notesOf.mp hn
      exact ⟨(id, n), he, named⟩
  rw [among, among, same]

namespace Account

variable {settings : Settings} {attributes : Attributes} {d d' e e₁ : Directory} {fault : Fault}
  {c : Creation} {n : Note}

/-- The deny lists that a new account is put on once its note is saved. -/
def Creation.denyLists (c : Creation) (settings : DirectorySettings) : List String :=
  if c.request.enable = some false then (denyGroups settings c.request.denyGroups).getD [] else []

def Creation.groups (c : Creation) (settings : DirectorySettings) : List String :=
  Membership.displayNames (c.request.groups.getD []) ++ c.denyLists settings

/-- A creation that saves a new account, and then does not find one of these groups. -/
def StrandsFor (groups : Creation → List String) (settings : Settings) (attributes : Attributes)
    (d : Directory) : Prop :=
  ∃ name d₁ c, givenName settings.directory attributes = .ok name ∧
    Directory.acquire d = .ok () d₁ ∧
    creation settings.directory name (attributes.takeText Schema.nameAttribute).2 d₁.store = .ok c ∧
    ∃ group ∈ groups c, ¬ (d₁.afterSave c.note).store.Knows group

def Strands (settings : Settings) (attributes : Attributes) (d : Directory) : Prop :=
  StrandsFor (·.groups settings.directory) settings attributes d

/-- The creation is refused since an account of the name is there already. -/
def FindsTaken (settings : Settings) (attributes : Attributes) (d : Directory) : Prop :=
  ∃ taken d', create settings attributes d = .error (.alreadyExists .account taken) d'

theorem knows_of_checkGroupsIn {groups : List String} {s : Store}
    (h : checkGroupsIn groups s = .ok ()) : ∀ group ∈ groups, s.Knows (Alias.display group) := by
  induction groups with
  | nil => exact fun _ hgroup => absurd hgroup List.not_mem_nil
  | cons group groups ih =>
    obtain ⟨⟨⟩, checked, rest⟩ := bind_eq_ok h
    obtain ⟨found, looked, present⟩ := bind_eq_ok checked
    refine List.forall_mem_cons.mpr ⟨?_, ih rest⟩
    split at present
    · cases present
    · next known =>
      refine (Store.isSome_groupByAlias looked).mp ?_
      rwa [Option.isNone_iff_eq_none, ← ne_eq, Option.ne_none_iff_isSome] at known

theorem knows_listed {name : CanonicalName} {rest : Attributes} {s : DirectorySettings}
    (hs : d.store.Sound) (unused : d.store.notes.get? (d.idFor c.note).1 = none)
    (made : creation s name rest d.store = .ok c) {group : String}
    (listed : group ∈ Membership.displayNames (c.request.groups.getD [])) :
    (d.afterSave c.note).store.Knows group := by
  obtain ⟨found, _, made⟩ := bind_eq_ok made
  cases found with
  | some other => cases made
  | none =>
    obtain ⟨⟨⟩, checked, made⟩ := bind_eq_ok made
    obtain ⟨request, asked, made⟩ := bind_eq_ok made
    obtain ⟨n, _, made⟩ := bind_eq_ok made
    cases made
    obtain ⟨_, _, asked⟩ := bind_eq_ok asked
    cases asked
    obtain ⟨given, hgiven, rfl⟩ := Membership.mem_displayNames listed
    obtain ⟨⟨id, g⟩, held, has⟩ := knows_of_checkGroupsIn checked given hgiven
    have stands := hs.get?_of_mem held
    refine ⟨(id, g), Keyed.mem_of_get? ?_, has⟩
    rw [Directory.notes_afterSave, Keyed.get?_put_of_ne, stands]
    rintro rfl
    cases unused.symm.trans stands

theorem strands_iff (hs : d.store.Sound) (unused : d.store.notes.get? d.supply.takeId.1 = none) :
    Strands settings attributes d ↔
      StrandsFor (·.denyLists settings.directory) settings attributes d := by
  constructor
  · rintro ⟨name, d₁, c, named, acquires, made, group, listed, unknown⟩
    obtain ⟨-, -, -, written⟩ := creation_ok made
    have sound : d₁.store.Sound := by
      rw [(acquire_ok acquires).1]
      exact sound_acquired hs
    have unused : d₁.store.notes.get? (d₁.idFor c.note).1 = none := by
      have supply : (acquired d).supply = d.supply := by
        rw [acquired]
        split <;> rfl
      rw [Directory.idFor, id_newNote written, (acquire_ok acquires).1, supply]
      rcases (store_acquired d).2 with same | none
      · rw [same, unused]
      · rw [none]
        rfl
    refine ⟨name, d₁, c, named, acquires, made, group, ?_, unknown⟩
    rcases List.mem_append.mp listed with listed | listed
    · exact absurd (knows_listed sound unused made listed) unknown
    · exact listed
  · rintro ⟨name, d₁, c, named, acquires, made, group, listed, unknown⟩
    exact ⟨name, d₁, c, named, acquires, made, group, List.mem_append_right _ listed, unknown⟩

theorem settle_error {s : Store} (hd : d.KeepsTexts s) (hs : s.Sound)
    (h : c.settle settings n d = .error fault d') :
    fault.ofStore s.backing = true ∨ ∃ group ∈ c.groups settings.directory, ¬ s.Knows group := by
  rw [Creation.settle_eq] at h
  rcases bind_error_iff.mp h with failed | ⟨⟨⟩, d₁, regrouped, failed⟩
  · rw [Creation.regroup] at failed
    split at failed
    · refine (Membership.ofStore_of_updateGroups hd hs failed).imp_right ?_
      rintro ⟨group, listed, unknown⟩
      exact ⟨group, List.mem_append_left _ listed, unknown⟩
    · cases failed
  · have kept := (keeps_regroup_creation (Membership.upkeep_texts s) c settings trivial).ok hd regrouped
    rw [Creation.access] at failed
    split at failed
    · next disables =>
      refine (Membership.ofStore_of_disable kept.1 hs failed).imp_right ?_
      rintro ⟨group, listed, unknown⟩
      refine ⟨group, List.mem_append_right _ ?_, unknown⟩
      rwa [Creation.denyLists, if_pos disables]
    · cases failed

theorem carryOut_error (h : c.carryOut settings d = .error fault d') :
    (∃ record cause, fault = .noteSave record cause) ∨
      c.settle settings (d.stamped c.note) (d.afterSave c.note) = .error fault d' := by
  rcases bind_error_iff.mp h with refused | ⟨m, d₁, saved, h⟩
  · exact Or.inl (Directory.refused_of_save refused)
  obtain ⟨rfl, rfl⟩ := Directory.save_ok saved
  rcases bind_error_iff.mp h with unnamed | ⟨id, d₂, named, h⟩
  · cases unnamed
  rw [(reads_lift (idOf _)).ok named] at h
  rcases bind_error_iff.mp h with failed | ⟨⟨⟩, _, _, returned⟩
  · exact Or.inr failed
  · cases returned

theorem sound_afterSave {d₁ : Directory} (hs : d.store.Sound)
    (acquires : Directory.acquire d = .ok () d₁) (n : Note) : (d₁.afterSave n).store.Sound := by
  refine Store.Sound.spend (Store.Sound.put ?_ rfl)
  rw [(acquire_ok acquires).1]
  exact sound_acquired hs

theorem keepsTexts_stamped (d : Directory) (n : Note) (mark : String) :
    ((d.stamped n).setText "CheckPassword" mark).KeepsTexts (d.afterSave n).store := by
  refine Note.KeepsTexts.congr (n := d.stamped n) ⟨_, rfl, fun m stands => ?_⟩ rfl
    (Note.resembles_mark _ mark)
  obtain rfl : d.stamped n = m := by simpa using stands
  exact .refl _

theorem cautious_create (settings : Settings) (attributes : Attributes) (hs : d.store.Sound) :
    Cautious (fun fault => fault.ofStore d.store.backing = true ∨ Strands settings attributes d)
      (create settings attributes) d := by
  rw [create_eq]
  refine (reads_lift (givenName settings.directory attributes)).bind_cautious fun name lifted => ?_
  obtain ⟨named, -⟩ := lift_ok_iff.mp lifted
  refine cautious_acquire_bind fun d₁ acquires => ?_
  refine (reads_read _).bind_cautious fun c read => ?_
  intro fault d' failed
  have sound := sound_afterSave hs acquires c.note
  have backing : (d₁.afterSave c.note).store.backing = d.store.backing := by
    rw [Directory.backing_afterSave, (acquire_ok acquires).1]
    exact (store_acquired d).1
  left
  rcases carryOut_error failed with ⟨record, cause, rfl⟩ | failed
  · exact Or.inl rfl
  · rw [← backing]
    refine (settle_error (.refl sound) sound failed).imp_right ?_
    rintro ⟨group, listed, unknown⟩
    exact ⟨name, d₁, c, named, acquires, (read_ok_iff.mp read).1, group, listed, unknown⟩

theorem isNamed_newNote {settings : DirectorySettings} {name : CanonicalName} {request : Request}
    (lacks : request.plain.Lacks "Form") (h : newNote settings name request = .ok n) :
    n.isNamed name = true := by
  have full : n.text? "FullName" = some name.text := by
    rw [Note.text?, fullName_newNote h]
    rfl
  rw [Note.isNamed, Note.isClass_of_form (form_newNote lacks h).2, full]
  exact Text.sameName_refl _

theorem fails_settle_creation {backing : Backing} (c : Creation) (settings : Settings) (n : Note) :
    Fails backing (·.IsLate backing) (c.settle settings n) := by
  rw [Creation.settle_eq]
  refine Fails.bind (fails_ite (Membership.fails_updateGroups _ _ _ _) (fails_pure ())) fun _ => ?_
  exact fails_ite (fails_setEnabled _ n _ _ _) (fails_pure ())

/-- A creation that fails after the save leaves the account behind. -/
theorem left_behind {name : CanonicalName} {d₁ : Directory} (hs : d.store.Sound)
    (h : create settings attributes d = .error fault d')
    (unrefused : fault.ofStore d.store.backing = false)
    (named : givenName settings.directory attributes = .ok name)
    (acquires : Directory.acquire d = .ok () d₁)
    (made : creation settings.directory name (attributes.takeText Schema.nameAttribute).2 d₁.store =
      .ok c) :
    (d₁.afterSave c.note).journal <+: d'.journal ∧
      ∃ m ∈ d'.store.notes, m.2.Resembles (d₁.stamped c.note) := by
  have failed : c.carryOut settings d₁ = .error fault d' := by
    rw [create_eq, bind_apply, named] at h
    change (Directory.acquire >>= _) d = _ at h
    rw [bind_apply, acquires] at h
    change (Directory.read _ >>= _) d₁ = _ at h
    rw [bind_apply, read_apply, made] at h
    exact h
  rcases carryOut_error failed with ⟨record, cause, rfl⟩ | failed
  · cases unrefused
  have sound := sound_afterSave hs acquires c.note
  have grown := (keeps_settle_creation_of_marked
    (Membership.upkeep_journal (d₁.afterSave c.note).journal) c settings (n := d₁.stamped c.note)
      (fun _ => trivial) trivial).reaches (List.prefix_refl _) (Or.inr ⟨fault, failed⟩)
  have kept := (keeps_settle_creation_of_marked
    (Membership.upkeep_texts (d₁.afterSave c.note).store) c settings (n := d₁.stamped c.note)
      (keepsTexts_stamped d₁ c.note) trivial).reaches (.refl sound) (Or.inr ⟨fault, failed⟩)
  refine ⟨grown, ?_⟩
  have stands : (d₁.afterSave c.note).store.notes.get? (d₁.idFor c.note).1 =
      some (d₁.stamped c.note) := by
    simp
  obtain ⟨m, held, same⟩ := kept.kept _ _ stands
  exact ⟨_, Keyed.mem_of_get? held, same⟩

theorem exists_accountByName {s : Store} {accounts : List Note}
    (readable : s.ofClass .account = .ok accounts) (name : CanonicalName) :
    ∃ found, s.accountByName name = .ok found ∧ (found.isSome = true ↔ s.HasAccount name) := by
  have found : s.accountByName name = .ok (accounts.find? (·.isNamed name)) := by
    rw [Store.accountByName, readable]
    rfl
  exact ⟨_, found, Store.isSome_accountByName found⟩

theorem findsTaken_iff (acquires : Directory.acquire e = .ok () e₁) {accounts : List Note}
    (readable : e₁.store.ofClass .account = .ok accounts) :
    FindsTaken settings attributes e ↔
      ∃ name, givenName settings.directory attributes = .ok name ∧ e₁.store.HasAccount name := by
  constructor
  · rintro ⟨taken, e', h⟩
    rw [create_eq] at h
    rcases bind_error_iff.mp h with failed | ⟨name, _, lifted, h⟩
    · cases given : givenName settings.directory attributes with
      | error other =>
        rw [given] at failed
        cases failed
        cases failsMalformed_givenName settings.directory attributes _ given
      | ok name =>
        rw [given] at failed
        cases failed
    obtain ⟨named, rfl⟩ := lift_ok_iff.mp lifted
    rcases bind_error_iff.mp h with failed | ⟨⟨⟩, _, found, h⟩
    · cases failed.symm.trans acquires
    cases found.symm.trans acquires
    rcases bind_error_iff.mp h with failed | ⟨c, _, read, h⟩
    · obtain ⟨refused, -⟩ := read_error_iff.mp failed
      obtain ⟨-, other, looked⟩ := creation_eq_alreadyExists_iff.mp refused
      exact ⟨name, named, (Store.isSome_accountByName looked).mp rfl⟩
    · rcases carryOut_error h with ⟨_, _, refused⟩ | failed
      · cases refused
      · rcases (fails_settle_creation c settings _).error failed with store | ⟨_, unknown⟩
        · cases store
        · cases unknown
  · rintro ⟨name, named, has⟩
    obtain ⟨found, looked, known⟩ := exists_accountByName readable name
    obtain ⟨other, rfl⟩ := Option.isSome_iff_exists.mp (known.mpr has)
    refine ⟨name.text, e₁, ?_⟩
    rw [create_eq]
    refine bind_error_iff.mpr (Or.inr ⟨name, e, lift_ok_iff.mpr ⟨named, rfl⟩, ?_⟩)
    refine bind_error_iff.mpr (Or.inr ⟨(), e₁, acquires, bind_error_iff.mpr (Or.inl ?_)⟩)
    exact read_error_iff.mpr ⟨creation_eq_alreadyExists_iff.mpr ⟨rfl, other, looked⟩, rfl⟩

def Unclaimed (settings : Settings) (attributes : Attributes) (s : Store) : Prop :=
  ∀ name, givenName settings.directory attributes = .ok name → ¬ s.HasAccount name

/-- The accounts of the one directory are found in the other. -/
def FindsAccountsOf (d e : Directory) : Prop :=
  ∃ e₁ accounts, Directory.acquire e = .ok () e₁ ∧
    e₁.store.notesOf .account = d.store.notesOf .account ∧ e₁.store.ofClass .account = .ok accounts

/-- A creation that fails, and not for a fault of the store, has written nothing exactly if it does
not strand. Under an id that is not in use it strands for want of a deny list only. Where the name was
free before, the same call finds it taken later on, with the accounts still being the same, only if it
stranded; and then it does, unless a form was given. -/
theorem unwritten_of_create_iff (hs : d.store.Sound)
    (h : create settings attributes d = .error fault d')
    (unrefused : fault.ofStore d.store.backing = false) :
    (Unwritten d d' ↔ ¬ Strands settings attributes d) ∧
      (d.store.notes.get? d.supply.takeId.1 = none →
        (Strands settings attributes d ↔
          StrandsFor (·.denyLists settings.directory) settings attributes d)) ∧
      (Unclaimed settings attributes d.store → ∀ e, FindsAccountsOf d' e →
        (FindsTaken settings attributes e → Strands settings attributes d) ∧
          (attributes.Lacks "Form" → Strands settings attributes d →
            FindsTaken settings attributes e)) := by
  have unwritten : ¬ Strands settings attributes d → Unwritten d d' := by
    intro steady
    rcases cautious_create settings attributes hs fault d' h with late | unwritten
    · rcases late with store | strands
      · rw [unrefused] at store
        cases store
      · exact absurd strands steady
    · exact unwritten
  refine ⟨⟨?_, unwritten⟩, strands_iff hs, ?_⟩
  · rintro nothing ⟨name, d₁, c, named, acquires, made, -⟩
    -- The save of the account is one entry more in the journal.
    have grown := (left_behind hs h unrefused named acquires made).1.length_le
    rw [nothing.journal, Directory.afterSave, List.length_append, (acquire_ok acquires).1,
      journal_acquired, List.length_singleton] at grown
    exact Nat.not_succ_le_self _ grown
  rintro free e ⟨e₁, accounts, acquires, same, readable⟩
  constructor
  · intro taken
    obtain ⟨name, named, has⟩ := (findsTaken_iff acquires readable).mp taken
    refine Classical.byContradiction fun steady => ?_
    obtain ⟨entry, held, has⟩ := (Store.hasAccount_congr same name).mp has
    refine free name named ⟨entry, ?_, has⟩
    rcases (unwritten steady).same with rfl | rfl
    · exact held
    · rcases (store_acquired d).2 with kept | none
      · rwa [kept] at held
      · rw [none] at held
        cases held
  · rintro formless ⟨name, d₁, c, named, acquired, made, -⟩
    obtain ⟨m, held, resembles⟩ := (left_behind hs h unrefused named acquired made).2
    refine (findsTaken_iff acquires readable).mpr ⟨name, named, ?_⟩
    refine (Store.hasAccount_congr same name).mpr ⟨m, held, ?_⟩
    rw [resembles.isNamed]
    obtain ⟨-, -, asked, written⟩ := creation_ok made
    have lacks := formless.sublist ((plain_sublist asked).trans (Attributes.take_sublist _ _))
    have isNamed := isNamed_newNote lacks written
    exact isNamed

/-! An account that is to be disabled by a deny list, or put in a group, that is not there. -/

def denied : Attributes :=
  [("DenyGroups", [.text "Nope"]), (Schema.enableAttribute, [.boolean false]),
    (Schema.nameAttribute, [.text "Ann Lee/Acme"])]

def enlisted : Attributes :=
  [("GroupList", [.text "Nope"]), (Schema.nameAttribute, [.text "Ann Lee/Acme"])]

/-- A creation that fails, and is not refused a save, may have written something. -/
theorem not_always_unwritten_of_create :
    ¬ ∀ settings attributes d fault d', create settings attributes d = .error fault d' →
      (∀ record cause, fault ≠ .noteSave record cause) → Unwritten d d' := by
  intro always
  have fails : fault? (create {} denied {}) = some (.unknownGroup "Nope") := by decide +kernel
  have unwritten := always _ _ _ _ _ (error_of_fault? fails) fun _ _ => Fault.noConfusion
  have written : (ended (create {} denied) {}).journal ≠ [] := by decide +kernel
  exact written unwritten.journal

theorem unwritten_of_create_iff_sample :
    ∃ d', create {} enlisted {} = .error (.unknownGroup "Nope") d' ∧ Unwritten {} d' ∧
      ¬ FindsTaken {} enlisted d' := by
  have fails : fault? (create {} enlisted {}) = some (.unknownGroup "Nope") := by decide
  have run := error_of_fault? fails
  have empty : ({} : Directory).Empty := ⟨rfl, rfl, rfl⟩
  obtain ⟨written, -, taken⟩ := unwritten_of_create_iff empty.inMemory.sound run rfl
  have steady : ¬ Strands {} enlisted {} := by
    rintro ⟨name, d₁, c, named, acquires, made, -⟩
    have stops : (givenName {} enlisted >>= fun name => creation {} name
        (enlisted.takeText Schema.nameAttribute).2 (acquired {}).store).toOption.isSome = false := by
      decide
    rw [named, ← (acquire_ok acquires).1] at stops
    change (creation _ _ _ _).toOption.isSome = false at stops
    rw [made] at stops
    cases stops
  have unwritten := written.mpr steady
  have memory := empty.inMemory.alike (unwritten.alike rfl)
  have reached : isOk (Directory.acquire (ended (create {} enlisted) {})) = true := by decide
  obtain ⟨e₁, acquires⟩ := exists_of_isOk reached
  have alike := alike_of_acquire acquires memory.lasting
  have faithful := Store.faithful_of_memory (memory.alike alike).memory
  have readable := Store.ofClass_eq faithful .account
  rw [Store.checkReadable_of_memory (memory.alike alike).memory] at readable
  have same : e₁.store.notesOf .account =
      (ended (create {} enlisted) {}).store.notesOf .account := by
    rw [Store.notesOf, Store.notesOf, Store.all, Store.all, alike.notes]
  refine ⟨_, run, unwritten, fun again => steady ?_⟩
  refine (taken ?_ _ ⟨e₁, _, acquires, same, readable⟩).1 again
  rintro name - ⟨entry, held, -⟩
  cases held

end Account

end AddressBook

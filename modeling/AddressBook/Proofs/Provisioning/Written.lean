import AddressBook.Proofs.Directory.Outcome
import AddressBook.Proofs.Provisioning.CarryingOut
import AddressBook.Proofs.Provisioning.Naming
import AddressBook.Proofs.Provisioning.Reading

/-! What a call leaves that returned a uid. One note was written under one id; apart from the members
of groups and the marks of accounts, everything else that notes tell is as before. -/

namespace AddressBook

open AddressBook.Action Text

theorem Note.aliases_of_items {n m : Note} (h : n.items = m.items) : n.aliases = m.aliases := by
  have listed : n.item? "ListName" = m.item? "ListName" := by
    unfold item?
    rw [h]
  rw [aliases, aliases, texts_congr listed]

namespace Directory

variable {d d₀ d₁ d₂ : Directory} {id : String} {m : Note}

/-- Of what notes tell besides members and marks, all is as before but for the note under the id. -/
structure Wrote (d d' : Directory) (id : String) (m : Note) : Prop extends d'.InMemory where
  named : m.id = some id
  tables : ∀ {α : Type} {f : Note → Option α}, Steady f →
    d'.store.table f = (d.store.table f).set id (f m)

theorem Wrote.of_save (hd : d.InMemory) {n : Note} (h : Directory.save n d = .ok m d₁) :
    d.Wrote d₁ (d.idFor n).1 m := by
  obtain ⟨rfl, rfl⟩ := save_ok h
  refine ⟨hd.afterSave n, rfl, fun {α f} hf => ?_⟩
  have told : d.Tells f (d.store.table f) := ⟨hd, rfl⟩
  rw [(told.afterSave hf n).table, hf.of_items (n := d.stamped n) (m := n) rfl]

theorem Wrote.of_get? (hd : d.InMemory) (h : d.store.notes.get? id = some m) : d.Wrote d id m := by
  refine ⟨hd, hd.sound.id_of_get? h, fun {α f} _ => ?_⟩
  rw [Table.set_eq_self]
  rw [Store.table, h]
  rfl

theorem Wrote.of_continues (continues : d.Continues d₀) (h : d₀.Wrote d₁ id m) :
    d.Wrote d₁ id m := by
  refine ⟨h.toInMemory, h.named, fun {α f} hf => ?_⟩
  rw [h.tables hf, Store.table_congr continues.notes]

theorem Wrote.told (h : d.Wrote d₁ id m) {α : Type} {f : Note → Option α} (hf : Steady f) :
    m.Told f (d₁.store.table f) :=
  ⟨id, h.named, by rw [h.tables hf]; exact if_pos rfl⟩

theorem Wrote.keeps (h : d.Wrote d₁ id m) {β : Type} {x : Action β}
    (hx : ∀ {α : Type} {f : Note → Option α}, Steady f →
      Keeps (Tells f (d₁.store.table f)) x fun _ => True)
    {b : β} (run : x d₁ = .ok b d₂) : d.Wrote d₂ id m := by
  have kept : ∀ {α : Type} {f : Note → Option α}, Steady f → d₂.Tells f (d₁.store.table f) :=
    fun hf => ((hx hf).ok ⟨h.toInMemory, rfl⟩ run).1
  refine ⟨(kept Note.steady_listed?).toInMemory, h.named, fun hf => ?_⟩
  rw [(kept hf).table, h.tables hf]

theorem Wrote.aliasTable (h : d.Wrote d₁ id m) (group : m.isClass .group = true) :
    d₁.store.aliasTable = d.store.aliasTable.set id (some m.aliases) := by
  have listed : m.listed? = some m.aliases := by rw [Note.listed?, if_pos group]
  rw [← listed]
  exact h.tables Note.steady_listed?

theorem Wrote.stands (h : d.Wrote d₁ id m) :
    ∃ n, d₁.store.notes.get? id = some n ∧ d.Wrote d₁ id n ∧
      ∀ name, sameAscii name "Members" = false → sameAscii name "CheckPassword" = false →
        n.item? name = m.item? name := by
  have steady : ∀ name, sameAscii name "Members" = false → sameAscii name "CheckPassword" = false →
      Steady fun n => some (n.item? name) :=
    fun name members mark _ _ same => congrArg some (same name members mark)
  have here : ∀ name, sameAscii name "Members" = false → sameAscii name "CheckPassword" = false →
      ∃ n, d₁.store.notes.get? id = some n ∧ n.item? name = m.item? name := by
    intro name members mark
    have told := congrFun (h.tables (steady name members mark)) id
    rw [Table.set, if_pos rfl, Store.table, Option.bind_eq_some_iff] at told
    obtain ⟨n, stands, same⟩ := told
    exact ⟨n, stands, Option.some.inj same⟩
  obtain ⟨n, stands, _⟩ := here "Form" (by decide) (by decide)
  have items : ∀ name, sameAscii name "Members" = false → sameAscii name "CheckPassword" = false →
      n.item? name = m.item? name := by
    intro name members mark
    obtain ⟨n', stands', same⟩ := here name members mark
    rw [stands, Option.some.injEq] at stands'
    rw [stands', same]
  refine ⟨n, stands, ⟨h.toInMemory, h.sound.id_of_get? stands, fun {α f} hf => ?_⟩, items⟩
  rw [h.tables hf, hf n m items]

end Directory

namespace Provisioning

theorem find_congr {s s' : Store} (hm : s.backing = .memory) (hm' : s'.backing = .memory)
    (same : s'.notes = s.notes) (kind : EntryClass) (uid : String) :
    find kind uid s' = find kind uid s := by
  cases kind with
  | account => rw [find, find, Store.accountById_eq hm, Store.accountById_eq hm', same]
  | group => rw [find, find, Store.groupByAlias_eq hm, Store.groupByAlias_eq hm', same]

theorem findExisting_ok {kind : EntryClass} {uid : String} {n : Note} {d d' : Directory}
    (h : findExisting kind uid d = .ok n d') : find kind uid d.store = .ok (some n) ∧ d' = d := by
  obtain ⟨found, d₁, read, rest⟩ := bind_ok_iff.mp h
  obtain ⟨seen, same⟩ := read_ok_iff.mp read
  cases found with
  | none => cases kind <;> cases throw_ok_iff.mp rest
  | some m =>
    obtain ⟨rfl, rfl⟩ := pure_ok_iff.mp rest
    exact ⟨seen, same.symm⟩

theorem findExisting_of_find {kind : EntryClass} {uid : String} {n : Note} {d : Directory}
    (h : find kind uid d.store = .ok (some n)) : findExisting kind uid d = .ok n d := by
  rw [findExisting.eq_def, bind_apply, read_apply, h]
  rfl

end Provisioning

namespace Account

open Provisioning

variable {settings : Settings} {attributes : Attributes} {uid given : String} {how : UpdateKind}
  {d d' : Directory}

theorem create_ok (h : create settings attributes d = .ok uid d') :
    ∃ name c n d₀ d₁, givenName settings.directory attributes = .ok name ∧
      Directory.acquire d = .ok () d₀ ∧
      creation settings.directory name (attributes.takeText Schema.nameAttribute).2 d₀.store = .ok c ∧
      Directory.save c.note d₀ = .ok n d₁ ∧ n.id = some uid ∧
      c.settle settings n d₁ = .ok () d' := by
  rw [create_eq] at h
  obtain ⟨name, _, lifted, h⟩ := bind_ok_iff.mp h
  obtain ⟨named, rfl⟩ := lift_ok_iff.mp lifted
  obtain ⟨⟨⟩, d₀, acquires, h⟩ := bind_ok_iff.mp h
  obtain ⟨c, _, read, h⟩ := bind_ok_iff.mp h
  obtain ⟨made, rfl⟩ := read_ok_iff.mp read
  obtain ⟨n, d₁, saved, h⟩ := bind_ok_iff.mp h
  obtain ⟨id, _, lifted, h⟩ := bind_ok_iff.mp h
  obtain ⟨identified, rfl⟩ := lift_ok_iff.mp lifted
  obtain ⟨⟨⟩, _, settled, h⟩ := bind_ok_iff.mp h
  obtain ⟨rfl, rfl⟩ := pure_ok_iff.mp h
  exact ⟨name, c, n, d₀, d₁, named, acquires, made, saved, idOf_ok identified, settled⟩

theorem journal_create (h : create settings attributes d = .ok uid d') :
    ∃ name request n, givenName settings.directory attributes = .ok name ∧
      newNote settings.directory name request = .ok n ∧
      d.journal ++ [.saved uid n.items] <+: d'.journal := by
  obtain ⟨name, c, m, d₀, d₁, named, acquires, made, saved, identified, settled⟩ := create_ok h
  obtain ⟨-, -, -, written⟩ := creation_ok made
  obtain ⟨rfl, rfl⟩ := Directory.save_ok saved
  have key : (d₀.idFor c.note).1 = uid := Option.some.inj identified
  have before : d₀.journal = d.journal := by simp [(acquire_ok acquires).1]
  have journal : (d₀.afterSave c.note).journal = d.journal ++ [.saved uid c.note.items] := by
    rw [Directory.afterSave, before, key]
  have grown := ((keeps_settle_creation_of_marked
    (Membership.upkeep_journal (d₀.afterSave c.note).journal) c settings
      (fun _ => trivial) trivial).ok (List.prefix_refl _) settled).1
  rw [journal] at grown
  exact ⟨name, c.request, c.note, named, written, grown⟩

theorem wrote_create (hd : d.InMemory) (h : create settings attributes d = .ok uid d') :
    ∃ name request n m, givenName settings.directory attributes = .ok name ∧
      newNote settings.directory name request = .ok n ∧ request.plain.Sublist attributes ∧
        m.items = n.items ∧ uid = d.supply.takeId.1 ∧ d.Wrote d' uid m := by
  obtain ⟨name, c, m, d₀, d₁, named, acquires, made, saved, identified, settled⟩ := create_ok h
  have alike := alike_of_acquire acquires hd.lasting
  obtain ⟨-, -, asked, written⟩ := creation_ok made
  have wrote := Directory.Wrote.of_save (hd.alike alike) saved
  have unsaved := id_newNote written
  have key : (d₀.idFor c.note).1 = d.supply.takeId.1 := by
    rw [Directory.idFor, unsaved, alike.supply]
  have same : uid = d.supply.takeId.1 := by
    rw [wrote.named, Option.some.injEq, key] at identified
    exact identified.symm
  rw [key, ← same] at wrote
  refine ⟨name, c.request, c.note, m, named, written,
    (plain_sublist asked).trans (Attributes.take_sublist _ _), ?_, same, ?_⟩
  · rw [(Directory.save_ok saved).1]
    rfl
  · refine (wrote.of_continues (.of_alike alike)).keeps (fun {α f} hf => ?_) settled
    refine keeps_settle_creation_of_marked (hf.frame (d₁.store.table f)).toUpkeep c settings
      (fun mark => ?_) trivial
    exact (wrote.told hf).congr rfl (hf _ _ fun name _ hc => Note.item?_setItem_of_ne hc m _)

theorem wrote_update (hd : d.InMemory) (h : update settings given attributes how d = .ok uid d') :
    ∃ n renamed request changed n' m, find .account given d.store = .ok (some n) ∧
      n.id = some uid ∧ n.isClass .account = true ∧
      updatedNote settings.directory n renamed request how = .ok (changed, n') ∧
      request.plain.Sublist attributes ∧ m.items = n'.items ∧ d.Wrote d' uid m := by
  obtain ⟨d₀, p, m, d₁, continues, planned, saved, settled, rfl⟩ := update_ok hd.lasting h
  have hd₀ := continues.inMemory hd
  obtain ⟨n, found, hid, -, -, asked, updated⟩ := plan_ok planned
  obtain ⟨key, stands, -, account⟩ := Store.accountById_ok hd₀.memory found
  have noteId : p.note.id = some p.uid := (id_updatedNote updated).trans hid
  have wrote : d₀.Wrote d₁ p.uid m ∧ m.items = p.note.items := by
    rw [Plan.save] at saved
    split at saved
    · have written := Directory.Wrote.of_save hd₀ saved
      rw [Directory.idFor_of_id noteId] at written
      refine ⟨written, ?_⟩
      rw [(Directory.save_ok saved).1]
      rfl
    · next unchanged =>
      obtain ⟨rfl, rfl⟩ := pure_ok_iff.mp saved
      rw [Bool.eq_false_iff.mpr unchanged] at updated
      obtain ⟨-, same⟩ := eq_of_updatedNote_unchanged updated
      rw [same]
      rw [hd₀.sound.id_of_get? stands, Option.some.injEq] at hid
      subst hid
      exact ⟨.of_get? hd₀ stands, rfl⟩
  rw [find_congr hd.memory hd₀.memory continues.notes] at found
  refine ⟨n, p.renamed, p.request, p.changed, p.note, m, found, hid, account, updated,
    (plain_sublist asked).trans (Attributes.take_sublist _ _), wrote.2, ?_⟩
  refine (wrote.1.of_continues continues).keeps (fun {α f} hf => ?_) settled
  refine keeps_settle_of_marked (hf.frame (d₁.store.table f)).toUpkeep p settings how
    (fun mark => ?_) trivial
  exact (wrote.1.told hf).congr rfl (hf _ _ fun name _ hc => Note.item?_setItem_of_ne hc m _)

end Account

namespace Group

open Provisioning

variable {attributes : Attributes} {uid given : String} {how : UpdateKind} {d d' : Directory}

theorem create_ok (h : create attributes d = .ok uid d') :
    ∃ request aliases n m d₀, Request.ofAttributes attributes = .ok request ∧
      request.aliases = some aliases ∧ Directory.acquire d = .ok () d₀ ∧
      checkUnused aliases d₀ = .ok () d₀ ∧ newNote aliases request = .ok n ∧
      Directory.save n d₀ = .ok m d' ∧ uid = Alias.join aliases := by
  rw [create] at h
  obtain ⟨request, _, lifted, h⟩ := bind_ok_iff.mp h
  obtain ⟨asked, rfl⟩ := lift_ok_iff.mp lifted
  cases named : request.aliases with
  | none =>
    rw [named] at h
    cases throw_ok_iff.mp h
  | some aliases =>
    rw [named] at h
    obtain ⟨⟨⟩, d₀, acquires, checks⟩ := bind_ok_iff.mp h
    obtain ⟨⟨⟩, d₁, checked, makes⟩ := bind_ok_iff.mp checks
    have same : d₁ = d₀ := ((keeps_checkUnused (J := fun d => d = d₀) aliases).ok rfl checked).1
    rw [same] at checked makes
    obtain ⟨n, _, lifted, saves⟩ := bind_ok_iff.mp makes
    obtain ⟨made, rfl⟩ := lift_ok_iff.mp lifted
    obtain ⟨⟨⟩, _, saved, returns⟩ := bind_ok_iff.mp saves
    obtain ⟨m, saved⟩ := discard_ok_iff.mp saved
    obtain ⟨rfl, rfl⟩ := pure_ok_iff.mp returns
    exact ⟨request, aliases, n, m, d₀, asked, named, acquires, checked, made, saved, rfl⟩

theorem wrote_create (hd : d.InMemory) (h : create attributes d = .ok uid d') :
    ∃ request aliases n m, Request.ofAttributes attributes = .ok request ∧
      request.aliases = some aliases ∧ newNote aliases request = .ok n ∧ m.items = n.items ∧
      (∀ a ∈ aliases, ∀ other, ¬ d.store.aliasTable.Lists other a) ∧
      uid = Alias.join aliases ∧ d.Wrote d' d.supply.takeId.1 m := by
  obtain ⟨request, aliases, n, m, d₀, asked, named, acquires, checked, made, saved, rfl⟩ :=
    create_ok h
  have alike := alike_of_acquire acquires hd.lasting
  have wrote := Directory.Wrote.of_save (hd.alike alike) saved
  rw [Directory.idFor, id_newNote made, alike.supply] at wrote
  have unused := ((AliasTable.keeps_checkUnused aliases).ok ⟨hd.alike alike, rfl⟩ checked).2
  rw [Store.aliasTable_congr alike.notes] at unused
  refine ⟨request, aliases, n, m, asked, named, made, ?_, unused, rfl,
    wrote.of_continues (.of_alike alike)⟩
  rw [(Directory.save_ok saved).1]
  rfl

theorem follow_ok {n m : Note} {renamed : Bool} (h : follow n m renamed d = .ok uid d') :
    uid = Alias.join m.aliases ∧
      (d' = d ∨ renamed = true ∧ ∃ old new count, Name.canonicalize n.displayName = .ok old ∧
        Name.canonicalize m.displayName = .ok new ∧ Membership.rename old new d = .ok count d') := by
  rw [follow] at h
  cases renamed with
  | false =>
    obtain ⟨rfl, rfl⟩ := pure_ok_iff.mp h
    exact ⟨rfl, Or.inl rfl⟩
  | true =>
    obtain ⟨old, _, lifted, h⟩ := bind_ok_iff.mp h
    obtain ⟨left, rfl⟩ := lift_ok_iff.mp lifted
    obtain ⟨new, _, lifted, h⟩ := bind_ok_iff.mp h
    obtain ⟨taken, rfl⟩ := lift_ok_iff.mp lifted
    obtain ⟨⟨⟩, _, renames, h⟩ := bind_ok_iff.mp h
    obtain ⟨count, renames⟩ := discard_ok_iff.mp renames
    obtain ⟨rfl, rfl⟩ := pure_ok_iff.mp h
    exact ⟨rfl, Or.inr ⟨rfl, old, new, count, left, taken, renames⟩⟩

theorem checkAliases_ok {n : Note} {aliases : Option (List String)} {renamed : Bool}
    (h : checkAliases n aliases d = .ok renamed d') : d' = d := by
  cases aliases with
  | none => exact (pure_ok_iff.mp h).2.symm
  | some aliases => exact ((keeps_checkRename (J := fun d' => d' = d) n aliases).ok rfl h).1

theorem update_ok (h : update given attributes how d = .ok uid d') :
    ∃ n request members renamed changed n' m d₀ d₁, Directory.acquire d = .ok () d₀ ∧
      find .group given d₀.store = .ok (some n) ∧ Request.ofAttributes attributes = .ok request ∧
      request.memberNames = .ok members ∧ checkAliases n request.aliases d₀ = .ok renamed d₀ ∧
      updatedNote n request members how = .ok (changed, n') ∧
      (if changed then Directory.save n' else pure n' : Action Note) d₀ = .ok m d₁ ∧
      follow n m renamed d₁ = .ok uid d' := by
  rw [update_eq] at h
  obtain ⟨⟨⟩, d₀, acquires, h₀⟩ := bind_ok_iff.mp h
  obtain ⟨n, d₁, existing, h₁⟩ := bind_ok_iff.mp h₀
  obtain ⟨found, rfl⟩ := findExisting_ok existing
  obtain ⟨request, _, lifted, h₂⟩ := bind_ok_iff.mp h₁
  obtain ⟨asked, rfl⟩ := lift_ok_iff.mp lifted
  obtain ⟨members, _, lifted, h₃⟩ := bind_ok_iff.mp h₂
  obtain ⟨named, rfl⟩ := lift_ok_iff.mp lifted
  obtain ⟨renamed, d₂, checked, h₄⟩ := bind_ok_iff.mp h₃
  obtain rfl := checkAliases_ok checked
  obtain ⟨⟨changed, n'⟩, _, lifted, h₅⟩ := bind_ok_iff.mp h₄
  obtain ⟨updated, rfl⟩ := lift_ok_iff.mp lifted
  obtain ⟨m, d₃, saved, h₆⟩ := bind_ok_iff.mp h₅
  exact ⟨n, request, members, renamed, changed, n', m, _, d₃, acquires, found, asked, named, checked,
    updated, saved, h₆⟩

theorem wrote_update (hd : d.InMemory) (h : update given attributes how d = .ok uid d') :
    ∃ n id request members changed n' m, find .group given d.store = .ok (some n) ∧
      d.store.notes.get? id = some n ∧ n.isClass .group = true ∧
      Request.ofAttributes attributes = .ok request ∧
      (∀ aliases ∈ request.aliases, sameName (aliases.headD "") n.displayName = true ∨
        d.store.aliasTable.Finds (aliases.headD "") id ∨
          ∀ other, ¬ d.store.aliasTable.Lists other (aliases.headD "")) ∧
      updatedNote n request members how = .ok (changed, n') ∧ m.items = n'.items ∧
      uid = Alias.join m.aliases ∧ d.Wrote d' id m := by
  obtain ⟨n, request, members, renamed, changed, n', m, d₀, d₁, acquires, found, asked, -, checked,
    updated, saved, follows⟩ := update_ok h
  have alike := alike_of_acquire acquires hd.lasting
  have hd₀ := hd.alike alike
  obtain ⟨id, stands, lists, _⟩ := (Store.groupByAlias_eq_some_iff hd₀.sound hd₀.memory).mp found
  have hid := hd₀.sound.id_of_get? stands
  have group : n.isClass .group = true := by
    obtain ⟨g, hg, has⟩ := Store.lists_aliasTable.mp lists
    rw [stands, Option.some.injEq] at hg
    rw [← hg, Note.hasAlias, Bool.and_eq_true] at has
    exact has.1
  have noteId : n'.id = some id := (id_updatedNote updated).trans hid
  have wrote : d₀.Wrote d₁ id m ∧ m.items = n'.items := by
    cases changed with
    | true =>
      have written := Directory.Wrote.of_save hd₀ saved
      rw [Directory.idFor_of_id noteId] at written
      refine ⟨written, ?_⟩
      rw [(Directory.save_ok saved).1]
      rfl
    | false =>
      obtain ⟨rfl, rfl⟩ := pure_ok_iff.mp saved
      rw [(eq_of_updatedNote_unchanged updated).2]
      exact ⟨.of_get? hd₀ stands, rfl⟩
  have back := wrote.1.of_continues (.of_alike alike)
  obtain ⟨returned, follows⟩ := follow_ok follows
  rw [find, Store.groupByAlias_eq hd₀.memory, alike.notes, ← Store.groupByAlias_eq hd.memory] at found
  refine ⟨n, id, request, members, changed, n', m, found, alike.notes ▸ stands, group, asked,
    fun aliases ha => ?_, updated, wrote.2, returned, ?_⟩
  · rw [Option.mem_def.mp ha, checkAliases] at checked
    have holds : Directory.Holds d.store.aliasTable d₀ :=
      ⟨hd₀, Store.aliasTable_congr alike.notes⟩
    exact ((AliasTable.keeps_checkRename hid).ok holds checked).2
  · rcases follows with rfl | ⟨-, old, new, count, -, -, renames⟩
    · exact back
    · exact back.keeps (fun {α f} hf => (hf.frame (d₁.store.table f)).keeps_rename old trivial) renames

end Group

namespace Call

def kind : Call → EntryClass
  | .create kind _ => kind
  | .update kind _ _ _ => kind
  | .delete kind _ => kind

def isCreation : Call → Bool
  | .create _ _ => true
  | _ => false

/-- The call creates or updates an entry and returns its uid. -/
def Returns (call : Call) (settings : Settings) (uid : String) (d d' : Directory) : Prop :=
  match call with
  | .create kind attributes => Entries.create settings kind attributes d = .ok uid d'
  | .update kind given attributes how => Entries.update settings kind given attributes how d = .ok uid d'
  | .delete _ _ => False

def target? (call : Call) (d : Directory) : Option String :=
  match call with
  | .create _ _ => some d.supply.takeId.1
  | .update kind uid _ _ => (Provisioning.find kind uid d.store).toOption.join.bind Note.id
  | .delete _ _ => none

/-- What a call wrote that returned a uid. -/
structure Writes (call : Call) (uid : String) (d d' : Directory) (id : String) (m : Note) : Prop
    extends d.Wrote d' id m where
  target : call.target? d = some id
  uid : uid = Provisioning.uidOf call.kind id m
  /-- The form is the one of the class if the call leaves it alone. -/
  classed : call.attributes.Lacks "Form" → m.isClass call.kind = true
  /-- A group is found under its first alias if it is new, or if every group was found so before. -/
  finds : call.kind = .group → m.isClass .group = true →
    call.isCreation = true ∨ d.store.aliasTable.Clear → d'.store.aliasTable.Finds m.displayName id

variable {call : Call} {settings : Settings} {uid : String} {d d' : Directory}

theorem Writes.stands {id : String} {m : Note} (h : call.Writes uid d d' id m) :
    ∃ n, d'.store.notes.get? id = some n ∧ call.Writes uid d d' id n := by
  obtain ⟨n, stands, wrote, items⟩ := h.toWrote.stands
  have form := Note.isClass_of_item? (items "Form" (by decide) (by decide))
  have aliases : n.aliases = m.aliases := by
    rw [Note.aliases, Note.aliases, Note.texts_congr (items "ListName" (by decide) (by decide))]
  refine ⟨n, stands, wrote, h.target, ?_, fun formless => ?_, fun group still clear => ?_⟩
  · rw [h.uid, Provisioning.uidOf_congr aliases]
  · rw [form, h.classed formless]
  · rw [form] at still
    rw [Note.displayName, aliases, ← Note.displayName]
    exact h.finds group still clear

theorem writes_createAccount {attributes : Attributes} (hd : d.InMemory)
    (h : Returns (.create .account attributes) settings uid d d') :
    ∃ id m, Writes (.create .account attributes) uid d d' id m := by
  obtain ⟨name, request, n, m, -, made, plain, items, rfl, wrote⟩ := Account.wrote_create hd h
  refine ⟨_, m, wrote, rfl, rfl, fun formless => ?_, fun other => by cases other⟩
  rw [Note.isClass_of_items items]
  exact Note.isClass_of_form (Account.form_newNote (Attributes.Lacks.sublist formless plain) made).2

theorem writes_createGroup {attributes : Attributes} (hd : d.InMemory) (ha : attributes.Distinct)
    (h : Returns (.create .group attributes) settings uid d d') :
    ∃ id m, Writes (.create .group attributes) uid d d' id m := by
  obtain ⟨request, aliases, n, m, asked, named, made, items, unused, rfl, wrote⟩ :=
    Group.wrote_create hd h
  have listed : m.aliases = aliases := by
    rw [Note.aliases_of_items items]
    exact Group.aliases_newNote made (Group.plain_lacks_listName ha asked)
      (Group.splitAll_aliases asked named)
  refine ⟨_, m, wrote, rfl, by rw [← listed]; rfl, fun formless => ?_, fun _ group _ => ?_⟩
  · rw [Note.isClass_of_items items]
    exact Note.isClass_of_form (Group.form_newNote made
      (Attributes.Lacks.sublist formless (Group.plain_sublist asked))).2
  · obtain ⟨first, later, rfl⟩ := List.exists_cons_of_ne_nil (Group.aliases_ok asked named).1
    rw [wrote.aliasTable group, Note.displayName, listed]
    exact AliasTable.finds_set_self fun other _ lists =>
      absurd lists (unused first List.mem_cons_self other)

theorem writes_updateAccount {given : String} {attributes : Attributes} {how : UpdateKind}
    (hd : d.InMemory) (h : Returns (.update .account given attributes how) settings uid d d') :
    ∃ id m, Writes (.update .account given attributes how) uid d d' id m := by
  obtain ⟨n, renamed, request, changed, n', m, found, hid, account, updated, plain, items, wrote⟩ :=
    Account.wrote_update hd h
  refine ⟨uid, m, wrote, ?_, rfl, fun formless => ?_, fun other => by cases other⟩
  · rw [target?, found]
    exact hid
  · have form := (Account.sameItem_updatedNote updated (by decide)
      (Attributes.Lacks.sublist formless plain)).trans
        (Account.sameItem_renamedNote (by decide) n renamed)
    rw [Note.isClass_of_items items, kind, Note.isClass_of_item? form.2, account]

theorem writes_updateGroup {given : String} {attributes : Attributes} {how : UpdateKind}
    (hd : d.InMemory) (ha : attributes.Distinct)
    (h : Returns (.update .group given attributes how) settings uid d d') :
    ∃ id m, Writes (.update .group given attributes how) uid d d' id m := by
  obtain ⟨n, id, request, members, changed, n', m, found, stands, group, asked, checked, updated,
    items, rfl, wrote⟩ := Group.wrote_update hd h
  refine ⟨id, m, wrote, ?_, rfl, fun formless => ?_, fun _ still clear => ?_⟩
  · rw [target?, found]
    exact hd.sound.id_of_get? stands
  · have form := (Group.sameItem_updatedNote updated (by decide)
      (Attributes.Lacks.sublist formless (Group.plain_sublist asked))).trans
        (Group.sameItem_renamedNote (by decide) n request.aliases)
    rw [Note.isClass_of_items items, kind, Note.isClass_of_item? form.2, group]
  · have clear := clear.resolve_left (by simp [isCreation])
    have before : d.store.aliasTable id = some n.aliases := by
      rw [Store.aliasTable, stands, Option.bind_some, Note.listed?, if_pos group]
    rw [wrote.aliasTable still, Note.displayName, Note.aliases_of_items items]
    rcases Group.aliases_updatedNote updated asked ha with same | requested
    · rw [same, AliasTable.set_eq_self before]
      exact clear id n.aliases before
    · obtain ⟨first, later, hfirst⟩ :=
        List.exists_cons_of_ne_nil (Group.aliases_ok asked requested).1
      rw [hfirst] at requested ⊢
      have leads := AliasTable.leads_of_checked clear before (checked _ requested)
      exact AliasTable.finds_set_self fun other different lists =>
        AliasTable.lt_of_leads leads different lists

theorem writes (hd : d.InMemory) (ha : call.attributes.Distinct)
    (h : call.Returns settings uid d d') : ∃ id m, call.Writes uid d d' id m := by
  cases call with
  | create kind attributes =>
    cases kind with
    | account => exact writes_createAccount hd h
    | group => exact writes_createGroup hd ha h
  | update kind given attributes how =>
    cases kind with
    | account => exact writes_updateAccount hd h
    | group => exact writes_updateGroup hd ha h
  | delete kind given => exact h.elim

end Call

end AddressBook

import AddressBook.Proofs.Membership.Denying
import AddressBook.Proofs.Provisioning.CarryingOut

/-! Enabling and disabling accounts. An account is let in unless a mark in its note or a deny list
denies it. An update goes through one of the two, by its attributes or the settings, and leaves the
other as it is; so it is the other that decides whether what was asked for prevails. -/

namespace AddressBook

open AddressBook.Action Text Provisioning

namespace Membership

variable {d d' : Directory} {id : String} {n : Note}

theorem get?_forM_saveMembers {gs : List Note} {f : Note → List String} {u : Unit}
    (elsewhere : ∀ g ∈ gs, ∃ key, g.id = some key ∧ id ≠ key)
    (h : (gs.forM fun g => saveMembers g (f g)) d = .ok u d') :
    d'.store.notes.get? id = d.store.notes.get? id := by
  induction gs generalizing d with
  | nil => rw [← forM_nil_ok_iff.mp h]
  | cons g gs ih =>
    obtain ⟨d₁, first, others⟩ := forM_cons_ok_iff.mp h
    obtain ⟨key, hid, different⟩ := elsewhere g List.mem_cons_self
    obtain ⟨n', saved⟩ := saveMembers_ok first
    have named : (g.setMembers (f g)).id = some key := hid
    obtain ⟨_, _, notes, _, _⟩ := Directory.save_ok_of_id named saved
    rw [ih (fun m hm => elsewhere m (List.mem_cons_of_mem g hm)) others]
    simp [notes, different]

theorem get?_rename (hd : d.InMemory) (hn : d.store.notes.get? id = some n)
    (hk : n.isClass .group = false) {old new : CanonicalName} {count : Nat}
    (h : rename old new d = .ok count d') : d'.store.notes.get? id = some n := by
  obtain ⟨groups, found, -, saves⟩ := rename_steps h
  rw [get?_forM_saveMembers (fun g hg => ?_) saves, hn]
  obtain ⟨group, returns⟩ := returns_of_groupsOf found g hg
  obtain ⟨key, stands⟩ := Store.mem_of_returns hd.memory returns
  refine ⟨key, hd.sound.ids _ stands, ?_⟩
  rintro rfl
  rw [hd.sound.get?_of_mem stands, Option.some.injEq] at hn
  rw [← hn, group] at hk
  cases hk

theorem get?_updateGroups (hd : d.InMemory) (ho : ∀ entry ∈ d.store.notes, entry.2.Orderly)
    (hn : d.store.notes.get? id = some n) (hk : n.isClass .group = false) {account : CanonicalName}
    (hc : account.Settled) {policy : ReplacePolicy} {groups : List String} {kind : UpdateKind}
    {u : Unit} (h : updateGroups policy account groups kind d = .ok u d') :
    d'.store.notes.get? id = some n := by
  have underway := updateGroups_underway hd.sound (Store.faithful_of_memory hd.memory)
    (Store.proper_of_orderly ho) hc (Or.inl ⟨u, h⟩)
  obtain ⟨n', hn', _⟩ := underway.image hn
  obtain ⟨m, hm, same⟩ := underway.notes id n' hn'
  rw [hn, Option.some.injEq] at hm
  subst hm
  rcases same with rfl | ⟨group, _⟩
  · exact hn'
  · rw [group] at hk
    cases hk

end Membership

namespace Account

variable {settings : Settings} {uid : String} {attributes : Attributes} {how : UpdateKind} {p : Plan}
  {s : Store} {d d' : Directory}

theorem lacks_enable {isNew : Bool} {attributes : Attributes}
    (h : ∀ a ∈ attributes, checkWritable .account a.1 isNew = .ok ()) :
    attributes.Lacks Schema.enableAttribute := by
  refine lacks_of_not_writable ?_ h
  intro writable
  have refused : (checkWritable .account Schema.enableAttribute isNew).toOption = none := by
    cases isNew <;> decide
  rw [writable] at refused
  cases refused

def Request.gathered (groups : Option (List AttributeValue)) (enable : Option Bool)
    (rest : Attributes) : Request :=
  let (denyGroups, rest) := rest.takeTexts "DenyGroups"
  let (password, rest) := rest.takeSecret Schema.passwordAttribute
  let (currentPassword, plain) := rest.take Schema.currentPasswordAttribute
  { groups := groups.map (·.filterMap AttributeValue.storedText?), enable, denyGroups, password,
    currentPassword, plain }

theorem Request.ofAttributes_eq (attributes : Attributes) :
    ofAttributes attributes =
      ((attributes.take "GroupList").2.takeBoolean Schema.enableAttribute).1.map fun enable =>
        gathered (attributes.take "GroupList").1 enable
          ((attributes.take "GroupList").2.take Schema.enableAttribute).2 := by
  change (((attributes.take "GroupList").2.takeBoolean Schema.enableAttribute).1 >>= fun enable =>
    pure (gathered (attributes.take "GroupList").1 enable
      ((attributes.take "GroupList").2.take Schema.enableAttribute).2)) = _
  cases ((attributes.take "GroupList").2.takeBoolean Schema.enableAttribute).1 <;> rfl

theorem Request.lacks_of_gathered {groups : Option (List AttributeValue)} {enable : Option Bool}
    {rest : Attributes} (h : (gathered groups enable rest).plain.Lacks Schema.enableAttribute) :
    rest.Lacks Schema.enableAttribute :=
  Attributes.lacks_of_take (by decide) <| Attributes.lacks_of_take (by decide) <|
    Attributes.lacks_of_take (by decide) h

theorem Request.ofAttributes_unasked {request : Request} (h : ofAttributes attributes = .ok request)
    (lacks : request.plain.Lacks Schema.enableAttribute) :
    ofAttributes (attributes.take Schema.enableAttribute).2 = .ok { request with enable := none } := by
  have grouped : (attributes.take Schema.enableAttribute).2.take "GroupList" =
      ((attributes.take "GroupList").1,
        ((attributes.take "GroupList").2.take Schema.enableAttribute).2) :=
    Attributes.take_take_of_ne (by decide)
  rw [ofAttributes_eq] at h ⊢
  cases asked : ((attributes.take "GroupList").2.takeBoolean Schema.enableAttribute).1 with
  | error fault =>
    rw [asked] at h
    cases h
  | ok enable =>
    rw [asked] at h
    cases h
    have once := Attributes.take_of_lacks (lacks_of_gathered lacks)
    rw [grouped, Attributes.takeBoolean]
    simp only [once]
    rfl

/-- What is left of a plan without enabling or disabling the account. -/
def Plan.unasked (p : Plan) : Plan := { p with request := { p.request with enable := none } }

def Plan.gather (p : Plan) (settings : Settings) (how : UpdateKind) : Action Unit :=
  (if p.renamed.isSome then discard (Membership.rename p.old p.name) else pure ()) >>=
    fun _ => p.regroup settings how

theorem Plan.settle_eq_gather (p : Plan) (settings : Settings) (how : UpdateKind) (n : Note) :
    p.settle settings how n = p.gather settings how >>= fun _ => p.access settings n := by
  rw [settle_eq, gather, bind_assoc]
  rfl

theorem Plan.settle_unasked (p : Plan) (settings : Settings) (how : UpdateKind) (n : Note) :
    p.unasked.settle settings how n = p.gather settings how := by
  have nothing : p.unasked.access settings n = pure () := rfl
  rw [settle_eq_gather, nothing]
  exact bind_pure (p.gather settings how)

theorem plan_unasked (h : plan settings uid attributes how s = .ok p) :
    plan settings uid (attributes.take Schema.enableAttribute).2 how s =
      .ok p.unasked := by
  obtain ⟨n, existing, h⟩ := bind_eq_ok h
  obtain ⟨id, named, h⟩ := bind_eq_ok h
  obtain ⟨old, stored, h⟩ := bind_eq_ok h
  obtain ⟨renamed, checked, h⟩ := bind_eq_ok h
  obtain ⟨request, asked, h⟩ := bind_eq_ok h
  obtain ⟨⟨changed, note⟩, updated, h⟩ := bind_eq_ok h
  cases h
  have taken : (attributes.take Schema.enableAttribute).2.takeText Schema.nameAttribute =
      ((attributes.takeText Schema.nameAttribute).1,
        ((attributes.takeText Schema.nameAttribute).2.take Schema.enableAttribute).2) := by
    rw [Attributes.takeText, Attributes.takeTexts, Attributes.take_take_of_ne (by decide)]
    rfl
  obtain ⟨_, _, _, written⟩ := updatedNote_ok updated
  have unasked := Request.ofAttributes_unasked asked
    (lacks_enable (checkWritable_of_updateAll written))
  have same : updatedNote settings.directory n renamed { request with enable := none } how =
      .ok (changed, note) := updated
  rw [plan, existing, taken]
  simp only [bind, Except.bind, named, stored, checked, unasked, same]
  rfl

theorem update_unasked {id : String} {d₀ d₁ : Directory}
    (h : update settings uid attributes how d₀ = .ok id d₁) :
    ∃ d' p n d'' dₘ, Directory.acquire d₀ = .ok () d' ∧
      plan settings uid attributes how d'.store = .ok p ∧ p.save d' = .ok n d'' ∧ id = p.uid ∧
        p.gather settings how d'' = .ok () dₘ ∧
        update settings uid (attributes.take Schema.enableAttribute).2 how d₀ = .ok id dₘ ∧
        p.access settings n dₘ = .ok () d₁ := by
  rw [update_eq] at h
  obtain ⟨⟨⟩, d', reached, h⟩ := bind_ok_iff.mp h
  obtain ⟨p, d₂, read, h⟩ := bind_ok_iff.mp h
  obtain ⟨planned, rfl⟩ := read_ok_iff.mp read
  rw [Plan.carryOut_eq] at h
  obtain ⟨n, d'', saved, h⟩ := bind_ok_iff.mp h
  obtain ⟨⟨⟩, d₂, settled, h⟩ := bind_ok_iff.mp h
  obtain ⟨rfl, rfl⟩ := pure_ok_iff.mp h
  rw [Plan.settle_eq_gather] at settled
  obtain ⟨⟨⟩, dₘ, gathered, access⟩ := bind_ok_iff.mp settled
  refine ⟨d', p, n, d'', dₘ, reached, planned, saved, rfl, gathered, ?_, access⟩
  have saved' : p.unasked.save d' = .ok n d'' := saved
  rw [update_eq]
  refine bind_ok_iff.mpr ⟨(), d', reached, bind_ok_iff.mpr ⟨p.unasked, d', ?_, ?_⟩⟩
  · exact read_ok_iff.mpr ⟨plan_unasked planned, rfl⟩
  · rw [Plan.carryOut_eq, bind_apply, saved']
    dsimp only
    rw [bind_apply, Plan.settle_unasked, gathered]
    rfl

theorem storedName_ok_iff {n : Note} {name : CanonicalName} :
    storedName n = .ok name ↔
      ∃ full, n.text? "FullName" = some full ∧ Name.canonicalize full = .ok name := by
  rw [storedName]
  cases n.text? "FullName" <;> simp

theorem storedName_congr {n m : Note} {name : CanonicalName}
    (same : n.item? "FullName" = m.item? "FullName") (h : storedName m = .ok name) :
    storedName n = .ok name := by
  rwa [storedName_ok_iff, Note.text?_congr same, ← storedName_ok_iff]

structure Plan.Stands (p : Plan) (n : Note) (s : Store) : Prop where
  note : s.notes.get? p.uid = some n
  account : n.isClass .account = true
  named : storedName n = .ok p.name
  settled : p.name.Settled

section

variable {K : String → Prop} {n : Note}

theorem Plan.storedName_note {m : Note} (stored : storedName m = .ok p.old)
    (updated : updatedNote settings.directory m p.renamed p.request how = .ok (p.changed, p.note))
    (settled : p.name.Settled) : storedName p.note = .ok p.name := by
  have full := fullName_updatedNote updated
  rw [Plan.name] at settled ⊢
  cases new : p.renamed with
  | none =>
    rw [new] at full
    exact storedName_congr full stored
  | some c =>
    rw [new] at full settled
    refine storedName_ok_iff.mpr ⟨c.text, ?_, settled⟩
    rw [Note.text?, full]
    rfl

theorem Plan.save_stands (hd : d.Stocked Note.Orderly K) (hf : attributes.Lacks "Form")
    (hp : ∀ name ∈ attributes.given Schema.nameAttribute, Name.isNested name = false)
    (planned : plan settings uid attributes how d.store = .ok p) (h : p.save d = .ok n d') :
    d'.Stocked Note.Orderly K ∧ p.Stands n d'.store := by
  obtain ⟨m, found, hid, stored, checked, asked, updated⟩ := plan_ok planned
  obtain ⟨key, stands, _, account⟩ := Store.accountById_ok hd.memory found
  obtain rfl : p.uid = key := by
    rw [hd.sound.id_of_get? stands, Option.some.injEq] at hid
    exact hid.symm
  have orderly := hd.notes _ (Keyed.mem_of_get? stands)
  have renamed : ∀ c ∈ p.renamed, c.Settled := by
    intro c hc
    obtain ⟨raw, hraw, rendered, _⟩ := newNameIn_ok checked c hc
    exact Regularity.settled_given settings hp hraw rendered
  have formless := hf.sublist ((plain_sublist asked).trans (Attributes.take_sublist _ _))
  obtain ⟨orderly', account', same⟩ :=
    Regularity.orderly_updatedAccount formless orderly account renamed updated
  have settled : p.name.Settled := by
    rw [Plan.name]
    cases new : p.renamed with
    | none => exact Regularity.settled_storedName orderly account stored
    | some c => exact renamed c new
  have named := Plan.storedName_note stored updated settled
  rw [Plan.save] at h
  split at h
  · have id : p.note.id = some p.uid := same.trans hid
    have filed : p.note.Filed Note.Orderly K :=
      ⟨orderly', p.uid, id, hd.keys _ (List.mem_map_of_mem (Keyed.mem_of_get? stands))⟩
    obtain ⟨kept, -, items⟩ := ((Note.Orderly.regimen.frame K).saved p.note filed).ok hd h
    obtain ⟨time, rfl, notes, -, -⟩ := Directory.save_ok_of_id id h
    refine ⟨kept, ?_, account', named, settled⟩
    simp [notes]
  · next unchanged =>
    obtain ⟨rfl, rfl⟩ := pure_ok_iff.mp h
    rw [Bool.not_eq_true] at unchanged
    rw [unchanged] at updated
    refine ⟨hd, ?_, account', named, settled⟩
    rw [stands, (eq_of_updatedNote_unchanged updated).2]

theorem Plan.gather_stands (hd : d.Stocked Note.Orderly K) (hp : p.Stands n d.store)
    (h : p.gather settings how d = .ok () d') :
    d'.Stocked Note.Orderly K ∧ p.Stands n d'.store := by
  have other := Note.not_isClass_of_isClass hp.account
  obtain ⟨⟨⟩, d₁, renames, regroups⟩ := bind_ok_iff.mp h
  have renamed : d₁.Stocked Note.Orderly K ∧ d₁.store.notes.get? p.uid = some n := by
    split at renames
    · obtain ⟨count, renames⟩ := discard_ok_iff.mp renames
      exact ⟨(((Note.Orderly.regimen.frame K).keeps_rename p.old hp.settled).ok hd renames).1,
        Membership.get?_rename hd.toInMemory hp.note other renames⟩
    · obtain ⟨-, rfl⟩ := pure_ok_iff.mp renames
      exact ⟨hd, hp.note⟩
  obtain ⟨hd₁, hn₁⟩ := renamed
  refine ⟨((keeps_regroup (Note.Orderly.regimen.frame K).toUpkeep p settings how hp.settled).ok hd₁
    regroups).1, ?_, hp.account, hp.named, hp.settled⟩
  rw [Plan.regroup] at regroups
  cases asked : p.request.groups with
  | some groups =>
    rw [asked] at regroups
    exact Membership.get?_updateGroups hd₁.toInMemory hd₁.notes hn₁ other hp.settled regroups
  | none =>
    rw [asked] at regroups
    obtain ⟨-, rfl⟩ := pure_ok_iff.mp regroups
    exact hn₁

end

/-- The deny lists that are given, or where none are the configured one. -/
def listsAsked (directory : DirectorySettings) (given : Option (List String)) : List String :=
  match given.getD [] with
  | [] => directory.disableDenyGroup.toList
  | group :: groups => group :: groups

theorem denyGroups_eq (directory : DirectorySettings) (given : Option (List String)) :
    denyGroups directory given = match listsAsked directory given with
      | [] => none
      | group :: groups => some (group :: groups) := by
  rcases given with _ | _ | ⟨group, groups⟩
  · cases configured : directory.disableDenyGroup <;> simp [denyGroups, listsAsked, configured]
  · cases configured : directory.disableDenyGroup <;> simp [denyGroups, listsAsked, configured]
  · rfl

/-- Whether what is asked for prevails over what else says whether the account is let in. Through its
mark an account is always disabled, and enabled unless a deny list lists it; through deny lists it
is disabled if its mark or a deny list denies it already or one of the groups is a deny list, and
enabled if its mark lets it in and the groups are all the deny lists that list it. -/
def Prevails (directory : DirectorySettings) (given : Option (List String)) (enabled : Bool)
    (s : Store) (n : Note) (name : CanonicalName) : Prop :=
  match listsAsked directory given, enabled with
  | [], false => True
  | [], true => ¬ s.Denies name
  | groups, false => Reading.enabledByMark n = false ∨ s.Denies name ∨
      ∃ group ∈ groups, ∃ g, s.groupByAlias group = .ok (some g) ∧ g.isDenyList = true
  | groups, true => Reading.enabledByMark n = true ∧ ∀ g ∈ s.notesOf .group,
      g.isDenyList = true → g.hasMember name = true →
        ∃ group ∈ groups, s.groupByAlias group = .ok (some g)

/-- The account is let in: neither its mark nor a deny list denies it. -/
def LetIn (s : Store) (n : Note) (name : CanonicalName) : Prop :=
  Reading.enabledByMark n = true ∧ ¬ s.Denies name

theorem letIn_congr {s s' : Store} (same : s'.notes = s.notes) {n : Note} {name : CanonicalName} :
    LetIn s' n name ↔ LetIn s n name := by
  simp only [LetIn, Store.Denies, Store.notesOf, Store.all, same]

theorem denies_put {id : String} {n m : Note} (hs : s.Sound) (hs' : d.store.Sound)
    (hn : s.notes.get? id = some n) (hk : n.isClass .group = false) (hm : m.isClass .group = false)
    (notes : d.store.notes = s.notes.put id m) (name : CanonicalName) :
    d.store.Denies name ↔ s.Denies name := by
  have same : ∀ g, g ∈ d.store.notesOf .group ↔ g ∈ s.notesOf .group := by
    intro g
    rw [Store.mem_notesOf, Store.mem_notesOf]
    refine and_congr_left fun group => exists_congr fun key => ?_
    rw [← Keyed.get?_eq_some_iff hs'.sorted, ← Keyed.get?_eq_some_iff hs.sorted, notes, Keyed.get?_put]
    split
    · next here =>
      subst here
      rw [hn, Option.some.injEq, Option.some.injEq]
      refine ⟨?_, ?_⟩ <;> rintro rfl
      · rw [hm] at group
        cases group
      · rw [hk] at group
        cases group
    · rfl
  rw [Store.Denies, Store.Denies]
  simp only [same]

section

variable {directory : DirectorySettings} {n : Note} {name : CanonicalName} {enabled : Bool}
  {given : Option (List String)} {id : String} {u : Unit}

theorem setEnabled_mark (hd : d.InMemory) (hd' : d'.InMemory) (hn : d.store.notes.get? id = some n)
    (hk : n.isClass .account = true) (through : denyGroups directory given = none)
    (h : setEnabled directory n name enabled given d = .ok u d') :
    ∃ n', d'.store.notes.get? id = some n' ∧ n'.isClass .account = true ∧
      n'.item? "FullName" = n.item? "FullName" ∧ Reading.enabledByMark n' = enabled ∧
        (d'.store.Denies name ↔ d.store.Denies name) := by
  have marked : ∀ m : Note, m.text? "CheckPassword" = some (checkPasswordText enabled) →
      Reading.enabledByMark m = enabled := by
    intro m mark
    rw [Reading.enabledByMark, mark]
    cases enabled <;> decide
  rw [setEnabled, through] at h
  dsimp only at h
  split at h
  · obtain ⟨n', saved⟩ := discard_ok_iff.mp h
    have hid := hd.sound.id_of_get? hn
    have named : (n.setText "CheckPassword" (checkPasswordText enabled)).id = some id := hid
    obtain ⟨time, rfl, notes, -, -⟩ := Directory.save_ok_of_id named saved
    have kept : ∀ item, sameAscii item "CheckPassword" = false → Note.item?
        { n.setText "CheckPassword" (checkPasswordText enabled) with modified := some time } item =
          n.item? item := fun _ other => Note.item?_setText_of_ne other n _
    have account := (Note.isClass_of_item? (kept "Form" (by decide)) .account).trans hk
    refine ⟨_, ?_, account, kept "FullName" (by decide), marked _ ?_, ?_⟩
    · rw [notes, Keyed.get?_put_self]
    · change (n.setText "CheckPassword" (checkPasswordText enabled)).text? "CheckPassword" = _
      simp
    · exact denies_put hd.sound hd'.sound hn (Note.not_isClass_of_isClass hk)
        (Note.not_isClass_of_isClass account) notes name
  · next already =>
    obtain ⟨-, rfl⟩ := pure_ok_iff.mp h
    refine ⟨n, hn, hk, rfl, marked n ?_, Iff.rfl⟩
    simpa using already

theorem setEnabled_lists (hd : d.InMemory) (hn : d.store.notes.get? id = some n)
    (hk : n.isClass .account = true) (hc : name.Settled) {groups : List String}
    (through : denyGroups directory given = some groups)
    (h : setEnabled directory n name enabled given d = .ok u d') :
    Membership.Answered name (!enabled) groups d.store d'.store ∧
      d'.store.notes.get? id = some n := by
  have asks : setEnabled directory n name enabled given =
      groups.forM (Membership.ask name (!enabled)) := by
    rw [setEnabled, through]
    cases enabled <;> rfl
  rw [asks] at h
  have answered := Membership.asks_ok hc hd h
  exact ⟨answered, answered.others id n hn (Note.not_isClass_of_isClass hk)⟩

/-- An account that was enabled or disabled is let in as it was asked for, exactly if this
prevails. -/
theorem letIn_setEnabled (hd : d.InMemory) (hd' : d'.InMemory)
    (hn : d.store.notes.get? id = some n) (hk : n.isClass .account = true) (hc : name.Settled)
    (h : setEnabled directory n name enabled given d = .ok u d') :
    ∃ n', d'.store.notes.get? id = some n' ∧ n'.isClass .account = true ∧
      n'.item? "FullName" = n.item? "FullName" ∧
        ((LetIn d'.store n' name ↔ enabled = true) ↔
          Prevails directory given enabled d.store n name) := by
  have through := denyGroups_eq directory given
  unfold Prevails
  cases asked : listsAsked directory given with
  | nil =>
    rw [asked] at through
    obtain ⟨n', hn', account, full, mark, denies⟩ := setEnabled_mark hd hd' hn hk through h
    refine ⟨n', hn', account, full, ?_⟩
    rw [LetIn, mark, denies]
    cases enabled <;> simp
  | cons group groups =>
    rw [asked] at through
    obtain ⟨answered, stands⟩ := setEnabled_lists hd hn hk hc through h
    refine ⟨n, stands, hk, rfl, ?_⟩
    rw [LetIn]
    cases enabled with
    | false =>
      rw [answered.denies_joined hd]
      cases Reading.enabledByMark n <;> simp [Classical.or_iff_not_imp_left]
    | true =>
      rw [answered.denies_left hd]
      dsimp only
      generalize group :: groups = lists
      simp

end

end Account

end AddressBook

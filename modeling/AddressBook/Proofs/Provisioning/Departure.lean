import AddressBook.Proofs.Directory.Outcome
import AddressBook.Proofs.Membership.Spelled
import AddressBook.Proofs.Provisioning.Written

/-! Deleting an account from a directory whose groups list canonical names. The account leaves every
group, then joins the one for the deleted, if one is configured, and then its note goes. Each step reads
the groups anew, so that a group may be saved by the first and by the second. -/

namespace AddressBook

open AddressBook.Action Text

namespace Membership

variable {account : CanonicalName} {ids : List String} {d d₁ : Directory}

theorem Turned.aliasTable_eq (h : Turned account ids d d₁) :
    d₁.store.aliasTable = d.store.aliasTable := by
  funext id
  rw [Store.aliasTable, Store.aliasTable]
  by_cases hid : id ∈ ids
  · obtain ⟨n, time, hn, -, turned⟩ := h.groups id hid
    have same := n.sameBesideMembers_turnedAt account time
    rw [hn, turned]
    exact Note.listed?_congr (same.2 "Form" (by decide)) (same.2 "ListName" (by decide))
  · rw [h.others id hid]

theorem Turned.became (h : Turned account ids d d₁) {id : String} {n m : Note}
    (hn : d.store.notes.get? id = some n) (hm : d₁.store.notes.get? id = some m) :
    id ∉ ids ∧ m = n ∨ id ∈ ids ∧ ∃ time, m = n.turnedAt account time :=
  (turned_iff.mp h).became hn hm

theorem Turned.others_eq (hc : Name.canonicalize account.text = .ok account)
    (h : Turned account ids d d₁) {id : String} {n m : Note}
    (hn : d.store.notes.get? id = some n) (hm : d₁.store.notes.get? id = some m) :
    m.members.filter (fun stored => !Name.refersTo stored account) =
      n.members.filter fun stored => !Name.refersTo stored account := by
  rcases h.became hn hm with ⟨-, rfl⟩ | ⟨-, time, rfl⟩
  · rfl
  · exact Note.others_turnedAt hc n time

section

variable (hs : d.store.Sound) (hf : d.store.Faithful)

include hs hf

theorem turned_of_removeEverywhere {count : Nat}
    (hg : ∀ g ∈ d.store.notesOf .group, g.HasGroupForm ∧ g.HasCanonicalMembers)
    (h : removeEverywhere account d = .ok count d₁) :
    Turned account (((d.store.notesOf .group).filter (·.hasMember account)).filterMap (·.id)) d d₁ := by
  rw [← Store.idsFor_of_proper hg]
  exact turned_of_removal hs hf h

theorem turned_of_join {name : String} {b : Bool}
    (unlisted : ∀ g ∈ d.store.notesOf .group, g.hasMember account = false)
    (h : join account name d = .ok b d₁) :
    ∃ id, d.store.aliasTable.Finds name id ∧ Turned account [id] d d₁ := by
  rw [join] at h
  obtain ⟨found, d', read, h⟩ := bind_ok_iff.mp h
  rw [read_ok_iff] at read
  obtain ⟨read, rfl⟩ := read
  have first := Store.groupByAlias_ok hf read
  cases found with
  | none => exact absurd h (by simp [throw_ok_iff])
  | some g =>
    obtain ⟨id, hget, finds⟩ := (Store.find?_hasAlias_eq_some_iff hs).mp first.symm
    have listed := List.mem_of_find?_eq_some first.symm
    rcases addMember_ok h with ⟨member, -⟩ | ⟨-, n', saved⟩
    · rw [unlisted g listed] at member
      cases member
    · exact ⟨id, finds, (Turned.refl hs hf).save List.not_mem_nil hget
        (Store.mem_notesOf.mp listed).2 saved⟩

end

theorem Turned.unlisted (hs : d.store.Sound) (hc : Name.canonicalize account.text = .ok account)
    (h : Turned account (((d.store.notesOf .group).filter (·.hasMember account)).filterMap (·.id)) d d₁) :
    ∀ g ∈ d₁.store.notesOf .group, g.hasMember account = false := by
  intro g hg
  obtain ⟨id, -, hget⟩ := h.sound.get?_of_mem_notesOf hg
  obtain ⟨n, hn, became⟩ := h.origin hget
  rw [hs.mem_ids_iff] at became
  rcases became with ⟨absent, rfl⟩ | ⟨⟨m, hm, -, member⟩, time, rfl⟩
  · rw [Bool.eq_false_iff]
    exact fun member => absent ⟨g, hn, (Store.mem_notesOf.mp hg).2, member⟩
  · rw [hn, Option.some.injEq] at hm
    rw [Note.hasMember_turnedAt hc, hm, member]
    rfl

end Membership

namespace Account

open Provisioning

variable {settings : Settings} {uid id taker : String} {n : Note} {name : CanonicalName}
  {d d₀ d₁ : Directory}

def checkTaker (settings : DirectorySettings) : Action Unit :=
  match settings.deleteDenyGroup with
  | some taker => do
    if (← Directory.read (·.groupByAlias taker)).isNone then throw (.unknownGroup taker)
  | none => pure ()

def handOver (settings : DirectorySettings) (name : CanonicalName) : Action Unit :=
  match settings.deleteDenyGroup with
  | some taker => discard (Membership.join name taker)
  | none => pure ()

theorem delete_eq (settings : Settings) (uid : String) :
    delete settings uid = (do
      Directory.acquire
      let n ← findExisting .account uid
      let id ← idOf n
      let name ← storedName n
      checkTaker settings.directory
      discard (Membership.removeEverywhere name)
      handOver settings.directory name
      discard (Directory.delete id)) := by
  have branches : ∀ {c : Prop} [Decidable c] (x y : Action Unit) (f : Unit → Action Unit),
      (if c then x else y) >>= f = if c then x >>= f else y >>= f :=
    fun x y f => apply_ite (· >>= f) _ x y
  rw [delete]
  dsimp only
  cases deny : settings.directory.deleteDenyGroup with
  | none => simp only [checkTaker, handOver, deny, pure_bind]
  | some taker => simp only [checkTaker, handOver, deny, bind_assoc, branches, pure_bind]

/-- The group of the id takes in the deleted: it is the first with the alias that is configured. -/
def TakesIn (settings : DirectorySettings) (s : Store) (id : String) : Prop :=
  ∃ taker, settings.deleteDenyGroup = some taker ∧ s.aliasTable.Finds taker id

theorem reads_checkTaker (settings : DirectorySettings) : Reads (checkTaker settings) := by
  rw [checkTaker]
  split
  · refine (reads_read _).bind fun found => ?_
    exact reads_ite (reads_throw _) (reads_pure _)
  · exact reads_pure ()

theorem turned_of_handOver (hs : d.store.Sound) (hf : d.store.Faithful)
    (unlisted : ∀ g ∈ d.store.notesOf .group, g.hasMember name = false)
    (h : handOver settings.directory name d = .ok () d₁) :
    ∃ ids, Membership.Turned name ids d d₁ ∧
      (∀ taker, taker ∈ ids ↔ TakesIn settings.directory d.store taker) ∧
        (settings.directory.deleteDenyGroup.isSome = true → ids ≠ []) := by
  rw [handOver] at h
  cases deny : settings.directory.deleteDenyGroup with
  | none =>
    rw [deny] at h
    obtain ⟨-, rfl⟩ := pure_ok_iff.mp h
    exact ⟨[], .refl hs hf, by simp [TakesIn, deny], by simp⟩
  | some called =>
    rw [deny] at h
    obtain ⟨b, joined⟩ := discard_ok_iff.mp h
    obtain ⟨id, finds, turned⟩ := Membership.turned_of_join hs hf unlisted joined
    refine ⟨[id], turned, fun taker => ?_, by simp⟩
    rw [List.mem_singleton, TakesIn, deny]
    constructor
    · rintro rfl
      exact ⟨called, rfl, finds⟩
    · rintro ⟨_, ⟨⟩, finds'⟩
      exact finds.unique finds'

/-- A deletion in steps: the account leaves every group, the group for the deleted takes it in, and its
note goes. -/
structure Leaving (settings : DirectorySettings) (id : String) (name : CanonicalName)
    (ids : List String) (d d' d'' d₁ : Directory) : Prop where
  left : Membership.Turned name
    (((d.store.notesOf .group).filter (·.hasMember name)).filterMap (·.id)) d d'
  turned : Membership.Turned name ids d' d''
  takers : ∀ taker, taker ∈ ids ↔ TakesIn settings d.store taker
  taken : settings.deleteDenyGroup.isSome = true → ids ≠ []
  erased : d₁.store = d''.store.erase id

theorem delete_ok (hs : d₀.store.Sound) (hf : d₀.store.Faithful)
    (hg : ∀ g ∈ d₀.store.notesOf .group, g.HasGroupForm ∧ g.HasCanonicalMembers)
    (reached : Directory.acquire d = .ok () d₀)
    (found : find .account uid d₀.store = .ok (some n)) (hid : n.id = some id)
    (hn : storedName n = .ok name) (hc : Name.canonicalize name.text = .ok name)
    (h : delete settings uid d = .ok () d₁) :
    ∃ ids d' d'', Leaving settings.directory id name ids d₀ d' d'' d₁ := by
  rw [delete_eq, bind_apply, reached] at h
  dsimp only at h
  rw [bind_apply, findExisting_of_find found] at h
  dsimp only at h
  obtain ⟨id', _, lifted, named⟩ := bind_ok_iff.mp h
  obtain ⟨same, rfl⟩ := lift_ok_iff.mp lifted
  rw [idOf, hid, Except.ok.injEq] at same
  obtain ⟨name', _, lifted', checks⟩ := bind_ok_iff.mp named
  obtain ⟨same', rfl⟩ := lift_ok_iff.mp lifted'
  rw [hn, Except.ok.injEq] at same'
  rw [← same, ← same'] at checks
  obtain ⟨⟨⟩, d₂, checked, leaves⟩ := bind_ok_iff.mp checks
  rw [(reads_checkTaker settings.directory).ok checked] at leaves
  obtain ⟨⟨⟩, d', left, joins⟩ := bind_ok_iff.mp leaves
  obtain ⟨count, left⟩ := discard_ok_iff.mp left
  obtain ⟨⟨⟩, d'', joined, deletes⟩ := bind_ok_iff.mp joins
  obtain ⟨_, deleted⟩ := discard_ok_iff.mp deletes
  have out := Membership.turned_of_removeEverywhere hs hf hg left
  obtain ⟨ids, turned, takers, taken⟩ :=
    turned_of_handOver out.sound out.faithful (out.unlisted hs hc) joined
  refine ⟨ids, d', d'', out, turned, fun taker => ?_, taken, Directory.delete_ok deleted⟩
  rw [takers, TakesIn, TakesIn, out.aliasTable_eq]

/-- What deleting an account comes to, note by note. -/
structure Departed (settings : DirectorySettings) (id : String) (name : CanonicalName)
    (d d₁ : Directory) : Prop where
  keys : ∀ other, other ∈ d₁.store.notes.keys ↔ other ≠ id ∧ other ∈ d.store.notes.keys
  taken : settings.deleteDenyGroup.isSome = true →
    ∃ taker, TakesIn settings d.store taker ∧ taker ∈ d₁.store.notes.keys
  once : ∀ taker g, TakesIn settings d.store taker → d₁.store.notes.get? taker = some g →
    g.members.countP (Name.refersTo · name) = 1
  unlisted : ∀ other g, ¬ TakesIn settings d.store other → d₁.store.notes.get? other = some g →
    g.isClass .group = true → g.hasMember name = false
  others : ∀ other g g', d.store.notes.get? other = some g → d₁.store.notes.get? other = some g' →
    g'.members.filter (fun stored => !Name.refersTo stored name) =
      g.members.filter fun stored => !Name.refersTo stored name
  items : ∀ other n n', d.store.notes.get? other = some n → d₁.store.notes.get? other = some n' →
    n'.SameBesideMembers n
  untouched : ∀ other n n', d.store.notes.get? other = some n →
    d₁.store.notes.get? other = some n' →
      n.isClass .group = false ∨ n.hasMember name = false ∧ ¬ TakesIn settings d.store other →
        n' = n

namespace Leaving

variable {settings : DirectorySettings} {ids : List String} {d' d'' : Directory} {other : String}
  (h : Leaving settings id name ids d d' d'' d₁)

include h

theorem get?_before {m : Note} (hm : d₁.store.notes.get? other = some m) :
    d''.store.notes.get? other = some m := by
  rw [h.erased, Store.erase, Keyed.get?_erase h.turned.sound.sorted] at hm
  split at hm
  · cases hm
  · exact hm

theorem mem_keys_iff : other ∈ d₁.store.notes.keys ↔ other ≠ id ∧ other ∈ d.store.notes.keys := by
  rw [h.erased, Store.erase, Keyed.mem_keys_erase h.turned.sound.sorted, h.turned.keys, h.left.keys]

theorem others {g g' : Note} (hget : d.store.notes.get? other = some g)
    (hget' : d₁.store.notes.get? other = some g') (hc : Name.canonicalize name.text = .ok name) :
    g'.members.filter (fun stored => !Name.refersTo stored name) =
      g.members.filter fun stored => !Name.refersTo stored name := by
  obtain ⟨m, hm, -⟩ := h.turned.origin (h.get?_before hget')
  exact (h.turned.others_eq hc hm (h.get?_before hget')).trans (h.left.others_eq hc hget hm)

theorem sameBesideMembers {m m' : Note} (hget : d.store.notes.get? other = some m)
    (hget' : d₁.store.notes.get? other = some m') : m'.SameBesideMembers m := by
  obtain ⟨o, ho, -⟩ := h.turned.origin (h.get?_before hget')
  exact (h.turned.sameBesideMembers ho (h.get?_before hget')).trans (h.left.sameBesideMembers hget ho)

section

variable (hs : d.store.Sound) (hc : Name.canonicalize name.text = .ok name)

include hs hc

theorem turnedGroup (hn : d.store.notes.get? id = some n) (hk : n.isClass .account = true)
    {taker : String} (ht : taker ∈ ids) :
    ∃ m time, d'.store.notes.get? taker = some m ∧ m.hasMember name = false ∧
      d''.store.notes.get? taker = some (m.turnedAt name time) ∧ taker ≠ id := by
  obtain ⟨m, time, hm, group, became⟩ := h.turned.groups taker ht
  have listed : m ∈ d'.store.notesOf .group :=
    Store.mem_notesOf.mpr ⟨⟨taker, Keyed.mem_of_get? hm⟩, group⟩
  refine ⟨m, time, hm, h.left.unlisted hs hc m listed, became, ?_⟩
  rintro rfl
  rw [Note.isClass_congr (h.left.sameBesideMembers hn hm), Note.not_isClass_of_isClass hk] at group
  cases group

theorem countP_taker (hn : d.store.notes.get? id = some n) (hk : n.isClass .account = true)
    {taker : String} {g : Note} (takes : TakesIn settings d.store taker)
    (hget : d₁.store.notes.get? taker = some g) : g.members.countP (Name.refersTo · name) = 1 := by
  obtain ⟨m, time, -, member, became, -⟩ := h.turnedGroup hs hc hn hk ((h.takers taker).mpr takes)
  rw [h.get?_before hget, Option.some.injEq] at became
  have none : m.members.countP (Name.refersTo · name) = 0 :=
    List.countP_eq_zero.mpr (List.any_eq_false.mp member)
  rw [became, Note.members_turnedAt, member, if_neg Bool.false_ne_true, Membership.withMember,
    List.countP_append, none]
  simp [Note.refersTo_self hc]

theorem exists_taker (hn : d.store.notes.get? id = some n) (hk : n.isClass .account = true)
    (configured : settings.deleteDenyGroup.isSome = true) :
    ∃ taker, TakesIn settings d.store taker ∧ taker ∈ d₁.store.notes.keys := by
  obtain ⟨taker, ht⟩ := List.exists_mem_of_ne_nil ids (h.taken configured)
  obtain ⟨m, time, hm, -, -, apart⟩ := h.turnedGroup hs hc hn hk ht
  refine ⟨taker, (h.takers taker).mp ht, h.mem_keys_iff.mpr ⟨apart, ?_⟩⟩
  rw [← h.left.keys]
  exact Keyed.mem_keys_of_get? hm

theorem unlisted {g : Note} (absent : ¬ TakesIn settings d.store other)
    (hget : d₁.store.notes.get? other = some g) (group : g.isClass .group = true) :
    g.hasMember name = false := by
  rw [← h.takers] at absent
  have same := h.turned.others other absent
  rw [h.get?_before hget] at same
  exact h.left.unlisted hs hc g
    (Store.mem_notesOf.mpr ⟨⟨other, Keyed.mem_of_get? same.symm⟩, group⟩)

end

theorem eq_of_uninvolved (hs : d.store.Sound) {m m' : Note}
    (hget : d.store.notes.get? other = some m) (hget' : d₁.store.notes.get? other = some m')
    (uninvolved : m.isClass .group = false ∨
      m.hasMember name = false ∧ ¬ TakesIn settings d.store other) : m' = m := by
  obtain ⟨o, ho, -⟩ := h.turned.origin (h.get?_before hget')
  have unleft : other ∉ ((d.store.notesOf .group).filter (·.hasMember name)).filterMap (·.id) := by
    rw [hs.mem_ids_iff]
    rintro ⟨m', hm', group, member⟩
    rw [hget, Option.some.injEq] at hm'
    rw [← hm'] at group member
    simp [group, member] at uninvolved
  have untaken : other ∉ ids := by
    intro ht
    obtain ⟨o', time, ho', group, -⟩ := h.turned.groups other ht
    rw [ho, Option.some.injEq] at ho'
    rw [← ho', Note.isClass_congr (h.left.sameBesideMembers hget ho)] at group
    rcases uninvolved with other | ⟨-, untaken⟩
    · rw [group] at other
      cases other
    · exact untaken ((h.takers _).mp ht)
  have same := h.turned.others other untaken
  rw [h.get?_before hget', h.left.others other unleft, hget] at same
  exact Option.some.inj same

theorem departed (hs : d.store.Sound) (hc : Name.canonicalize name.text = .ok name)
    (hn : d.store.notes.get? id = some n) (hk : n.isClass .account = true) :
    Departed settings id name d d₁ where
  keys _ := h.mem_keys_iff
  taken := h.exists_taker hs hc hn hk
  once _ _ := h.countP_taker hs hc hn hk
  unlisted _ _ := h.unlisted hs hc
  others _ _ _ hget hget' := h.others hget hget' hc
  items _ _ _ := h.sameBesideMembers
  untouched _ _ _ := h.eq_of_uninvolved hs

end Leaving

theorem Departed.congr {settings : DirectorySettings} (h : Departed settings id name d₀ d₁)
    (same : d₀.store.notes = d.store.notes) : Departed settings id name d d₁ := by
  have takers : ∀ other, TakesIn settings d₀.store other ↔ TakesIn settings d.store other := by
    intro other
    rw [TakesIn, TakesIn, Store.aliasTable_congr same]
  obtain ⟨keys, taken, once, unlisted, others, items, untouched⟩ := h
  constructor <;> simpa only [← takers, ← same]

/-- An account that is deleted is gone, and no group lists it but the one for the deleted. -/
theorem delete_effect (hs : d.store.Sound) (hf : d.store.Faithful)
    (hg : ∀ g ∈ d.store.notesOf .group, g.HasGroupForm ∧ g.HasCanonicalMembers)
    (reached : Directory.acquire d = .ok () d₀)
    (found : find .account uid d₀.store = .ok (some n))
    (full : n.text? "FullName" = some name.text) (hc : Name.canonicalize name.text = .ok name)
    (h : delete settings uid d = .ok () d₁) :
    ∃ id, n.id = some id ∧ d.store.notes.get? id = some n ∧
      Departed settings.directory id name d d₁ := by
  have renewed := (acquire_ok reached).1
  have sound : d₀.store.Sound := renewed ▸ sound_acquired hs
  have faithful : d₀.store.Faithful := renewed ▸ faithful_acquired hf
  obtain ⟨id, hget, account⟩ := Store.stored_of_accountById faithful found
  -- A session that finds the account has not lost the notes of the one before.
  have same : d₀.store.notes = d.store.notes := by
    rcases (store_acquired d).2 with same | none
    · rw [renewed, same]
    · rw [renewed, none] at hget
      cases hget
  have proper : ∀ g ∈ d₀.store.notesOf .group, g.HasGroupForm ∧ g.HasCanonicalMembers := by
    rwa [Store.notesOf, Store.all, same]
  have stored : storedName n = .ok name := by
    rw [storedName, full]
    exact hc
  have hid := sound.id_of_get? hget
  obtain ⟨ids, d', d'', leaving⟩ := delete_ok sound faithful proper reached found hid stored hc h
  exact ⟨id, hid, same ▸ hget, Departed.congr (leaving.departed sound hc hget account) same⟩

/-! An account that is in two groups, one of which is for the deleted. -/

def sampleName : CanonicalName := ⟨"Ann"⟩

def sampleLeaver : Note := { (Note.ofClass .account).setText "FullName" "Ann" with id := some "A1" }

def sampleStaff : Note := Membership.sampleGroup "1" "Staff" ["Ann"]

def sampleLeavers : Note := Membership.sampleGroup "2" "Leavers" ["ANN", "Bob"]

def sampleOffice : Directory :=
  { store := { notes := [("1", sampleStaff), ("2", sampleLeavers), ("A1", sampleLeaver)] } }

def sampleSettings : Settings := { directory := { deleteDenyGroup := some "leavers" } }

theorem proper_sampleOffice : ∀ g ∈ sampleOffice.store.notesOf .group,
    g.HasGroupForm ∧ g.HasCanonicalMembers := by
  have groups : sampleOffice.store.notesOf .group = [sampleStaff, sampleLeavers] := by decide
  rw [groups, List.forall_mem_cons, List.forall_mem_singleton]
  exact ⟨Membership.proper_sampleGroup (by decide) _ _,
    Membership.proper_sampleGroup (by decide) _ _⟩

theorem delete_effect_sample :
    ∃ d₁, delete sampleSettings "A1" sampleOffice = .ok () d₁ ∧
      Departed sampleSettings.directory "A1" sampleName sampleOffice d₁ := by
  have runs : isOk (Directory.acquire sampleOffice) = true ∧
      (find .account "A1" (ended Directory.acquire sampleOffice).store).toOption =
        some (some sampleLeaver) ∧ isOk (delete sampleSettings "A1" sampleOffice) = true := by
    decide +kernel
  have full : sampleLeaver.text? "FullName" = some sampleName.text := by decide
  obtain ⟨reached, found, deletes⟩ := runs
  obtain ⟨⟨⟩, reached⟩ := ok_ended reached
  obtain ⟨⟨⟩, run⟩ := ok_ended deletes
  obtain ⟨id, hid, -, departed⟩ := delete_effect ⟨by decide, by decide⟩
    (Store.faithful_of_memory rfl) proper_sampleOffice reached (eq_ok_of_toOption found) full
    (eq_ok_of_toOption (by decide)) run
  cases hid
  exact ⟨_, run, departed⟩

end Account

end AddressBook

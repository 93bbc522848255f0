import AddressBook.Proofs.Membership.Update
import AddressBook.Proofs.Provisioning.AliasTable
import AddressBook.Proofs.Provisioning.Indexed

/-! An account that joins or leaves groups by their names, one after the other. A name leads to the
first group that has it for an alias, and this stays so while members come and go; in the end the
groups to which a name leads list the account or do not, and all others are as they were. -/

namespace AddressBook

open AddressBook.Action

namespace AliasTable

theorem Finds.eq {t : AliasTable} {name id other : String} (h : t.Finds name id)
    (h' : t.Finds name other) : id = other :=
  Decidable.byContradiction fun different =>
    h'.2 id (Keyed.lt_of_not_lt different fun less => h.2 other less h'.1) h.1

end AliasTable

theorem Note.isDenyList_congr {n m : Note} (h : n.SameBesideMembers m) :
    n.isDenyList = m.isDenyList := by
  rw [isDenyList, isDenyList, text?_congr (h.2 "GroupType" (by decide))]

/-- A deny list of the store lists the name. -/
def Store.Denies (s : Store) (name : CanonicalName) : Prop :=
  ∃ g ∈ s.notesOf .group, g.isDenyList = true ∧ g.hasMember name = true

namespace Membership

variable {account : CanonicalName} {wanted : Bool} {names : List String} {s s' s'' : Store}
  {d d' : Directory}

def ask (account : CanonicalName) (wanted : Bool) (name : String) : Action Unit :=
  if wanted then discard (join account name) else discard (leave account name)

def Led (s : Store) (names : List String) (id : String) : Prop :=
  ∃ name ∈ names, s.aliasTable.Finds name id

/-- The second store is the first after the groups to which the names lead were made to list the
account, or not to list it. -/
structure Answered (account : CanonicalName) (wanted : Bool) (names : List String) (s s' : Store) :
    Prop where
  sound : s'.Sound
  keys : s'.notes.keys = s.notes.keys
  beside : ∀ id n n', s.notes.get? id = some n → s'.notes.get? id = some n' → n'.SameBesideMembers n
  others : ∀ id n, s.notes.get? id = some n → n.isClass .group = false → s'.notes.get? id = some n
  led : ∀ id n, s'.notes.get? id = some n → Led s names id → n.hasMember account = wanted
  unled : ∀ id n n', s.notes.get? id = some n → s'.notes.get? id = some n' → ¬ Led s names id →
    n'.hasMember account = n.hasMember account

namespace Answered

theorem refl (hs : s.Sound) : Answered account wanted [] s s where
  sound := hs
  keys := rfl
  beside _ n _ h h' := by
    rw [h, Option.some.injEq] at h'
    exact h' ▸ n.sameBesideMembers_refl
  others _ _ h _ := h
  led _ _ _ h := by
    obtain ⟨_, none, _⟩ := h
    exact absurd none List.not_mem_nil
  unled _ _ _ h h' _ := by
    rw [h, Option.some.injEq] at h'
    rw [h']

theorem image (h : Answered account wanted names s s') {id : String} {n : Note}
    (hn : s.notes.get? id = some n) :
    ∃ n', s'.notes.get? id = some n' ∧ n'.SameBesideMembers n := by
  obtain ⟨n', hn'⟩ := Keyed.exists_get?_congr h.keys.symm hn
  exact ⟨n', hn', h.beside id n n' hn hn'⟩

theorem origin (h : Answered account wanted names s s') {id : String} {n' : Note}
    (hn' : s'.notes.get? id = some n') : ∃ n, s.notes.get? id = some n ∧ n'.SameBesideMembers n := by
  obtain ⟨n, hn⟩ := Keyed.exists_get?_congr h.keys hn'
  exact ⟨n, hn, h.beside id n n' hn hn'⟩

theorem aliasTable (h : Answered account wanted names s s') : s'.aliasTable = s.aliasTable := by
  funext id
  rw [Store.aliasTable, Store.aliasTable]
  cases found : s.notes.get? id with
  | none =>
    rw [(Keyed.get?_eq_none_congr h.keys id).mpr found]
  | some n =>
    obtain ⟨n', hn', same⟩ := h.image found
    rw [hn', Option.bind_some, Option.bind_some]
    exact Note.listed?_congr (same.2 "Form" (by decide)) (same.2 "ListName" (by decide))

theorem led_iff (h : Answered account wanted names s s') (more : List String) (id : String) :
    Led s' more id ↔ Led s more id := by
  rw [Led, Led, h.aliasTable]

theorem step (h : Answered account wanted names s s') {name : String}
    (h' : Answered account wanted [name] s' s'') :
    Answered account wanted (names ++ [name]) s s'' where
  sound := h'.sound
  keys := h'.keys.trans h.keys
  beside id n n'' hn hn'' := by
    obtain ⟨n', hn', same⟩ := h'.origin hn''
    have first := h.beside id n n' hn hn'
    exact ⟨same.1.trans first.1, fun item hi => (same.2 item hi).trans (first.2 item hi)⟩
  others id n hn hk := h'.others id n (h.others id n hn hk) hk
  led id n'' hn'' hled := by
    obtain ⟨n', hn', _⟩ := h'.origin hn''
    by_cases now : Led s' [name] id
    · exact h'.led id n'' hn'' now
    · rw [h'.unled id n' n'' hn' hn'' now]
      refine h.led id n' hn' ?_
      obtain ⟨known, hk, finds⟩ := hled
      rcases List.mem_append.mp hk with hk | hk
      · exact ⟨known, hk, finds⟩
      · refine absurd ?_ now
        rw [h.led_iff]
        exact ⟨known, hk, finds⟩
  unled id n n'' hn hn'' hled := by
    obtain ⟨n', hn', _⟩ := h'.origin hn''
    have before : ¬ Led s names id := fun ⟨known, hk, finds⟩ =>
      hled ⟨known, List.mem_append_left _ hk, finds⟩
    have now : ¬ Led s' [name] id := by
      rw [h.led_iff]
      exact fun ⟨known, hk, finds⟩ => hled ⟨known, List.mem_append_right _ hk, finds⟩
    rw [h'.unled id n' n'' hn' hn'' now, h.unled id n n' hn hn' before]

theorem of_settled (hs : s.Sound) {name : String}
    (settled : ∀ id n, s.notes.get? id = some n → s.aliasTable.Finds name id →
      n.hasMember account = wanted) : Answered account wanted [name] s s := by
  have same : ∀ {id} {n n' : Note}, s.notes.get? id = some n → s.notes.get? id = some n' → n = n' :=
    fun h h' => Option.some.inj (h.symm.trans h')
  refine ⟨hs, rfl, fun id n n' h h' => ?_, fun _ _ h _ => h, fun id n h hled => ?_,
    fun id n n' h h' _ => by rw [same h h']⟩
  · rw [same h h']
    exact n'.sameBesideMembers_refl
  · obtain ⟨_, hk, finds⟩ := hled
    rw [List.mem_singleton.mp hk] at finds
    exact settled id n h finds

theorem of_turned (hc : account.Settled) {name id : String} {g : Note}
    (hg : d.store.notes.get? id = some g) (finds : d.store.aliasTable.Finds name id)
    (other : g.hasMember account = !wanted) (turned : Turned account [id] d d') :
    Answered account wanted [name] d.store d'.store where
  sound := turned.sound
  keys := turned.keys
  beside _ _ _ h h' := turned.sameBesideMembers h h'
  others other n h hk := by
    rw [← h]
    refine turned.others other fun here => ?_
    obtain ⟨m, _, hm, group, _⟩ := turned.groups other here
    rw [h, Option.some.injEq] at hm
    rw [hm, group] at hk
    cases hk
  led key n h hled := by
    obtain ⟨_, hk, finds'⟩ := hled
    rw [List.mem_singleton.mp hk] at finds'
    obtain rfl := finds.eq finds'
    obtain ⟨m, time, hm, _, stands⟩ := turned.groups id (List.mem_singleton.mpr rfl)
    rw [hg, Option.some.injEq] at hm
    rw [h, Option.some.injEq] at stands
    rw [stands, Note.hasMember_turnedAt hc, ← hm, other, Bool.not_not]
  unled key n n' h h' hled := by
    have elsewhere : key ∉ [id] := by
      rintro here
      rw [List.mem_singleton.mp here] at hled
      exact hled ⟨name, List.mem_singleton.mpr rfl, finds⟩
    rw [turned.others key elsewhere, h, Option.some.injEq] at h'
    rw [h']

section

variable (hd : d.InMemory) {name : String}

include hd

theorem of_none (read : d.store.groupByAlias name = .ok none) :
    Answered account wanted [name] d.store d.store :=
  .of_settled hd.sound fun id _ _ finds =>
    absurd finds.1 ((Store.groupByAlias_eq_none_iff hd.sound hd.memory).mp read id)

theorem of_found {g : Note} (read : d.store.groupByAlias name = .ok (some g))
    (member : g.hasMember account = wanted) : Answered account wanted [name] d.store d.store := by
  obtain ⟨id, hg, finds⟩ := (Store.groupByAlias_eq_some_iff hd.sound hd.memory).mp read
  refine .of_settled hd.sound fun other n hn finds' => ?_
  rw [← finds.eq finds', hg, Option.some.injEq] at hn
  rw [← hn, member]

theorem of_saved (hc : account.Settled) {g n' : Note}
    (read : d.store.groupByAlias name = .ok (some g)) (other : g.hasMember account = !wanted)
    (saved : Directory.save (g.turned account) d = .ok n' d') :
    Answered account wanted [name] d.store d'.store := by
  obtain ⟨id, hg, finds⟩ := (Store.groupByAlias_eq_some_iff hd.sound hd.memory).mp read
  have start : Turned account [] d d := .refl hd.sound (Store.faithful_of_memory hd.memory)
  exact .of_turned hc hg finds other
    (start.save List.not_mem_nil hg (Store.returns_of_groupByAlias read).1 saved)

end

end Answered

theorem ask_ok (hc : account.Settled) (hd : d.InMemory) {name : String} {u : Unit}
    (h : ask account wanted name d = .ok u d') : Answered account wanted [name] d.store d'.store := by
  rw [ask] at h
  split at h
  · next joining =>
    subst joining
    obtain ⟨b, h⟩ := discard_ok_iff.mp h
    rw [join] at h
    obtain ⟨found, d₁, read, h⟩ := bind_ok_iff.mp h
    obtain ⟨led, rfl⟩ := read_ok_iff.mp read
    cases found with
    | none => exact absurd h (by simp [throw_ok_iff])
    | some g =>
      rcases addMember_ok h with ⟨member, rfl⟩ | ⟨member, n', saved⟩
      · exact .of_found hd led member
      · exact .of_saved hd hc led member saved
  · next leaving =>
    obtain rfl := Bool.eq_false_iff.mpr leaving
    obtain ⟨b, h⟩ := discard_ok_iff.mp h
    rw [leave] at h
    obtain ⟨found, d₁, read, h⟩ := bind_ok_iff.mp h
    obtain ⟨led, rfl⟩ := read_ok_iff.mp read
    cases found with
    | none =>
      obtain ⟨-, rfl⟩ := pure_ok_iff.mp h
      exact .of_none hd led
    | some g =>
      rcases removeMember_ok h with ⟨member, rfl⟩ | ⟨member, n', saved⟩
      · exact .of_found hd led member
      · exact .of_saved hd hc led member saved

theorem keeps_ask (name : String) : Keeps Directory.InMemory (ask account wanted name) fun _ => True := by
  have kept : ∀ {x : Action Bool}, Keeps (Directory.Within fun _ => True) x (fun _ => True) →
      Keeps Directory.InMemory (discard x) fun _ => True := fun h =>
    keeps_discard (Leads.weaken h (fun _ hd => ⟨hd, fun _ _ => trivial⟩)
      (fun _ _ hd => ⟨hd.1.toInMemory, trivial⟩) fun _ hd => hd.toInMemory)
  rw [ask]
  split
  · exact kept ((Within.frame fun _ => True).keeps_join trivial name)
  · exact kept ((Within.frame fun _ => True).keeps_leave account name)

theorem asks_ok (hc : account.Settled) (hd : d.InMemory) {names : List String} {u : Unit}
    (h : (names.forM (ask account wanted)) d = .ok u d') :
    Answered account wanted names d.store d'.store := by
  have all : ∀ more d₁, d₁.InMemory → ∀ done, Answered account wanted done d.store d₁.store →
      (more.forM (ask account wanted)) d₁ = .ok u d' →
        Answered account wanted (done ++ more) d.store d'.store := by
    intro more
    induction more with
    | nil =>
      intro d₁ _ done answered h
      rw [← forM_nil_ok_iff.mp h, List.append_nil]
      exact answered
    | cons name more ih =>
      intro d₁ hd₁ done answered h
      obtain ⟨d₂, first, others⟩ := forM_cons_ok_iff.mp h
      have step := answered.step (ask_ok hc hd₁ first)
      have later := ih d₂ ((keeps_ask name).ok hd₁ first).1 _ step others
      rwa [List.append_assoc, List.singleton_append] at later
  exact all names d hd [] (.refl hd.sound) h

namespace Answered

theorem before_of_mem (h : Answered account wanted names s s') {g' : Note}
    (hg' : g' ∈ s'.notesOf .group) :
    ∃ id g, s.notes.get? id = some g ∧ s'.notes.get? id = some g' ∧ g ∈ s.notesOf .group ∧
      g.isDenyList = g'.isDenyList := by
  obtain ⟨id, _, stands'⟩ := h.sound.get?_of_mem_notesOf hg'
  obtain ⟨g, stands, same⟩ := h.origin stands'
  refine ⟨id, g, stands, stands', Store.mem_notesOf.mpr ⟨⟨id, Keyed.mem_of_get? stands⟩, ?_⟩,
    (Note.isDenyList_congr same).symm⟩
  rw [← Note.isClass_congr same, (Store.mem_notesOf.mp hg').2]

theorem after_of_get? (h : Answered account wanted names s s') {id : String}
    {g : Note} (stands : s.notes.get? id = some g) (group : g.isClass .group = true) :
    ∃ g', s'.notes.get? id = some g' ∧ g' ∈ s'.notesOf .group ∧ g'.isDenyList = g.isDenyList := by
  obtain ⟨g', stands', same⟩ := h.image stands
  refine ⟨g', stands', Store.mem_notesOf.mpr ⟨⟨id, Keyed.mem_of_get? stands'⟩, ?_⟩,
    Note.isDenyList_congr same⟩
  rw [Note.isClass_congr same, group]

/-- What an account that joined the groups is denied by: what denied it before, and the deny lists
to which a name leads. -/
theorem denies_joined (hd : d.InMemory) (h : Answered account true names d.store s') :
    s'.Denies account ↔ d.store.Denies account ∨
      ∃ name ∈ names, ∃ g, d.store.groupByAlias name = .ok (some g) ∧ g.isDenyList = true := by
  constructor
  · rintro ⟨g', hg', deny, member⟩
    obtain ⟨id, g, stands, stands', hg, alike⟩ := h.before_of_mem hg'
    rw [← alike] at deny
    by_cases led : Led d.store names id
    · obtain ⟨name, hname, finds⟩ := led
      exact Or.inr ⟨name, hname, g,
        (Store.groupByAlias_eq_some_iff hd.sound hd.memory).mpr ⟨id, stands, finds⟩, deny⟩
    · rw [h.unled id g g' stands stands' led] at member
      exact Or.inl ⟨g, hg, deny, member⟩
  · have denied : ∀ id g, d.store.notes.get? id = some g → g.isClass .group = true →
        g.isDenyList = true → (g.hasMember account = true ∨ Led d.store names id) →
          s'.Denies account := by
      intro id g stands group deny reason
      obtain ⟨g', stands', hg', alike⟩ := h.after_of_get? stands group
      refine ⟨g', hg', alike.trans deny, ?_⟩
      by_cases led : Led d.store names id
      · exact h.led id g' stands' led
      · rw [h.unled id g g' stands stands' led]
        exact reason.resolve_right led
    rintro (⟨g, hg, deny, member⟩ | ⟨name, hname, g, found, deny⟩)
    · obtain ⟨id, _, stands⟩ := hd.sound.get?_of_mem_notesOf hg
      exact denied id g stands (Store.mem_notesOf.mp hg).2 deny (Or.inl member)
    · obtain ⟨id, stands, finds⟩ := (Store.groupByAlias_eq_some_iff hd.sound hd.memory).mp found
      exact denied id g stands (Store.returns_of_groupByAlias found).1 deny
        (Or.inr ⟨name, hname, finds⟩)

/-- What an account that left the groups is denied by: the deny lists to which no name leads. -/
theorem denies_left (hd : d.InMemory) (h : Answered account false names d.store s') :
    s'.Denies account ↔ ∃ g ∈ d.store.notesOf .group, g.isDenyList = true ∧
      g.hasMember account = true ∧ ∀ name ∈ names, d.store.groupByAlias name ≠ .ok (some g) := by
  constructor
  · rintro ⟨g', hg', deny, member⟩
    obtain ⟨id, g, stands, stands', hg, alike⟩ := h.before_of_mem hg'
    have unled : ¬ Led d.store names id := by
      intro led
      rw [h.led id g' stands' led] at member
      cases member
    refine ⟨g, hg, alike.trans deny, ?_, fun name hname found => unled ⟨name, hname, ?_⟩⟩
    · rw [← h.unled id g g' stands stands' unled, member]
    · obtain ⟨other, stands'', finds⟩ :=
        (Store.groupByAlias_eq_some_iff hd.sound hd.memory).mp found
      have here := hd.sound.id_of_get? stands
      rw [hd.sound.id_of_get? stands'', Option.some.injEq] at here
      exact here ▸ finds
  · rintro ⟨g, hg, deny, member, elsewhere⟩
    obtain ⟨id, _, stands⟩ := hd.sound.get?_of_mem_notesOf hg
    obtain ⟨g', stands', hg', alike⟩ := h.after_of_get? stands (Store.mem_notesOf.mp hg).2
    refine ⟨g', hg', alike.trans deny, ?_⟩
    rw [h.unled id g g' stands stands', member]
    rintro ⟨name, hname, finds⟩
    exact elsewhere name hname
      ((Store.groupByAlias_eq_some_iff hd.sound hd.memory).mpr ⟨id, stands, finds⟩)

end Answered

end Membership

end AddressBook

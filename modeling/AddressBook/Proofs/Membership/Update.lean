import AddressBook.Proofs.Membership.Edited
import AddressBook.Proofs.Membership.Rewriting

/-! Updating the groups of an account. The groups to join and to leave are found before anything is
saved. No group is both, since what is joined does not list the account and what is left does, so
each group is turned at most once and the notes read at the start are still the stored ones. -/

namespace AddressBook.Membership

variable {account : CanonicalName} {ids : List String} {d d₁ d₂ : Directory}

/-- The second directory is the first after the groups of some ids were turned, each with one
save. -/
structure Turned (account : CanonicalName) (ids : List String) (d d₁ : Directory) : Prop where
  nodup : ids.Nodup
  sound : d₁.store.Sound
  faithful : d₁.store.Faithful
  keys : d₁.store.notes.keys = d.store.notes.keys
  others : ∀ id ∉ ids, d₁.store.notes.get? id = d.store.notes.get? id
  groups : ∀ id ∈ ids, ∃ n time, d.store.notes.get? id = some n ∧ n.isClass .group = true ∧
    d₁.store.notes.get? id = some (n.turnedAt account time)
  journal : d₁.journal = d.journal ++ ids.map fun id =>
    .saved id (((d₁.store.notes.get? id).map (·.items)).getD [])

theorem turned_iff : Turned account ids d d₁ ↔
    Rewritten (fun n => if n.hasMember account then withoutMember n.members account
      else withMember n.members account) ids d d₁ :=
  ⟨fun ⟨nodup, sound, faithful, keys, others, groups, journal⟩ =>
      ⟨nodup, sound, faithful, keys, others, groups, journal⟩,
    fun ⟨nodup, sound, faithful, keys, others, groups, journal⟩ =>
      ⟨nodup, sound, faithful, keys, others, groups, journal⟩⟩

namespace Turned

theorem refl (hs : d.store.Sound) (hf : d.store.Faithful) : Turned account [] d d :=
  turned_iff.mpr (.refl hs hf)

theorem origin (h : Turned account ids d d₁) {id : String} {m : Note}
    (hm : d₁.store.notes.get? id = some m) :
    ∃ n, d.store.notes.get? id = some n ∧
      (id ∉ ids ∧ m = n ∨ id ∈ ids ∧ ∃ time, m = n.turnedAt account time) :=
  (turned_iff.mp h).origin hm

theorem sameBesideMembers (h : Turned account ids d d₁) {id : String} {n m : Note}
    (hn : d.store.notes.get? id = some n) (hm : d₁.store.notes.get? id = some m) :
    m.SameBesideMembers n := (turned_iff.mp h).sameBesideMembers hn hm

theorem save (h : Turned account ids d d₁) {id : String} {n n' : Note} (hid : id ∉ ids)
    (hn : d.store.notes.get? id = some n) (hk : n.isClass .group = true)
    (hs : Directory.save (n.turned account) d₁ = .ok n' d₂) :
    Turned account (ids ++ [id]) d d₂ := turned_iff.mpr ((turned_iff.mp h).save hid hn hk hs)

end Turned

theorem addMember_ok {g : Note} {b : Bool} (h : addMember g account d₁ = .ok b d₂) :
    g.hasMember account = true ∧ d₂ = d₁ ∨
      g.hasMember account = false ∧ ∃ n', Directory.save (g.turned account) d₁ = .ok n' d₂ := by
  rw [addMember] at h
  cases listed : g.hasMember account with
  | true =>
    rw [listed, if_pos rfl, Action.pure_ok_iff] at h
    exact Or.inl ⟨rfl, h.2.symm⟩
  | false =>
    rw [listed, if_neg Bool.false_ne_true, Action.bind_ok_iff] at h
    obtain ⟨u, d', saved, h⟩ := h
    rw [Action.pure_ok_iff] at h
    obtain ⟨_, rfl⟩ := h
    refine Or.inr ⟨rfl, ?_⟩
    rw [Note.turned, listed, if_neg Bool.false_ne_true]
    exact saveMembers_ok saved

theorem length_withoutMember (g : Note) :
    (withoutMember g.members account).length = g.members.length ↔ g.hasMember account = false := by
  rw [withoutMember, List.length_filter_eq_length_iff, Note.hasMember, List.any_eq_false]
  simp

theorem removeMember_ok {g : Note} {b : Bool} (h : removeMember g account d₁ = .ok b d₂) :
    g.hasMember account = false ∧ d₂ = d₁ ∨
      g.hasMember account = true ∧ ∃ n', Directory.save (g.turned account) d₁ = .ok n' d₂ := by
  rw [removeMember] at h
  cases listed : g.hasMember account with
  | false =>
    rw [if_pos ((length_withoutMember g).mpr listed), Action.pure_ok_iff] at h
    exact Or.inl ⟨rfl, h.2.symm⟩
  | true =>
    have shorter : ¬ (withoutMember g.members account).length = g.members.length := by
      rw [length_withoutMember, listed]
      simp
    rw [if_neg shorter, Action.bind_ok_iff] at h
    obtain ⟨u, d', saved, h⟩ := h
    rw [Action.pure_ok_iff] at h
    obtain ⟨_, rfl⟩ := h
    refine Or.inr ⟨rfl, ?_⟩
    rw [Note.turned, listed, if_pos rfl]
    exact saveMembers_ok saved

theorem join_ok (hc : Name.canonicalize account.text = .ok account) (h : Turned account ids d d₁)
    (hids : ∀ id ∈ ids, ∀ n, d.store.notes.get? id = some n → n.hasMember account = false)
    {name : String} {b : Bool} (hj : join account name d₁ = .ok b d₂) :
    ∃ id g, d.store.notes.get? id = some g ∧ g.isClass .group = true ∧ g.hasAlias name = true ∧
      (Turned account ids d d₂ ∧ (g.hasMember account = false → id ∈ ids) ∨
        id ∉ ids ∧ g.hasMember account = false ∧ Turned account (ids ++ [id]) d d₂) := by
  rw [join, Action.bind_ok_iff] at hj
  obtain ⟨found, d', read, hj⟩ := hj
  rw [Action.read_ok_iff] at read
  obtain ⟨read, rfl⟩ := read
  have first := Store.groupByAlias_ok h.faithful read
  cases found with
  | none => exact absurd hj (by simp [Action.throw_ok_iff])
  | some m =>
    have listed := List.mem_of_find?_eq_some first.symm
    have called := List.find?_some first.symm
    obtain ⟨id, _, hm⟩ := h.sound.get?_of_mem_notesOf listed
    obtain ⟨g, hg, became⟩ := h.origin hm
    have same := h.sameBesideMembers hg hm
    have group : g.isClass .group = true := by
      rw [← Note.isClass_congr same]
      exact (Store.mem_notesOf.mp listed).2
    have known : g.hasAlias name = true := by
      rw [← Note.hasAlias_congr same]
      exact called
    refine ⟨id, g, hg, group, known, ?_⟩
    rcases became with ⟨hid, rfl⟩ | ⟨hid, time, rfl⟩
    · rcases addMember_ok hj with ⟨member, rfl⟩ | ⟨member, n', saved⟩
      · refine Or.inl ⟨h, fun other => ?_⟩
        rw [member] at other
        cases other
      · exact Or.inr ⟨hid, member, h.save hid hg group saved⟩
    · rcases addMember_ok hj with ⟨_, rfl⟩ | ⟨member, _⟩
      · exact Or.inl ⟨h, fun _ => hid⟩
      · rw [Note.hasMember_turnedAt hc, hids id hid g hg] at member
        cases member

structure Joined (account : CanonicalName) (names ids : List String) (d d₁ : Directory) : Prop where
  turned : Turned account ids d d₁
  reason : ∀ id ∈ ids, ∃ g, d.store.notes.get? id = some g ∧ g.isClass .group = true ∧
    g.hasMember account = false ∧ ∃ name ∈ names, g.hasAlias name = true
  reached : ∀ name ∈ names, ∃ id g, d.store.notes.get? id = some g ∧ g.isClass .group = true ∧
    g.hasAlias name = true ∧ (g.hasMember account = false → id ∈ ids)

theorem Joined.step (hc : Name.canonicalize account.text = .ok account) {names : List String}
    (h : Joined account names ids d d₁) {name : String} {b : Bool}
    (hj : join account name d₁ = .ok b d₂) :
    ∃ ids', Joined account (names ++ [name]) ids' d d₂ := by
  have unlisted : ∀ id ∈ ids, ∀ n, d.store.notes.get? id = some n → n.hasMember account = false := by
    intro id hid n hn
    obtain ⟨g, hg, _, member, _⟩ := h.reason id hid
    rw [hn, Option.some.injEq] at hg
    rwa [hg]
  obtain ⟨id, g, hg, group, called, done | ⟨_, member, done⟩⟩ := join_ok hc h.turned unlisted hj
  · refine ⟨ids, done.1, ?_, ?_⟩
    · intro other ho
      obtain ⟨m, hm, hgroup, hmember, known, hk, halias⟩ := h.reason other ho
      exact ⟨m, hm, hgroup, hmember, known, List.mem_append_left _ hk, halias⟩
    · intro known hk
      rcases List.mem_append.mp hk with hk | hk
      · exact h.reached known hk
      · obtain rfl := List.mem_singleton.mp hk
        exact ⟨id, g, hg, group, called, done.2⟩
  · refine ⟨ids ++ [id], done, ?_, ?_⟩
    · intro other ho
      rcases List.mem_append.mp ho with ho | ho
      · obtain ⟨m, hm, hgroup, hmember, known, hk, halias⟩ := h.reason other ho
        exact ⟨m, hm, hgroup, hmember, known, List.mem_append_left _ hk, halias⟩
      · obtain rfl := List.mem_singleton.mp ho
        exact ⟨g, hg, group, member, name, List.mem_append_right _ (List.mem_singleton.mpr rfl),
          called⟩
    · intro known hk
      rcases List.mem_append.mp hk with hk | hk
      · obtain ⟨other, m, hm, hgroup, halias, hids⟩ := h.reached known hk
        exact ⟨other, m, hm, hgroup, halias, fun hmember => List.mem_append_left _ (hids hmember)⟩
      · obtain rfl := List.mem_singleton.mp hk
        exact ⟨id, g, hg, group, called, fun _ => List.mem_append_right _ (List.mem_singleton.mpr rfl)⟩

theorem Joined.all (hc : Name.canonicalize account.text = .ok account)
    {names : List String} (more : List String) (h : Joined account names ids d d₁)
    (hj : (more.forM fun name => discard (join account name)) d₁ = .ok () d₂) :
    ∃ ids', Joined account (names ++ more) ids' d d₂ := by
  induction more generalizing names ids d₁ with
  | nil =>
    rw [Action.forM_nil_ok_iff] at hj
    rw [← hj, List.append_nil]
    exact ⟨ids, h⟩
  | cons name more ih =>
    rw [Action.forM_cons_ok_iff] at hj
    obtain ⟨d', first, others⟩ := hj
    obtain ⟨b, joined⟩ := Action.discard_ok_iff.mp first
    obtain ⟨ids', step⟩ := h.step hc joined
    obtain ⟨ids'', all⟩ := ih step others
    rw [List.append_assoc, List.singleton_append] at all
    exact ⟨ids'', all⟩

theorem Turned.leave {gs : List Note} (h : Turned account ids d d₁)
    (hgs : ∀ g ∈ gs, ∃ id, g.id = some id ∧ d.store.notes.get? id = some g ∧
      g.isClass .group = true ∧ g.hasMember account = true ∧ id ∉ ids)
    (hne : gs.Pairwise fun g g' => g.id ≠ g'.id)
    (hl : (gs.forM fun g => discard (removeMember g account)) d₁ = .ok () d₂) :
    Turned account (ids ++ gs.filterMap (·.id)) d d₂ := by
  -- The ids have to vary, for each group that is left adds its own to those turned before.
  induction gs generalizing ids d₁ with
  | nil =>
    rw [Action.forM_nil_ok_iff] at hl
    rw [← hl]
    simpa using h
  | cons g gs ih =>
    rw [Action.forM_cons_ok_iff] at hl
    obtain ⟨d', first, others⟩ := hl
    obtain ⟨b, removed⟩ := Action.discard_ok_iff.mp first
    obtain ⟨id, named, hg, group, member, fresh⟩ := hgs g List.mem_cons_self
    obtain ⟨different, distinct⟩ := List.pairwise_cons.mp hne
    rcases removeMember_ok removed with ⟨unlisted, _⟩ | ⟨_, n', saved⟩
    · rw [member] at unlisted
      cases unlisted
    · have step := h.save fresh hg group saved
      have rest : ∀ m ∈ gs, ∃ other, m.id = some other ∧ d.store.notes.get? other = some m ∧
          m.isClass .group = true ∧ m.hasMember account = true ∧ other ∉ ids ++ [id] := by
        intro m hm
        obtain ⟨other, hid, hget, hgroup, hmember, hfresh⟩ := hgs m (List.mem_cons_of_mem g hm)
        refine ⟨other, hid, hget, hgroup, hmember, ?_⟩
        rw [List.mem_append, List.mem_singleton, not_or]
        refine ⟨hfresh, ?_⟩
        rintro rfl
        exact different m hm (named.trans hid.symm)
      have all := ih step rest distinct others
      rw [List.filterMap_cons_some named]
      simpa using all

/-- Whether a group lists the account after an update, by whether it listed it before. -/
def belongs (kind : UpdateKind) (policy : ReplacePolicy) (desired : List String) (g : Note)
    (listed : Bool) : Bool :=
  match kind, policy with
  | .add, _ => listed || desired.any g.hasAlias
  | .replace, .additive => listed || desired.any g.hasAlias
  | .remove, _ => listed && !desired.any g.hasAlias
  | .replace, .exact => desired.any g.hasAlias || g.isDenyList && listed

/-- No two groups share an alias. -/
def AliasesDistinct (s : Store) : Prop :=
  ∀ g ∈ s.notesOf .group, ∀ h ∈ s.notesOf .group, g.id ≠ h.id →
    ∀ a ∈ g.aliases, ∀ b ∈ h.aliases, Text.sameName a b = false

theorem eq_of_hasAlias {s : Store} (hs : s.Sound) (ha : AliasesDistinct s) {g h : Note}
    (hg : g ∈ s.notesOf .group) (hh : h ∈ s.notesOf .group) {name : String}
    (hga : g.hasAlias name = true) (hha : h.hasAlias name = true) : g = h := by
  rw [Note.hasAlias, Bool.and_eq_true, List.any_eq_true] at hga hha
  obtain ⟨_, a, hga, same⟩ := hga
  obtain ⟨_, b, hhb, same'⟩ := hha
  refine hs.eq_of_id hg hh (Decidable.byContradiction fun different => ?_)
  have distinct := ha g hg h hh different a hga b hhb
  rw [Text.sameName_comm b] at same'
  rw [Text.sameName_trans same same'] at distinct
  cases distinct

theorem mem_toJoin {kind : UpdateKind} {held : List Note} {desired : List String}
    {name : String} : name ∈ toJoin kind held desired ↔
      kind ≠ .remove ∧ name ∈ desired ∧ held.any (·.hasAlias name) = false := by
  cases kind <;> simp [toJoin]

theorem mem_toLeave {kind : UpdateKind} {policy : ReplacePolicy} {held : List Note}
    {desired : List String} {g : Note} : g ∈ toLeave kind policy held desired ↔
      g ∈ held ∧ belongs kind policy desired g true = false := by
  cases kind <;> cases policy <;> simp [toLeave, belongs, and_comm]

theorem belongs_false (kind : UpdateKind) (policy : ReplacePolicy) (desired : List String)
    (g : Note) : belongs kind policy desired g false = true ↔
      kind ≠ .remove ∧ desired.any g.hasAlias = true := by
  cases kind <;> cases policy <;> simp [belongs]

theorem Joined.stored_toLeave {names : List String} (h : Joined account names ids d d₁)
    (hs : d.store.Sound) {held : List Note}
    (hh : held = (d.store.notesOf .group).filter (·.hasMember account)) (kind : UpdateKind)
    (policy : ReplacePolicy) (desired : List String) :
    (∀ g ∈ toLeave kind policy held desired, ∃ id, g.id = some id ∧
        d.store.notes.get? id = some g ∧ g.isClass .group = true ∧ g.hasMember account = true ∧
          id ∉ ids) ∧
      (toLeave kind policy held desired).Pairwise fun g g' => g.id ≠ g'.id := by
  constructor
  · intro g hleave
    have inHeld := (mem_toLeave.mp hleave).1
    rw [hh, List.mem_filter] at inHeld
    obtain ⟨hgroup, member⟩ := inHeld
    obtain ⟨id, named, hget⟩ := hs.get?_of_mem_notesOf hgroup
    refine ⟨id, named, hget, (Store.mem_notesOf.mp hgroup).2, member, ?_⟩
    intro hid
    obtain ⟨m, hm, _, unlisted, _⟩ := h.reason id hid
    rw [hget, Option.some.injEq] at hm
    rw [← hm, member] at unlisted
    cases unlisted
  · have distinct := (hs.pairwise_notesOf .group).filter fun g => g.hasMember account
    rw [← hh] at distinct
    refine distinct.sublist ?_
    unfold Membership.toLeave
    split
    · exact List.nil_sublist _
    · exact List.nil_sublist _
    · exact List.filter_sublist
    · exact List.filter_sublist

theorem Joined.start (hs : d.store.Sound) (hf : d.store.Faithful) : Joined account [] [] d d :=
  ⟨.refl hs hf, fun _ h => absurd h List.not_mem_nil, fun _ h => absurd h List.not_mem_nil⟩

variable {policy : ReplacePolicy} {kind : UpdateKind} {groups : List String}

theorem updateGroups_steps (hs : d.store.Sound) (hf : d.store.Faithful)
    (hg : ∀ g ∈ d.store.notesOf .group, g.HasGroupForm ∧ g.HasCanonicalMembers)
    (hc : Name.canonicalize account.text = .ok account)
    (h : updateGroups policy account groups kind d = .ok () d₁) :
    ∃ ids, (∃ d', Joined account
        (toJoin kind ((d.store.notesOf .group).filter (·.hasMember account)) (displayNames groups))
        ids d d') ∧
      Turned account (ids ++ (toLeave kind policy
        ((d.store.notesOf .group).filter (·.hasMember account))
        (displayNames groups)).filterMap (·.id)) d d₁ := by
  rw [updateGroups, Action.bind_ok_iff] at h
  obtain ⟨held, d', read, h⟩ := h
  rw [Action.read_ok_iff] at read
  obtain ⟨read, rfl⟩ := read
  rw [← groupsOf_ok hf hg read]
  rw [Action.bind_ok_iff] at h
  obtain ⟨⟨⟩, d', joins, leaves⟩ := h
  obtain ⟨ids, joined⟩ := Joined.all hc _ (.start hs hf) joins
  obtain ⟨stored, distinct⟩ := joined.stored_toLeave hs (groupsOf_ok hf hg read) kind policy
    (displayNames groups)
  exact ⟨ids, ⟨d', joined⟩, joined.turned.leave stored distinct leaves⟩

theorem Joined.mem_iff {desired : List String} {ids : List String} {d' : Directory}
    (h : Joined account (toJoin kind ((d.store.notesOf .group).filter (·.hasMember account))
      desired) ids d d')
    (hs : d.store.Sound) (ha : AliasesDistinct d.store) {id : String} {g : Note}
    (hget : d.store.notes.get? id = some g) (hgroup : g.isClass .group = true)
    (policy : ReplacePolicy) :
    id ∈ ids ↔ g.hasMember account = false ∧
      belongs kind policy desired g false = true := by
  have here : g ∈ d.store.notesOf .group :=
    Store.mem_notesOf.mpr ⟨⟨id, Keyed.mem_of_get? hget⟩, hgroup⟩
  rw [belongs_false, List.any_eq_true]
  constructor
  · intro hid
    obtain ⟨m, hm, _, member, name, hname, called⟩ := h.reason id hid
    rw [hget, Option.some.injEq] at hm
    rw [← hm] at member called
    rw [mem_toJoin] at hname
    exact ⟨member, hname.1, name, hname.2.1, called⟩
  · rintro ⟨member, adds, name, hname, called⟩
    -- No group that lists the account answers to the name, for it would be this one.
    have unheld : ((d.store.notesOf .group).filter (·.hasMember account)).any
        (·.hasAlias name) = false := by
      rw [List.any_eq_false]
      intro m hm called'
      rw [List.mem_filter] at hm
      rw [eq_of_hasAlias hs ha hm.1 here called' called, member] at hm
      cases hm.2
    obtain ⟨other, m, hm, mgroup, called', reached⟩ :=
      h.reached name (mem_toJoin.mpr ⟨adds, hname, unheld⟩)
    have there : m ∈ d.store.notesOf .group :=
      Store.mem_notesOf.mpr ⟨⟨other, Keyed.mem_of_get? hm⟩, mgroup⟩
    obtain rfl := eq_of_hasAlias hs ha there here called' called
    have same := hs.id_of_get? hm
    rw [hs.id_of_get? hget, Option.some.injEq] at same
    rw [same]
    exact reached member

theorem mem_ids_toLeave (hs : d.store.Sound) (desired : List String) {id : String} {g : Note}
    (hget : d.store.notes.get? id = some g) (hgroup : g.isClass .group = true) :
    id ∈ (toLeave kind policy ((d.store.notesOf .group).filter (·.hasMember account))
        desired).filterMap (·.id) ↔
      g.hasMember account = true ∧ belongs kind policy desired g true = false := by
  have here : g ∈ d.store.notesOf .group :=
    Store.mem_notesOf.mpr ⟨⟨id, Keyed.mem_of_get? hget⟩, hgroup⟩
  have named := hs.id_of_get? hget
  rw [List.mem_filterMap]
  constructor
  · rintro ⟨m, hm, hid⟩
    rw [mem_toLeave, List.mem_filter] at hm
    obtain rfl := hs.eq_of_id hm.1.1 here (hid.trans named.symm)
    exact ⟨hm.1.2, hm.2⟩
  · rintro ⟨member, left⟩
    refine ⟨g, ?_, named⟩
    rw [mem_toLeave, List.mem_filter]
    exact ⟨⟨here, member⟩, left⟩

/-- The groups that an update turns are those whose membership is to change. -/
theorem updateGroups_turned (hs : d.store.Sound) (hf : d.store.Faithful)
    (hg : ∀ g ∈ d.store.notesOf .group, g.HasGroupForm ∧ g.HasCanonicalMembers)
    (ha : AliasesDistinct d.store) (hc : Name.canonicalize account.text = .ok account)
    (h : updateGroups policy account groups kind d = .ok () d₁) :
    ∃ ids, Turned account ids d d₁ ∧ ∀ id g, d.store.notes.get? id = some g →
      g.isClass .group = true →
        (id ∈ ids ↔ belongs kind policy (displayNames groups) g (g.hasMember account) ≠
          g.hasMember account) := by
  obtain ⟨ids, ⟨d', joined⟩, turned⟩ := updateGroups_steps hs hf hg hc h
  refine ⟨_, turned, fun id g hget hgroup => ?_⟩
  rw [List.mem_append, joined.mem_iff hs ha hget hgroup policy, mem_ids_toLeave hs _ hget hgroup]
  cases g.hasMember account <;> simp

theorem belongs_displayNames (kind : UpdateKind) (policy : ReplacePolicy) (groups : List String)
    (g : Note) (listed : Bool) :
    belongs kind policy (displayNames groups) g listed =
      belongs kind policy (groups.map Alias.display) g listed := by
  cases kind <;> cases policy <;> simp only [belongs, any_hasAlias_displayNames]

/-- What updating the groups of an account comes to, group by group and save by save. -/
structure GroupsUpdated (kind : UpdateKind) (policy : ReplacePolicy) (account : CanonicalName)
    (desired : List String) (d d₁ : Directory) : Prop where
  keys : d₁.store.notes.keys = d.store.notes.keys
  membership : ∀ id g g', d.store.notes.get? id = some g → g.isClass .group = true →
    d₁.store.notes.get? id = some g' →
      g'.hasMember account = belongs kind policy desired g (g.hasMember account)
  others : ∀ id g g', d.store.notes.get? id = some g → d₁.store.notes.get? id = some g' →
    g'.members.filter (fun stored => !Name.refersTo stored account) =
      g.members.filter fun stored => !Name.refersTo stored account
  items : ∀ id n n', d.store.notes.get? id = some n → d₁.store.notes.get? id = some n' →
    n'.SameBesideMembers n
  untouched : ∀ id n n', d.store.notes.get? id = some n → d₁.store.notes.get? id = some n' →
    n.isClass .group = false ∨ n'.members = n.members → n' = n
  saves : ∃ ids : List String, ids.Nodup ∧
    (d₁.journal = d.journal ++ ids.map fun id =>
      .saved id (((d₁.store.notes.get? id).map (·.items)).getD [])) ∧
    ∀ id, id ∈ ids ↔ ∃ n n', d.store.notes.get? id = some n ∧
      d₁.store.notes.get? id = some n' ∧ n'.members ≠ n.members

theorem updateGroups_effect (hs : d.store.Sound) (hf : d.store.Faithful)
    (hg : ∀ g ∈ d.store.notesOf .group, g.HasGroupForm ∧ g.HasCanonicalMembers)
    (ha : AliasesDistinct d.store) (hc : Name.canonicalize account.text = .ok account)
    (h : updateGroups policy account groups kind d = .ok () d₁) :
    GroupsUpdated kind policy account (groups.map Alias.display) d d₁ := by
  obtain ⟨ids, turned, changed⟩ := updateGroups_turned hs hf hg ha hc h
  have became : ∀ {id n n'}, d.store.notes.get? id = some n → d₁.store.notes.get? id = some n' →
      id ∉ ids ∧ n' = n ∨ id ∈ ids ∧ ∃ time, n' = n.turnedAt account time :=
    fun hn hn' => (turned_iff.mp turned).became hn hn'
  constructor
  · exact turned.keys
  · intro id g g' hget hgroup hget'
    have effect := changed id g hget hgroup
    rw [belongs_displayNames] at effect
    rcases became hget hget' with ⟨hid, rfl⟩ | ⟨hid, time, rfl⟩
    · rw [effect, Decidable.not_not] at hid
      exact hid.symm
    · have flips := effect.mp hid
      rw [Note.hasMember_turnedAt hc, Bool.eq_not.mpr flips]
  · intro id g g' hget hget'
    rcases became hget hget' with ⟨_, rfl⟩ | ⟨_, time, rfl⟩
    · rfl
    · exact Note.others_turnedAt hc g time
  · intro id n n' hn hn'
    exact turned.sameBesideMembers hn hn'
  · intro id n n' hn hn' unchanged
    rcases became hn hn' with ⟨_, rfl⟩ | ⟨hid, time, rfl⟩
    · rfl
    · obtain ⟨m, _, hm, group, _⟩ := turned.groups id hid
      rw [hn, Option.some.injEq] at hm
      rcases unchanged with other | same
      · rw [hm, group] at other
        cases other
      · exact absurd same (Note.members_turnedAt_ne hc n time)
  · refine ⟨ids, turned.nodup, turned.journal, fun id => ⟨fun hid => ?_, ?_⟩⟩
    · obtain ⟨n, time, hn, _, hturned⟩ := turned.groups id hid
      exact ⟨n, _, hn, hturned, Note.members_turnedAt_ne hc n time⟩
    · rintro ⟨n, n', hn, hn', different⟩
      rcases became hn hn' with ⟨_, rfl⟩ | ⟨hid, _⟩
      · exact absurd rfl different
      · exact hid

def sampleGroup (id name : String) (members : List String) : Note :=
  { ((Note.ofClass .group).setTexts "ListName" [name]).setMembers members with id := some id }

def sampleStaff : Note := sampleGroup "1" "Staff" ["CN=Ann/O=Acme"]

def samplePilots : Note := sampleGroup "2" "Pilots;Flyers" []

def sampleDirectory : Directory := { store := { notes := [("1", sampleStaff), ("2", samplePilots)] } }

def sampleAccount : CanonicalName := ⟨"CN=Ann/O=Acme"⟩

theorem sound_sampleDirectory : sampleDirectory.store.Sound := ⟨by decide, by decide⟩

theorem faithful_sampleDirectory : sampleDirectory.store.Faithful := Store.faithful_of_memory rfl

theorem notesOf_sampleDirectory : sampleDirectory.store.notesOf .group = [sampleStaff, samplePilots] := by
  decide

theorem canonical_sampleAccount : Name.canonicalize sampleAccount.text = .ok sampleAccount :=
  eq_ok_of_toOption (by decide)

theorem proper_sampleGroup {members : List String}
    (h : ∀ m ∈ members, (Name.canonicalize m).toOption = some ⟨m⟩) (id name : String) :
    (sampleGroup id name members).HasGroupForm ∧ (sampleGroup id name members).HasCanonicalMembers := by
  have same : ∀ field, (sampleGroup id name members).item? field =
      (((Note.ofClass .group).setTexts "ListName" [name]).setMembers members).item? field := by
    intro field
    rw [Note.item?, Note.item?, sampleGroup]
  have form : (sampleGroup id name members).item? "Form" = some [.text EntryClass.group.form] := by
    rw [same, Note.setMembers]
    simp (disch := decide) only [Note.item?_setTexts_of_ne, Note.form_ofClass]
  have listed : (sampleGroup id name members).item? "Members" = some (members.map .text) := by
    rw [same, Note.setMembers, Note.item?_setTexts_of_same (by decide)]
  refine ⟨?_, Note.hasCanonicalMembers_of_item? listed fun m hm => eq_ok_of_toOption (h m hm)⟩
  rw [Note.HasGroupForm, Note.form?, Note.text?, form]
  rfl

theorem proper_sampleDirectory : ∀ g ∈ sampleDirectory.store.notesOf .group,
    g.HasGroupForm ∧ g.HasCanonicalMembers := by
  rw [notesOf_sampleDirectory, List.forall_mem_cons, List.forall_mem_singleton]
  exact ⟨proper_sampleGroup (by decide) _ _, proper_sampleGroup (by decide) _ _⟩

theorem aliasesDistinct_sampleDirectory : AliasesDistinct sampleDirectory.store := by
  rw [AliasesDistinct, notesOf_sampleDirectory]
  decide

theorem groupsOf_sampleDirectory :
    sampleDirectory.store.groupsOf sampleAccount = .ok [sampleStaff] := by
  rw [groupsOf_eq faithful_sampleDirectory proper_sampleDirectory, notesOf_sampleDirectory]
  exact eq_ok_of_toOption (by decide)

def sampleNames : List String := ["flyers;Staff", " PILOTS", "Pilots"]

def sampleMembers (d : Directory) : List (String × List String) :=
  d.store.notes.map fun (id, n) => (id, n.members)

theorem updateGroups_sampleDirectory :
    ∃ d₁, updateGroups .exact sampleAccount sampleNames .replace sampleDirectory = .ok () d₁ ∧
      (sampleMembers d₁ == [("1", []), ("2", ["CN=Ann/O=Acme"])]) = true := by
  rw [updateGroups, Action.bind_apply, Action.read_apply, groupsOf_sampleDirectory]
  apply Action.exists_of_leaves
  decide +kernel

theorem updateGroups_effect_sample :
    ∃ d₁, updateGroups .exact sampleAccount sampleNames .replace sampleDirectory = .ok () d₁ ∧
      GroupsUpdated .replace .exact sampleAccount ["flyers", "PILOTS", "Pilots"] sampleDirectory d₁ ∧
        sampleMembers sampleDirectory = [("1", ["CN=Ann/O=Acme"]), ("2", [])] ∧
          sampleMembers d₁ = [("1", []), ("2", ["CN=Ann/O=Acme"])] := by
  obtain ⟨d₁, run, members⟩ := updateGroups_sampleDirectory
  have effect := updateGroups_effect sound_sampleDirectory faithful_sampleDirectory
    proper_sampleDirectory aliasesDistinct_sampleDirectory canonical_sampleAccount run
  have desired : sampleNames.map Alias.display = ["flyers", "PILOTS", "Pilots"] := by decide
  rw [desired] at effect
  exact ⟨d₁, run, effect, by decide, beq_iff_eq.mp members⟩

end AddressBook.Membership

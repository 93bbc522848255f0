import AddressBook.Proofs.Membership.Verdict

/-! Updates of the groups of an account that are under way: some of the groups that have to be turned
are turned, and no others. This is how an update leaves the groups when it ends with a fault, and when
it ends without one nothing is left to turn. -/

namespace AddressBook

namespace Membership

open AddressBook.Action

variable {account : CanonicalName} {kind : UpdateKind} {policy : ReplacePolicy}
  {desired groups : List String} {s s' s'' : Store} {d d₁ d₂ : Directory} {fault : Fault}

/-- The update has to turn the group around. -/
def Due (kind : UpdateKind) (policy : ReplacePolicy) (desired : List String)
    (account : CanonicalName) (g : Note) : Prop :=
  (verdict kind policy desired g).getD (g.hasMember account) ≠ g.hasMember account

/-- The second store is the first after an update turned some of the groups that it has to turn. -/
structure Underway (kind : UpdateKind) (policy : ReplacePolicy) (desired : List String)
    (account : CanonicalName) (s s' : Store) : Prop where
  sound : s'.Sound
  faithful : s'.Faithful
  keys : s'.notes.keys = s.notes.keys
  notes : ∀ id n', s'.notes.get? id = some n' → ∃ n, s.notes.get? id = some n ∧
    (n' = n ∨ n.isClass .group = true ∧ Due kind policy desired account n ∧
      ∃ time, n' = n.turnedAt account time)

/-- Nothing is left for the update to turn. -/
def Completed (kind : UpdateKind) (policy : ReplacePolicy) (desired : List String)
    (account : CanonicalName) (s : Store) : Prop :=
  ∀ g ∈ s.notesOf .group, ¬ Due kind policy desired account g

theorem not_due_turnedAt (hc : Name.canonicalize account.text = .ok account) {g : Note}
    (h : Due kind policy desired account g) (time : Moment) :
    ¬ Due kind policy desired account (g.turnedAt account time) := by
  have same : verdict kind policy desired (g.turnedAt account time) = verdict kind policy desired g :=
    verdict_congr (g.sameBesideMembers_turnedAt account time)
  rw [Due] at h ⊢
  rw [same, Note.hasMember_turnedAt hc]
  cases said : verdict kind policy desired g with
  | none => exact absurd (by rw [said]; rfl) h
  | some wanted =>
    rw [said, Option.getD_some] at h
    simpa using h

namespace Underway

theorem refl (hs : s.Sound) (hf : s.Faithful) : Underway kind policy desired account s s where
  sound := hs
  faithful := hf
  keys := rfl
  notes := fun _ n hn => ⟨n, hn, Or.inl rfl⟩

theorem trans (hc : Name.canonicalize account.text = .ok account)
    (h : Underway kind policy desired account s s')
    (h' : Underway kind policy desired account s' s'') :
    Underway kind policy desired account s s'' := by
  refine ⟨h'.sound, h'.faithful, h'.keys.trans h.keys, fun id n'' hn'' => ?_⟩
  obtain ⟨n', hn', second⟩ := h'.notes id n'' hn''
  obtain ⟨n, hn, first⟩ := h.notes id n' hn'
  refine ⟨n, hn, ?_⟩
  rcases second with rfl | ⟨group, due, time, rfl⟩
  · exact first
  · rcases first with rfl | ⟨_, due', time', rfl⟩
    · exact Or.inr ⟨group, due, time, rfl⟩
    · exact absurd due (not_due_turnedAt hc due' time')

theorem of_turned {ids : List String} (h : Turned account ids d d₁)
    (due : ∀ id ∈ ids, ∀ g, d.store.notes.get? id = some g → Due kind policy desired account g) :
    Underway kind policy desired account d.store d₁.store := by
  refine ⟨h.sound, h.faithful, h.keys, fun id n' hn' => ?_⟩
  obtain ⟨n, hn, ⟨_, rfl⟩ | ⟨hid, time, rfl⟩⟩ := h.origin hn'
  · exact ⟨n', hn, Or.inl rfl⟩
  · obtain ⟨m, _, hm, group, _⟩ := h.groups id hid
    rw [hn, Option.some.injEq] at hm
    subst hm
    exact ⟨n, hn, Or.inr ⟨group, due id hid n hn, time, rfl⟩⟩

theorem origin (h : Underway kind policy desired account s s') {id : String} {n' : Note}
    (hn' : s'.notes.get? id = some n') :
    ∃ n, s.notes.get? id = some n ∧ n'.SameBesideMembers n := by
  obtain ⟨n, hn, rfl | ⟨_, _, time, rfl⟩⟩ := h.notes id n' hn'
  · exact ⟨n', hn, n'.sameBesideMembers_refl⟩
  · exact ⟨n, hn, n.sameBesideMembers_turnedAt account time⟩

theorem image (h : Underway kind policy desired account s s') {id : String} {n : Note}
    (hn : s.notes.get? id = some n) :
    ∃ n', s'.notes.get? id = some n' ∧ n'.SameBesideMembers n := by
  obtain ⟨n', hn'⟩ := Keyed.exists_get?_congr h.keys.symm hn
  obtain ⟨m, hm, same⟩ := h.origin hn'
  rw [hn, Option.some.injEq] at hm
  exact ⟨n', hn', hm ▸ same⟩

theorem origin_of_mem (h : Underway kind policy desired account s s') {g' : Note}
    (hg' : g' ∈ s'.notesOf .group) :
    ∃ g ∈ s.notesOf .group, g'.SameBesideMembers g ∧ (g' = g ∨ ∃ time, g' = g.turnedAt account time) := by
  obtain ⟨id, _, hget'⟩ := h.sound.get?_of_mem_notesOf hg'
  have group := (Store.mem_notesOf.mp hg').2
  obtain ⟨g, hget, became⟩ := h.notes id g' hget'
  have same : g'.SameBesideMembers g := by
    rcases became with rfl | ⟨_, _, time, rfl⟩
    · exact g'.sameBesideMembers_refl
    · exact g.sameBesideMembers_turnedAt account time
  refine ⟨g, Store.mem_notesOf.mpr ⟨⟨id, Keyed.mem_of_get? hget⟩, ?_⟩, same, ?_⟩
  · rw [← Note.isClass_congr same, group]
  · exact became.imp_right fun turned => turned.2.2

theorem image_of_mem (h : Underway kind policy desired account s s') (hs : s.Sound) {g : Note}
    (hg : g ∈ s.notesOf .group) : ∃ g' ∈ s'.notesOf .group, g'.SameBesideMembers g := by
  obtain ⟨id, _, hget⟩ := hs.get?_of_mem_notesOf hg
  obtain ⟨g', hget', same⟩ := h.image hget
  refine ⟨g', Store.mem_notesOf.mpr ⟨⟨id, Keyed.mem_of_get? hget'⟩, ?_⟩, same⟩
  rw [Note.isClass_congr same, (Store.mem_notesOf.mp hg).2]

theorem canonical (hc : Name.canonicalize account.text = .ok account)
    (h : Underway kind policy desired account s s')
    (hg : ∀ g ∈ s.notesOf .group, g.HasGroupForm ∧ g.HasCanonicalMembers) :
    ∀ g ∈ s'.notesOf .group, g.HasGroupForm ∧ g.HasCanonicalMembers := by
  intro g' hg'
  obtain ⟨g, hmem, same, rfl | ⟨time, rfl⟩⟩ := h.origin_of_mem hg'
  · exact hg g' hmem
  · obtain ⟨form, members⟩ := hg g hmem
    refine ⟨?_, Note.hasCanonicalMembers_turnedAt hc members time⟩
    rw [Note.HasGroupForm, Note.form?, Note.text?_congr (same.2 "Form" (by decide))]
    exact form

theorem aliasesDistinct (h : Underway kind policy desired account s s') (ha : AliasesDistinct s) :
    AliasesDistinct s' := by
  intro g hg m hm different
  obtain ⟨g₀, hg₀, same, _⟩ := h.origin_of_mem hg
  obtain ⟨m₀, hm₀, same', _⟩ := h.origin_of_mem hm
  rw [Note.aliases, Note.aliases, Note.texts_congr (same.2 "ListName" (by decide)),
    Note.texts_congr (same'.2 "ListName" (by decide))]
  exact ha g₀ hg₀ m₀ hm₀ (by rwa [← same.1, ← same'.1])

/-- The verdicts of any update stay the same while this one is under way. -/
theorem verdictTable_eq (h : Underway kind policy desired account s s') (kind' : UpdateKind)
    (policy' : ReplacePolicy) (desired' : List String) :
    verdictTable kind' policy' desired' s' = verdictTable kind' policy' desired' s := by
  funext id
  rw [verdictTable, verdictTable]
  cases hn' : s'.notes.get? id with
  | none =>
    rw [(Keyed.get?_eq_none_congr h.keys id).mp hn']
  | some n' =>
    obtain ⟨n, hn, same⟩ := h.origin hn'
    rw [hn, Option.bind_some, Option.bind_some, Note.isClass_congr same, verdict_congr same]

theorem memberTable_eq (h : Underway kind policy desired account s s') (id : String) :
    s'.memberTable id = s.memberTable id ∨
      s'.memberTable id =
        heededTable account (verdictTable kind policy desired s) s.memberTable id := by
  cases hn' : s'.notes.get? id with
  | none =>
    have absent := (Keyed.get?_eq_none_congr h.keys id).mp hn'
    refine Or.inl ?_
    rw [Store.memberTable, Store.memberTable, hn', absent]
  | some n' =>
    obtain ⟨n, hn, rfl | ⟨group, due, time, rfl⟩⟩ := h.notes id n' hn'
    · refine Or.inl ?_
      rw [Store.memberTable, Store.memberTable, hn', hn]
    · refine Or.inr ?_
      have same := n.sameBesideMembers_turnedAt account time
      have wanted : (n.turnedAt account time).members =
          heeded account (verdict kind policy desired n) n.members := by
        rw [heeded_members, if_neg due, Note.members_turnedAt]
      rw [Store.memberTable, hn', heededTable, verdictTable, Store.memberTable, hn]
      simp only [Option.bind_some, Note.isClass_congr same, group, if_true, Option.map_some, wanted]

end Underway

theorem heededTable_of_completed (h : Completed kind policy desired account s) :
    heededTable account (verdictTable kind policy desired s) s.memberTable = s.memberTable := by
  funext id
  rw [heededTable, verdictTable, Store.memberTable]
  cases hn : s.notes.get? id with
  | none => rfl
  | some n =>
    by_cases group : n.isClass .group = true
    · have settled := h n (Store.mem_notesOf.mpr ⟨⟨id, Keyed.mem_of_get? hn⟩, group⟩)
      have kept : heeded account (verdict kind policy desired n) n.members = n.members := by
        rw [heeded_members, if_pos (Decidable.not_not.mp settled)]
      simp only [Option.bind_some, group, if_true, Option.map_some, kept]
    · simp only [Option.bind_some, if_neg group, Option.bind_none]

theorem Underway.memberTable_of_completed (hc : Name.canonicalize account.text = .ok account)
    (h : Underway kind policy desired account s s')
    (done : Completed kind policy desired account s') :
    s'.memberTable = heededTable account (verdictTable kind policy desired s) s.memberTable := by
  rw [← heededTable_of_completed done, h.verdictTable_eq kind policy desired]
  exact heededTable_of_partly hc h.memberTable_eq

/-! What a run of an update does, whether it ends with a fault or not. -/

theorem due_iff {g : Note} : Due kind policy desired account g ↔
    belongs kind policy desired g (g.hasMember account) ≠ g.hasMember account := by
  rw [belongs_eq, Due]

theorem Joined.due {names ids : List String} {held gs : List Note}
    (h : Joined account names ids d d₁)
    (hnames : ∀ name ∈ names, name ∈ toJoin kind held desired)
    (hgs : ∀ g ∈ gs, g ∈ toLeave kind policy held desired)
    (stored : ∀ g ∈ gs, ∃ id, g.id = some id ∧ d.store.notes.get? id = some g ∧
      g.isClass .group = true ∧ g.hasMember account = true ∧ id ∉ ids) :
    ∀ id ∈ ids ++ gs.filterMap (·.id), ∀ g, d.store.notes.get? id = some g →
      Due kind policy desired account g := by
  intro id hid g hget
  rcases List.mem_append.mp hid with hid | hid
  · obtain ⟨m, hm, _, unlisted, name, hname, called⟩ := h.reason id hid
    rw [hget, Option.some.injEq] at hm
    subst hm
    obtain ⟨adds, wanted, _⟩ := mem_toJoin.mp (hnames name hname)
    rw [due_iff, unlisted, ne_eq, Bool.not_eq_false]
    exact (belongs_false kind policy desired g).mpr
      ⟨adds, List.any_eq_true.mpr ⟨name, wanted, called⟩⟩
  · obtain ⟨m, hm, named⟩ := List.mem_filterMap.mp hid
    obtain ⟨other, named', hget', _, member, _⟩ := stored m hm
    rw [named, Option.some.injEq] at named'
    rw [← named', hget, Option.some.injEq] at hget'
    subst hget'
    rw [due_iff, member, (mem_toLeave.mp (hgs g hm)).2]
    exact Bool.false_ne_true

theorem addMember_error {g : Note} (h : addMember g account d = .error fault d₁) :
    d₁.store = d.store := by
  rw [addMember] at h
  split at h
  · cases h
  · rcases bind_error_iff.mp h with failed | ⟨_, _, _, h⟩
    · exact Directory.save_error (discard_error_iff.mp failed)
    · cases h

theorem removeMember_error {g : Note} (h : removeMember g account d = .error fault d₁) :
    d₁.store = d.store := by
  rw [removeMember] at h
  split at h
  · cases h
  · rcases bind_error_iff.mp h with failed | ⟨_, _, _, h⟩
    · exact Directory.save_error (discard_error_iff.mp failed)
    · cases h

theorem join_error {name : String} (h : join account name d = .error fault d₁) :
    d₁.store = d.store := by
  rw [join] at h
  rcases bind_error_iff.mp h with failed | ⟨found, d', read, h⟩
  · rw [(read_error_iff.mp failed).2]
  · obtain ⟨_, rfl⟩ := read_ok_iff.mp read
    cases found with
    | none =>
      cases h
      rfl
    | some g => exact addMember_error h

theorem updateGroups_underway (hs : d.store.Sound) (hf : d.store.Faithful)
    (hg : ∀ g ∈ d.store.notesOf .group, g.HasGroupForm ∧ g.HasCanonicalMembers)
    (hc : Name.canonicalize account.text = .ok account)
    (h : Reaches (updateGroups policy account groups kind) d d₁) :
    Underway kind policy (displayNames groups) account d.store d₁.store := by
  rw [updateGroups] at h
  rcases reaches_bind h with ⟨fault, failed⟩ | ⟨held, d', read, h⟩
  · rw [← (read_error_iff.mp failed).2]
    exact .refl hs hf
  obtain ⟨found, rfl⟩ := read_ok_iff.mp read
  have hheld := groupsOf_ok hf hg found
  rcases reaches_bind h with ⟨fault, failed⟩ | ⟨⟨⟩, d', joins, h⟩
  · obtain ⟨before, name, behind, d', pieces, done, failed⟩ := forM_error failed
    obtain ⟨ids, joined⟩ := Joined.all hc before (.start hs hf) done
    rw [join_error (discard_error_iff.mp failed)]
    refine .of_turned joined.turned fun id hid => ?_
    have inJoins : ∀ name ∈ before, name ∈ toJoin kind held (displayNames groups) := by
      intro name hname
      rw [pieces]
      exact List.mem_append_left _ hname
    have noLeaves : ∀ g ∈ ([] : List Note), g ∈ toLeave kind policy held (displayNames groups) :=
      fun g hg => absurd hg List.not_mem_nil
    exact joined.due inJoins noLeaves (fun g hg => absurd hg List.not_mem_nil) id
      (List.mem_append_left _ hid)
  · obtain ⟨ids, joined⟩ := Joined.all hc _ (.start hs hf) joins
    obtain ⟨stored, distinct⟩ := joined.stored_toLeave hs hheld kind policy (displayNames groups)
    rcases h with ⟨⟨⟩, leaves⟩ | ⟨fault, leaves⟩
    · exact .of_turned (joined.turned.leave stored distinct leaves)
        (joined.due (fun _ hname => hname) (fun _ hg => hg) stored)
    · obtain ⟨before, g, behind, d'', pieces, done, failed⟩ := forM_error leaves
      rw [pieces] at stored distinct
      have storedBefore := fun g hg => stored g (List.mem_append_left _ hg)
      rw [removeMember_error (discard_error_iff.mp failed)]
      refine .of_turned (joined.turned.leave storedBefore (List.pairwise_append.mp distinct).1 done)
        (joined.due (fun _ hname => hname) (fun m hm => ?_) storedBefore)
      rw [pieces]
      exact List.mem_append_left _ hm

/-- After an update that succeeds there is nothing left to turn. -/
theorem updateGroups_completed (hs : d.store.Sound) (hf : d.store.Faithful)
    (hg : ∀ g ∈ d.store.notesOf .group, g.HasGroupForm ∧ g.HasCanonicalMembers)
    (ha : AliasesDistinct d.store) (hc : Name.canonicalize account.text = .ok account)
    (h : updateGroups policy account groups kind d = .ok () d₁) :
    Completed kind policy (displayNames groups) account d₁.store := by
  obtain ⟨ids, turned, changed⟩ := updateGroups_turned hs hf hg ha hc h
  intro g' hg'
  obtain ⟨id, _, hget'⟩ := turned.sound.get?_of_mem_notesOf hg'
  obtain ⟨g, hget, ⟨hid, rfl⟩ | ⟨hid, time, rfl⟩⟩ := turned.origin hget'
  · rwa [due_iff, ← changed id g' hget (Store.mem_notesOf.mp hg').2]
  · obtain ⟨m, _, hm, group, _⟩ := turned.groups id hid
    rw [hget, Option.some.injEq] at hm
    subst hm
    exact not_due_turnedAt hc (due_iff.mpr ((changed id g hget group).mp hid)) time

theorem join_underway (hc : Name.canonicalize account.text = .ok account) (hs : d.store.Sound)
    (hf : d.store.Faithful) (hk : kind ≠ .remove) {name : String} (hn : name ∈ desired)
    (h : Reaches (join account name) d d₁) :
    Underway kind policy desired account d.store d₁.store := by
  rcases h with ⟨b, h⟩ | ⟨fault, h⟩
  · obtain ⟨id, g, hget, _, called, ⟨turned, _⟩ | ⟨_, unlisted, turned⟩⟩ :=
      join_ok hc (.refl hs hf) (fun _ h => absurd h List.not_mem_nil) h
    · exact .of_turned turned fun _ h => absurd h List.not_mem_nil
    · refine .of_turned turned fun other ho m hm => ?_
      rw [List.mem_singleton.mp ho, hget, Option.some.injEq] at hm
      subst hm
      rw [due_iff, unlisted, ne_eq, Bool.not_eq_false]
      exact (belongs_false kind policy desired g).mpr ⟨hk, List.any_eq_true.mpr ⟨name, hn, called⟩⟩
  · rw [join_error h]
    exact .refl hs hf

end Membership

end AddressBook

import AddressBook.Proofs.Membership.Underway

/-! Joining or leaving groups one name after the other. Each name leads to a group that has it for an
alias; where no two groups share an alias, nothing is left to turn once all names were acted on. -/

namespace AddressBook

open AddressBook.Action

namespace Membership

variable {account : CanonicalName} {kind : UpdateKind} {policy : ReplacePolicy}
  {desired names : List String} {f : String → Action Unit} {d d' : Directory} {fault : Fault}

/-- Acting on a name turns only groups that are to be turned, and then none of the groups with this
alias is. -/
structure Acts (kind : UpdateKind) (policy : ReplacePolicy) (desired : List String)
    (account : CanonicalName) (f : String → Action Unit) : Prop where
  underway : ∀ name ∈ desired, ∀ d d', d.store.Sound → d.store.Faithful → Reaches (f name) d d' →
    Underway kind policy desired account d.store d'.store
  settled : ∀ name ∈ desired, ∀ d d', d.store.Sound → d.store.Faithful →
    AliasesDistinct d.store → f name d = .ok () d' →
      ∀ g ∈ d'.store.notesOf .group, g.hasAlias name = true → ¬ Due kind policy desired account g

namespace Acts

theorem forM_underway (h : Acts kind policy desired account f)
    (hc : Name.canonicalize account.text = .ok account) (hs : d.store.Sound) (hf : d.store.Faithful)
    (sub : ∀ name ∈ names, name ∈ desired) (run : Reaches (names.forM f) d d') :
    Underway kind policy desired account d.store d'.store := by
  let R : Directory → Directory → Prop := fun d d' =>
    d.store.Sound → d.store.Faithful → Underway kind policy desired account d.store d'.store
  have all : R d d' := by
    refine reaches_forM (fun _ => .refl) (fun d d₁ d' first others hs hf => ?_)
      (fun name hname d d' run hs hf => h.underway name (sub name hname) d d' hs hf run) run
    have part := first hs hf
    exact part.trans hc (others part.sound part.faithful)
  exact all hs hf

theorem forM_settled (h : Acts kind policy desired account f)
    (hc : Name.canonicalize account.text = .ok account) (hs : d.store.Sound) (hf : d.store.Faithful)
    (ha : AliasesDistinct d.store) (sub : ∀ name ∈ names, name ∈ desired)
    (run : names.forM f d = .ok () d') :
    ∀ name ∈ names, ∀ g ∈ d'.store.notesOf .group, g.hasAlias name = true →
      ¬ Due kind policy desired account g := by
  induction names generalizing d with
  | nil => exact fun _ hname => absurd hname List.not_mem_nil
  | cons first names ih =>
    obtain ⟨d₁, acted, others⟩ := forM_cons_ok_iff.mp run
    have here := sub first List.mem_cons_self
    have behind := fun name hname => sub name (List.mem_cons_of_mem first hname)
    have part := h.underway first here d d₁ hs hf (Or.inl ⟨(), acted⟩)
    have rest := h.forM_underway hc part.sound part.faithful behind (Or.inl ⟨(), others⟩)
    intro name hname g hg called
    rcases List.mem_cons.mp hname with rfl | hname
    · obtain ⟨id, _, hget⟩ := rest.sound.get?_of_mem_notesOf hg
      obtain ⟨m, hm, became⟩ := rest.notes id g hget
      obtain ⟨m', hm', same⟩ := rest.origin hget
      rw [hm, Option.some.injEq] at hm'
      subst hm'
      have group : m.isClass .group = true := by
        rw [← Note.isClass_congr same, (Store.mem_notesOf.mp hg).2]
      have done := h.settled name here d d₁ hs hf ha acted m
        (Store.mem_notesOf.mpr ⟨⟨id, Keyed.mem_of_get? hm⟩, group⟩)
        (by rw [← Note.hasAlias_congr same, called])
      rcases became with rfl | ⟨_, due, _⟩
      · exact done
      · exact absurd due done
    · exact ih part.sound part.faithful (part.aliasesDistinct ha) behind others name hname g hg called

theorem forM_completed (h : Acts kind policy desired account f) (hk : kind ≠ .replace)
    (hc : Name.canonicalize account.text = .ok account) (hs : d.store.Sound) (hf : d.store.Faithful)
    (ha : AliasesDistinct d.store) (run : desired.forM f d = .ok () d') :
    Completed kind policy desired account d'.store := by
  intro g hg due
  cases named : desired.any g.hasAlias with
  | true =>
    obtain ⟨name, hname, called⟩ := List.any_eq_true.mp named
    exact h.forM_settled hc hs hf ha (fun _ hname => hname) run name hname g hg called due
  | false =>
    refine due ?_
    cases kind with
    | replace => exact absurd rfl hk
    | add => simp [verdict, named]
    | remove => simp [verdict, named]

end Acts

theorem Turned.of_hasAlias {ids : List String} (h : Turned account ids d d') (hs : d.store.Sound)
    (ha : AliasesDistinct d.store) {id name : String} {g : Note}
    (hget : d.store.notes.get? id = some g) (group : g.isClass .group = true)
    (called : g.hasAlias name = true) {g' : Note} (hg' : g' ∈ d'.store.notesOf .group)
    (called' : g'.hasAlias name = true) :
    id ∉ ids ∧ g' = g ∨ id ∈ ids ∧ ∃ time, g' = g.turnedAt account time := by
  obtain ⟨key, _, hget'⟩ := h.sound.get?_of_mem_notesOf hg'
  obtain ⟨m, hm, became⟩ := h.origin hget'
  have same := h.sameBesideMembers hm hget'
  have here : m ∈ d.store.notesOf .group := by
    refine Store.mem_notesOf.mpr ⟨⟨key, Keyed.mem_of_get? hm⟩, ?_⟩
    rw [← Note.isClass_congr same, (Store.mem_notesOf.mp hg').2]
  obtain rfl := eq_of_hasAlias hs ha here
    (Store.mem_notesOf.mpr ⟨⟨id, Keyed.mem_of_get? hget⟩, group⟩)
    (by rw [← Note.hasAlias_congr same, called']) called
  have keys := hs.id_of_get? hm
  rw [hs.id_of_get? hget, Option.some.injEq] at keys
  rwa [keys]

theorem acts_join (hc : Name.canonicalize account.text = .ok account) :
    Acts .add policy desired account fun name => discard (join account name) where
  underway name hname _ _ hs hf run :=
    join_underway hc hs hf (by decide) hname (reaches_discard_iff.mp run)
  settled name _ d d' hs hf ha run := by
    obtain ⟨b, run⟩ := discard_ok_iff.mp run
    intro g' hg' called'
    have member : g'.hasMember account = true := by
      obtain ⟨id, g, hget, group, called, ⟨turned, lists⟩ | ⟨_, unlisted, turned⟩⟩ :=
        join_ok hc (.refl hs hf) (fun _ h => absurd h List.not_mem_nil) run
      · rcases turned.of_hasAlias hs ha hget group called hg' called' with ⟨_, rfl⟩ | ⟨h, _⟩
        · rw [← Bool.not_eq_false]
          exact fun silent => absurd (lists silent) List.not_mem_nil
        · exact absurd h List.not_mem_nil
      · rcases turned.of_hasAlias hs ha hget group called hg' called' with ⟨h, _⟩ | ⟨_, time, rfl⟩
        · exact absurd (List.mem_append_right _ (List.mem_singleton_self id)) h
        · rw [Note.hasMember_turnedAt hc, unlisted]
          rfl
    rw [due_iff, member]
    simp [belongs]

theorem leave_ok (hs : d.store.Sound) (hf : d.store.Faithful) {name : String} {b : Bool}
    (h : leave account name d = .ok b d') :
    (∀ g ∈ d.store.notesOf .group, g.hasAlias name = false) ∧ d' = d ∨
      ∃ id g, d.store.notes.get? id = some g ∧ g.isClass .group = true ∧ g.hasAlias name = true ∧
        (g.hasMember account = false ∧ d' = d ∨
          g.hasMember account = true ∧ Turned account [id] d d') := by
  rw [leave] at h
  obtain ⟨found, d₀, read, h⟩ := bind_ok_iff.mp h
  obtain ⟨sought, rfl⟩ := read_ok_iff.mp read
  have first := Store.groupByAlias_ok hf sought
  cases found with
  | none =>
    refine Or.inl ⟨fun g hg => ?_, (pure_ok_iff.mp h).2.symm⟩
    rw [Bool.eq_false_iff]
    exact List.find?_eq_none.mp first.symm g hg
  | some g =>
    have here := List.mem_of_find?_eq_some first.symm
    have group := (Store.mem_notesOf.mp here).2
    have called := List.find?_some first.symm
    obtain ⟨id, _, hget⟩ := hs.get?_of_mem_notesOf here
    refine Or.inr ⟨id, g, hget, group, called, ?_⟩
    rcases removeMember_ok h with ⟨unlisted, rfl⟩ | ⟨listed, n', saved⟩
    · exact Or.inl ⟨unlisted, rfl⟩
    · exact Or.inr ⟨listed, (Turned.refl hs hf).save List.not_mem_nil hget group saved⟩

theorem leave_error {name : String} (h : leave account name d = .error fault d') :
    d'.store = d.store := by
  rw [leave] at h
  rcases bind_error_iff.mp h with failed | ⟨found, d₀, read, h⟩
  · rw [(read_error_iff.mp failed).2]
  · obtain ⟨_, rfl⟩ := read_ok_iff.mp read
    cases found with
    | none => cases h
    | some g => exact removeMember_error h

theorem acts_leave (hc : Name.canonicalize account.text = .ok account) :
    Acts .remove policy desired account fun name => discard (leave account name) where
  underway name hname d d' hs hf run := by
    rcases reaches_discard_iff.mp run with ⟨b, run⟩ | ⟨fault, run⟩
    · rcases leave_ok hs hf run with ⟨_, rfl⟩ | ⟨id, g, hget, _, called, ⟨_, rfl⟩ | ⟨member, turned⟩⟩
      · exact .refl hs hf
      · exact .refl hs hf
      · refine .of_turned turned fun other ho m hm => ?_
        rw [List.mem_singleton.mp ho, hget, Option.some.injEq] at hm
        subst hm
        have named : desired.any g.hasAlias = true := List.any_eq_true.mpr ⟨name, hname, called⟩
        rw [due_iff, member]
        simp [belongs, named]
    · rw [leave_error run]
      exact .refl hs hf
  settled name _ d d' hs hf ha run := by
    obtain ⟨b, run⟩ := discard_ok_iff.mp run
    intro g' hg' called'
    have member : g'.hasMember account = false := by
      rcases leave_ok hs hf run with
        ⟨none, rfl⟩ | ⟨id, g, hget, group, called, ⟨unlisted, rfl⟩ | ⟨listed, turned⟩⟩
      · rw [none g' hg'] at called'
        cases called'
      · have here : g ∈ d'.store.notesOf .group :=
          Store.mem_notesOf.mpr ⟨⟨id, Keyed.mem_of_get? hget⟩, group⟩
        rwa [eq_of_hasAlias hs ha hg' here called' called]
      · rcases turned.of_hasAlias hs ha hget group called hg' called' with ⟨h, _⟩ | ⟨_, time, rfl⟩
        · exact absurd (List.mem_singleton_self id) h
        · rw [Note.hasMember_turnedAt hc, listed]
          rfl
    rw [due_iff, member]
    simp [belongs]

end Membership

end AddressBook

import AddressBook.Proofs.Membership.Underway

/-! Running an update of the groups of an account again after it was cut short. What it is to do with a
group does not depend on whom the group lists, so that the next run finds the rest to do and ends where
an uninterrupted run would have ended. -/

namespace AddressBook

namespace Store

variable {s s' : Store}

structure Accepting (s : Store) : Prop where
  isOpen : s.isOpen = true
  unlimited : s.savesLeft = none
  writable : s.readOnly = false

theorem Accepting.readable (h : s.Accepting) : s.checkReadable = .ok () := by
  rw [checkReadable, h.isOpen]
  cases s.backing <;> rfl

theorem Accepting.refusal? (h : s.Accepting) {n : Note} (hn : n.form?.isSome = true) :
    s.refusal? n = none := by
  rw [Store.refusal?, h.isOpen, h.unlimited, h.writable]
  cases s.backing with
  | memory => rfl
  | sqlite =>
    rw [← Option.not_isSome, hn]
    rfl

theorem Accepting.afterSave (h : s.Accepting) (id : String) (n : Note) :
    (s.put id n).spend.Accepting := by
  have spent : (s.put id n).spend = s.put id n := by
    rw [spend, put]
    simp only [h.unlimited]
  rw [spent]
  exact ⟨h.isOpen, h.unlimited, h.writable⟩

structure SameNotes (s s' : Store) : Prop where
  notes : s'.notes = s.notes
  backing : s'.backing = s.backing

namespace SameNotes

theorem notesOf (h : s.SameNotes s') (kind : EntryClass) : s'.notesOf kind = s.notesOf kind := by
  rw [Store.notesOf, Store.notesOf, all, all, h.notes]

theorem sound (h : s.SameNotes s') (hs : s.Sound) : s'.Sound := hs.congr h.notes

theorem faithful (h : s.SameNotes s') (hf : s.Faithful) : s'.Faithful := by
  intro entry he
  rw [h.notes] at he
  have back := hf entry he
  rw [readBack_ok_iff] at back ⊢
  rwa [h.backing]

theorem memberTable (h : s.SameNotes s') : s'.memberTable = s.memberTable := by
  funext id
  rw [Store.memberTable, Store.memberTable, h.notes]

theorem aliasesDistinct (h : s.SameNotes s') (ha : Membership.AliasesDistinct s) :
    Membership.AliasesDistinct s' := by
  rw [Membership.AliasesDistinct, h.notesOf]
  exact ha

theorem verdictTable (h : s.SameNotes s') (kind : UpdateKind) (policy : ReplacePolicy)
    (desired : List String) :
    Membership.verdictTable kind policy desired s' = Membership.verdictTable kind policy desired s := by
  funext id
  rw [Membership.verdictTable, Membership.verdictTable, h.notes]

end SameNotes

end Store

theorem Note.isSome_form?_of_isClass {n : Note} {kind : EntryClass} (h : n.isClass kind = true) :
    n.form?.isSome = true := by
  rw [isClass] at h
  split at h
  · next form found => rw [found]; rfl
  · cases h

namespace Membership

open AddressBook.Action

variable {account : CanonicalName} {kind : UpdateKind} {policy : ReplacePolicy}
  {groups : List String} {d d₁ : Directory} {fault : Fault}

def Known (s : Store) (names : List String) : Prop :=
  ∀ name ∈ names, ∃ g ∈ s.notesOf .group, g.hasAlias name = true

theorem Underway.known {desired : List String} {s s' : Store}
    (h : Underway kind policy desired account s s') (hs : s.Sound) {names : List String}
    (hk : Known s names) : Known s' names := by
  intro name hname
  obtain ⟨g, hg, called⟩ := hk name hname
  obtain ⟨g', hg', same⟩ := h.image_of_mem hs hg
  exact ⟨g', hg', by rw [Note.hasAlias_congr same, called]⟩

/-- The operation succeeds and leaves a store that goes on accepting saves. -/
def Goes {α : Type} (x : Action α) (d : Directory) : Prop :=
  ∃ a d', x d = .ok a d' ∧ d'.store.Accepting

theorem goes_pure {α : Type} (ha : d.store.Accepting) (a : α) : Goes (pure a) d := ⟨a, d, rfl, ha⟩

theorem goes_bind {α β : Type} {x : Action α} {f : α → Action β} {a : α} (hx : x d = .ok a d₁)
    (hf : Goes (f a) d₁) : Goes (x >>= f) d := by
  obtain ⟨b, d', run, accepting⟩ := hf
  exact ⟨b, d', bind_ok_iff.mpr ⟨a, d₁, hx, run⟩, accepting⟩

theorem goes_discard {α : Type} {x : Action α} (h : Goes x d) : Goes (discard x : Action Unit) d := by
  obtain ⟨a, d', run, accepting⟩ := h
  exact ⟨(), d', discard_ok_iff.mpr ⟨a, run⟩, accepting⟩

theorem goes_save (ha : d.store.Accepting) {n : Note} (hn : n.form?.isSome = true) :
    Goes (Directory.save n) d := by
  have accepted : d.store.refusal? { n with id := some (d.idFor n).1 } = none :=
    ha.refusal? hn
  refine ⟨d.stamped n, d.afterSave n, ?_, ha.afterSave _ _⟩
  rw [Directory.save_apply, accepted]

theorem goes_saveMembers (ha : d.store.Accepting) {g : Note} (hg : g.isClass .group = true)
    (members : List String) : Goes (saveMembers g members) d := by
  have group : (g.setMembers members).isClass .group = true := by
    rw [Note.isClass_congr (g.sameBesideMembers_setMembers members), hg]
  exact goes_discard (goes_save ha (Note.isSome_form?_of_isClass group))

theorem goes_addMember (ha : d.store.Accepting) {g : Note} (hg : g.isClass .group = true) :
    Goes (addMember g account) d := by
  rw [addMember]
  split
  · exact goes_pure ha false
  · obtain ⟨⟨⟩, d', saved, accepting⟩ := goes_saveMembers ha hg (withMember g.members account)
    exact goes_bind saved (goes_pure accepting true)

theorem goes_removeMember (ha : d.store.Accepting) {g : Note} (hg : g.isClass .group = true) :
    Goes (removeMember g account) d := by
  rw [removeMember]
  split
  · exact goes_pure ha false
  · obtain ⟨⟨⟩, d', saved, accepting⟩ := goes_saveMembers ha hg (withoutMember g.members account)
    exact goes_bind saved (goes_pure accepting true)

theorem goes_join (ha : d.store.Accepting) (hf : d.store.Faithful) {name : String}
    (hk : ∃ g ∈ d.store.notesOf .group, g.hasAlias name = true) : Goes (join account name) d := by
  have read : d.store.groupByAlias name = .ok ((d.store.notesOf .group).find? (·.hasAlias name)) := by
    rw [Store.groupByAlias, Store.ofClass_eq hf, ha.readable]
    rfl
  rw [join]
  refine goes_bind (read_ok_iff.mpr ⟨read, rfl⟩) ?_
  cases found : (d.store.notesOf .group).find? (·.hasAlias name) with
  | none =>
    obtain ⟨g, hg, called⟩ := hk
    exact absurd called (List.find?_eq_none.mp found g hg)
  | some g => exact goes_addMember ha (Store.mem_notesOf.mp (List.mem_of_find?_eq_some found)).2

theorem goes_joins (ha : d.store.Accepting) (hs : d.store.Sound) (hf : d.store.Faithful)
    (hc : Name.canonicalize account.text = .ok account) {names : List String}
    (hk : Known d.store names) : Goes (names.forM fun name => discard (join account name)) d := by
  induction names generalizing d with
  | nil => exact goes_pure ha ()
  | cons name names ih =>
    have first : Goes (join account name) d := goes_join ha hf (hk name List.mem_cons_self)
    obtain ⟨⟨⟩, d', joined, accepting⟩ := goes_discard first
    obtain ⟨b, one⟩ := discard_ok_iff.mp joined
    have underway : Underway .add .exact [name] account d.store d'.store :=
      join_underway hc hs hf (by decide) List.mem_cons_self (Or.inl ⟨b, one⟩)
    have known := underway.known hs fun other hother => hk other (List.mem_cons_of_mem name hother)
    exact goes_bind joined (ih accepting underway.sound underway.faithful known)

theorem goes_leaves (ha : d.store.Accepting) {gs : List Note}
    (hg : ∀ g ∈ gs, g.isClass .group = true) :
    Goes (gs.forM fun g => discard (removeMember g account)) d := by
  induction gs generalizing d with
  | nil => exact goes_pure ha ()
  | cons g gs ih =>
    have first : Goes (removeMember g account) d := goes_removeMember ha (hg g List.mem_cons_self)
    obtain ⟨⟨⟩, d', removed, accepting⟩ := goes_discard first
    exact goes_bind removed (ih accepting fun m hm => hg m (List.mem_cons_of_mem g hm))

theorem goes_updateGroups (ha : d.store.Accepting) (hs : d.store.Sound) (hf : d.store.Faithful)
    (hg : ∀ g ∈ d.store.notesOf .group, g.HasGroupForm ∧ g.HasCanonicalMembers)
    (hc : Name.canonicalize account.text = .ok account)
    (hk : kind ≠ .remove → Known d.store (displayNames groups)) :
    Goes (updateGroups policy account groups kind) d := by
  have held := groupsOf_of_readable hf hg ha.readable account
  rw [updateGroups]
  refine goes_bind (read_ok_iff.mpr ⟨held, rfl⟩) ?_
  have known : Known d.store (toJoin kind ((d.store.notesOf .group).filter (·.hasMember account))
      (displayNames groups)) := by
    intro name hname
    obtain ⟨adds, desired, _⟩ := mem_toJoin.mp hname
    exact hk adds name desired
  obtain ⟨⟨⟩, d', joined, accepting⟩ := goes_joins ha hs hf hc known
  refine goes_bind joined (goes_leaves accepting fun g hleave => ?_)
  exact (Store.mem_notesOf.mp (List.mem_filter.mp (mem_toLeave.mp hleave).1).1).2

theorem known_of_updateGroups (hs : d.store.Sound) (hf : d.store.Faithful)
    (hg : ∀ g ∈ d.store.notesOf .group, g.HasGroupForm ∧ g.HasCanonicalMembers)
    (hc : Name.canonicalize account.text = .ok account)
    (h : updateGroups policy account groups kind d = .ok () d₁) (hk : kind ≠ .remove) :
    Known d.store (displayNames groups) := by
  obtain ⟨ids, ⟨d', joined⟩, _⟩ := updateGroups_steps hs hf hg hc h
  intro name hname
  cases listed : ((d.store.notesOf .group).filter (·.hasMember account)).any (·.hasAlias name) with
  | true =>
    obtain ⟨g, hmem, called⟩ := List.any_eq_true.mp listed
    exact ⟨g, (List.mem_filter.mp hmem).1, called⟩
  | false =>
    obtain ⟨id, g, hget, group, called, _⟩ := joined.reached name (mem_toJoin.mpr ⟨hk, hname, listed⟩)
    exact ⟨g, Store.mem_notesOf.mpr ⟨⟨id, Keyed.mem_of_get? hget⟩, group⟩, called⟩

theorem updateGroups_of_completed (hf : d.store.Faithful)
    (hg : ∀ g ∈ d.store.notesOf .group, g.HasGroupForm ∧ g.HasCanonicalMembers)
    (readable : d.store.checkReadable = .ok ())
    (hk : kind ≠ .remove → Known d.store (displayNames groups))
    (done : Completed kind policy (displayNames groups) account d.store) :
    updateGroups policy account groups kind d = .ok () d := by
  have held := groupsOf_of_readable hf hg readable account
  have joins : toJoin kind ((d.store.notesOf .group).filter (·.hasMember account))
      (displayNames groups) = [] := by
    rw [List.eq_nil_iff_forall_not_mem]
    intro name hname
    obtain ⟨adds, desired, unlisted⟩ := mem_toJoin.mp hname
    obtain ⟨g, hmem, called⟩ := hk adds name desired
    refine done g hmem (due_iff.mpr ?_)
    have member : g.hasMember account = false := by
      rw [Bool.eq_false_iff]
      intro member
      exact List.any_eq_false.mp unlisted g (List.mem_filter.mpr ⟨hmem, member⟩) called
    rw [member, ne_eq, Bool.not_eq_false]
    exact (belongs_false kind policy _ g).mpr ⟨adds, List.any_eq_true.mpr ⟨name, desired, called⟩⟩
  have leaves : toLeave kind policy ((d.store.notesOf .group).filter (·.hasMember account))
      (displayNames groups) = [] := by
    rw [List.eq_nil_iff_forall_not_mem]
    intro g hleave
    obtain ⟨inHeld, left⟩ := mem_toLeave.mp hleave
    obtain ⟨hmem, member⟩ := List.mem_filter.mp inHeld
    refine done g hmem (due_iff.mpr ?_)
    rw [member, left]
    exact Bool.false_ne_true
  rw [updateGroups, bind_ok_iff]
  refine ⟨_, d, read_ok_iff.mpr ⟨held, rfl⟩, ?_⟩
  rw [joins, leaves]
  rfl

/-- An update that ended with a fault left every group with its old members or with those that an
uninterrupted run gives it. Where saves are not refused, the same update then succeeds and ends where
the uninterrupted run does, and running it once more makes no save. -/
theorem updateGroups_retry {d₀ d' : Directory} (hs : d.store.Sound) (hf : d.store.Faithful)
    (hg : ∀ g ∈ d.store.notesOf .group, g.HasGroupForm ∧ g.HasCanonicalMembers)
    (ha : AliasesDistinct d.store) (hc : Name.canonicalize account.text = .ok account)
    (same : d.store.SameNotes d₀.store)
    (whole : updateGroups policy account groups kind d₀ = .ok () d')
    (cut : updateGroups policy account groups kind d = .error fault d₁) :
    (∀ id, d₁.store.memberTable id = d.store.memberTable id ∨
        d₁.store.memberTable id = d'.store.memberTable id) ∧
      ∀ d₂, d₁.store.SameNotes d₂.store → d₂.store.Accepting →
        ∃ d₃, updateGroups policy account groups kind d₂ = .ok () d₃ ∧
          d₃.store.memberTable = d'.store.memberTable ∧
            ∀ d₄, d₃.store.SameNotes d₄.store → d₄.store.checkReadable = .ok () →
              updateGroups policy account groups kind d₄ = .ok () d₄ := by
  have hg₀ : ∀ g ∈ d₀.store.notesOf .group, g.HasGroupForm ∧ g.HasCanonicalMembers := by
    rw [same.notesOf]
    exact hg
  have through := updateGroups_underway (same.sound hs) (same.faithful hf) hg₀ hc
    (Or.inl ⟨(), whole⟩)
  have done := updateGroups_completed (same.sound hs) (same.faithful hf) hg₀
    (same.aliasesDistinct ha) hc whole
  have final : d'.store.memberTable = heededTable account
      (verdictTable kind policy (displayNames groups) d.store) d.store.memberTable := by
    rw [through.memberTable_of_completed hc done, same.verdictTable, same.memberTable]
  have underway := updateGroups_underway hs hf hg hc (Or.inr ⟨fault, cut⟩)
  refine ⟨fun id => ?_, fun d₂ same₂ accepting => ?_⟩
  · rw [final]
    exact underway.memberTable_eq id
  have hs₂ := same₂.sound underway.sound
  have hf₂ := same₂.faithful underway.faithful
  have hg₂ : ∀ g ∈ d₂.store.notesOf .group, g.HasGroupForm ∧ g.HasCanonicalMembers := by
    rw [same₂.notesOf]
    exact underway.canonical hc hg
  -- The run without a fault found every desired group, and none is renamed in between.
  have known : kind ≠ .remove → Known d₂.store (displayNames groups) := by
    intro adds
    rw [Known, same₂.notesOf]
    refine underway.known hs ?_
    rw [Known, ← same.notesOf]
    exact known_of_updateGroups (same.sound hs) (same.faithful hf) hg₀ hc whole adds
  obtain ⟨⟨⟩, d₃, again, _⟩ := goes_updateGroups accepting hs₂ hf₂ hg₂ hc known
  have rest := updateGroups_underway hs₂ hf₂ hg₂ hc (Or.inl ⟨(), again⟩)
  have done₃ := updateGroups_completed hs₂ hf₂ hg₂
    (same₂.aliasesDistinct (underway.aliasesDistinct ha)) hc again
  refine ⟨d₃, again, ?_, fun d₄ same₄ readable => ?_⟩
  · rw [final, rest.memberTable_of_completed hc done₃, same₂.verdictTable, same₂.memberTable,
      underway.verdictTable_eq]
    exact heededTable_of_partly hc underway.memberTable_eq
  · refine updateGroups_of_completed (same₄.faithful rest.faithful) ?_ readable (fun adds => ?_) ?_
    · rw [same₄.notesOf]
      exact rest.canonical hc hg₂
    · rw [Known, same₄.notesOf]
      exact rest.known hs₂ (known adds)
    · rw [Completed, same₄.notesOf]
      exact done₃

def sampleFailing : Directory :=
  { sampleDirectory with store := { sampleDirectory.store with savesLeft := some 1 } }

def restored (d : Directory) : Directory :=
  { d with store := { d.store with isOpen := true, savesLeft := none, readOnly := false } }

theorem updateGroups_retry_sample :
    ∃ d' fault d₁, updateGroups .exact sampleAccount sampleNames .replace sampleDirectory = .ok () d' ∧
      updateGroups .exact sampleAccount sampleNames .replace sampleFailing = .error fault d₁ ∧
      (∀ id, d₁.store.memberTable id = sampleFailing.store.memberTable id ∨
        d₁.store.memberTable id = d'.store.memberTable id) ∧
      ∃ d₃, updateGroups .exact sampleAccount sampleNames .replace (restored d₁) = .ok () d₃ ∧
        d₃.store.memberTable = d'.store.memberTable ∧
          updateGroups .exact sampleAccount sampleNames .replace (restored d₃) =
            .ok () (restored d₃) := by
  have held : sampleFailing.store.groupsOf sampleAccount = .ok [sampleStaff] :=
    groupsOf_sampleDirectory
  have sound : sampleFailing.store.Sound :=
    Store.SameNotes.sound (s := sampleDirectory.store) ⟨rfl, rfl⟩ sound_sampleDirectory
  have same : sampleFailing.store.SameNotes sampleDirectory.store := ⟨rfl, rfl⟩
  obtain ⟨d', whole, -⟩ := updateGroups_sampleDirectory
  obtain ⟨fault, d₁, cut⟩ : ∃ fault d₁, updateGroups .exact sampleAccount sampleNames
      .replace sampleFailing = .error fault d₁ := by
    rw [updateGroups, bind_apply, read_apply, held]
    apply exists_of_not_isOk
    decide +kernel
  obtain ⟨partly, again⟩ := updateGroups_retry sound faithful_sampleDirectory
    proper_sampleDirectory aliasesDistinct_sampleDirectory canonical_sampleAccount same whole cut
  obtain ⟨d₃, run, final, once⟩ := again (restored d₁) ⟨rfl, rfl⟩ ⟨rfl, rfl, rfl⟩
  have readable : (restored d₃).store.checkReadable = .ok () :=
    Store.Accepting.readable ⟨rfl, rfl, rfl⟩
  exact ⟨d', fault, d₁, whole, cut, partly, d₃, run, final, once (restored d₃) ⟨rfl, rfl⟩ readable⟩

end Membership

end AddressBook

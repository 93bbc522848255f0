import AddressBook.Proofs.Membership.Acting
import AddressBook.Proofs.Membership.Renaming
import AddressBook.Proofs.Provisioning.Regular

/-! Operations that heed a verdict on an account, group by group: updating its groups, and enabling or
disabling it. However such an operation ends, every group has the members from before or those that the
verdict wants, and what it says about other names is the same. Two of them in a row, cut short
anywhere, can be run again. -/

namespace AddressBook

open AddressBook.Action Text

namespace Directory

def Shaped (K : String → Prop) (t : Table (String → Option (List Note.Value))) (d : Directory) :
    Prop := d.Regular K ∧ d.Tells Note.shape? t

end Directory

def Note.FitsShapes (K : String → Prop) (t : Table (String → Option (List Value))) (n : Note) : Prop :=
  n.RegularUnder K ∧ n.Told shape? t

namespace Membership

variable {K : String → Prop} {t : Table (String → Option (List Note.Value))}
  {account other : CanonicalName} {d d' : Directory}

theorem shapedFrame (K : String → Prop) (t : Table (String → Option (List Note.Value))) :
    Frame (Directory.Shaped K t) (Note.FitsShapes K t) CanonicalName.Settled :=
  (Note.Regular.regimen.frame K).and (Note.steady_shape?.frame t)

theorem table_eq_of_shaped (h : d.Shaped K t) (h' : d'.Shaped K t) {α : Type}
    {f : Note → Option α} (hf : Steady f) (hg : Note.OfGroups f) : d'.store.table f = d.store.table f :=
  Store.table_eq_of_shapes (h'.2.table.trans h.2.table.symm) hf hg

theorem aliasesDistinct_of_shaped (h : d.Shaped K t) (h' : d'.Shaped K t)
    (ha : AliasesDistinct d.store) : AliasesDistinct d'.store :=
  Store.aliasesDistinct_of_aliasTable h.1.sound h'.1.sound
    (table_eq_of_shaped h h' Note.steady_listed? Note.listed?_of_groups) ha

theorem memberTable_save_account (hd : d.Shaped K t) {n n' : Note} (hn : n.FitsShapes K t)
    (hk : n.isClass .account = true) (h : Directory.save n d = .ok n' d') :
    d'.store.memberTable = d.store.memberTable := by
  obtain ⟨id, hid, stands⟩ := hn.2
  have other := Note.not_isClass_of_isClass hk
  have silent : n.members? = none := by
    rw [Note.members?, other]
    rfl
  rw [memberTable_save hid h, silent]
  refine Table.set_eq_self ?_
  rw [Note.shape?_eq_none_iff.mpr other, ← hd.2.table, Store.table] at stands
  rw [Store.memberTable]
  cases hn : d.store.notes.get? id with
  | none => rfl
  | some m =>
    rw [hn, Option.bind_some, Note.shape?_eq_none_iff] at stands
    rw [Option.bind_some, stands]
    rfl

theorem refersTo_apart {stored : String} (h : Name.refersTo stored account = true)
    (apart : account.same other = false) : Name.refersTo stored other = false := by
  rw [CanonicalName.same, beq_eq_false_iff_ne] at apart
  rw [Name.refersTo] at h ⊢
  split at h
  · next canonical _ =>
    rw [CanonicalName.same, beq_iff_eq] at h
    rw [CanonicalName.same, h]
    exact beq_eq_false_iff_ne.mpr apart
  · rw [beq_iff_eq] at h
    rw [h]
    exact beq_eq_false_iff_ne.mpr apart

theorem hasMember_turnedAt_of_apart (hc : Name.canonicalize account.text = .ok account)
    (apart : account.same other = false) (n : Note) (time : Moment) :
    (n.turnedAt account time).hasMember other = n.hasMember other := by
  rw [Note.hasMember, Note.members_turnedAt]
  split
  · rw [withoutMember, List.any_filter, Note.hasMember]
    refine congrArg (List.any n.members) (funext fun stored => ?_)
    cases refers : Name.refersTo stored account with
    | true => rw [refersTo_apart refers apart, Bool.and_false]
    | false => rw [Bool.not_false, Bool.true_and]
  · rw [withMember, List.any_append, List.any_cons, refersTo_apart (Note.refersTo_self hc) apart]
    simp [Note.hasMember]

theorem Underway.unlisted_iff {kind : UpdateKind} {policy : ReplacePolicy} {desired : List String}
    {s s' : Store} (h : Underway kind policy desired account s s') (hs : s.Sound)
    (hc : Name.canonicalize account.text = .ok account) (apart : account.same other = false) :
    Unlisted other s'.memberTable ↔ Unlisted other s.memberTable := by
  have kept : ∀ {g' g : Note}, (g' = g ∨ ∃ time, g' = g.turnedAt account time) →
      g'.hasMember other = g.hasMember other := by
    rintro g' g (rfl | ⟨time, rfl⟩)
    · rfl
    · exact hasMember_turnedAt_of_apart hc apart g time
  rw [unlisted_memberTable_iff hs, unlisted_memberTable_iff h.sound]
  constructor
  · intro unlisted g hg
    obtain ⟨id, _, hget⟩ := hs.get?_of_mem_notesOf hg
    obtain ⟨g', hget', same⟩ := h.image hget
    have hg' : g' ∈ s'.notesOf .group := by
      refine Store.mem_notesOf.mpr ⟨⟨id, Keyed.mem_of_get? hget'⟩, ?_⟩
      rw [Note.isClass_congr same, (Store.mem_notesOf.mp hg).2]
    obtain ⟨m, hm, became⟩ := h.notes id g' hget'
    rw [hget, Option.some.injEq] at hm
    subst hm
    rw [← kept (became.imp_right fun turned => turned.2.2), unlisted g' hg']
  · intro unlisted g' hg'
    obtain ⟨g, hg, _, became⟩ := h.origin_of_mem hg'
    rw [kept became, unlisted g hg]

/-- The members of groups after every verdict was heeded. -/
def afterVerdict (account : CanonicalName) (v : Note → Option Bool) (s : Store)
    (members : Table (List String)) : Table (List String) :=
  heededTable account (s.table (Note.judged? v)) members

theorem afterVerdict_none (s : Store) :
    afterVerdict account (fun _ => none) s s.memberTable = s.memberTable := by
  funext id
  rw [afterVerdict, heededTable, Store.table, Store.memberTable]
  cases s.notes.get? id with
  | none => rfl
  | some n =>
    simp only [Option.bind_some, Note.judged?]
    split <;> rfl

theorem afterVerdict_eq_of_shaped {v : Note → Option Bool} (hv : Steady (Note.judged? v))
    (hd : d.Shaped K t) (hd' : d'.Shaped K t) :
    afterVerdict account v d'.store = afterVerdict account v d.store := by
  funext members
  rw [afterVerdict, table_eq_of_shaped hd hd' hv (Note.judged?_of_groups v)]
  rfl

/-- However the operation ends, some groups have the members that the verdict wants and the others
have theirs from before. -/
structure Heeds (K : String → Prop) (t : Table (String → Option (List Note.Value)))
    (account : CanonicalName) (v : Note → Option Bool) (x : Action Unit) : Prop where
  steady : Steady (Note.judged? v)
  keeps : ∀ d d', d.Shaped K t → Reaches x d d' → d'.Shaped K t
  others : ∀ d d', d.Shaped K t → Reaches x d d' → ∀ other, account.same other = false →
    (Unlisted other d'.store.memberTable ↔ Unlisted other d.store.memberTable)
  partly : ∀ d d', d.Shaped K t → Reaches x d d' → ∀ id,
    d'.store.memberTable id = d.store.memberTable id ∨
      d'.store.memberTable id = afterVerdict account v d.store d.store.memberTable id
  wholly : ∀ d d', d.Shaped K t → AliasesDistinct d.store → x d = .ok () d' →
    d'.store.memberTable = afterVerdict account v d.store d.store.memberTable

namespace Heeds

variable {v w : Note → Option Bool} {x y : Action Unit}

theorem of_memberTable_eq (keeps : ∀ d d', d.Shaped K t → Reaches x d d' → d'.Shaped K t)
    (same : ∀ d d', d.Shaped K t → Reaches x d d' → d'.store.memberTable = d.store.memberTable) :
    Heeds K t account (fun _ => none) x where
  steady := Note.steady_judged?_none
  keeps := keeps
  others d d' hd run other _ := by rw [same d d' hd run]
  partly d d' hd run id := Or.inl (congrFun (same d d' hd run) id)
  wholly d d' hd _ run := by rw [same d d' hd (Or.inl ⟨(), run⟩), afterVerdict_none]

theorem of_underway {kind : UpdateKind} {policy : ReplacePolicy} {desired : List String}
    (hc : Name.canonicalize account.text = .ok account)
    (keeps : ∀ d d', d.Shaped K t → Reaches x d d' → d'.Shaped K t)
    (underway : ∀ d d', d.Shaped K t → Reaches x d d' →
      Underway kind policy desired account d.store d'.store)
    (completed : ∀ d d', d.Shaped K t → AliasesDistinct d.store → x d = .ok () d' →
      Completed kind policy desired account d'.store) :
    Heeds K t account (verdict kind policy desired) x where
  steady := Note.steady_judged?_verdict kind policy desired
  keeps := keeps
  others d d' hd run _ apart := (underway d d' hd run).unlisted_iff hd.1.sound hc apart
  partly d d' hd run := (underway d d' hd run).memberTable_eq
  wholly d d' hd ha run :=
    (underway d d' hd (Or.inl ⟨(), run⟩)).memberTable_of_completed hc (completed d d' hd ha run)

section

variable (hx : Heeds K t account v x) (hy : Heeds K t account w y) (hd : d.Shaped K t)

include hx hy hd

theorem shaped_bind (run : Reaches (x >>= fun _ => y) d d') : d'.Shaped K t := by
  rcases reaches_bind run with ⟨fault, failed⟩ | ⟨⟨⟩, d₁, first, second⟩
  · exact hx.keeps d d' hd (Or.inr ⟨fault, failed⟩)
  · exact hy.keeps d₁ d' (hx.keeps d d₁ hd (Or.inl ⟨(), first⟩)) second

theorem unlisted_bind (run : Reaches (x >>= fun _ => y) d d') (apart : account.same other = false) :
    Unlisted other d'.store.memberTable ↔ Unlisted other d.store.memberTable := by
  rcases reaches_bind run with ⟨fault, failed⟩ | ⟨⟨⟩, d₁, first, second⟩
  · exact hx.others d d' hd (Or.inr ⟨fault, failed⟩) other apart
  · have between := hx.keeps d d₁ hd (Or.inl ⟨(), first⟩)
    rw [hy.others d₁ d' between second other apart, hx.others d d₁ hd (Or.inl ⟨(), first⟩) other apart]

theorem memberTable_bind (ha : AliasesDistinct d.store) (run : (x >>= fun _ => y) d = .ok () d') :
    d'.store.memberTable =
      afterVerdict account w d.store (afterVerdict account v d.store d.store.memberTable) := by
  obtain ⟨⟨⟩, d₁, first, second⟩ := bind_ok_iff.mp run
  have between := hx.keeps d d₁ hd (Or.inl ⟨(), first⟩)
  rw [hy.wholly d₁ d' between (aliasesDistinct_of_shaped hd between ha) second,
    afterVerdict_eq_of_shaped hy.steady hd between, hx.wholly d d₁ hd ha first]

/-- Wherever the two were cut short, what is still to be done leads to the same members. -/
theorem afterVerdict_bind (hc : Name.canonicalize account.text = .ok account)
    (ha : AliasesDistinct d.store) (run : Reaches (x >>= fun _ => y) d d') :
    afterVerdict account w d.store (afterVerdict account v d.store d'.store.memberTable) =
      afterVerdict account w d.store (afterVerdict account v d.store d.store.memberTable) := by
  rcases reaches_bind run with ⟨fault, failed⟩ | ⟨⟨⟩, d₁, first, second⟩
  · have partly := hx.partly d d' hd (Or.inr ⟨fault, failed⟩)
    exact congrArg _ (heededTable_of_partly hc partly)
  · have between := hx.keeps d d₁ hd (Or.inl ⟨(), first⟩)
    have partly := hy.partly d₁ d' between second
    rw [afterVerdict_eq_of_shaped hy.steady hd between, hx.wholly d d₁ hd ha first] at partly
    exact heededTable_of_partly_second hc partly

end

end Heeds

theorem heeds_updateGroups (hc : account.Settled) (policy : ReplacePolicy) (groups : List String)
    (kind : UpdateKind) :
    Heeds K t account (verdict kind policy (displayNames groups))
      (updateGroups policy account groups kind) := by
  have kept := (shapedFrame K t).keeps_updateGroups policy hc groups kind
  refine .of_underway hc (fun d d' hd run => kept.reaches hd run) (fun d d' hd run => ?_)
    fun d d' hd ha run => ?_
  · exact updateGroups_underway hd.1.sound (Store.faithful_of_memory hd.1.memory)
      (Store.proper_of_regular hd.1.notes) hc run
  · exact updateGroups_completed hd.1.sound (Store.faithful_of_memory hd.1.memory)
      (Store.proper_of_regular hd.1.notes) ha hc run

def enableVerdict (settings : DirectorySettings) (enabled : Bool) (given : Option (List String)) :
    Note → Option Bool :=
  match Account.denyGroups settings given with
  | some groups => verdict (if enabled then .remove else .add) .exact groups
  | none => fun _ => none

theorem heeds_forM {kind : UpdateKind} {policy : ReplacePolicy} {desired : List String}
    {f : String → Action Unit} (hc : account.Settled) (hk : kind ≠ .replace)
    (acts : Acts kind policy desired account f)
    (keeps : ∀ d d', d.Shaped K t → Reaches (desired.forM f) d d' → d'.Shaped K t) :
    Heeds K t account (verdict kind policy desired) (desired.forM f) := by
  refine .of_underway hc keeps (fun d d' hd run => ?_) fun d d' hd ha run => ?_
  · exact acts.forM_underway hc hd.1.sound (Store.faithful_of_memory hd.1.memory)
      (fun _ hname => hname) run
  · exact acts.forM_completed hk hc hd.1.sound (Store.faithful_of_memory hd.1.memory) ha run

theorem heeds_setEnabled (hc : account.Settled) {n : Note} (hn : n.FitsShapes K t)
    (hk : n.isClass .account = true) (settings : DirectorySettings) (enabled : Bool)
    (given : Option (List String)) :
    Heeds K t account (enableVerdict settings enabled given)
      (Account.setEnabled settings n account enabled given) := by
  have kept := (shapedFrame K t).keeps_setEnabled settings hn hk hc enabled given
  have keeps : ∀ d d', d.Shaped K t →
      Reaches (Account.setEnabled settings n account enabled given) d d' → d'.Shaped K t :=
    fun d d' hd run => kept.reaches hd run
  rw [Account.setEnabled] at keeps ⊢
  rw [enableVerdict]
  cases denied : Account.denyGroups settings given with
  | some groups =>
    rw [denied] at keeps
    dsimp only at keeps ⊢
    cases enabled with
    | true => exact heeds_forM hc (by decide) (acts_leave hc) keeps
    | false => exact heeds_forM hc (by decide) (acts_join hc) keeps
  | none =>
    rw [denied] at keeps
    refine .of_memberTable_eq keeps fun d d' hd run => ?_
    dsimp only at run
    split at run
    · rcases reaches_discard_iff.mp run with ⟨n', saved⟩ | ⟨fault, refused⟩
      · have marked := (shapedFrame K t).marked n (Account.checkPasswordText enabled) hn hk
        have still : (n.setText "CheckPassword" (Account.checkPasswordText enabled)).isClass
            .account = true := by
          rw [← hk]
          exact Note.isClass_of_item? (Note.item?_setItem_of_ne (by decide) n _) .account
        exact memberTable_save_account hd marked still saved
      · rw [Directory.save_error refused]
    · rcases run with ⟨_, run⟩ | ⟨_, run⟩
      · rw [(pure_ok_iff.mp run).2]
      · cases run

end Membership

end AddressBook

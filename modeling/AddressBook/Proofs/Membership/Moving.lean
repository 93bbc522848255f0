import AddressBook.Proofs.Membership.Distinct
import AddressBook.Proofs.Membership.Edited
import AddressBook.Proofs.Membership.Spelled
import AddressBook.Proofs.Name.Folding

/-! Moving memberships from one name to another. The list of members is built anew: the new name comes
where the first of both stood, and every other member stays once, where it stood first. -/

namespace AddressBook.Membership

open Name Text

theorem countP_le_one {α : Type} {R : α → α → Prop} {p : α → Bool} {as : List α}
    (apart : as.Pairwise R) (only : ∀ a b, p a = true → p b = true → ¬ R a b) : as.countP p ≤ 1 := by
  rw [List.countP_eq_length_filter]
  have kept := apart.filter p
  have holds : ∀ a ∈ as.filter p, p a = true := fun a ha => (List.mem_filter.mp ha).2
  match hk : as.filter p with
  | [] => simp
  | [a] => simp
  | a :: b :: rest =>
    rw [hk] at kept holds
    exact absurd (List.rel_of_pairwise_cons kept List.mem_cons_self)
      (only a b (holds a List.mem_cons_self) (holds b (List.mem_cons_of_mem a List.mem_cons_self)))

def replaced (old new : CanonicalName) (stored : String) : String :=
  if refersTo stored old then new.text else stored

theorem sublist_renamed (members : List String) (old new : CanonicalName) :
    (renamed members old new).Sublist (members.map (replaced old new)) := by
  obtain ⟨more, all, behind⟩ := Growing.exists_grown
    (c := fun known stored => sameName known (replaced old new stored)) (f := replaced old new)
    members []
  rw [List.nil_append] at all
  have same : renamed members old new = more := all
  rwa [same]

section

variable {members : List String} {old new : CanonicalName}
  (hc : ∀ s ∈ members, canonicalize s = .ok ⟨s⟩) (hn : canonicalize new.text = .ok new)

include hc hn

theorem canonicalize_replaced {stored : String} (h : stored ∈ members) :
    canonicalize (replaced old new stored) = .ok ⟨replaced old new stored⟩ := by
  rw [replaced]
  split
  · exact hn
  · exact hc stored h

theorem canonicalize_of_mem_renamed {m : String} (h : m ∈ renamed members old new) :
    canonicalize m = .ok ⟨m⟩ := by
  obtain ⟨stored, listed, rfl⟩ := List.mem_map.mp ((sublist_renamed members old new).subset h)
  exact canonicalize_replaced hc hn listed

theorem exists_mem_renamed (old : CanonicalName) {stored : String} (h : stored ∈ members) :
    ∃ m ∈ renamed members old new, lower m = lower (replaced old new stored) := by
  obtain ⟨m, hm, clash | rfl⟩ := Growing.covered_grown
    (c := fun known stored => sameName known (replaced old new stored)) (f := replaced old new) h []
  · have listed : m ∈ renamed members old new := hm
    rw [sameName_of_canonical (canonicalize_of_mem_renamed hc hn listed)
      (canonicalize_replaced hc hn h), beq_iff_eq] at clash
    exact ⟨m, listed, clash⟩
  · exact ⟨_, hm, rfl⟩

theorem refersTo_of_mem_renamed {m : String} (h : m ∈ renamed members old new)
    (name : CanonicalName) : refersTo m name = (lower m == name.folded) :=
  refersTo_of_canonical (canonicalize_of_mem_renamed hc hn h) name

theorem countP_refersTo_new (listed : (members.any fun stored => refersTo stored old) = true) :
    (renamed members old new).countP (refersTo · new) = 1 := by
  have once : (renamed members old new).countP (refersTo · new) ≤ 1 := by
    have named : (renamed members old new).countP (refersTo · new) =
        (renamed members old new).countP fun m => lower m == new.folded :=
      List.countP_congr fun m hm => by rw [refersTo_of_mem_renamed hc hn hm]
    rw [named]
    refine countP_le_one (pairwise_renamed hc old hn) fun s t hs ht => ?_
    rw [beq_iff_eq] at hs ht
    exact not_not.mpr (hs.trans ht.symm)
  have stands : 0 < (renamed members old new).countP (refersTo · new) := by
    obtain ⟨stored, hstored, refers⟩ := List.any_eq_true.mp listed
    obtain ⟨m, hm, same⟩ := exists_mem_renamed hc hn old hstored
    rw [replaced, if_pos refers] at same
    refine List.countP_pos_iff.mpr ⟨m, hm, ?_⟩
    rw [refersTo_of_mem_renamed hc hn hm, same]
    exact beq_self_eq_true _
  omega

end

/-- Every name stands there if it stood there before, unless the old name or the new text was one of
it. What is left out is another member up to case, and refers to the same names. -/
theorem any_refersTo_renamed {members : List String} {old new name : CanonicalName}
    (hc : ∀ s ∈ members, IsCanonical s) (hn : IsCanonical new.text) (hold : name.same old = false)
    (hnew : refersTo new.text name = false) :
    ((renamed members old new).any fun stored => refersTo stored name) =
      members.any fun stored => refersTo stored name := by
  rw [Bool.eq_iff_iff, List.any_eq_true, List.any_eq_true]
  constructor
  · rintro ⟨m, hm, refers⟩
    rcases mem_renamed hm with ⟨listed, _⟩ | rfl
    · exact ⟨m, listed, refers⟩
    · rw [hnew] at refers
      cases refers
  · rintro ⟨stored, hstored, refers⟩
    have stays : replaced old new stored = stored := by
      refine if_neg fun other => ?_
      rw [same_of_refersTo refers other] at hold
      cases hold
    obtain ⟨m, hm, found⟩ := Growing.covered_grown
      (c := fun known stored => sameName known (replaced old new stored)) (f := replaced old new)
      hstored []
    rw [stays] at found
    have listed : m ∈ renamed members old new := hm
    rcases found with clash | rfl
    · have canonical : IsCanonical m := by
        rcases mem_renamed listed with ⟨before, _⟩ | rfl
        · exact hc m before
        · exact hn
      exact ⟨m, listed, (refersTo_congr canonical (hc stored hstored) clash name).trans refers⟩
    · exact ⟨m, listed, refers⟩

variable {old new : CanonicalName} {count : Nat} {d d₁ : Directory}

/-- A note of before is saved if it is a group that lists the old name, and else it stays. -/
theorem Rewritten.moved (h : Rewritten (fun g => renamed g.members old new)
      (((d.store.notesOf .group).filter (·.hasMember old)).filterMap (·.id)) d d₁)
    (hs : d.store.Sound) {id : String} {n n' : Note} (hn : d.store.notes.get? id = some n)
    (hn' : d₁.store.notes.get? id = some n') :
    (n.isClass .group = false ∨ n.hasMember old = false) ∧ n' = n ∨
      n.isClass .group = true ∧ n.hasMember old = true ∧
        ∃ time, n' = n.membersAt (renamed n.members old new) time := by
  rcases h.became hn hn' with ⟨absent, same⟩ | ⟨saved, time⟩
  · rw [hs.mem_ids_iff] at absent
    refine Or.inl ⟨?_, same⟩
    cases group : n.isClass .group with
    | false => exact Or.inl rfl
    | true => exact Or.inr (Bool.eq_false_iff.mpr fun lists => absent ⟨n, hn, group, lists⟩)
  · obtain ⟨m, hm, group, lists⟩ := (hs.mem_ids_iff _).mp saved
    rw [hn, Option.some.injEq] at hm
    subst hm
    exact Or.inr ⟨group, lists, time⟩

theorem rewritten_of_rename (hs : d.store.Sound) (hf : d.store.Faithful)
    (hg : ∀ g ∈ d.store.notesOf .group, g.HasGroupForm ∧ g.HasCanonicalMembers)
    (h : rename old new d = .ok count d₁) :
    count = ((d.store.notesOf .group).filter (·.hasMember old)).length ∧
      Rewritten (fun g => renamed g.members old new)
        (((d.store.notesOf .group).filter (·.hasMember old)).filterMap (·.id)) d d₁ := by
  obtain ⟨counted, rewritten⟩ := rewritten_of_renaming hs hf h
  rw [Store.filter_showsUp hg] at counted
  rw [Store.idsFor_of_proper hg] at rewritten
  exact ⟨counted, rewritten⟩

/-- What putting one name in the place of another comes to, group by group and save by save. -/
structure MembershipsMoved (old new : CanonicalName) (count : Nat) (d d₁ : Directory) : Prop where
  count : count = ((d.store.notesOf .group).filter (·.hasMember old)).length
  saves : ∃ ids : List String, ids.Nodup ∧
    (d₁.journal = d.journal ++ ids.map fun id =>
      .saved id (((d₁.store.notes.get? id).map (·.items)).getD [])) ∧
    ∀ id, id ∈ ids ↔ ∃ g, d.store.notes.get? id = some g ∧ g.isClass .group = true ∧
      g.hasMember old = true
  keys : d₁.store.notes.keys = d.store.notes.keys
  gone : ∀ g ∈ d₁.store.notesOf .group, g.hasMember old = false
  once : ∀ id g g', d.store.notes.get? id = some g → g.isClass .group = true →
    g.hasMember old = true → d₁.store.notes.get? id = some g' →
      g'.members.countP (refersTo · new) = 1
  kept : ∀ id g g' name, d.store.notes.get? id = some g → d₁.store.notes.get? id = some g' →
    name.same old = false → name.same new = false → g'.hasMember name = g.hasMember name
  order : ∀ id g g', d.store.notes.get? id = some g → g.isClass .group = true →
    d₁.store.notes.get? id = some g' → g'.members.Sublist (g.members.map (replaced old new))
  items : ∀ id n n', d.store.notes.get? id = some n → d₁.store.notes.get? id = some n' →
    n'.SameBesideMembers n
  untouched : ∀ id n n', d.store.notes.get? id = some n → d₁.store.notes.get? id = some n' →
    n.isClass .group = false ∨ n.hasMember old = false → n' = n

/-- A renaming that succeeds moves the memberships of the old name to the new one. -/
theorem rename_effect (hs : d.store.Sound) (hf : d.store.Faithful)
    (hg : ∀ g ∈ d.store.notesOf .group, g.HasGroupForm ∧ g.HasCanonicalMembers)
    (hn : canonicalize new.text = .ok new) (apart : new.same old = false)
    (h : rename old new d = .ok count d₁) : MembershipsMoved old new count d d₁ := by
  obtain ⟨counted, rewritten⟩ := rewritten_of_rename hs hf hg h
  have canonical : ∀ {id g}, d.store.notes.get? id = some g → g.isClass .group = true →
      ∀ s ∈ g.members, canonicalize s = .ok ⟨s⟩ := by
    intro id g hget hgroup s hmem
    have listed := Store.mem_notesOf.mpr ⟨⟨id, Keyed.mem_of_get? hget⟩, hgroup⟩
    exact Note.canonicalize_of_mem_members (hg g listed).2 hmem
  constructor
  · exact counted
  · exact ⟨_, rewritten.nodup, rewritten.journal, fun id => hs.mem_ids_iff _⟩
  · exact rewritten.keys
  · intro g' listed
    obtain ⟨id, _, hget'⟩ := rewritten.sound.get?_of_mem_notesOf listed
    obtain ⟨g, hget, _⟩ := rewritten.origin hget'
    rcases rewritten.moved hs hget hget' with ⟨unlisted, rfl⟩ | ⟨_, _, time, rfl⟩
    · exact unlisted.resolve_left fun other => by
        rw [(Store.mem_notesOf.mp listed).2] at other
        cases other
    · rw [Note.hasMember, Note.members_membersAt]
      exact any_refersTo_old hn apart g.members
  · intro id g g' hget group lists hget'
    rcases rewritten.moved hs hget hget' with ⟨unlisted, _⟩ | ⟨_, _, time, rfl⟩
    · rw [group, lists] at unlisted
      simp at unlisted
    · rw [Note.members_membersAt]
      exact countP_refersTo_new (canonical hget group) hn lists
  · intro id g g' name hget hget' hold hnew
    rcases rewritten.moved hs hget hget' with ⟨_, rfl⟩ | ⟨group, _, time, rfl⟩
    · rfl
    · rw [Note.hasMember, Note.members_membersAt]
      have apart : refersTo new.text name = false := by
        rw [refersTo, hn, ← hnew]
        exact Bool.beq_comm
      exact any_refersTo_renamed (fun s hs => ⟨s, canonical hget group s hs⟩) ⟨_, hn⟩ hold apart
  · intro id g g' hget group hget'
    rcases rewritten.moved hs hget hget' with ⟨unlisted, rfl⟩ | ⟨_, _, time, rfl⟩
    · rw [group] at unlisted
      have other := List.any_eq_false.mp (unlisted.resolve_left (by simp))
      have same : g'.members.map (replaced old new) = g'.members.map fun stored => stored :=
        List.map_congr_left fun stored hstored => if_neg (other stored hstored)
      simp only [same, List.map_id', List.Sublist.refl]
    · rw [Note.members_membersAt]
      exact sublist_renamed g.members old new
  · exact fun id n n' => rewritten.sameBesideMembers
  · intro id n n' hget hget' unlisted
    rcases rewritten.moved hs hget hget' with ⟨_, same⟩ | ⟨group, lists, _⟩
    · exact same
    · rw [group, lists] at unlisted
      simp at unlisted

/-! A group that lists the new name already, behind the old one and in another case. -/

def sampleBride : CanonicalName := ⟨"CN=Ann Lee/O=Acme"⟩

def sampleTwice : Note := sampleGroup "1" "Staff" ["CN=Ann/O=Acme", "Bob", "CN=ANN LEE/O=Acme"]

def sampleWedding : Directory := { store := { notes := [("1", sampleTwice), ("2", samplePilots)] } }

theorem notesOf_sampleWedding :
    sampleWedding.store.notesOf .group = [sampleTwice, samplePilots] := by decide

theorem proper_sampleWedding : ∀ g ∈ sampleWedding.store.notesOf .group,
    g.HasGroupForm ∧ g.HasCanonicalMembers := by
  rw [notesOf_sampleWedding, List.forall_mem_cons, List.forall_mem_singleton]
  exact ⟨proper_sampleGroup (by decide) _ _, proper_sampleGroup (by decide) _ _⟩

theorem rename_sampleWedding :
    ∃ d₁, rename sampleAccount sampleBride sampleWedding = .ok 1 d₁ := by
  have found : sampleWedding.store.groupsOf sampleAccount = .ok [sampleTwice] := by
    rw [groupsOf_eq (Store.faithful_of_memory rfl) proper_sampleWedding, notesOf_sampleWedding]
    exact eq_ok_of_toOption (by decide)
  rw [rename, Action.bind_apply, Action.read_apply, found]
  exact ⟨_, Action.ok_of_value? (by decide)⟩

theorem rename_effect_sample :
    ∃ d₁, rename sampleAccount sampleBride sampleWedding = .ok 1 d₁ ∧
      MembershipsMoved sampleAccount sampleBride 1 sampleWedding d₁ := by
  obtain ⟨d₁, run⟩ := rename_sampleWedding
  exact ⟨d₁, run, rename_effect ⟨by decide, by decide⟩ (Store.faithful_of_memory rfl)
    proper_sampleWedding (eq_ok_of_toOption (by decide)) (by decide) run⟩

end AddressBook.Membership

import AddressBook.Proofs.Directory.Action
import AddressBook.Proofs.Membership.Groups
import AddressBook.Proofs.Note.Items

/-! Turning around whether groups list a name. A group that is saved this way changes in its members
and in the time of its last save, and what it is known by stays. -/

namespace AddressBook

namespace Note

variable {n m : Note}

def SameBesideMembers (n m : Note) : Prop :=
  n.id = m.id ∧ ∀ name, Text.sameAscii name "Members" = false → n.item? name = m.item? name

@[simp]
theorem members_setMembers (n : Note) (members : List String) :
    (n.setMembers members).members = members := texts_setTexts n "Members" members

theorem sameBesideMembers_refl (n : Note) : n.SameBesideMembers n := ⟨rfl, fun _ _ => rfl⟩

theorem SameBesideMembers.trans {o : Note} (h : n.SameBesideMembers m) (h' : m.SameBesideMembers o) :
    n.SameBesideMembers o := ⟨h.1.trans h'.1, fun name other => (h.2 name other).trans (h'.2 name other)⟩

theorem sameBesideMembers_setMembers (n : Note) (members : List String) :
    (n.setMembers members).SameBesideMembers n :=
  ⟨rfl, fun _ h => item?_setItem_of_ne h n _⟩

theorem isClass_congr (h : n.SameBesideMembers m) (kind : EntryClass) :
    n.isClass kind = m.isClass kind := isClass_of_item? (h.2 "Form" (by decide)) kind

theorem isClass_of_items (h : n.items = m.items) (kind : EntryClass) :
    n.isClass kind = m.isClass kind := isClass_of_item? (by rw [item?, item?, h]) kind

theorem hasAlias_congr (h : n.SameBesideMembers m) (name : String) :
    n.hasAlias name = m.hasAlias name := by
  rw [hasAlias, hasAlias, isClass_congr h, aliases, aliases,
    texts_congr (h.2 "ListName" (by decide))]

/-- The note with the membership of a name turned around. -/
def turned (account : CanonicalName) (n : Note) : Note :=
  n.setMembers (if n.hasMember account then Membership.withoutMember n.members account
    else Membership.withMember n.members account)

def turnedAt (account : CanonicalName) (n : Note) (time : Moment) : Note :=
  { n.turned account with modified := some time }

theorem sameBesideMembers_turnedAt (account : CanonicalName) (n : Note) (time : Moment) :
    (n.turnedAt account time).SameBesideMembers n := sameBesideMembers_setMembers n _

theorem members_turnedAt (account : CanonicalName) (n : Note) (time : Moment) :
    (n.turnedAt account time).members =
      if n.hasMember account then Membership.withoutMember n.members account
      else Membership.withMember n.members account := members_setMembers n _

theorem hasCanonicalMembers_turnedAt {account : CanonicalName}
    (hc : Name.canonicalize account.text = .ok account) {n : Note} (h : n.HasCanonicalMembers)
    (time : Moment) : (n.turnedAt account time).HasCanonicalMembers := by
  have listed : (n.turnedAt account time).item? "Members" =
      some ((if n.hasMember account then Membership.withoutMember n.members account
        else Membership.withMember n.members account).map .text) :=
    item?_setItem_of_same (by decide) n _
  refine hasCanonicalMembers_of_item? listed fun t ht => ?_
  split at ht
  · exact canonicalize_of_mem_members h (List.mem_filter.mp ht).1
  · rcases List.mem_append.mp ht with old | new
    · exact canonicalize_of_mem_members h old
    · rw [List.mem_singleton.mp new]
      exact hc

@[simp]
theorem refersTo_self {account : CanonicalName}
    (h : Name.canonicalize account.text = .ok account) :
    Name.refersTo account.text account = true := by
  rw [Name.refersTo, h]
  exact beq_self_eq_true _

theorem hasMember_turnedAt {account : CanonicalName}
    (h : Name.canonicalize account.text = .ok account) (n : Note) (time : Moment) :
    (n.turnedAt account time).hasMember account = !n.hasMember account := by
  cases listed : n.hasMember account with
  | true =>
    rw [hasMember, members_turnedAt, listed, if_pos rfl, Membership.withoutMember,
      Bool.not_true, List.any_eq_false]
    intro stored hs
    have other := (List.mem_filter.mp hs).2
    simpa using other
  | false =>
    rw [hasMember, members_turnedAt, listed, if_neg Bool.false_ne_true, Membership.withMember,
      List.any_append]
    simp [refersTo_self h]

theorem others_turnedAt {account : CanonicalName}
    (h : Name.canonicalize account.text = .ok account) (n : Note) (time : Moment) :
    (n.turnedAt account time).members.filter (fun stored => !Name.refersTo stored account) =
      n.members.filter fun stored => !Name.refersTo stored account := by
  rw [members_turnedAt]
  split
  · rw [Membership.withoutMember, List.filter_filter]
    simp
  · rw [Membership.withMember, List.filter_append]
    simp [refersTo_self h]

theorem members_turnedAt_ne {account : CanonicalName}
    (h : Name.canonicalize account.text = .ok account) (n : Note) (time : Moment) :
    (n.turnedAt account time).members ≠ n.members := by
  intro same
  have turned := hasMember_turnedAt h n time
  have listed : (n.turnedAt account time).hasMember account = n.hasMember account := by
    rw [hasMember, hasMember, same]
  rw [listed] at turned
  cases lists : n.hasMember account <;> rw [lists] at turned <;> cases turned

end Note

theorem mapM_eq_self_iff {α : Type} {f : α → Option α} {as : List α} :
    as.mapM f = some as ↔ ∀ a ∈ as, f a = some a := by
  induction as with
  | nil => simp
  | cons a as ih =>
    rw [List.mapM_cons, List.forall_mem_cons, ← ih]
    cases f a with
    | none => simp
    | some b =>
      cases as.mapM f with
      | none => simp
      | some bs => simp [Option.bind_eq_bind]

namespace Note

theorem itemsThroughJson?_setTexts {n : Note} (h : itemsThroughJson? n.items = some n.items)
    (name : String) (texts : List String) :
    itemsThroughJson? (n.setTexts name texts).items = some (n.setTexts name texts).items := by
  rw [itemsThroughJson?, mapM_eq_self_iff] at *
  intro entry he
  rcases Keyed.mem_put he with rfl | he
  · have back : (texts.map Value.text).mapM Value.throughJson? = some (texts.map Value.text) := by
      rw [mapM_eq_self_iff]
      intro v hv
      obtain ⟨t, _, rfl⟩ := List.mem_map.mp hv
      rfl
    dsimp only
    rw [back]
    rfl
  · exact h entry he

end Note

namespace Store

variable {s : Store}

theorem readBack_ok_iff {n : Note} :
    s.readBack n = .ok n ↔ s.backing = .memory ∨ Note.itemsThroughJson? n.items = some n.items := by
  rw [readBack]
  cases s.backing with
  | memory => simp
  | sqlite =>
    cases back : Note.itemsThroughJson? n.items with
    | none => simp
    | some items =>
      simp only [reduceCtorEq, false_or, Except.ok.injEq, Option.some.injEq]
      constructor
      · intro h
        exact congrArg Note.items h
      · rintro rfl
        rfl

end Store

end AddressBook

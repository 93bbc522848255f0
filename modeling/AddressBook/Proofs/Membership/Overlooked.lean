import AddressBook.Proofs.Directory.ReadBack
import AddressBook.Proofs.Membership.Groups

/-! The groups that the query for a name overlooks. Whether a group lists a name is decided by reading
its members as names; the query compares texts. What it finds is stated here for every store,
whatever its notes hold. -/

namespace AddressBook

open Formula

namespace Scalar

theorem order_shown (a : Scalar) (b : String) : a.order (.text b) = .eq ↔ a.shown = b := by
  rw [order]
  · exact Std.LawfulEqOrd.compare_eq_iff_eq
  · rintro _ _ _ ⟨⟩

end Scalar

namespace Note

def Value.lowered (v : Value) : String := (Scalar.ofValue v).lowerCase.shown

/-- The note spells group and name as the query does: one of its forms is exactly the form of groups,
and one of its members, in lower case, is the canonical rendering of the name in lower case. -/
def spells (n : Note) (name : CanonicalName) : Bool :=
  ((n.item? "Form").getD []).contains (.text EntryClass.group.form) &&
    ((n.item? "Members").getD []).any fun v => v.lowered == name.folded

theorem fieldValues_of_members {n : Note} (h : n.members ≠ []) :
    n.fieldValues "Members" = ((n.item? "Members").getD []).map Scalar.ofValue := by
  have other : Text.sameAscii "Members" "NoteID" = false := by decide
  rw [fieldValues, other, if_neg Bool.false_ne_true]
  split
  · next none =>
    rw [members, texts, none] at h
    exact absurd rfl h
  · rfl

theorem members_ne_nil_of_hasMember {n : Note} {name : CanonicalName} (h : n.hasMember name = true) :
    n.members ≠ [] := by
  intro none
  rw [hasMember, none] at h
  cases h

end Note

namespace Membership

theorem holds_listing_iff {n : Note} (h : n.members ≠ []) (name : CanonicalName) :
    (listing name).holds n = true ↔
      ∃ v ∈ (n.item? "Members").getD [], v.lowered = name.folded := by
  rw [listing, holds_compare]
  simp only [Comparison.holds, values, Note.fieldValues_of_members h, List.map_map, List.any_map,
    List.any_eq_true, List.any_cons, List.any_nil, Bool.or_false, Function.comp_apply, beq_iff_eq,
    Scalar.order_shown, Note.Value.lowered]

theorem holds_queried {n : Note} {name : CanonicalName} (h : n.hasMember name = true) :
    (Formula.both (Query.formFormula .group) (listing name)).holds n = n.spells name := by
  rw [Bool.eq_iff_iff, holds_both, Bool.and_eq_true, Query.holds_formFormula,
    holds_listing_iff (Note.members_ne_nil_of_hasMember h), Note.spells, Bool.and_eq_true,
    List.contains_iff_mem, List.any_eq_true]
  simp only [beq_iff_eq]

end Membership

namespace Store

variable {s : Store}

/-- The groups of a name are, in the order of the store, those that list the name and spell it. -/
theorem groupsOf_eq_spelled (s : Store) (name : CanonicalName) :
    s.groupsOf name =
      (s.ofClass .group).map (List.filter fun g => g.hasMember name && g.spells name) := by
  rw [groupsOf, search, Membership.read_queryFor]
  simp only [bind, Except.bind]
  cases s.ofClass .group with
  | error fault => rfl
  | ok groups =>
    simp only [Except.map, pure, Except.pure, List.filter_filter, Except.ok.injEq]
    refine List.filter_congr fun g _ => ?_
    cases lists : g.hasMember name with
    | false => rw [Bool.false_and, Bool.false_and]
    | true => rw [Membership.holds_queried lists]

theorem Sound.pairwise_ofClass (hs : s.Sound) {kind : EntryClass} {found : List Note}
    (h : s.ofClass kind = .ok found) :
    found.Pairwise fun n m => ∃ i j, n.id = some i ∧ m.id = some j ∧ i < j := by
  have kept : (s.all.filter (·.isClass kind)).Pairwise
      fun n m => ∃ i j, n.id = some i ∧ m.id = some j ∧ i < j := by
    refine List.Pairwise.filter _ (List.pairwise_map.mpr (hs.sorted.imp_of_mem ?_))
    exact fun ha hb less => ⟨_, _, hs.ids _ ha, hs.ids _ hb, less⟩
  obtain ⟨_, _, read⟩ := bind_eq_ok h
  clear h
  generalize s.all.filter (·.isClass kind) = ns at kept read
  induction ns generalizing found with
  | nil =>
    cases read
    exact List.Pairwise.nil
  | cons n ns ih =>
    rw [List.mapM_cons] at read
    obtain ⟨m, first, read⟩ := bind_eq_ok read
    obtain ⟨ms, others, made⟩ := bind_eq_ok read
    cases made
    rw [List.pairwise_cons] at kept ⊢
    refine ⟨fun m' hm' => ?_, ih kept.2 others⟩
    obtain ⟨n', hn', back⟩ := (mem_of_mapM_ok others).1 m' hm'
    rw [id_readBack first, id_readBack back]
    exact kept.1 n' hn'

/-- The groups of a name are found in the order of their ids, and they are exactly the groups that list
it if and only if each of these spells it as the query does. -/
theorem groupsOf_exact_iff (hs : s.Sound) {groups : List Note} (read : s.ofClass .group = .ok groups)
    (name : CanonicalName) :
    ∃ found, s.groupsOf name = .ok found ∧
      (found.Pairwise fun n m => ∃ i j, n.id = some i ∧ m.id = some j ∧ i < j) ∧
      (found = groups.filter (·.hasMember name) ↔
        ∀ g ∈ groups, g.hasMember name = true → g.spells name = true) := by
  refine ⟨groups.filter fun g => g.hasMember name && g.spells name, ?_, ?_, ?_⟩
  · rw [groupsOf_eq_spelled, read]
    rfl
  · exact (hs.pairwise_ofClass read).filter _
  · constructor
    · intro same g hg lists
      have listed : g ∈ groups.filter (·.hasMember name) := List.mem_filter.mpr ⟨hg, lists⟩
      rw [← same, List.mem_filter, Bool.and_eq_true] at listed
      exact listed.2.2
    · intro all
      refine List.filter_congr fun g hg => ?_
      cases lists : g.hasMember name with
      | false => rfl
      | true => exact all g hg lists

def staffOf (member : String) : Note where
  id := some "A1"
  items := [("Form", [.text "Group"]), ("ListName", [.text "Staff"]), ("Members", [.text member])]

theorem sound_staffOf (member : String) : Sound { notes := [("A1", staffOf member)] } where
  sorted := List.pairwise_singleton _ _
  ids := fun _ he => by
    rw [List.mem_singleton.mp he]
    rfl

theorem groupsOf_exact_iff_sample :
    Sound { notes := [("A1", staffOf "CN=Ann Lee/O=Acme")] } ∧
      groupsOf { notes := [("A1", staffOf "CN=Ann Lee/O=Acme")] } ⟨"CN=Ann Lee/O=Acme"⟩ =
        .ok [staffOf "CN=Ann Lee/O=Acme"] := by
  have sound := sound_staffOf "CN=Ann Lee/O=Acme"
  have read : ofClass { notes := [("A1", staffOf "CN=Ann Lee/O=Acme")] } .group =
      .ok [staffOf "CN=Ann Lee/O=Acme"] :=
    eq_ok_of_toOption (by decide)
  have spelled : ∀ g ∈ [staffOf "CN=Ann Lee/O=Acme"], g.hasMember ⟨"CN=Ann Lee/O=Acme"⟩ = true →
      g.spells ⟨"CN=Ann Lee/O=Acme"⟩ = true := by
    decide
  have listed : [staffOf "CN=Ann Lee/O=Acme"].filter (·.hasMember ⟨"CN=Ann Lee/O=Acme"⟩) =
      [staffOf "CN=Ann Lee/O=Acme"] := by
    decide
  obtain ⟨found, groups, -, exact⟩ := groupsOf_exact_iff sound read ⟨"CN=Ann Lee/O=Acme"⟩
  rw [exact.mpr spelled, listed] at groups
  exact ⟨sound, groups⟩

/-- A member whose name is stored in its short form is overlooked. -/
theorem not_always_groupsOf_exact :
    ¬ ∀ (s : Store) (groups : List Note) (raw : String) (name : CanonicalName), s.Sound →
      s.ofClass .group = .ok groups → Name.canonicalize raw = .ok name →
        s.groupsOf name = .ok (groups.filter (·.hasMember name)) := by
  intro always
  have listed := always { notes := [("A1", staffOf "Ann Lee/Acme")] } [staffOf "Ann Lee/Acme"]
    "Ann Lee/Acme" ⟨"CN=Ann Lee/O=Acme"⟩ (sound_staffOf _) (eq_ok_of_toOption (by decide))
    (eq_ok_of_toOption (by decide))
  have none : (groupsOf { notes := [("A1", staffOf "Ann Lee/Acme")] }
      ⟨"CN=Ann Lee/O=Acme"⟩).toOption = some [] := by
    decide +kernel
  have one : [staffOf "Ann Lee/Acme"].filter (·.hasMember ⟨"CN=Ann Lee/O=Acme"⟩) =
      [staffOf "Ann Lee/Acme"] := by
    decide
  rw [listed, one] at none
  cases none

end Store

end AddressBook

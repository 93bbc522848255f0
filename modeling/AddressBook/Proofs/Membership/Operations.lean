import AddressBook.Proofs.Except
import AddressBook.Proofs.Growing
import AddressBook.Proofs.Keyed
import AddressBook.Proofs.Name.Folding
import AddressBook.Proofs.Name.Nested
import AddressBook.Proofs.Note.Items

/-! Edits of member lists as operations on sets of names. What a stored text refers to is all that
counts, whether the text is a name or not, so an edit unites, subtracts or overwrites the names of a
group; doing it a second time changes nothing. -/

namespace AddressBook

/-- Whether a name is a member after an edit, by whether it was one and whether it was given. -/
def UpdateKind.combines (kind : UpdateKind) (was given : Bool) : Bool :=
  match kind with
  | .add => was || given
  | .remove => was && !given
  | .replace => given

namespace Name

theorem refersTo_of_same {a b : CanonicalName} (h : a.same b = true) (stored : String) :
    refersTo stored a = refersTo stored b := by
  have folded : a.folded = b.folded := eq_of_beq h
  rw [refersTo, refersTo]
  cases canonicalize stored with
  | ok c =>
    change (c.folded == a.folded) = (c.folded == b.folded)
    rw [folded]
  | error fault =>
    change (_ == a.folded) = (_ == b.folded)
    rw [folded]

end Name

namespace Membership

open Name

variable {edits : List CanonicalName}

section

variable (settled : ∀ e ∈ edits, e.Settled)

include settled

theorem refersTo_text {e name : CanonicalName} (he : e ∈ edits) :
    refersTo e.text name = e.same name := by
  have canonical : canonicalize e.text = .ok e := settled e he
  rw [refersTo, canonical]

theorem any_refersTo_edited (kind : UpdateKind) (members : List String) (name : CanonicalName) :
    ((edited kind members edits).any fun stored => refersTo stored name) =
      kind.combines (members.any fun stored => refersTo stored name)
        (edits.any fun e => e.same name) := by
  have given : (edits.any fun e => refersTo e.text name) = edits.any fun e => e.same name := by
    rw [Bool.eq_iff_iff, List.any_eq_true, List.any_eq_true]
    exact exists_congr fun e => and_congr_right fun he => by rw [refersTo_text settled he]
  cases kind with
  | replace =>
    rw [edited, List.any_map, UpdateKind.combines, ← given]
    exact congrArg (List.any edits) (funext fun e => Function.comp_apply)
  | add =>
    rw [UpdateKind.combines, ← given]
    refine Growing.any_grown (c := refersTo) (f := CanonicalName.text)
      (fun e he stored refers same => ?_) members
    rw [refersTo_text settled he] at same
    exact (refersTo_of_same same stored).symm.trans refers
  | remove =>
    rw [edited, UpdateKind.combines, List.any_filter]
    cases sought : edits.any fun e => e.same name with
    | true =>
      obtain ⟨e, he, same⟩ := List.any_eq_true.mp sought
      rw [Bool.not_true, Bool.and_false, List.any_eq_false]
      intro stored _ kept
      rw [Bool.and_eq_true, Bool.not_eq_true', List.any_eq_false] at kept
      exact kept.1 e he ((refersTo_of_same same stored).trans kept.2)
    | false =>
      rw [Bool.not_false, Bool.and_true]
      congr 1
      funext stored
      cases refers : refersTo stored name with
      | false => rw [Bool.and_false]
      | true =>
        have other : (edits.any fun e => refersTo stored e) = false := by
          rw [List.any_eq_false] at sought ⊢
          exact fun e he refers' => sought e he (same_of_refersTo refers' refers)
        rw [other]
        rfl

theorem edited_edited (kind : UpdateKind) (members : List String) :
    edited kind (edited kind members edits) edits = edited kind members edits := by
  cases kind with
  | replace => rfl
  | add =>
    refine Growing.grown_twice (c := refersTo) (f := CanonicalName.text) (fun e he => ?_) members
    rw [refersTo_text settled he]
    exact beq_self_eq_true _
  | remove => rw [edited, edited, List.filter_filter]; simp

end

theorem prefix_edited_add (members : List String) (edits : List CanonicalName) :
    members <+: edited .add members edits := by
  obtain ⟨more, all, -⟩ :=
    Growing.exists_grown (c := refersTo) (f := CanonicalName.text) edits members
  exact ⟨more, all.symm⟩

theorem sublist_edited_remove (members : List String) (edits : List CanonicalName) :
    (edited .remove members edits).Sublist members := List.filter_sublist

theorem edit_cases (n : Note) (edits : List CanonicalName) (kind : UpdateKind) :
    ∃ changed m, edit n edits kind = (changed, m) ∧ m.members = edited kind n.members edits ∧
      (changed = false ∧ m = n ∨
        changed = true ∧ m.members ≠ n.members ∧ m = n.setMembers (edited kind n.members edits)) := by
  rw [edit]
  split
  · next same => exact ⟨false, n, rfl, same.symm, Or.inl ⟨rfl, rfl⟩⟩
  · next other =>
    have listed : (n.setMembers (edited kind n.members edits)).members =
        edited kind n.members edits := Note.texts_setTexts n _ _
    exact ⟨true, _, rfl, listed, Or.inr ⟨rfl, by rwa [listed], rfl⟩⟩

/-- An edit unites, subtracts or overwrites the names of a group. It tells whether the list became
another, touches nothing but the list, and comes to nothing when it is repeated. -/
theorem edits_as_sets (settled : ∀ e ∈ edits, e.Settled) (n : Note) (kind : UpdateKind) :
    ∃ changed m, edit n edits kind = (changed, m) ∧
      (∀ name : CanonicalName, m.hasMember name =
        kind.combines (n.hasMember name) (edits.any fun e => e.same name)) ∧
      (kind = .add → n.members <+: m.members) ∧
      (kind = .remove → m.members.Sublist n.members) ∧
      (changed = false ↔ m.members = n.members) ∧ (changed = false → m = n) ∧
      m.id = n.id ∧ m.modified = n.modified ∧
      (∀ key, key ≠ (n.keyOf? "Members").getD "Members" → m.items.get? key = n.items.get? key) ∧
      edit m edits kind = (false, m) := by
  obtain ⟨changed, m, edited_to, listed, which⟩ := edit_cases n edits kind
  refine ⟨changed, m, edited_to, fun name => ?_, ?_, ?_, ?_⟩
  · rw [Note.hasMember, listed, any_refersTo_edited settled]
    rfl
  · rintro rfl
    rw [listed]
    exact prefix_edited_add _ _
  · rintro rfl
    rw [listed]
    exact sublist_edited_remove _ _
  have again : edit m edits kind = (false, m) := by
    rw [edit, if_pos]
    rw [listed, edited_edited settled]
  rcases which with ⟨rfl, rfl⟩ | ⟨rfl, other, rfl⟩
  · exact ⟨by simp, fun _ => rfl, rfl, rfl, fun _ _ => rfl, again⟩
  · exact ⟨by simpa using other, by simp, rfl, rfl,
      fun key apart => Keyed.get?_put_of_ne apart _ n.items, again⟩

def sampleCrew : Note := (Note.ofClass .group).setTexts "Members" ["*//x", "ann lee/acme", "Bob"]

def sampleEdits : List CanonicalName := [⟨"CN=Ann Lee/O=Acme"⟩, ⟨"Zoe"⟩]

theorem settled_sampleEdits : ∀ e ∈ sampleEdits, e.Settled := by
  have ann : CanonicalName.Settled ⟨"CN=Ann Lee/O=Acme"⟩ := eq_ok_of_toOption (by decide)
  have zoe : CanonicalName.Settled ⟨"Zoe"⟩ := eq_ok_of_toOption (by decide)
  exact List.forall_mem_cons.mpr ⟨ann, List.forall_mem_singleton.mpr zoe⟩

theorem edits_as_sets_samples :
    (∃ m, edit sampleCrew sampleEdits .add = (true, m) ∧
      m.members = ["*//x", "ann lee/acme", "Bob", "Zoe"] ∧ edit m sampleEdits .add = (false, m)) ∧
    ∃ m, edit sampleCrew sampleEdits .remove = (true, m) ∧ m.members = ["*//x", "Bob"] ∧
      edit m sampleEdits .remove = (false, m) := by
  constructor
  · obtain ⟨changed, m, done, -, -, -, -, -, -, -, -, again⟩ :=
      edits_as_sets settled_sampleEdits sampleCrew .add
    have added : edit sampleCrew sampleEdits .add =
        (true, sampleCrew.setMembers ["*//x", "ann lee/acme", "Bob", "Zoe"]) := by
      decide
    rw [added] at done
    cases done
    exact ⟨_, added, Note.texts_setTexts _ _ _, again⟩
  · obtain ⟨changed, m, done, -, -, -, -, -, -, -, -, again⟩ :=
      edits_as_sets settled_sampleEdits sampleCrew .remove
    have removed : edit sampleCrew sampleEdits .remove =
        (true, sampleCrew.setMembers ["*//x", "Bob"]) := by
      decide
    rw [removed] at done
    cases done
    exact ⟨_, removed, Note.texts_setTexts _ _ _, again⟩

end Membership

end AddressBook

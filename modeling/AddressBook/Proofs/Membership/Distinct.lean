import AddressBook.Proofs.Growing
import AddressBook.Proofs.Membership.Groups
import AddressBook.Proofs.Name.Nested
import AddressBook.Proofs.Note.Items
import AddressBook.Proofs.Text.Same

/-! No member stands twice in a group, whatever the case. Lists of members grow in three places, and
each of them leaves out what it finds there already, but each looks for something else: for the same
text, for the same name, or for a text that refers to the name. For members that are canonical names
these come to the same. -/

namespace AddressBook

namespace Note

/-- No two members are the same up to case. -/
def HasDistinctMembers (n : Note) : Prop :=
  n.members.Pairwise fun s t => Text.lower s ≠ Text.lower t

variable {n m : Note}

theorem HasDistinctMembers.congr (h : n.HasDistinctMembers)
    (same : m.item? "Members" = n.item? "Members") : m.HasDistinctMembers := by
  rwa [HasDistinctMembers, members, texts_congr same]

theorem hasDistinctMembers_of_item? {texts : List String}
    (h : n.item? "Members" = some (texts.map .text))
    (distinct : texts.Pairwise fun s t => Text.lower s ≠ Text.lower t) : n.HasDistinctMembers := by
  have listed : n.members = texts := by simp [members, Note.texts, h]
  rwa [HasDistinctMembers, listed]

theorem members_of_item?_none (h : n.item? "Members" = none) :
    n.HasCanonicalMembers ∧ n.HasDistinctMembers := by
  rw [HasCanonicalMembers, HasDistinctMembers, members, texts, h]
  exact ⟨fun v hv => absurd hv List.not_mem_nil, .nil⟩

end Note

namespace Membership

open Name Text

theorem lower_ne_of_not_refersTo {s : String} (h : canonicalize s = .ok ⟨s⟩) {name : CanonicalName}
    (other : refersTo s name = false) : lower s ≠ lower name.text := by
  rw [refersTo_of_canonical h, beq_eq_false_iff_ne] at other
  exact other

theorem sameName_of_canonical {s t : String} (hs : canonicalize s = .ok ⟨s⟩)
    (ht : canonicalize t = .ok ⟨t⟩) : sameName s t = (lower s == lower t) := by
  rw [sameName, trim_of_canonicalize hs, trim_of_canonicalize ht]

theorem lower_ne_of_not_sameName {s t : String} (hs : canonicalize s = .ok ⟨s⟩)
    (ht : canonicalize t = .ok ⟨t⟩) (other : sameName s t = false) : lower s ≠ lower t := by
  rwa [sameName_of_canonical hs ht, beq_eq_false_iff_ne] at other

theorem pairwise_distinct (names : List CanonicalName) :
    (distinct names).Pairwise fun a b => a.folded ≠ b.folded :=
  Growing.pairwise_grown (P := fun _ => True) (c := CanonicalName.same) (f := fun name => name)
    (R := fun a b => a.folded ≠ b.folded) (fun _ _ _ _ other => beq_eq_false_iff_ne.mp other)
    (fun _ _ => trivial) (fun _ _ => trivial) .nil

theorem pairwise_requested {members groups people : Option (List String)}
    {names : List CanonicalName} (h : requested members groups people = .ok (some names)) :
    names.Pairwise fun a b => a.folded ≠ b.folded := by
  rw [requested] at h
  split at h
  · cases h
  · next raws _ =>
    cases found : Name.canonicalizeAll raws with
    | error fault =>
      rw [found] at h
      cases h
    | ok all =>
      rw [found] at h
      cases h
      exact pairwise_distinct all

section

variable {members : List String} (hc : ∀ s ∈ members, canonicalize s = .ok ⟨s⟩)

include hc

theorem pairwise_renamed (old : CanonicalName) {new : CanonicalName} (hn : new.Settled) :
    (renamed members old new).Pairwise fun s t => lower s ≠ lower t := by
  refine Growing.pairwise_grown (P := fun s => canonicalize s = .ok ⟨s⟩)
    (c := fun known stored => sameName known (if refersTo stored old then new.text else stored))
    (f := fun stored => if refersTo stored old then new.text else stored)
    (R := fun s t => lower s ≠ lower t)
    (fun known stored hs ht other => lower_ne_of_not_sameName hs ht other) (fun stored hs => ?_)
    (fun _ h => absurd h List.not_mem_nil) .nil
  split
  · exact hn
  · exact hc stored hs

variable (h : members.Pairwise fun s t => lower s ≠ lower t)

include h

theorem pairwise_withMember {name : CanonicalName}
    (free : members.any (fun stored => refersTo stored name) = false) :
    (withMember members name).Pairwise fun s t => lower s ≠ lower t := by
  rw [List.any_eq_false] at free
  refine List.pairwise_append.mpr ⟨h, List.pairwise_singleton _ _, fun s hs t ht => ?_⟩
  rw [List.mem_singleton.mp ht]
  exact lower_ne_of_not_refersTo (hc s hs) (Bool.eq_false_iff.mpr (free s hs))

theorem pairwise_edited (kind : UpdateKind) {names : List CanonicalName}
    (hn : ∀ name ∈ names, name.Settled) (apart : names.Pairwise fun a b => a.folded ≠ b.folded) :
    (edited kind members names).Pairwise fun s t => lower s ≠ lower t := by
  cases kind with
  | replace => exact List.pairwise_map.mpr apart
  | remove => exact h.sublist List.filter_sublist
  | add =>
    exact Growing.pairwise_grown (P := fun s => canonicalize s = .ok ⟨s⟩) (c := refersTo)
      (f := CanonicalName.text) (fun s name hs _ other => lower_ne_of_not_refersTo hs other) hn hc h

end

end Membership

end AddressBook

import AddressBook.Provisioning.Basic
import AddressBook.Proofs.Attribute.Taking
import AddressBook.Proofs.Directory.Triple
import AddressBook.Proofs.Entry.Update

/-! What writing attributes into notes leaves alone: the id, and every item that no attribute is
named after. -/

namespace AddressBook

open Text

namespace Note

def SameItem (name : String) (n m : Note) : Prop := n.id = m.id ∧ n.item? name = m.item? name

theorem SameItem.refl (name : String) (n : Note) : SameItem name n n := ⟨rfl, rfl⟩

theorem SameItem.trans {name : String} {n m o : Note} (h : SameItem name n m)
    (h' : SameItem name m o) : SameItem name n o := ⟨h.1.trans h'.1, h.2.trans h'.2⟩

theorem sameItem_setItem {name other : String} (h : sameAscii other name = false) (n : Note)
    (values : List Value) : SameItem other (n.setItem name values) n :=
  ⟨rfl, item?_setItem_of_ne h n values⟩

theorem sameItem_setTexts {name other : String} (h : sameAscii other name = false) (n : Note)
    (texts : List String) : SameItem other (n.setTexts name texts) n := sameItem_setItem h n _

theorem sameItem_setText {name other : String} (h : sameAscii other name = false) (n : Note)
    (text : String) : SameItem other (n.setText name text) n := sameItem_setItem h n _

theorem sameItem_removeItem {name other : String} (h : sameAscii other name = false) (n : Note) :
    SameItem other (n.removeItem name) n :=
  ⟨id_removeItem n name, item?_removeItem_of_ne h n⟩

theorem sameItem_withValues {name other : String} (h : sameAscii other name = false) (n : Note)
    (values : List Value) : SameItem other (n.withValues name values) n := by
  rw [withValues]
  split
  · exact sameItem_removeItem h n
  · exact sameItem_setItem h n values

end Note

namespace Entry

theorem sameItem_update {n n' : Note} {kind : EntryClass} {name other : String}
    {values : List AttributeValue} {how : UpdateKind} {changed : Bool}
    (h : update n kind name values how = .ok (changed, n'))
    (ho : sameAscii name other = false) : Note.SameItem other n' n := by
  have stored : sameAscii other (((Schema.find? kind name).map (·.name)).getD name) = false := by
    rw [sameAscii_comm, sameAscii_congr (Schema.sameAscii_storedName kind name), ho]
  obtain ⟨incoming, -, ⟨-, rfl⟩ | ⟨-, -, rfl⟩⟩ := update_ok_cases h
  · exact .refl other _
  · exact Note.sameItem_withValues stored n _

theorem id_update {n n' : Note} {kind : EntryClass} {name : String} {values : List AttributeValue}
    {how : UpdateKind} {changed : Bool} (h : update n kind name values how = .ok (changed, n')) :
    n'.id = n.id := by
  obtain ⟨incoming, -, ⟨-, rfl⟩ | ⟨-, -, rfl⟩⟩ := update_ok_cases h
  · rfl
  · exact n.id_withValues _ _

theorem eq_of_update_unchanged {n n' : Note} {kind : EntryClass} {name : String}
    {values : List AttributeValue} {how : UpdateKind}
    (h : update n kind name values how = .ok (false, n')) : n' = n := by
  obtain ⟨incoming, -, ⟨-, rfl⟩ | ⟨changed, -, -⟩⟩ := update_ok_cases h
  · rfl
  · cases changed

end Entry

namespace Provisioning

theorem exists_mapM_ok_iff {α β : Type} {f : α → Except Fault β} {as : List α} :
    (∃ bs, as.mapM f = .ok bs) ↔ ∀ a ∈ as, ∃ b, f a = .ok b := by
  induction as with
  | nil => exact ⟨fun _ a ha => absurd ha List.not_mem_nil, fun _ => ⟨[], rfl⟩⟩
  | cons a as ih =>
    rw [List.mapM_cons, List.forall_mem_cons, ← ih]
    constructor
    · rintro ⟨bs, h⟩
      obtain ⟨b, first, h⟩ := bind_eq_ok h
      obtain ⟨others, rest, _⟩ := bind_eq_ok h
      exact ⟨⟨b, first⟩, others, rest⟩
    · rintro ⟨⟨b, first⟩, others, rest⟩
      rw [first, rest]
      exact ⟨b :: others, rfl⟩

theorem updateAll_cons_ok {kind : EntryClass} {how : UpdateKind}
    {entry : String × List AttributeValue} {rest : Attributes} {changed changed' : Bool} {n n' : Note}
    (h : updateAll kind how changed n (entry :: rest) = .ok (changed', n')) :
    checkWritable kind entry.1 false = .ok () ∧
      ∃ different updated, Entry.update n kind entry.1 entry.2 how = .ok (different, updated) ∧
        updateAll kind how (changed || different) updated rest = .ok (changed', n') := by
  obtain ⟨⟨⟩, writable, h⟩ := bind_eq_ok h
  obtain ⟨⟨different, updated⟩, one, h⟩ := bind_eq_ok h
  exact ⟨writable, different, updated, one, h⟩

theorem fillNew_cons_ok {kind : EntryClass} {entry : String × List AttributeValue}
    {rest : Attributes} {n n' : Note} (h : fillNew kind n (entry :: rest) = .ok n') :
    checkWritable kind entry.1 true = .ok () ∧
      ∃ stored, Entry.storedValues kind entry.1 entry.2 = .ok stored ∧
        fillNew kind (if stored.isEmpty then n else n.setItem entry.1 stored) rest = .ok n' := by
  obtain ⟨⟨⟩, writable, h⟩ := bind_eq_ok h
  obtain ⟨stored, found, h⟩ := bind_eq_ok h
  exact ⟨writable, stored, found, h⟩

theorem sameItem_updateAll {kind : EntryClass} {how : UpdateKind} {attributes : Attributes}
    {other : String} (ha : attributes.Lacks other) {changed changed' : Bool} {n n' : Note}
    (h : updateAll kind how changed n attributes = .ok (changed', n')) :
    Note.SameItem other n' n := by
  induction attributes generalizing changed n with
  | nil =>
    cases h
    exact .refl other _
  | cons entry rest ih =>
    obtain ⟨-, _, _, one, h⟩ := updateAll_cons_ok h
    have first := Entry.sameItem_update one (ha entry List.mem_cons_self)
    have others := ih (fun a hmem => ha a (List.mem_cons_of_mem _ hmem)) h
    exact others.trans first

theorem sameItem_fillNew {kind : EntryClass} {attributes : Attributes} {other : String}
    (ha : attributes.Lacks other) {n n' : Note} (h : fillNew kind n attributes = .ok n') :
    Note.SameItem other n' n := by
  induction attributes generalizing n with
  | nil =>
    cases h
    exact .refl other _
  | cons entry rest ih =>
    obtain ⟨-, stored, -, h⟩ := fillNew_cons_ok h
    have others := ih (fun a hmem => ha a (List.mem_cons_of_mem _ hmem)) h
    refine others.trans ?_
    split
    · exact .refl other n
    · refine Note.sameItem_setItem ?_ n stored
      rw [sameAscii_comm]
      exact ha entry List.mem_cons_self

theorem id_updateAll {kind : EntryClass} {how : UpdateKind} {attributes : Attributes}
    {changed changed' : Bool} {n n' : Note}
    (h : updateAll kind how changed n attributes = .ok (changed', n')) : n'.id = n.id := by
  induction attributes generalizing changed n with
  | nil =>
    cases h
    rfl
  | cons entry rest ih =>
    obtain ⟨-, _, _, one, h⟩ := updateAll_cons_ok h
    exact (ih h).trans (Entry.id_update one)

theorem eq_of_updateAll_unchanged {kind : EntryClass} {how : UpdateKind} {attributes : Attributes}
    {changed : Bool} {n n' : Note} (h : updateAll kind how changed n attributes = .ok (false, n')) :
    changed = false ∧ n' = n := by
  induction attributes generalizing changed n with
  | nil =>
    cases h
    exact ⟨rfl, rfl⟩
  | cons entry rest ih =>
    obtain ⟨-, _, _, one, h⟩ := updateAll_cons_ok h
    obtain ⟨quiet, rfl⟩ := ih h
    obtain ⟨rfl, rfl⟩ := Bool.or_eq_false_iff.mp quiet
    exact ⟨rfl, Entry.eq_of_update_unchanged one⟩

theorem id_fillNew {kind : EntryClass} {attributes : Attributes} {n n' : Note}
    (h : fillNew kind n attributes = .ok n') : n'.id = n.id := by
  induction attributes generalizing n with
  | nil =>
    cases h
    rfl
  | cons entry rest ih =>
    obtain ⟨-, stored, -, h⟩ := fillNew_cons_ok h
    refine (ih h).trans ?_
    split <;> rfl

theorem checkWritable_of_updateAll {kind : EntryClass} {how : UpdateKind}
    {attributes : Attributes} {changed changed' : Bool} {n n' : Note}
    (h : updateAll kind how changed n attributes = .ok (changed', n')) :
    ∀ a ∈ attributes, checkWritable kind a.1 false = .ok () := by
  induction attributes generalizing changed n with
  | nil => exact fun _ ha => absurd ha List.not_mem_nil
  | cons entry rest ih =>
    obtain ⟨writable, _, _, _, h⟩ := updateAll_cons_ok h
    exact List.forall_mem_cons.mpr ⟨writable, ih h⟩

theorem checkWritable_of_fillNew {kind : EntryClass} {attributes : Attributes} {n n' : Note}
    (h : fillNew kind n attributes = .ok n') :
    ∀ a ∈ attributes, checkWritable kind a.1 true = .ok () := by
  induction attributes generalizing n with
  | nil => exact fun _ ha => absurd ha List.not_mem_nil
  | cons entry rest ih =>
    obtain ⟨writable, _, _, h⟩ := fillNew_cons_ok h
    exact List.forall_mem_cons.mpr ⟨writable, ih h⟩

theorem lacks_of_not_writable {kind : EntryClass} {name : String} {isNew : Bool}
    (hw : checkWritable kind name isNew ≠ .ok ()) {attributes : Attributes}
    (h : ∀ a ∈ attributes, checkWritable kind a.1 isNew = .ok ()) : attributes.Lacks name := by
  intro a ha
  rw [Bool.eq_false_iff]
  intro same
  apply hw
  rw [← h a ha, checkWritable, checkWritable, Schema.find?_congr same]

theorem idOf_ok {n : Note} {id : String} (h : idOf n = .ok id) : n.id = some id := by
  rw [idOf] at h
  split at h
  · next found =>
    cases h
    exact found
  · cases h

open AddressBook.Action in
theorem keeps_idOf {J : Directory → Prop} (n : Note) :
    Keeps J (liftM (idOf n) : Action String) fun id => n.id = some id :=
  keeps_lift fun _ h => idOf_ok h

end Provisioning

end AddressBook

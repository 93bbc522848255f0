import AddressBook.Proofs.Membership.Edited
import AddressBook.Proofs.Provisioning.Items

/-! Where the values of items come from: they stood there before, or attributes of that name gave
them, however often the name is given. -/

namespace AddressBook

open Text

namespace Note

def Holds (n : Note) (name : String) (v : Value) : Prop :=
  ∃ item ∈ n.items, sameAscii item.1 name = true ∧ v ∈ item.2

variable {n : Note} {name other : String} {v : Value}

theorem holds_of_mem_item? (h : v ∈ (n.item? name).getD []) : n.Holds name v := by
  cases held : n.item? name with
  | none =>
    rw [held] at h
    cases h
  | some values =>
    rw [held] at h
    obtain ⟨item, found, rfl⟩ := Option.map_eq_some_iff.mp held
    exact ⟨item, List.mem_of_find?_eq_some found, by simpa using List.find?_some found, h⟩

theorem Holds.congr (h : n.Holds name v) (same : sameAscii name other = true) :
    n.Holds other v := by
  obtain ⟨item, hitem, key, hv⟩ := h
  exact ⟨item, hitem, sameAscii_trans key same, hv⟩

theorem Holds.of_setItem {values : List Value} (h : (n.setItem name values).Holds other v) :
    n.Holds other v ∨ sameAscii name other = true ∧ v ∈ values := by
  obtain ⟨item, hitem, key, hv⟩ := h
  rcases Keyed.mem_put hitem with rfl | hitem
  · exact Or.inr ⟨by rw [← sameAscii_congr (sameAscii_getD_keyOf? n name), key], hv⟩
  · exact Or.inl ⟨item, hitem, key, hv⟩

theorem Holds.of_removeItem (h : (n.removeItem name).Holds other v) : n.Holds other v := by
  rw [removeItem] at h
  split at h
  · obtain ⟨item, hitem, key, hv⟩ := h
    exact ⟨item, Keyed.mem_of_mem_erase hitem, key, hv⟩
  · exact h

theorem Holds.of_withValues {values : List Value} (h : (n.withValues name values).Holds other v) :
    n.Holds other v ∨ sameAscii name other = true ∧ v ∈ values := by
  rw [withValues] at h
  split at h
  · exact Or.inl h.of_removeItem
  · exact h.of_setItem

theorem Holds.of_setTexts {texts : List String} (h : (n.setTexts name texts).Holds other v) :
    n.Holds other v ∨ sameAscii name other = true ∧ ∃ text ∈ texts, v = .text text := by
  refine Holds.of_setItem h |>.imp_right fun ⟨same, hv⟩ => ⟨same, ?_⟩
  obtain ⟨text, ht, rfl⟩ := List.mem_map.mp hv
  exact ⟨text, ht, rfl⟩

end Note

namespace Entry

theorem isNameBearing_congr {name other : String} (h : sameAscii name other = true) :
    isNameBearing name = isNameBearing other := by
  rw [isNameBearing, isNameBearing]
  refine congrArg (List.any _) (funext fun known => ?_)
  rw [sameAscii_comm, sameAscii_congr h, sameAscii_comm]

theorem storedValue_text {kind : EntryClass} {name : String} {value : AttributeValue}
    {v : Note.Value} (free : (Schema.find? kind name).bind (·.coercion) = none)
    (h : storedValue kind name value = .ok v) :
    ∃ text, value.storedText? = some text ∧
      ∃ stored, storedTextOf name value = .ok stored ∧ v = .text stored := by
  have texted : ∀ {text}, value.storedText? = some text →
      (do return Note.Value.text (← storedTextOf name value) : Except Fault Note.Value) = .ok v →
        ∃ text, value.storedText? = some text ∧
          ∃ stored, storedTextOf name value = .ok stored ∧ v = .text stored := by
    intro text given h
    obtain ⟨stored, found, made⟩ := bind_eq_ok h
    cases made
    exact ⟨text, given, stored, found, rfl⟩
  cases value with
  | secret s => cases h
  | text s => rw [storedValue, free] at h; exact texted rfl h; simp
  | integer i => rw [storedValue, free] at h; exact texted rfl h; simp
  | long i => rw [storedValue, free] at h; exact texted rfl h; simp
  | boolean b => rw [storedValue, free] at h; exact texted rfl h; simp

end Entry

namespace Attributes

variable {attributes : Attributes} {kind : EntryClass} {name : String} {v : Note.Value}

def Brings (attributes : Attributes) (kind : EntryClass) (name : String) (v : Note.Value) : Prop :=
  ∃ a ∈ attributes, sameAscii a.1 name = true ∧
    ∃ value ∈ a.2, Entry.storedValue kind a.1 value = .ok v

theorem Brings.sublist {rest : Attributes} (h : rest.Brings kind name v)
    (hr : rest.Sublist attributes) : attributes.Brings kind name v := by
  obtain ⟨a, ha, found⟩ := h
  exact ⟨a, hr.subset ha, found⟩

theorem Brings.cons {a : String × List AttributeValue} (h : attributes.Brings kind name v) :
    Brings (a :: attributes) kind name v := h.sublist (List.sublist_cons_self a attributes)

theorem Brings.stored (h : attributes.Brings kind name v)
    (free : (Schema.find? kind name).bind (·.coercion) = none) :
    ∃ raw ∈ attributes.given name, ∃ text, v = .text text ∧
      (Entry.isNameBearing name = true → ∃ c, Name.canonicalize raw = .ok c ∧ text = c.text) ∧
        (Entry.isNameBearing name = false → text = raw) := by
  obtain ⟨a, ha, same, value, hvalue, stored⟩ := h
  rw [← Schema.find?_congr same] at free
  obtain ⟨raw, shown, text, found, rfl⟩ := Entry.storedValue_text free stored
  refine ⟨raw, ?_, text, rfl, ?_⟩
  · rw [given, List.mem_flatMap]
    exact ⟨a, List.mem_filter.mpr ⟨ha, same⟩, List.mem_filterMap.mpr ⟨value, hvalue, shown⟩⟩
  · rw [← Entry.isNameBearing_congr same]
    rw [Entry.storedTextOf, shown, Option.getD_some] at found
    split at found
    · next bearing =>
      obtain ⟨c, canonical, made⟩ := bind_eq_ok found
      cases made
      exact ⟨fun _ => ⟨c, canonical, rfl⟩, fun other => absurd (bearing.symm.trans other) (by simp)⟩
    · next plain =>
      cases found
      exact ⟨fun bearing => absurd bearing plain, fun _ => rfl⟩

theorem Brings.members (h : attributes.Brings kind "Members" v) :
    ∃ raw ∈ attributes.given "Members", ∃ c, Name.canonicalize raw = .ok c ∧ v = .text c.text := by
  obtain ⟨raw, hraw, text, rfl, bearing, -⟩ := h.stored (by cases kind <;> decide)
  obtain ⟨c, canonical, rfl⟩ := bearing (by decide)
  exact ⟨raw, hraw, c, canonical, rfl⟩

theorem Brings.listName (h : attributes.Brings .group "ListName" v) :
    ∃ raw ∈ attributes.given "ListName", v = .text raw := by
  obtain ⟨raw, hraw, text, rfl, -, plain⟩ := h.stored (by decide)
  rw [plain (by decide)]
  exact ⟨raw, hraw, rfl⟩

end Attributes

namespace Entry

variable {n n' : Note} {kind : EntryClass} {name : String} {values : List AttributeValue}
  {how : UpdateKind} {changed : Bool} {v : Note.Value}

theorem holds_of_update (h : update n kind name values how = .ok (changed, n')) {other : String}
    (hv : n'.Holds other v) :
    n.Holds other v ∨
      sameAscii name other = true ∧ ∃ value ∈ values, storedValue kind name value = .ok v := by
  obtain ⟨incoming, stored, ⟨-, rfl⟩ | ⟨-, -, rfl⟩⟩ := update_ok_cases h
  · exact Or.inl hv
  · rcases hv.of_withValues with old | ⟨key, new⟩
    · exact Or.inl old
    · have same : sameAscii name other = true := by
        rw [← sameAscii_congr (Schema.sameAscii_storedName kind name), key]
      rcases mem_combine new with old | new
      · exact Or.inl ((Note.holds_of_mem_item? old).congr same)
      · exact Or.inr ⟨same, (mem_of_mapM_ok (storedValues_of_accepted stored)).1 v new⟩

end Entry

namespace Provisioning

variable {n n' : Note} {kind : EntryClass} {attributes : Attributes} {other : String}
  {v : Note.Value}

theorem holds_of_updateAll {how : UpdateKind} {changed changed' : Bool}
    (h : updateAll kind how changed n attributes = .ok (changed', n')) (hv : n'.Holds other v) :
    n.Holds other v ∨ attributes.Brings kind other v := by
  induction attributes generalizing changed n with
  | nil =>
    cases h
    exact Or.inl hv
  | cons entry rest ih =>
    obtain ⟨-, _, _, one, h⟩ := updateAll_cons_ok h
    rcases ih h with old | brought
    · exact (Entry.holds_of_update one old).imp_right fun new => ⟨entry, List.mem_cons_self, new⟩
    · exact Or.inr brought.cons

theorem holds_of_fillNew (h : fillNew kind n attributes = .ok n') (hv : n'.Holds other v) :
    n.Holds other v ∨ attributes.Brings kind other v := by
  induction attributes generalizing n with
  | nil =>
    cases h
    exact Or.inl hv
  | cons entry rest ih =>
    obtain ⟨-, stored, found, h⟩ := fillNew_cons_ok h
    rcases ih h with old | brought
    · split at old
      · exact Or.inl old
      · refine old.of_setItem.imp_right fun given => ?_
        obtain ⟨same, new⟩ := given
        exact ⟨entry, List.mem_cons_self, same, (mem_of_mapM_ok found).1 v new⟩
    · exact Or.inr brought.cons

end Provisioning

end AddressBook

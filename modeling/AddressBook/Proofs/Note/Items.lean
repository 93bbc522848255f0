import AddressBook.Note.Basic
import AddressBook.Proofs.Keyed
import AddressBook.Proofs.Text.Same

/-! The items of a note after one of them was set or removed. -/

namespace AddressBook

open Text

namespace Keyed

variable {α : Type} {p : String → Bool} {key : String} {entries : Keyed α}

theorem find?_put_of_false (h : p key = false) (value : α) :
    (entries.put key value).find? (fun e => p e.1) = entries.find? fun e => p e.1 := by
  induction entries with
  | nil => simp [h]
  | cons entry rest ih =>
    obtain ⟨k, v⟩ := entry
    rw [put_cons]
    split
    · rw [List.find?_cons_of_neg (by simp [h])]
    · split
      · next equal =>
        subst equal
        rw [List.find?_cons_of_neg (by simp [h]), List.find?_cons_of_neg (by simp [h])]
      · rw [List.find?_cons, List.find?_cons, ih]

theorem find?_put_of_true (h : p key = true) (hk : ∀ k ∈ entries.keys.find? p, k = key)
    (value : α) : (entries.put key value).find? (fun e => p e.1) = some (key, value) := by
  induction entries with
  | nil => simp [h]
  | cons entry rest ih =>
    obtain ⟨k, v⟩ := entry
    rw [put_cons]
    split
    · rw [List.find?_cons_of_pos (by simpa using h)]
    · split
      · rw [List.find?_cons_of_pos (by simpa using h)]
      · next different =>
        have other : p k = false := by
          rw [Bool.eq_false_iff]
          intro hp
          have found : (keys ((k, v) :: rest)).find? p = some k := List.find?_cons_of_pos hp
          exact different (hk k found)
        have later : (keys ((k, v) :: rest)).find? p = (keys rest).find? p :=
          List.find?_cons_of_neg (by simp [other])
        rw [later] at hk
        rw [List.find?_cons_of_neg (by simp [other]), ih hk]

theorem find?_erase_of_false (h : p key = false) :
    (entries.erase key).find? (fun e => p e.1) = entries.find? fun e => p e.1 := by
  induction entries with
  | nil => rfl
  | cons entry rest ih =>
    obtain ⟨k, v⟩ := entry
    rw [erase_cons]
    split
    · next equal =>
      subst equal
      rw [List.find?_cons_of_neg (by simp [h])]
    · rw [List.find?_cons, List.find?_cons, ih]

end Keyed

namespace Note

theorem sameAscii_keyOf? {n : Note} {name key : String} (h : n.keyOf? name = some key) :
    sameAscii key name = true := by
  rw [keyOf?] at h
  have found := List.find?_some (p := fun k => sameAscii k name) h
  exact found

theorem sameAscii_getD_keyOf? (n : Note) (name : String) :
    sameAscii ((n.keyOf? name).getD name) name = true := by
  cases h : n.keyOf? name with
  | none => exact sameAscii_refl name
  | some key => exact sameAscii_keyOf? h

theorem item?_congr {name other : String} (h : sameAscii name other = true) (n : Note) :
    n.item? name = n.item? other := by
  rw [item?, item?]
  refine congrArg (Option.map _) (congrArg (List.find? · n.items) (funext fun entry => ?_))
  change sameAscii entry.1 name = sameAscii entry.1 other
  rw [sameAscii_comm, sameAscii_congr h, sameAscii_comm]

@[simp]
theorem item?_setItem_of_ne {name other : String} (h : sameAscii other name = false) (n : Note)
    (values : List Value) : (n.setItem name values).item? other = n.item? other := by
  have key : sameAscii ((n.keyOf? name).getD name) other = false := by
    rw [sameAscii_congr (sameAscii_getD_keyOf? n name), sameAscii_comm, h]
  rw [item?, item?, setItem]
  rw [Keyed.find?_put_of_false (p := fun k => sameAscii k other) key]

@[simp]
theorem item?_setItem_of_same {name other : String} (h : sameAscii other name = true) (n : Note)
    (values : List Value) : (n.setItem name values).item? other = some values := by
  have same : (fun k => sameAscii k other) = fun k => sameAscii k name := by
    funext k
    rw [sameAscii_comm, sameAscii_congr h, sameAscii_comm]
  have first : ∀ k ∈ n.items.keys.find? (fun k => sameAscii k other),
      k = (n.keyOf? name).getD name := by
    intro k hk
    rw [same] at hk
    rw [keyOf?, hk, Option.getD_some]
  have key : sameAscii ((n.keyOf? name).getD name) other = true := by
    rw [congrFun same ((n.keyOf? name).getD name)]
    exact sameAscii_getD_keyOf? n name
  rw [item?, setItem]
  rw [Keyed.find?_put_of_true (p := fun k => sameAscii k other) key first]
  rfl

@[simp]
theorem item?_removeItem_of_ne {name other : String} (h : sameAscii other name = false)
    (n : Note) : (n.removeItem name).item? other = n.item? other := by
  rw [removeItem]
  split
  · next key hk =>
    have different : sameAscii key other = false := by
      rw [sameAscii_congr (sameAscii_keyOf? hk), sameAscii_comm, h]
    rw [item?, item?]
    rw [Keyed.find?_erase_of_false (p := fun k => sameAscii k other) different]
  · rfl

@[simp]
theorem text?_text (t : String) : (Value.text t).text? = some t := rfl

@[simp]
theorem text?_comp_text : Value.text? ∘ Value.text = some := rfl

@[simp]
theorem item?_setTexts_of_ne {name other : String} (h : sameAscii other name = false) (n : Note)
    (ts : List String) : (n.setTexts name ts).item? other = n.item? other :=
  item?_setItem_of_ne h n _

@[simp]
theorem item?_setTexts_of_same {name other : String} (h : sameAscii other name = true) (n : Note)
    (ts : List String) : (n.setTexts name ts).item? other = some (ts.map .text) :=
  item?_setItem_of_same h n _

@[simp]
theorem item?_setText_of_ne {name other : String} (h : sameAscii other name = false) (n : Note)
    (text : String) : (n.setText name text).item? other = n.item? other :=
  item?_setTexts_of_ne h n _

@[simp]
theorem item?_setText_of_same {name other : String} (h : sameAscii other name = true) (n : Note)
    (text : String) : (n.setText name text).item? other = some [.text text] :=
  item?_setTexts_of_same h n [text]

@[simp]
theorem text?_setText (n : Note) (name text : String) :
    (n.setText name text).text? name = some text := by
  simp [text?, Value.text?]

@[simp]
theorem texts_setTexts (n : Note) (name : String) (ts : List String) :
    (n.setTexts name ts).texts name = ts := by
  simp [texts]

theorem texts_congr {n m : Note} {name : String} (h : n.item? name = m.item? name) :
    n.texts name = m.texts name := by
  rw [texts, texts, h]

theorem text?_congr {n m : Note} {name : String} (h : n.item? name = m.item? name) :
    n.text? name = m.text? name := by
  rw [text?, text?, h]

theorem isClass_of_item? {n m : Note} (h : n.item? "Form" = m.item? "Form") (kind : EntryClass) :
    n.isClass kind = m.isClass kind := by
  rw [isClass, isClass, form?, form?, text?_congr h]

@[simp]
theorem form_ofClass (kind : EntryClass) :
    (ofClass kind).item? "Form" = some [.text kind.form] := by
  simp (disch := decide) only [ofClass, item?_setText_of_ne, item?_setText_of_same]

theorem isClass_of_form {n : Note} {kind : EntryClass}
    (h : n.item? "Form" = some [.text kind.form]) : n.isClass kind = true := by
  rw [isClass, form?, text?, h]
  exact sameAscii_refl kind.form

theorem not_isClass_of_isClass {n : Note} (h : n.isClass .account = true) :
    n.isClass .group = false := by
  rw [isClass] at h ⊢
  cases form : n.form? with
  | none => rfl
  | some form =>
    simp only [form] at h ⊢
    rw [sameAscii_congr h]
    decide

@[simp]
theorem hasItem_eq (n : Note) (name : String) : n.hasItem name = (n.item? name).isSome := by
  rw [hasItem, keyOf?, item?, Keyed.keys, List.find?_map, Option.isSome_map, Option.isSome_map]
  rfl

@[simp]
theorem id_setItem (n : Note) (name : String) (values : List Value) :
    (n.setItem name values).id = n.id := rfl

@[simp]
theorem id_removeItem (n : Note) (name : String) : (n.removeItem name).id = n.id := by
  rw [removeItem]
  split <;> rfl

end Note

end AddressBook

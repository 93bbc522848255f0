import AddressBook.Proofs.Note.Spelling
import Mathlib.Logic.Function.Basic

/-! Notes as maps. An item may be set, read and removed under any spelling of its name. Whatever is
done to a new note, it reads under every name as a map does that takes the same writes under the
lowered names, and no name has two items. -/

namespace AddressBook.Note

open Text

/-- A write to the items of a note. -/
inductive Edit where
  | setItem (name : String) (values : List Value)
  | setTexts (name : String) (texts : List String)
  | setText (name text : String)
  | removeItem (name : String)

def edited (n : Note) : Edit → Note
  | .setItem name values => n.setItem name values
  | .setTexts name texts => n.setTexts name texts
  | .setText name text => n.setText name text
  | .removeItem name => n.removeItem name

/-- The values that stand under each lowered name. -/
abbrev Contents := String → Option (List Value)

namespace Contents

def ofClass (kind : EntryClass) : Contents := fun key =>
  if key = "form" ∨ key = "type" then some [.text kind.form] else none

def edited (c : Contents) : Edit → Contents
  | .setItem name values => Function.update c (asciiLower name) (some values)
  | .setTexts name texts => Function.update c (asciiLower name) (some (texts.map .text))
  | .setText name text => Function.update c (asciiLower name) (some [.text text])
  | .removeItem name => Function.update c (asciiLower name) none

def texts (c : Contents) (name : String) : List String :=
  ((c (asciiLower name)).getD []).filterMap Value.text?

end Contents

/-- No name has two items, and under every spelling of a name the note reads as the map does. -/
structure Shows (n : Note) (c : Contents) : Prop where
  apart : n.items.keys.Pairwise fun a b => sameAscii a b = false
  item? : ∀ name, n.item? name = c (asciiLower name)
  hasItem : ∀ name, n.hasItem name = (c (asciiLower name)).isSome
  text? : ∀ name, n.text? name = (c.texts name).head?
  texts : ∀ name, n.texts name = c.texts name

/-- What the writes keep: the readings all come down to that of an item. -/
structure Tracks (n : Note) (c : Contents) : Prop where
  once : n.SpelledOnce
  item? : ∀ name, n.item? name = c (asciiLower name)

variable {n : Note} {c : Contents}

theorem Tracks.shows (h : n.Tracks c) : n.Shows c where
  apart := h.once.apart
  item? := h.item?
  hasItem name := by rw [hasItem_eq, h.item?]
  texts name := by rw [texts, h.item?, Contents.texts]
  text? name := by
    rw [text?, h.item?, Contents.texts, List.head?_filterMap]
    cases c (asciiLower name) <;> rfl

theorem eq_update_lowered {name other : String} {held values : Option (List Value)}
    (same : sameAscii other name = true → held = values)
    (different : sameAscii other name = false → held = c (asciiLower other)) :
    held = Function.update c (asciiLower name) values (asciiLower other) := by
  rw [Function.update_apply]
  split
  · next lowered => exact same (sameAscii_iff.mpr lowered)
  · next lowered =>
    refine different ?_
    rw [Bool.eq_false_iff, Ne, sameAscii_iff]
    exact lowered

theorem Tracks.setItem (h : n.Tracks c) (name : String) (values : List Value) :
    (n.setItem name values).Tracks (Function.update c (asciiLower name) (some values)) := by
  refine ⟨h.once.setItem name values, fun other => eq_update_lowered ?_ ?_⟩
  · intro same
    exact item?_setItem_of_same same n values
  · intro different
    rw [item?_setItem_of_ne different, h.item?]

theorem Tracks.removeItem (h : n.Tracks c) (name : String) :
    (n.removeItem name).Tracks (Function.update c (asciiLower name) none) := by
  refine ⟨h.once.removeItem name, fun other => eq_update_lowered ?_ ?_⟩
  · intro same
    rw [item?_congr same, h.once.item?_removeItem]
  · intro different
    rw [item?_removeItem_of_ne different, h.item?]

theorem Tracks.edited (h : n.Tracks c) (edit : Edit) :
    (n.edited edit).Tracks (c.edited edit) := by
  cases edit with
  | setItem name values => exact h.setItem name values
  | setTexts name texts => exact h.setItem name _
  | setText name text => exact h.setItem name _
  | removeItem name => exact h.removeItem name

theorem tracks_ofClass (kind : EntryClass) : (ofClass kind).Tracks (.ofClass kind) := by
  have empty : Tracks {} fun _ => none :=
    ⟨⟨List.Pairwise.nil, fun _ h => absurd h List.not_mem_nil⟩, fun _ => rfl⟩
  have made := (empty.edited (.setText "Form" kind.form)).edited (.setText "Type" kind.form)
  have lowered : asciiLower "Form" = "form" ∧ asciiLower "Type" = "type" := by decide
  have same : Contents.ofClass kind = (Contents.edited (fun _ => none)
      (.setText "Form" kind.form)).edited (.setText "Type" kind.form) := by
    funext key
    rw [Contents.ofClass, Contents.edited, Contents.edited, lowered.1, lowered.2,
      Function.update_apply, Function.update_apply]
    by_cases form : key = "form" <;> by_cases type : key = "type" <;> simp [form, type]
  rw [same]
  exact made

theorem tracks_edits (h : n.Tracks c) (edits : List Edit) :
    (edits.foldl Note.edited n).Tracks (edits.foldl Contents.edited c) := by
  induction edits generalizing n c with
  | nil => exact h
  | cons edit edits ih => exact ih (h.edited edit)

/-- Whatever is written to a new note, under whatever spellings, it reads as a map from lowered
names. -/
theorem shows_edits (kind : EntryClass) (edits : List Edit) :
    (edits.foldl Note.edited (ofClass kind)).Shows
      (edits.foldl Contents.edited (.ofClass kind)) :=
  (tracks_edits (tracks_ofClass kind) edits).shows

/-- The later spelling of a name writes to the item of the first. -/
example :
    let n := ((ofClass .group).setTexts "Members" ["Ann", "Bob"]).setText "members" "Eve"
    n.texts "MEMBERS" = ["Eve"] ∧ n.items.keys = ["Form", "Members", "Type"] := by
  decide

end AddressBook.Note

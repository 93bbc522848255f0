import AddressBook.Proofs.Membership.Frame

/-! Tables of what the notes of a store tell, by the ids of the notes. Members come and go, and accounts
are marked, while everything else that notes tell stays. -/

namespace AddressBook

open AddressBook.Action Text

abbrev Table (α : Type) := String → Option α

variable {α : Type} {f : Note → Option α} {t : Table α}

def Table.set (t : Table α) (id : String) (told : Option α) : Table α :=
  fun other => if other = id then told else t other

theorem Table.set_eq_self {id : String} {told : Option α} (h : t id = told) : t.set id told = t := by
  funext other
  grind [set]

@[simp]
theorem Table.set_set (t : Table α) (id : String) (told later : Option α) :
    (t.set id told).set id later = t.set id later := by
  funext other
  grind [set]

namespace Store

def table (f : Note → Option α) (s : Store) : Table α := fun id => (s.notes.get? id).bind f

@[simp]
theorem table_put (s : Store) (id : String) (n : Note) :
    (s.put id n).table f = (s.table f).set id (f n) := by
  funext other
  grind [table, Table.set, Store.put]

theorem table_erase {s : Store} (hs : s.Sound) (id : String) :
    (s.erase id).table f = (s.table f).set id none := by
  funext other
  grind [table, Table.set, Store.erase, hs.sorted]

theorem mem_keys_iff {s : Store} {key : String} :
    key ∈ s.notes.keys ↔ s.table (fun _ => some ()) key = some () := by
  rw [table]
  cases found : s.notes.get? key with
  | none => simpa using Keyed.get?_eq_none_iff.mp found
  | some n =>
    have held : key ∈ s.notes.keys := List.mem_map.mpr ⟨(key, n), Keyed.mem_of_get? found, rfl⟩
    simpa using held

theorem table_congr {s s' : Store} (h : s.notes = s'.notes) : s.table f = s'.table f := by
  funext other
  rw [table, table, h]

end Store

/-- What a note tells lies in its items, and neither in members nor in the mark of an account. -/
def Steady (f : Note → Option α) : Prop :=
  ∀ n m : Note, (∀ name, sameAscii name "Members" = false → sameAscii name "CheckPassword" = false →
    n.item? name = m.item? name) → f n = f m

theorem Steady.of_items (hf : Steady f) {n m : Note} (h : n.items = m.items) : f n = f m :=
  hf n m fun name _ _ => by rw [Note.item?, Note.item?, h]

namespace Directory

/-- The notes tell what stands in the table. -/
structure Tells (f : Note → Option α) (t : Table α) (d : Directory) : Prop extends d.InMemory where
  table : d.store.table f = t

variable {d d' : Directory}

theorem Tells.alike (h : d.Tells f t) (same : Alike d d') : d'.Tells f t :=
  ⟨h.toInMemory.alike same, (Store.table_congr same.notes).trans h.table⟩

theorem Tells.afterRefusal (h : d.Tells f t) (n : Note) : (d.afterRefusal n).Tells f t :=
  ⟨h.toInMemory.afterRefusal n, h.table⟩

theorem Tells.afterSave (h : d.Tells f t) (hf : Steady f) (n : Note) :
    (d.afterSave n).Tells f (t.set (d.idFor n).1 (f n)) := by
  refine ⟨h.toInMemory.afterSave n, ?_⟩
  have stamped : f (d.stamped n) = f n := hf.of_items rfl
  have spent : (d.afterSave n).store.table f = (d.store.put (d.idFor n).1 (d.stamped n)).table f :=
    Store.table_congr (Store.notes_spend _)
  rw [spent, Store.table_put, stamped, h.table]

theorem Tells.afterDelete (h : d.Tells f t) (id : String) (journal : List Write) :
    Tells f (t.set id none) { d with store := d.store.erase id, journal } := by
  refine ⟨h.toInMemory.afterDelete id journal, ?_⟩
  rw [← h.table]
  exact Store.table_erase h.sound id

end Directory

def Note.Told (f : Note → Option α) (t : Table α) (n : Note) : Prop :=
  ∃ id, n.id = some id ∧ t id = f n

theorem Note.Told.congr {n m : Note} (h : n.Told f t) (id : m.id = n.id) (same : f m = f n) :
    m.Told f t := by
  obtain ⟨key, hid, stands⟩ := h
  exact ⟨key, id.trans hid, by rw [stands, same]⟩

namespace Steady

open Directory

variable (hf : Steady f) (t)

include hf

theorem keeps_save {n : Note} (h : n.Told f t) :
    Keeps (Tells f t) (Directory.save n) fun n' => n'.Told f t ∧ n'.items = n.items := by
  obtain ⟨id, hid, stands⟩ := h
  refine leads_save (fun d hd => ⟨?_, ?_, rfl⟩) fun d hd => hd.afterRefusal n
  · have saved := hd.afterSave hf n
    rwa [idFor_of_id hid, Table.set_eq_self stands] at saved
  · refine Note.Told.congr ⟨id, hid, stands⟩ ?_ (hf.of_items rfl)
    rw [stamped, idFor_of_id hid, hid]

theorem frame : Membership.Frame (Tells f t) (Note.Told f t) fun _ => True where
  memory _ hd := hd.memory
  lasting _ hd := hd.lasting
  alike _ _ same hd := hd.alike same
  returned := by
    intro d hd n hn
    obtain ⟨id, hm⟩ := Store.mem_of_returns hd.memory hn
    refine ⟨id, hd.sound.ids _ hm, ?_⟩
    rw [← hd.table, Store.table, hd.sound.get?_of_mem hm]
    rfl
  saved _ hn := hf.keeps_save t hn
  members := by
    intro g members hg _ _
    exact hg.congr rfl (hf _ _ fun name hm _ => Note.item?_setItem_of_ne hm g _)
  marked := by
    intro n mark hn _
    exact hn.congr rfl (hf _ _ fun name _ hc => Note.item?_setItem_of_ne hc n _)

end Steady

end AddressBook

import AddressBook.Proofs.Membership.Faults
import AddressBook.Proofs.Membership.Frame

/-! Changes of memberships leave the texts of notes, other than members and marks, whatever the store.
So a group keeps its aliases and can be joined later if it could be before. -/

namespace AddressBook

open AddressBook.Action Text

namespace Note

/-- All texts are the same but those that changes of memberships write. -/
def Resembles (n m : Note) : Prop :=
  ∀ item, sameAscii item "Members" = false → sameAscii item "CheckPassword" = false →
    n.texts item = m.texts item

variable {n m : Note}

theorem Resembles.refl (n : Note) : n.Resembles n := fun _ _ _ => rfl

theorem Resembles.trans {l : Note} (h : n.Resembles m) (h' : m.Resembles l) : n.Resembles l :=
  fun item hm hc => (h item hm hc).trans (h' item hm hc)

theorem Resembles.text? (h : n.Resembles m) {item : String} (hm : sameAscii item "Members" = false)
    (hc : sameAscii item "CheckPassword" = false) : n.text? item = m.text? item := by
  rw [text?_eq_head?, text?_eq_head?, h item hm hc]

theorem Resembles.isClass (h : n.Resembles m) (kind : EntryClass) :
    n.isClass kind = m.isClass kind := by
  rw [Note.isClass, Note.isClass, form?, form?, h.text? (by decide) (by decide)]

theorem Resembles.hasAlias (h : n.Resembles m) (name : String) :
    n.hasAlias name = m.hasAlias name := by
  rw [Note.hasAlias, Note.hasAlias, h.isClass, aliases, aliases, h "ListName" (by decide) (by decide)]

theorem Resembles.isNamed (h : n.Resembles m) (name : CanonicalName) :
    n.isNamed name = m.isNamed name := by
  rw [Note.isNamed, Note.isNamed, h.isClass, h.text? (by decide) (by decide)]

theorem resembles_readBack {s : Store} (h : s.readBack n = .ok m) : m.Resembles n :=
  fun item _ _ => Store.texts_readBack h item

theorem resembles_setMembers (n : Note) (members : List String) :
    (n.setMembers members).Resembles n := fun _ hm _ => texts_congr (item?_setItem_of_ne hm n _)

theorem resembles_mark (n : Note) (mark : String) :
    (n.setText "CheckPassword" mark).Resembles n :=
  fun _ _ hc => texts_congr (item?_setItem_of_ne hc n _)

def KeepsTexts (s : Store) (n : Note) : Prop :=
  ∃ id, n.id = some id ∧ ∀ m, s.notes.get? id = some m → n.Resembles m

theorem KeepsTexts.congr {s : Store} (h : n.KeepsTexts s) (id : m.id = n.id)
    (same : m.Resembles n) : m.KeepsTexts s := by
  obtain ⟨key, hid, kept⟩ := h
  exact ⟨key, id.trans hid, fun old stands => same.trans (kept old stands)⟩

end Note

def Store.Knows (s : Store) (name : String) : Prop :=
  ∃ entry ∈ s.notes, entry.2.hasAlias name = true

namespace Directory

/-- Under every id that was there a note stands that resembles the one from before. -/
structure KeepsTexts (s : Store) (d : Directory) : Prop where
  backing : d.store.backing = s.backing
  sound : d.store.Sound
  kept : ∀ id n, s.notes.get? id = some n → ∃ m, d.store.notes.get? id = some m ∧ m.Resembles n

variable {s : Store} {d : Directory}

theorem KeepsTexts.refl (h : d.store.Sound) : d.KeepsTexts d.store :=
  ⟨rfl, h, fun _ n stands => ⟨n, stands, .refl n⟩⟩

theorem KeepsTexts.afterSave (h : d.KeepsTexts s) {n : Note}
    (hn : ∀ m, s.notes.get? (d.idFor n).1 = some m → n.Resembles m) :
    (d.afterSave n).KeepsTexts s := by
  refine ⟨(backing_afterSave n).trans h.backing, (h.sound.put rfl).spend, fun id m stands => ?_⟩
  by_cases same : id = (d.idFor n).1
  · subst same
    exact ⟨d.stamped n, by simp, hn m stands⟩
  · simpa [same] using h.kept id m stands

theorem KeepsTexts.afterRefusal (h : d.KeepsTexts s) (n : Note) :
    (d.afterRefusal n).KeepsTexts s := ⟨h.backing, h.sound, h.kept⟩

theorem KeepsTexts.exists_resembling (h : d.KeepsTexts s) (hs : s.Sound) {entry : String × Note}
    (he : entry ∈ s.notes) : ∃ kept ∈ d.store.notes, kept.2.Resembles entry.2 := by
  obtain ⟨m, stands, same⟩ := h.kept entry.1 entry.2 (hs.get?_of_mem he)
  exact ⟨(entry.1, m), Keyed.mem_of_get? stands, same⟩

theorem KeepsTexts.knows (h : d.KeepsTexts s) (hs : s.Sound) {name : String} (known : s.Knows name) :
    d.store.Knows name := by
  obtain ⟨entry, he, has⟩ := known
  obtain ⟨kept, hk, same⟩ := h.exists_resembling hs he
  exact ⟨kept, hk, by rwa [same.hasAlias]⟩

end Directory

namespace Membership

variable {s : Store} {d d' : Directory} {fault : Fault}

theorem keeps_save_texts {n : Note} (h : n.KeepsTexts s) :
    Keeps (Directory.KeepsTexts s) (Directory.save n) fun n' =>
      n'.KeepsTexts s ∧ n'.items = n.items := by
  obtain ⟨id, hid, kept⟩ := h
  refine leads_save (fun d hd => ?_) fun d hd => hd.afterRefusal n
  have key : (d.idFor n).1 = id := by rw [Directory.idFor_of_id hid]
  refine ⟨hd.afterSave (by rwa [key]), ⟨id, ?_, kept⟩, rfl⟩
  rw [Directory.stamped, key]

theorem upkeep_texts (s : Store) :
    Upkeep (Directory.KeepsTexts s) (Note.KeepsTexts s) fun _ => True where
  returned := by
    rintro d hd n ⟨⟨id, m⟩, he, read⟩
    refine ⟨id, (Store.id_readBack read).trans (hd.sound.ids _ he), fun old stands => ?_⟩
    obtain ⟨m', held, same⟩ := hd.kept id old stands
    rw [hd.sound.get?_of_mem he, Option.some.injEq] at held
    subst held
    exact (Note.resembles_readBack read).trans same
  saved _ hn := keeps_save_texts hn
  members g members hg _ _ := hg.congr rfl (Note.resembles_setMembers g members)
  marked n mark hn _ := hn.congr rfl (Note.resembles_mark n mark)

theorem ofStore_of_join (hd : d.KeepsTexts s) (hs : s.Sound) {member : CanonicalName}
    {name : String} (known : s.Knows name) (h : join member name d = .error fault d') :
    fault.ofStore s.backing = true := by
  rw [← hd.backing]
  rcases bind_error_iff.mp h with failed | ⟨found, d₁, looked, failed⟩
  · exact (fails_groupByAlias name).error failed
  · obtain ⟨read, rfl⟩ := read_ok_iff.mp looked
    have there := (Store.isSome_groupByAlias read).mpr (hd.knows hs known)
    cases found with
    | none => cases there
    | some g => exact (fails_addMember g member).error failed

theorem ofStore_of_joins (hd : d.KeepsTexts s) (hs : s.Sound) {member : CanonicalName}
    {names : List String}
    (h : (names.forM fun name => discard (join member name)) d = .error fault d') :
    fault.ofStore s.backing = true ∨ ∃ name ∈ names, ¬ s.Knows name := by
  obtain ⟨before, name, behind, d₁, rfl, joined, failed⟩ := forM_error h
  have kept := ((upkeep_texts s).keeps_joins trivial before).ok hd joined
  by_cases known : s.Knows name
  · exact Or.inl (ofStore_of_join kept.1 hs known (discard_error_iff.mp failed))
  · exact Or.inr ⟨name, by simp, known⟩

theorem mem_of_mem_toJoin {kind : UpdateKind} {held : List Note} {desired : List String}
    {name : String} (h : name ∈ toJoin kind held desired) : name ∈ desired := by
  cases kind with
  | add => exact (List.mem_filter.mp h).1
  | remove => exact absurd h List.not_mem_nil
  | replace => exact (List.mem_filter.mp h).1

theorem ofStore_of_updateGroups (hd : d.KeepsTexts s) (hs : s.Sound) {policy : ReplacePolicy}
    {account : CanonicalName} {groups : List String} {kind : UpdateKind}
    (h : updateGroups policy account groups kind d = .error fault d') :
    fault.ofStore s.backing = true ∨ ∃ name ∈ displayNames groups, ¬ s.Knows name := by
  rcases bind_error_iff.mp h with failed | ⟨held, d₁, read, failed⟩
  · rw [← hd.backing]
    exact Or.inl ((fails_groupsOf account).error failed)
  obtain ⟨-, rfl⟩ := read_ok_iff.mp read
  rcases bind_error_iff.mp failed with failed | ⟨⟨⟩, d₂, joined, failed⟩
  · refine (ofStore_of_joins hd hs failed).imp_right ?_
    rintro ⟨name, listed, unknown⟩
    exact ⟨name, mem_of_mem_toJoin listed, unknown⟩
  · have kept := ((upkeep_texts s).keeps_joins trivial _).ok hd joined
    rw [← kept.1.backing]
    exact Or.inl ((fails_forM fun g => fails_discard (fails_removeMember g account)).error failed)

theorem ofStore_of_disable (hd : d.KeepsTexts s) (hs : s.Sound) {settings : DirectorySettings}
    {n : Note} {name : CanonicalName} {given : Option (List String)}
    (h : Account.setEnabled settings n name false given d = .error fault d') :
    fault.ofStore s.backing = true ∨
      ∃ group ∈ (Account.denyGroups settings given).getD [], ¬ s.Knows group := by
  rw [Account.setEnabled] at h
  cases lists : Account.denyGroups settings given with
  | some groups =>
    rw [lists] at h
    exact ofStore_of_joins hd hs h
  | none =>
    rw [lists] at h
    dsimp only at h
    split at h
    · rw [← hd.backing]
      exact Or.inl ((fails_save _).error (discard_error_iff.mp h))
    · cases h

end Membership

end AddressBook

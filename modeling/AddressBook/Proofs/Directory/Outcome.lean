import AddressBook.Proofs.Directory.Triple

/-! How operations end with a fault. Some operations only read. Others end with faults of the store
alone. An operation that reads first and then ends with such faults only has written nothing when it
ends with another fault. -/

namespace AddressBook

namespace Fault

def ofStore (backing : Backing) : Fault → Bool
  | .noteSave _ _ => true
  | .unavailable _ => backing == .sqlite
  | .database _ => backing == .sqlite
  | .serialization => backing == .sqlite
  | _ => false

/-- The fault may come up after something was written: it is one of the store, or a group is not
there. -/
def IsLate (backing : Backing) (fault : Fault) : Prop :=
  fault.ofStore backing = true ∨ ∃ name, fault = .unknownGroup name

theorem ofStore_sqlite {backing : Backing} {fault : Fault} (h : fault.ofStore backing = true) :
    fault.ofStore .sqlite = true := by
  cases backing with
  | sqlite => exact h
  | memory => cases fault <;> first | rfl | cases h

theorem IsLate.sqlite {backing : Backing} {fault : Fault} (h : fault.IsLate backing) :
    fault.IsLate .sqlite := h.imp_left ofStore_sqlite

end Fault

namespace Store

variable {s : Store} {kind : EntryClass} {fault : Fault}

theorem ofStore_of_checkReadable (h : s.checkReadable = .error fault) :
    fault.ofStore s.backing = true := by
  rw [checkReadable] at h
  split at h
  · cases h
  · next table =>
    split at h <;> cases h
    rw [table]
    rfl

theorem ofStore_of_checkWritable (h : s.checkWritable = .error fault) :
    fault.ofStore .sqlite = true := by
  rcases bind_eq_error h with unreadable | ⟨_, _, h⟩
  · exact Fault.ofStore_sqlite (ofStore_of_checkReadable unreadable)
  · split at h <;> cases h
    rfl

theorem ofStore_of_readBack {n : Note} (h : s.readBack n = .error fault) :
    fault.ofStore s.backing = true := by
  rw [readBack] at h
  split at h
  · cases h
  · next table =>
    split at h <;> cases h
    rw [table]
    rfl

theorem ofStore_of_mapM_readBack {ns : List Note} (h : ns.mapM s.readBack = .error fault) :
    fault.ofStore s.backing = true := by
  induction ns with
  | nil => cases h
  | cons n ns ih =>
    rw [List.mapM_cons] at h
    rcases bind_eq_error h with first | ⟨_, _, h⟩
    · exact ofStore_of_readBack first
    · rcases bind_eq_error h with rest | ⟨_, _, made⟩
      · exact ih rest
      · cases made

theorem ofStore_of_ofClass (h : s.ofClass kind = .error fault) :
    fault.ofStore s.backing = true := by
  rcases bind_eq_error h with unreadable | ⟨_, _, h⟩
  · exact ofStore_of_checkReadable unreadable
  · exact ofStore_of_mapM_readBack h

theorem ofStore_of_accountByName {name : CanonicalName} (h : s.accountByName name = .error fault) :
    fault.ofStore s.backing = true := by
  rcases bind_eq_error h with accounts | ⟨_, _, made⟩
  · exact ofStore_of_ofClass accounts
  · cases made

theorem ofStore_of_groupByAlias {name : String} (h : s.groupByAlias name = .error fault) :
    fault.ofStore s.backing = true := by
  rcases bind_eq_error h with groups | ⟨_, _, made⟩
  · exact ofStore_of_ofClass groups
  · cases made

end Store

namespace Action

variable {α β : Type} {backing : Backing} {F G : Fault → Prop} {d d' : Directory}

def Reads (x : Action α) : Prop := ∀ d, ended x d = d

theorem Reads.ok {x : Action α} (h : Reads x) {a : α} (run : x d = .ok a d') : d' = d := by
  have same := h d
  rwa [ended, run] at same

theorem Reads.error {x : Action α} (h : Reads x) {fault : Fault} (run : x d = .error fault d') :
    d' = d := by
  have same := h d
  rwa [ended, run] at same

theorem reads_pure (a : α) : Reads (pure a : Action α) := fun _ => rfl

theorem reads_throw (fault : Fault) : Reads (throw fault : Action α) := fun _ => rfl

theorem reads_read (reading : Store → Except Fault α) : Reads (Directory.read reading) := by
  intro d
  rw [ended, read_apply]
  cases reading d.store <;> rfl

theorem reads_lift (x : Except Fault α) : Reads (liftM x : Action α) := by
  intro d
  cases x <;> rfl

theorem Reads.bind {x : Action α} {f : α → Action β} (hx : Reads x) (hf : ∀ a, Reads (f a)) :
    Reads (x >>= f) := by
  intro d
  rw [ended, bind_apply]
  cases run : x d with
  | ok a d' =>
    rw [hx.ok run]
    exact hf a d
  | error fault d' => exact hx.error run

theorem reads_ite {c : Prop} [Decidable c] {x y : Action α} (hx : Reads x) (hy : Reads y) :
    Reads (if c then x else y) := by
  split
  · exact hx
  · exact hy

theorem reads_forM {as : List α} {f : α → Action Unit} (h : ∀ a, Reads (f a)) :
    Reads (as.forM f) := by
  induction as with
  | nil => exact reads_pure ()
  | cons a as ih => exact (h a).bind fun _ => ih

def Fails (backing : Backing) (F : Fault → Prop) (x : Action α) : Prop :=
  ∀ d, d.store.backing = backing →
    match x d with
    | .ok _ d' => d'.store.backing = backing
    | .error fault _ => F fault

theorem Fails.error {x : Action α} (h : Fails d.store.backing F x) {fault : Fault}
    (run : x d = .error fault d') : F fault := by
  have ends := h d rfl
  rwa [run] at ends

theorem Fails.mono {x : Action α} (h : Fails backing F x) (hF : ∀ fault, F fault → G fault) :
    Fails backing G x := by
  intro d hd
  have ends := h d hd
  cases run : x d with
  | ok a d' =>
    rw [run] at ends
    exact ends
  | error fault d' =>
    rw [run] at ends
    exact hF fault ends

theorem fails_pure (a : α) : Fails backing F (pure a : Action α) := fun _ hd => hd

theorem fails_throw {fault : Fault} (h : F fault) : Fails backing F (throw fault : Action α) :=
  fun _ _ => h

theorem fails_read {reading : Store → Except Fault α}
    (h : ∀ s fault, reading s = .error fault → s.backing = backing → F fault) :
    Fails backing F (Directory.read reading) := by
  intro d hd
  rw [read_apply]
  cases read : reading d.store with
  | ok a => exact hd
  | error fault => exact h d.store fault read hd

theorem Fails.bind {x : Action α} {f : α → Action β} (hx : Fails backing F x)
    (hf : ∀ a, Fails backing F (f a)) : Fails backing F (x >>= f) := by
  intro d hd
  have first := hx d hd
  rw [bind_apply]
  cases run : x d with
  | ok a d' =>
    rw [run] at first
    exact hf a d' first
  | error fault d' =>
    rw [run] at first
    exact first

theorem fails_ite {c : Prop} [Decidable c] {x y : Action α} (hx : Fails backing F x)
    (hy : Fails backing F y) : Fails backing F (if c then x else y) := by
  split
  · exact hx
  · exact hy

theorem fails_discard {x : Action α} (h : Fails backing F x) :
    Fails backing F (discard x : Action Unit) := by
  intro d hd
  have ends := h d hd
  have mapped : (discard x : Action Unit) d = EStateM.map (fun _ => ()) x d := rfl
  rw [mapped, EStateM.map]
  cases run : x d with
  | ok a d' =>
    rw [run] at ends
    exact ends
  | error fault d' =>
    rw [run] at ends
    exact ends

theorem fails_forM {as : List α} {f : α → Action Unit} (h : ∀ a, Fails backing F (f a)) :
    Fails backing F (as.forM f) := by
  induction as with
  | nil => exact fails_pure ()
  | cons a as ih => exact (h a).bind fun _ => ih

theorem fails_mapM {as : List α} {f : α → Action β} (h : ∀ a, Fails backing F (f a)) :
    Fails backing F (as.mapM f) := by
  induction as with
  | nil => exact fails_pure []
  | cons a as ih =>
    rw [List.mapM_cons]
    exact (h a).bind fun _ => ih.bind fun _ => fails_pure _

theorem fails_save (n : Note) : Fails backing (·.ofStore backing) (Directory.save n) := by
  intro d hd
  rw [Directory.save_apply]
  split
  · next refused =>
    split at refused <;> cases refused
    exact (Directory.backing_afterSave n).trans hd
  · next refused =>
    split at refused <;> cases refused
    rfl

theorem fails_delete (id : String) : Fails backing (·.ofStore .sqlite) (Directory.delete id) :=
  (fails_read fun _ _ failed _ => Store.ofStore_of_checkWritable failed).bind fun _ _ hd => hd

/-- Nothing was written, and nothing deleted; a session may have been looked for. -/
structure Unwritten (d d' : Directory) : Prop where
  journal : d'.journal = d.journal
  same : d' = d ∨ d' = acquired d

@[simp]
theorem journal_acquired (d : Directory) : (acquired d).journal = d.journal := by
  rw [acquired]
  split <;> rfl

theorem Unwritten.refl (d : Directory) : Unwritten d d := ⟨rfl, Or.inl rfl⟩

theorem unwritten_acquired (d : Directory) : Unwritten d (acquired d) :=
  ⟨journal_acquired d, Or.inr rfl⟩

theorem store_acquired (d : Directory) :
    (acquired d).store.backing = d.store.backing ∧
      ((acquired d).store.notes = d.store.notes ∨ (acquired d).store.notes = []) := by
  have closed : ∀ s : Store, s.close.backing = s.backing ∧ s.close.notes = s.notes := by
    intro s
    rw [Store.close]
    split <;> exact ⟨rfl, rfl⟩
  have dropped : d.dropSession.store.backing = d.store.backing ∧
      d.dropSession.store.notes = d.store.notes := by
    rw [Directory.dropSession]
    split
    · exact closed d.store
    · exact ⟨rfl, rfl⟩
  have reopened : d.dropSession.store.reopened.backing = d.store.backing ∧
      (d.dropSession.store.reopened.notes = d.store.notes ∨
        d.dropSession.store.reopened.notes = []) := by
    rw [Store.reopened]
    split
    · exact ⟨dropped.1, Or.inl dropped.2⟩
    · exact ⟨dropped.1, Or.inr rfl⟩
  rw [acquired]
  split
  · dsimp only
    rw [Directory.openStore]
    split
    · exact reopened
    · exact reopened
    · exact dropped.imp_right Or.inl
  · exact ⟨rfl, Or.inl rfl⟩

theorem sound_acquired (h : d.store.Sound) : (acquired d).store.Sound := by
  rcases (store_acquired d).2 with same | none
  · exact h.congr same
  · exact Store.sound_of_notes_nil none

theorem faithful_acquired (h : d.store.Faithful) : (acquired d).store.Faithful := by
  intro entry he
  rcases (store_acquired d).2 with same | none
  · rw [same] at he
    have back := h entry he
    rw [Store.readBack] at back ⊢
    rwa [(store_acquired d).1]
  · rw [none] at he
    exact absurd he List.not_mem_nil

theorem Unwritten.alike (h : Unwritten d d') (lasting : d.store.lasting = true) : Alike d d' := by
  rcases h.same with rfl | rfl
  · exact ⟨rfl, rfl, rfl, rfl, rfl, rfl⟩
  · exact alike_acquired lasting

/-- A fault of the operation that is not in `F` has written nothing. -/
def Cautious (F : Fault → Prop) (x : Action α) (d : Directory) : Prop :=
  ∀ fault d', x d = .error fault d' → F fault ∨ Unwritten d d'

theorem Fails.cautious {x : Action α} (h : Fails d.store.backing F x) : Cautious F x d :=
  fun _ _ run => Or.inl (h.error run)

theorem Reads.cautious {x : Action α} (h : Reads x) (d : Directory) : Cautious F x d := by
  intro fault d' run
  rw [h.error run]
  exact Or.inr (.refl d)

theorem Reads.bind_cautious {x : Action α} {f : α → Action β} (hx : Reads x)
    (hf : ∀ a, x d = .ok a d → Cautious F (f a) d) : Cautious F (x >>= f) d := by
  intro fault d' run
  rcases bind_error_iff.mp run with failed | ⟨a, d₁, first, failed⟩
  · exact hx.cautious d fault d' failed
  · obtain rfl := hx.ok first
    exact hf a first fault d' failed

/-- A session that was found is found again, so looking for it once is all that may have happened. -/
theorem cautious_acquire_bind {f : Unit → Action β}
    (hf : ∀ d₁, Directory.acquire d = .ok () d₁ → Cautious F (f ()) d₁) :
    Cautious F (Directory.acquire >>= f) d := by
  intro fault d' run
  rcases bind_error_iff.mp run with failed | ⟨⟨⟩, d₁, first, failed⟩
  · have left : d' = acquired d := by
      rw [acquire_apply] at failed
      split at failed
      · cases failed
      · cases failed
        rfl
    rw [left]
    exact Or.inr (unwritten_acquired d)
  · have found := (acquire_ok first).1
    have again : acquired d₁ = d₁ := ((acquire_ok (acquire_again first)).1).symm
    rcases hf d₁ first fault d' failed with late | unwritten
    · exact Or.inl late
    · have same : d' = d₁ := by
        rcases unwritten.same with same | same
        · exact same
        · rw [same, again]
      rw [same, found]
      exact Or.inr (unwritten_acquired d)

end Action

end AddressBook

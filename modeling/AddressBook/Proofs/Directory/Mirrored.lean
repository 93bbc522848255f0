import AddressBook.Proofs.Directory.Outcome
import AddressBook.Proofs.Directory.Tabled

/-! Running an operation on a table instead of in memory. As long as a table can keep what is saved, both
runs go the same way; what is saved stands in the journal that the run in memory leaves. -/

namespace AddressBook

open Text

namespace Directory

def tabled (d : Directory) (lasting : Bool) : Directory := { d with store := d.store.tabled lasting }

/-- A table could keep all that was saved. -/
def Tenable (K : String → Prop) (d : Directory) : Prop :=
  ∀ id items, .saved id items ∈ d.journal → Kept K id items

/-- There is a session with a store in memory whose notes a table can keep. -/
structure Ready (K : String → Prop) (d : Directory) : Prop where
  store : d.store.Tabular K
  opening : d.opening = .live
  current : ∃ number, d.session.current = some number

structure Blank (d : Directory) : Prop where
  store : d.store = {}
  opening : d.opening = .live
  current : d.session.current = none

def Waiting (K : String → Prop) (d : Directory) : Prop := d.Ready K ∨ d.Blank

variable {K : String → Prop} {d d' : Directory}

theorem Tenable.before (h : d'.Tenable K) (grown : d.journal <+: d'.journal) : d.Tenable K :=
  fun id items saved => h id items (grown.subset saved)

theorem Ready.waiting (h : d.Ready K) : d.Waiting K := Or.inl h

end Directory

namespace Action

variable {α β : Type} {K : String → Prop} {lasting : Bool} {P Q R : Directory → Prop}
  {d d' : Directory}

def tabled (lasting : Bool) :
    EStateM.Result Fault Directory α → EStateM.Result Fault Directory α
  | .ok a d => .ok a (d.tabled lasting)
  | .error fault d => .error fault (d.tabled lasting)

def attempt (x : Action α) : Action (Except Fault α) := fun d =>
  match x d with
  | .ok a d' => .ok (.ok a) d'
  | .error fault d' => .ok (.error fault) d'

/-- From a directory of `P`, as long as a table can keep what is saved, the run on a table is that in
memory; a value leaves a directory of `Q`. -/
structure Mirrors (K : String → Prop) (lasting : Bool) (P : Directory → Prop) (x : Action α)
    (Q : Directory → Prop) : Prop where
  grows : ∀ d, d.journal <+: (ended x d).journal
  runs : ∀ d, P d → (ended x d).Tenable K →
    x (d.tabled lasting) = tabled lasting (x d) ∧
      match x d with
      | .ok _ d' => Q d'
      | .error _ d' => d'.Waiting K

abbrev Mirrored (K : String → Prop) (lasting : Bool) (x : Action α) : Prop :=
  Mirrors K lasting (Directory.Ready K) x (Directory.Ready K)

theorem ended_of_ok {x : Action α} {a : α} (h : x d = .ok a d') : ended x d = d' := by
  rw [ended, h]

theorem ended_of_error {x : Action α} {fault : Fault} (h : x d = .error fault d') :
    ended x d = d' := by
  rw [ended, h]

theorem ended_bind_of_ok {x : Action α} {f : α → Action β} {a : α} (h : x d = .ok a d') :
    ended (x >>= f) d = ended (f a) d' := by
  rw [ended, bind_apply, h]
  rfl

theorem ended_bind_of_error {x : Action α} {f : α → Action β} {fault : Fault}
    (h : x d = .error fault d') : ended (x >>= f) d = d' := by
  rw [ended, bind_apply, h]

theorem ended_attempt (x : Action α) (d : Directory) : ended (attempt x) d = ended x d := by
  rw [ended, ended, attempt]
  cases x d <;> rfl

theorem keeps_attempt {J : Directory → Prop} {x : Action α} (h : Leads J x (fun _ d => J d) J) :
    Keeps J (attempt x) fun _ => True := by
  refine ⟨fun d hd => ?_⟩
  have ends := h.ends d hd
  rw [attempt]
  cases run : x d with
  | ok a d₁ =>
    rw [run] at ends
    exact ⟨ends, trivial⟩
  | error fault d₁ =>
    rw [run] at ends
    exact ⟨ends, trivial⟩

namespace Mirrors

theorem bind {x : Action α} {f : α → Action β} (hx : Mirrors K lasting P x Q)
    (hf : ∀ a, Mirrors K lasting Q (f a) R) : Mirrors K lasting P (x >>= f) R where
  grows d := by
    have first := hx.grows d
    cases run : x d with
    | ok a d₁ =>
      rw [ended_of_ok run] at first
      rw [ended_bind_of_ok run]
      exact first.trans ((hf a).grows d₁)
    | error fault d₁ =>
      rw [ended_of_error run] at first
      rwa [ended_bind_of_error run]
  runs d hd tenable := by
    cases run : x d with
    | ok a d₁ =>
      rw [ended_bind_of_ok run] at tenable
      have first := hx.runs d hd (by rw [ended_of_ok run]; exact tenable.before ((hf a).grows d₁))
      rw [run] at first
      rw [bind_apply, bind_apply, run, first.1]
      exact (hf a).runs d₁ first.2 tenable
    | error fault d₁ =>
      rw [ended_bind_of_error run] at tenable
      have first := hx.runs d hd (by rwa [ended_of_error run])
      rw [run] at first
      rw [bind_apply, bind_apply, run, first.1]
      exact ⟨rfl, first.2⟩

end Mirrors

theorem mirrors_pure (a : α) (h : ∀ d, P d → Q d) : Mirrors K lasting P (pure a) Q where
  grows _ := List.prefix_rfl
  runs d hd _ := ⟨rfl, h d hd⟩

theorem mirrors_throw (fault : Fault) (h : ∀ d, P d → d.Waiting K) :
    Mirrors K lasting P (throw fault : Action α) Q where
  grows _ := List.prefix_rfl
  runs d hd _ := ⟨rfl, h d hd⟩

theorem mirrors_lift (x : Except Fault α) (h : ∀ d, P d → d.Waiting K) :
    Mirrors K lasting P (liftM x : Action α) P := by
  cases x with
  | ok a => exact mirrors_pure a fun _ hd => hd
  | error fault => exact mirrors_throw fault h

theorem mirrors_ite {c : Prop} [Decidable c] {x y : Action α} (hx : Mirrors K lasting P x Q)
    (hy : Mirrors K lasting P y Q) : Mirrors K lasting P (if c then x else y) Q := by
  split
  · exact hx
  · exact hy

theorem mirrors_discard {x : Action α} (hx : Mirrors K lasting P x Q) :
    Mirrors K lasting P (discard x : Action Unit) Q := by
  have mapped : (discard x : Action Unit) = x >>= fun _ => pure () := by
    funext d
    rw [bind_apply]
    change EStateM.map (fun _ => ()) x d = _
    rw [EStateM.map]
    cases x d <;> rfl
  rw [mapped]
  exact hx.bind fun _ => mirrors_pure () fun _ hd => hd

theorem mirrors_attempt {x : Action α} (hx : Mirrors K lasting P x Q)
    (h : ∀ d, Q d → d.Waiting K) : Mirrors K lasting P (attempt x) (Directory.Waiting K) where
  grows d := by
    rw [ended_attempt]
    exact hx.grows d
  runs d hd tenable := by
    rw [ended_attempt] at tenable
    obtain ⟨same, left⟩ := hx.runs d hd tenable
    rw [attempt, attempt, same]
    cases run : x d with
    | ok a d₁ =>
      rw [run] at left
      exact ⟨rfl, h d₁ left⟩
    | error fault d₁ =>
      rw [run] at left
      exact ⟨rfl, left⟩

theorem mirrors_forM {as : List α} {f : α → Action Unit} (h : ∀ a, Mirrors K lasting P (f a) P) :
    Mirrors K lasting P (as.forM f) P := by
  induction as with
  | nil => exact mirrors_pure () fun _ hd => hd
  | cons a as ih => exact (h a).bind fun _ => ih

theorem mirrors_mapM {as : List α} {f : α → Action β} (h : ∀ a, Mirrors K lasting P (f a) P) :
    Mirrors K lasting P (as.mapM f) P := by
  induction as with
  | nil => exact mirrors_pure [] fun _ hd => hd
  | cons a as ih =>
    rw [List.mapM_cons]
    exact (h a).bind fun _ => ih.bind fun _ => mirrors_pure _ fun _ hd => hd

/-- What is read depends on what both stores have in common. -/
theorem mirrored_read (apart : KeysApart K) {reading : Store → Except Fault α}
    (h : ∀ s t : Store, s.Agrees t → reading t = reading s) :
    Mirrored K lasting (Directory.read reading) where
  grows d := by
    rw [ended, read_apply]
    cases reading d.store <;> exact List.prefix_rfl
  runs d hd _ := by
    have same : reading (d.tabled lasting).store = reading d.store :=
      h _ _ (hd.store.agrees apart lasting)
    rw [read_apply, read_apply, same]
    cases reading d.store with
    | ok a => exact ⟨rfl, hd⟩
    | error fault => exact ⟨rfl, hd.waiting⟩

theorem mirrored_save (n : Note) :
    Mirrored K lasting (Directory.save n) where
  grows d := by
    rw [ended, Directory.save_apply]
    cases d.store.refusal? { n with id := some (d.idFor n).1 } <;> exact List.prefix_append _ _
  runs d hd tenable := by
    have saved : Directory.save n d = .ok (d.stamped n) (d.afterSave n) := by
      rw [Directory.save_apply, hd.store.refusal?_eq_none]
    rw [ended_of_ok saved] at tenable
    have kept : Kept K (d.idFor n).1 n.items :=
      tenable _ _ (List.mem_append_right _ (List.mem_singleton_self _))
    have onTable : Directory.save n (d.tabled lasting) =
        .ok (d.stamped n) ((d.afterSave n).tabled lasting) := by
      have classed : Note.Classed { n with id := some (d.idFor n).1 } := kept.classed
      have same : (d.tabled lasting).afterSave n = (d.afterSave n).tabled lasting := by
        simp only [Directory.afterSave, Directory.tabled, ← Store.spend_tabled]
        rfl
      have unrefused : (d.tabled lasting).store.refusal?
          { n with id := some ((d.tabled lasting).idFor n).1 } = none :=
        hd.store.refusal?_tabled classed lasting
      rw [← same, Directory.save_apply, unrefused]
      rfl
    have put := hd.store.put (n := d.stamped n) kept
    rw [saved, onTable]
    refine ⟨rfl, ⟨?_, hd.opening, hd.current⟩⟩
    change ((d.store.put _ _).spend).Tabular K
    rwa [put.spend]

theorem delete_of_writable {id : String} (h : d.store.checkWritable = .ok ()) :
    Directory.delete id d =
      .ok (d.store.notes.get? id).isSome { d with
        store := d.store.erase id
        journal := d.journal ++ [.deleted id (d.store.notes.get? id).isSome] } := by
  rw [Directory.delete, bind_apply, read_apply, h]
  rfl

theorem mirrored_delete (id : String) :
    Mirrored K lasting (Directory.delete id) where
  grows d := by
    rw [ended, Directory.delete, bind_apply, read_apply]
    cases d.store.checkWritable with
    | ok u => exact List.prefix_append _ _
    | error fault => exact List.prefix_rfl
  runs d hd _ := by
    have writable : (d.tabled lasting).store.checkWritable = .ok () :=
      (hd.store.checkWritable lasting).trans hd.store.checkWritable_eq_ok
    rw [delete_of_writable hd.store.checkWritable_eq_ok, delete_of_writable writable]
    exact ⟨rfl, hd.store.erase id, hd.opening, hd.current⟩

theorem acquire_of_first (live : d.opening = .live) (first : d.session.current = none) :
    Directory.acquire d =
      .ok () { d with session := (d.session.open? .live).2, store := d.store.reopened } := by
  rw [acquire_of_live live]
  simp [acquired, Session.acquire, live, Session.open?, Directory.dropSession, first,
    Directory.openStore]

theorem mirrors_acquire :
    Mirrors K lasting (Directory.Waiting K) Directory.acquire (Directory.Ready K) where
  grows d := by
    have left : ended Directory.acquire d = acquired d := by
      rw [ended, acquire_apply]
      cases (d.session.acquire d.store.isOpen d.opening).1 <;> rfl
    have kept : (ended Directory.acquire d).journal = d.journal := by simp [left]
    exact kept.symm ▸ List.prefix_rfl
  runs d hd _ := by
    rcases hd with ready | blank
    · obtain ⟨number, current⟩ := ready.current
      have again : Directory.acquire (d.tabled lasting) = .ok () (d.tabled lasting) :=
        acquire_of_current current ready.store.isOpen
      rw [acquire_of_current current ready.store.isOpen, again]
      exact ⟨rfl, ready⟩
    · have opened : Directory.acquire (d.tabled lasting) = _ :=
        acquire_of_first blank.opening blank.current
      rw [acquire_of_first blank.opening blank.current, opened, Directory.tabled]
      rw [blank.store]
      refine ⟨?_, Store.tabular_empty, blank.opening, _, rfl⟩
      cases lasting <;> rfl

theorem mirrored_pure (a : α) : Mirrored K lasting (pure a : Action α) := mirrors_pure a fun _ hd => hd

theorem mirrored_throw (fault : Fault) : Mirrored K lasting (throw fault : Action α) :=
  mirrors_throw fault fun _ hd => hd.waiting

theorem mirrored_lift (x : Except Fault α) : Mirrored K lasting (liftM x : Action α) :=
  mirrors_lift x fun _ hd => hd.waiting

end Action

end AddressBook

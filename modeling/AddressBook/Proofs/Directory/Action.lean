import AddressBook.Directory.Basic
import AddressBook.Proofs.Directory.Store

/-! Running operations on the directory: what a successful run of a composed operation did step by
step, and what the primitive operations do. -/

namespace AddressBook

namespace Action

variable {α β : Type} {d d' : Directory}

theorem bind_apply (x : Action α) (f : α → Action β) (d : Directory) :
    (x >>= f) d =
      match x d with
      | .ok a d' => f a d'
      | .error fault d' => .error fault d' := by
  change EStateM.bind x f d = _
  rw [EStateM.bind]
  cases x d <;> rfl

@[simp]
theorem get_apply (d : Directory) : (get : Action Directory) d = .ok d d := rfl

theorem bind_ok_iff {x : Action α} {f : α → Action β} {b : β} :
    (x >>= f) d = .ok b d' ↔ ∃ a d₁, x d = .ok a d₁ ∧ f a d₁ = .ok b d' := by
  rw [bind_apply]
  cases x d with
  | ok a d₁ =>
    constructor
    · intro h
      exact ⟨a, d₁, rfl, h⟩
    · rintro ⟨_, _, ⟨⟩, h⟩
      exact h
  | error fault d₁ => simp

theorem pure_ok_iff {a b : α} : (pure a : Action α) d = .ok b d' ↔ a = b ∧ d = d' := by
  change EStateM.Result.ok a d = _ ↔ _
  rw [EStateM.Result.ok.injEq]

theorem throw_ok_iff {fault : Fault} {a : α} :
    (throw fault : Action α) d = .ok a d' ↔ False := by
  change EStateM.Result.error fault d = _ ↔ _
  simp

theorem read_apply (reading : Store → Except Fault α) (d : Directory) :
    Directory.read reading d =
      match reading d.store with
      | .ok a => .ok a d
      | .error fault => .error fault d := by
  change (match (liftM (reading d.store) : Action α) d with | r => r) = _
  cases reading d.store <;> rfl

theorem read_ok_iff {reading : Store → Except Fault α} {a : α} :
    Directory.read reading d = .ok a d' ↔ reading d.store = .ok a ∧ d = d' := by
  rw [read_apply]
  cases reading d.store <;> simp

theorem read_eq_iff {reading other : Store → Except Fault α} :
    Directory.read reading d = Directory.read other d ↔ reading d.store = other d.store := by
  rw [read_apply, read_apply]
  cases reading d.store <;> cases other d.store <;> simp

theorem lift_ok_iff {x : Except Fault α} {a : α} :
    (liftM x : Action α) d = .ok a d' ↔ x = .ok a ∧ d = d' := by
  cases x with
  | ok b =>
    change EStateM.Result.ok b d = _ ↔ _
    simp
  | error fault =>
    change EStateM.Result.error fault d = _ ↔ _
    simp

theorem discard_ok_iff {x : Action α} {u : Unit} :
    (discard x : Action Unit) d = .ok u d' ↔ ∃ a, x d = .ok a d' := by
  change EStateM.map (fun _ => ()) x d = _ ↔ _
  rw [EStateM.map]
  cases x d <;> simp

theorem forM_cons_ok_iff {f : α → Action Unit} {a : α} {as : List α} {u : Unit} :
    (a :: as).forM f d = .ok u d' ↔ ∃ d₁, f a d = .ok () d₁ ∧ as.forM f d₁ = .ok u d' := by
  change (f a >>= fun _ => as.forM f) d = _ ↔ _
  rw [bind_ok_iff]
  constructor
  · rintro ⟨⟨⟩, d₁, first, others⟩
    exact ⟨d₁, first, others⟩
  · rintro ⟨d₁, first, others⟩
    exact ⟨(), d₁, first, others⟩

theorem forM_nil_ok_iff {f : α → Action Unit} {u : Unit} :
    ([] : List α).forM f d = .ok u d' ↔ d = d' := by
  change (pure () : Action Unit) d = _ ↔ _
  rw [pure_ok_iff]
  simp

theorem forM_of_mapM_ok {f : α → Action β} {as : List α} {bs : List β}
    (h : as.mapM f d = .ok bs d') : (as.forM fun a => discard (f a)) d = .ok () d' := by
  induction as generalizing d bs with
  | nil =>
    obtain ⟨-, rfl⟩ := pure_ok_iff.mp h
    rfl
  | cons a as ih =>
    rw [List.mapM_cons] at h
    obtain ⟨b, d₁, first, h⟩ := bind_ok_iff.mp h
    obtain ⟨bs, d₂, others, h⟩ := bind_ok_iff.mp h
    obtain ⟨-, rfl⟩ := pure_ok_iff.mp h
    exact forM_cons_ok_iff.mpr ⟨d₁, discard_ok_iff.mpr ⟨b, first⟩, ih others⟩

section

variable {fault : Fault}

theorem bind_error_iff {x : Action α} {f : α → Action β} :
    (x >>= f) d = .error fault d' ↔
      x d = .error fault d' ∨ ∃ a d₁, x d = .ok a d₁ ∧ f a d₁ = .error fault d' := by
  rw [bind_apply]
  cases x d with
  | ok a d₁ =>
    constructor
    · intro h
      exact Or.inr ⟨a, d₁, rfl, h⟩
    · rintro (failed | ⟨_, _, ⟨⟩, h⟩)
      · cases failed
      · exact h
  | error other d₁ => simp

theorem read_error_iff {reading : Store → Except Fault α} :
    Directory.read reading d = .error fault d' ↔ reading d.store = .error fault ∧ d = d' := by
  rw [read_apply]
  cases reading d.store <;> simp

theorem discard_error_iff {x : Action α} :
    (discard x : Action Unit) d = .error fault d' ↔ x d = .error fault d' := by
  change EStateM.map (fun _ => ()) x d = _ ↔ _
  rw [EStateM.map]
  cases x d <;> simp

theorem forM_error {f : α → Action Unit} {as : List α} (h : as.forM f d = .error fault d') :
    ∃ before a behind d₁, as = before ++ a :: behind ∧ before.forM f d = .ok () d₁ ∧
      f a d₁ = .error fault d' := by
  induction as generalizing d with
  | nil => cases h
  | cons a as ih =>
    rcases bind_error_iff.mp h with failed | ⟨⟨⟩, d₁, first, others⟩
    · exact ⟨[], a, as, d, rfl, forM_nil_ok_iff.mpr rfl, failed⟩
    · obtain ⟨before, b, behind, d₂, rfl, done, failed⟩ := ih others
      exact ⟨a :: before, b, behind, d₂, rfl, forM_cons_ok_iff.mpr ⟨d₁, first, done⟩, failed⟩

theorem mapM_error {f : α → Action β} {as : List α} (h : as.mapM f d = .error fault d') :
    ∃ a ∈ as, ∃ d₁, f a d₁ = .error fault d' := by
  induction as generalizing d with
  | nil => cases h
  | cons a as ih =>
    rw [List.mapM_cons] at h
    rcases bind_error_iff.mp h with failed | ⟨b, d₁, _, others⟩
    · exact ⟨a, List.mem_cons_self, d, failed⟩
    · rcases bind_error_iff.mp others with failed | ⟨bs, d₂, _, made⟩
      · obtain ⟨c, hc, d₃, failed⟩ := ih failed
        exact ⟨c, List.mem_cons_of_mem a hc, d₃, failed⟩
      · cases made

def Reaches (x : Action α) (d d' : Directory) : Prop :=
  (∃ a, x d = .ok a d') ∨ ∃ fault, x d = .error fault d'

theorem reaches_bind {x : Action α} {f : α → Action β} (h : Reaches (x >>= f) d d') :
    (∃ fault, x d = .error fault d') ∨ ∃ a d₁, x d = .ok a d₁ ∧ Reaches (f a) d₁ d' := by
  rcases h with ⟨b, h⟩ | ⟨fault, h⟩
  · obtain ⟨a, d₁, first, rest⟩ := bind_ok_iff.mp h
    exact Or.inr ⟨a, d₁, first, Or.inl ⟨b, rest⟩⟩
  · rcases bind_error_iff.mp h with failed | ⟨a, d₁, first, rest⟩
    · exact Or.inl ⟨fault, failed⟩
    · exact Or.inr ⟨a, d₁, first, Or.inr ⟨fault, rest⟩⟩

theorem reaches_discard_iff {x : Action α} : Reaches (discard x : Action Unit) d d' ↔ Reaches x d d' := by
  simp only [Reaches, discard_ok_iff, discard_error_iff, exists_const]

theorem reaches_forM {R : Directory → Directory → Prop} (refl : ∀ d, R d d)
    (trans : ∀ d d₁ d', R d d₁ → R d₁ d' → R d d') {f : α → Action Unit} {as : List α}
    (step : ∀ a ∈ as, ∀ d d', Reaches (f a) d d' → R d d') (h : Reaches (as.forM f) d d') :
    R d d' := by
  induction as generalizing d with
  | nil =>
    rcases h with ⟨u, h⟩ | ⟨fault, h⟩
    · rw [← forM_nil_ok_iff.mp h]
      exact refl d
    · cases h
  | cons a as ih =>
    rcases reaches_bind h with ⟨fault, failed⟩ | ⟨⟨⟩, d₁, first, others⟩
    · exact step a List.mem_cons_self d d' (Or.inr ⟨fault, failed⟩)
    · exact trans d d₁ d' (step a List.mem_cons_self d d₁ (Or.inl ⟨(), first⟩))
        (ih (fun b hb => step b (List.mem_cons_of_mem a hb)) others)

end

def isOk : EStateM.Result Fault Directory α → Bool
  | .ok _ _ => true
  | .error _ _ => false

def leaves (p : Directory → Bool) : EStateM.Result Fault Directory α → Bool
  | .ok _ d => p d
  | .error _ _ => false

def value? : EStateM.Result Fault Directory α → Option α
  | .ok a _ => some a
  | .error _ _ => none

def fault? : EStateM.Result Fault Directory α → Option Fault
  | .ok _ _ => none
  | .error fault _ => some fault

def isRefused : EStateM.Result Fault Directory α → Bool
  | .error (.noteSave _ _) _ => true
  | _ => false

def ended (x : Action α) (d : Directory) : Directory :=
  match x d with
  | .ok _ d' => d'
  | .error _ d' => d'

theorem ok_ended {x : Action α} (h : isOk (x d) = true) : ∃ a, x d = .ok a (ended x d) := by
  rw [ended]
  cases run : x d with
  | ok a d' => exact ⟨a, rfl⟩
  | error fault d' =>
    rw [run] at h
    cases h

theorem ok_of_value? {x : Action α} {a : α} (h : value? (x d) = some a) :
    x d = .ok a (ended x d) := by
  rw [ended]
  cases run : x d with
  | ok b d' =>
    rw [run] at h
    cases h
    rfl
  | error fault d' =>
    rw [run] at h
    cases h

theorem error_of_fault? {x : Action α} {fault : Fault} (h : fault? (x d) = some fault) :
    x d = .error fault (ended x d) := by
  rw [ended]
  cases run : x d with
  | ok a d' =>
    rw [run] at h
    cases h
  | error other d' =>
    rw [run] at h
    cases h
    rfl

theorem error_ended {x : Action α} (h : isOk (x d) = false) :
    ∃ fault, x d = .error fault (ended x d) := by
  rw [ended]
  cases run : x d with
  | ok a d' =>
    rw [run] at h
    cases h
  | error fault d' => exact ⟨fault, rfl⟩

theorem exists_of_isOk {r : EStateM.Result Fault Directory Unit} (h : isOk r = true) :
    ∃ d, r = .ok () d := by
  cases r with
  | ok a d => exact ⟨d, rfl⟩
  | error fault d => cases h

theorem exists_of_leaves {p : Directory → Bool} {r : EStateM.Result Fault Directory Unit}
    (h : leaves p r = true) : ∃ d, r = .ok () d ∧ p d = true := by
  cases r with
  | ok a d => exact ⟨d, rfl, h⟩
  | error fault d => cases h

theorem exists_of_not_isOk {r : EStateM.Result Fault Directory α} (h : isOk r = false) :
    ∃ fault d, r = .error fault d := by
  cases r with
  | ok a d => cases h
  | error fault d => exact ⟨fault, d, rfl⟩

end Action

namespace Directory

variable {d d' : Directory}

/-- The id under which a note would be saved, and the supply after it was taken. -/
def idFor (d : Directory) (n : Note) : String × Supply :=
  match n.id with
  | some id => (id, d.supply)
  | none => d.supply.takeId

def stamped (d : Directory) (n : Note) : Note :=
  { n with id := some (d.idFor n).1, modified := some (d.idFor n).2.takeTime.1 }

/-- The directory after a note was saved. -/
def afterSave (d : Directory) (n : Note) : Directory :=
  { d with
    supply := (d.idFor n).2.takeTime.2
    store := (d.store.put (d.idFor n).1 (d.stamped n)).spend
    journal := d.journal ++ [.saved (d.idFor n).1 n.items] }

def afterRefusal (d : Directory) (n : Note) : Directory :=
  { d with supply := (d.idFor n).2, journal := d.journal ++ [.refused (d.idFor n).1] }

theorem save_apply (n : Note) (d : Directory) :
    save n d =
      match d.store.refusal? { n with id := some (d.idFor n).1 } with
      | some cause =>
        .error (.noteSave { n with id := some (d.idFor n).1 }.identity cause) (d.afterRefusal n)
      | none => .ok (d.stamped n) (d.afterSave n) := by
  have taken : identify n d = .ok (d.idFor n).1 { d with supply := (d.idFor n).2 } := by
    rw [identify, idFor]
    cases n.id <;> rfl
  rw [save, Action.bind_apply, taken]
  cases refusal : d.store.refusal? { n with id := some (d.idFor n).1 } with
  | some cause =>
    simp only [Action.bind_apply, Action.get_apply, refusal]
    rfl
  | none =>
    simp only [Action.bind_apply, Action.get_apply, refusal]
    rfl

theorem idFor_of_id {n : Note} {id : String} (h : n.id = some id) :
    d.idFor n = (id, d.supply) := by
  rw [idFor, h]

@[simp]
theorem notes_afterSave (n : Note) :
    (d.afterSave n).store.notes = d.store.notes.put (d.idFor n).1 (d.stamped n) :=
  Store.notes_spend _

@[simp]
theorem backing_afterSave (n : Note) : (d.afterSave n).store.backing = d.store.backing :=
  Store.backing_spend _

theorem save_ok {n n' : Note} (h : save n d = .ok n' d') : n' = d.stamped n ∧ d' = d.afterSave n := by
  rw [save_apply] at h
  split at h
  · cases h
  · cases h
    exact ⟨rfl, rfl⟩

theorem save_error {n : Note} {fault : Fault} (h : save n d = .error fault d') :
    d'.store = d.store := by
  rw [save_apply] at h
  split at h
  · cases h
    rfl
  · cases h

theorem refused_of_save {n : Note} {fault : Fault} (h : save n d = .error fault d') :
    ∃ identity cause, fault = .noteSave identity cause := by
  rw [save_apply] at h
  split at h
  · cases h
    exact ⟨_, _, rfl⟩
  · cases h

theorem save_ok_of_id {n n' : Note} {id : String} (hid : n.id = some id)
    (h : save n d = .ok n' d') :
    ∃ time, n' = { n with modified := some time } ∧
      d'.store.notes = d.store.notes.put id { n with modified := some time } ∧
      d'.store.backing = d.store.backing ∧ d'.journal = d.journal ++ [.saved id n.items] := by
  obtain ⟨rfl, rfl⟩ := save_ok h
  have stamped : d.stamped n = { n with modified := some d.supply.takeTime.1 } := by
    rw [Directory.stamped, idFor_of_id hid, ← hid]
  refine ⟨d.supply.takeTime.1, stamped, ?_, backing_afterSave n, ?_⟩
  · rw [notes_afterSave, stamped, idFor_of_id hid]
  · rw [afterSave, idFor_of_id hid]

theorem delete_ok {id : String} {found : Bool} (h : delete id d = .ok found d') :
    d'.store = d.store.erase id := by
  rw [delete] at h
  obtain ⟨_, d₁, allowed, h⟩ := Action.bind_ok_iff.mp h
  obtain ⟨-, rfl⟩ := Action.read_ok_iff.mp allowed
  cases h
  rfl

end Directory

end AddressBook

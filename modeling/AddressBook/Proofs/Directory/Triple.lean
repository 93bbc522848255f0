import AddressBook.Proofs.Directory.Action

/-! Where an operation leads, with a value or with a fault. A fault keeps what was done by then, so
that both ends count; most operations are looked at with one condition that holds throughout. -/

namespace AddressBook.Action

variable {α β : Type}

/-- From a directory of `P` the operation ends with a value in `Q` or with a fault in `E`. -/
structure Leads (P : Directory → Prop) (x : Action α) (Q : α → Directory → Prop)
    (E : Directory → Prop) : Prop where
  ends : ∀ d, P d →
    match x d with
    | .ok a d' => Q a d'
    | .error _ d' => E d'

/-- The condition holds throughout, and a value satisfies `Q`. -/
def Keeps (J : Directory → Prop) (x : Action α) (Q : α → Prop) : Prop :=
  Leads J x (fun a d => J d ∧ Q a) J

variable {P P' E E' J : Directory → Prop} {Q Q' : α → Directory → Prop}
  {R : β → Directory → Prop} {A A' : α → Prop} {B : β → Prop}

theorem Leads.weaken {x : Action α} (h : Leads P x Q E) (hP : ∀ d, P' d → P d)
    (hQ : ∀ a d, Q a d → Q' a d) (hE : ∀ d, E d → E' d) : Leads P' x Q' E' := by
  refine ⟨fun d hd => ?_⟩
  have result := h.ends d (hP d hd)
  cases run : x d with
  | ok a d' =>
    rw [run] at result
    exact hQ a d' result
  | error fault d' =>
    rw [run] at result
    exact hE d' result

theorem Leads.bind {x : Action α} {f : α → Action β} (hx : Leads P x Q E)
    (hf : ∀ a, Leads (Q a) (f a) R E) : Leads P (x >>= f) R E := by
  refine ⟨fun d hd => ?_⟩
  have first := hx.ends d hd
  rw [bind_apply]
  cases run : x d with
  | ok a d' =>
    rw [run] at first
    exact (hf a).ends d' first
  | error fault d' =>
    rw [run] at first
    exact first

theorem Leads.ended {x : Action α} (h : Leads P x (fun _ d => J d) J) {d : Directory} (hd : P d) :
    J (ended x d) := by
  have result := h.ends d hd
  rw [Action.ended]
  cases run : x d with
  | ok a d' =>
    rw [run] at result
    exact result
  | error fault d' =>
    rw [run] at result
    exact result

theorem leads_pure {a : α} (h : ∀ d, P d → Q a d) : Leads P (pure a) Q E := ⟨h⟩

theorem leads_throw {fault : Fault} (h : ∀ d, P d → E d) : Leads P (throw fault : Action α) Q E :=
  ⟨h⟩

theorem Keeps.weaken {x : Action α} (h : Keeps J x A) (hA : ∀ a, A a → A' a) : Keeps J x A' :=
  Leads.weaken h (fun _ hd => hd) (fun a _ ha => ⟨ha.1, hA a ha.2⟩) fun _ hd => hd

theorem Keeps.and {K : Directory → Prop} {x : Action α} (h : Keeps J x A) (h' : Keeps K x A') :
    Keeps (fun d => J d ∧ K d) x fun a => A a ∧ A' a := by
  refine ⟨fun d hd => ?_⟩
  have first := h.ends d hd.1
  have second := h'.ends d hd.2
  cases run : x d with
  | ok a d' =>
    rw [run] at first second
    exact ⟨⟨first.1, second.1⟩, first.2, second.2⟩
  | error fault d' =>
    rw [run] at first second
    exact ⟨first, second⟩

theorem Keeps.reaches {x : Action α} (h : Keeps J x A) {d d' : Directory} (hd : J d)
    (run : Reaches x d d') : J d' := by
  have ends := h.ends d hd
  rcases run with ⟨a, run⟩ | ⟨fault, run⟩
  · rw [run] at ends
    exact ends.1
  · rw [run] at ends
    exact ends

theorem Keeps.ended {x : Action α} (h : Keeps J x A) {d : Directory} (hd : J d) :
    J (ended x d) :=
  Leads.ended (Leads.weaken h (fun _ hd => hd) (fun _ _ ha => ha.1) fun _ hd => hd) hd

theorem Keeps.ok {x : Action α} (h : Keeps J x A) {d d' : Directory} (hd : J d) {a : α}
    (run : x d = .ok a d') : J d' ∧ A a := by
  have ends := h.ends d hd
  rwa [run] at ends

theorem Keeps.bind {x : Action α} {f : α → Action β} (hx : Keeps J x A)
    (hf : ∀ a, A a → Keeps J (f a) B) : Keeps J (x >>= f) B := by
  refine Leads.bind hx fun a => ⟨?_⟩
  rintro d ⟨hd, ha⟩
  exact (hf a ha).ends d hd

theorem Leads.bind_of_keeps {x : Action α} {f : α → Action β} (hx : Keeps J x A)
    (hE : ∀ d, J d → E d) (hf : ∀ a, A a → Leads J (f a) R E) : Leads J (x >>= f) R E := by
  refine Leads.bind (Leads.weaken hx (fun _ hd => hd) (fun _ _ ha => ha) hE) fun a => ⟨?_⟩
  rintro d ⟨hd, ha⟩
  exact (hf a ha).ends d hd

theorem keeps_pure {a : α} (h : A a) : Keeps J (pure a) A := ⟨fun _ hd => ⟨hd, h⟩⟩

theorem keeps_ite {c : Prop} [Decidable c] {x y : Action α} (hx : c → Keeps J x A)
    (hy : ¬ c → Keeps J y A) : Keeps J (if c then x else y) A := by
  split
  · next h => exact hx h
  · next h => exact hy h

theorem keeps_throw {fault : Fault} : Keeps J (throw fault : Action α) A :=
  ⟨fun _ hd => hd⟩

theorem keeps_lift {x : Except Fault α} (h : ∀ a, x = .ok a → A a) :
    Keeps J (liftM x : Action α) A := by
  refine ⟨fun d hd => ?_⟩
  cases x with
  | ok a => exact ⟨hd, h a rfl⟩
  | error fault => exact hd

theorem keeps_read {reading : Store → Except Fault α}
    (h : ∀ d a, J d → reading d.store = .ok a → A a) : Keeps J (Directory.read reading) A := by
  refine ⟨fun d hd => ?_⟩
  rw [read_apply]
  cases read : reading d.store with
  | ok a => exact ⟨hd, h d a hd read⟩
  | error fault => exact hd

theorem leads_discard {x : Action α} {K : Directory → Prop} (h : Leads P x (fun _ d => K d) E) :
    Leads P (discard x : Action Unit) (fun _ d => K d) E := by
  refine ⟨fun d hd => ?_⟩
  have result := h.ends d hd
  have mapped : (discard x : Action Unit) d = EStateM.map (fun _ => ()) x d := rfl
  rw [mapped, EStateM.map]
  cases run : x d with
  | ok a d' =>
    rw [run] at result
    exact result
  | error fault d' =>
    rw [run] at result
    exact result

theorem keeps_discard {x : Action α} (h : Keeps J x A) :
    Keeps J (discard x : Action Unit) fun _ => True :=
  Leads.weaken (leads_discard (Leads.weaken h (fun _ hd => hd) (fun _ _ ha => ha.1) fun _ hd => hd))
    (fun _ hd => hd) (fun _ _ hd => ⟨hd, trivial⟩) fun _ hd => hd

theorem keeps_forM_forall {as : List α} {f : α → Action Unit}
    (h : ∀ a ∈ as, Keeps J (f a) fun _ => A a) :
    Keeps J (as.forM f) fun _ => ∀ a ∈ as, A a := by
  induction as with
  | nil => exact keeps_pure fun a ha => absurd ha List.not_mem_nil
  | cons a as ih =>
    change Keeps J (f a >>= fun _ => as.forM f) _
    refine (h a List.mem_cons_self).bind fun _ first => ?_
    refine (ih fun b hb => h b (List.mem_cons_of_mem a hb)).weaken fun _ others => ?_
    intro b hb
    rcases List.mem_cons.mp hb with rfl | hb
    · exact first
    · exact others b hb

theorem keeps_forM {as : List α} {f : α → Action Unit}
    (h : ∀ a ∈ as, Keeps J (f a) fun _ => True) : Keeps J (as.forM f) fun _ => True :=
  (keeps_forM_forall h).weaken fun _ _ => trivial

theorem keeps_mapM {as : List α} {f : α → Action β}
    (h : ∀ a ∈ as, Keeps J (f a) fun _ => True) : Keeps J (as.mapM f) fun _ => True := by
  induction as with
  | nil => exact keeps_pure trivial
  | cons a as ih =>
    rw [List.mapM_cons]
    refine (h a List.mem_cons_self).bind fun _ _ => ?_
    refine (ih fun b hb => h b (List.mem_cons_of_mem a hb)).bind fun _ _ => ?_
    exact keeps_pure trivial

theorem leads_save {n : Note} {Q : Note → Directory → Prop}
    (hs : ∀ d, P d → Q (d.stamped n) (d.afterSave n)) (hr : ∀ d, P d → E (d.afterRefusal n)) :
    Leads P (Directory.save n) Q E := by
  refine ⟨fun d hd => ?_⟩
  rw [Directory.save_apply]
  cases d.store.refusal? { n with id := some (d.idFor n).1 } with
  | some cause => exact hr d hd
  | none => exact hs d hd

theorem leads_delete {id : String} {K : Directory → Prop}
    (hd : ∀ d, P d → ∀ journal, K { d with store := d.store.erase id, journal })
    (hf : ∀ d, P d → E d) : Leads P (Directory.delete id) (fun _ d => K d) E := by
  refine ⟨fun d h => ?_⟩
  rw [Directory.delete, bind_apply, read_apply]
  cases d.store.checkWritable with
  | error fault => exact hf d h
  | ok u => exact hd d h _

/-- The second directory differs from the first in its session at most, and in whether its store can
be used. -/
structure Alike (d d' : Directory) : Prop where
  notes : d'.store.notes = d.store.notes
  backing : d'.store.backing = d.store.backing
  lasting : d'.store.lasting = d.store.lasting
  readOnly : d'.store.readOnly = d.store.readOnly
  supply : d'.supply = d.supply
  journal : d'.journal = d.journal

theorem alike_openStore {d : Directory} (h : d.store.lasting = true) (session : Session) :
    Alike d { d with session, store := d.dropSession.openStore } := by
  have dropped : d.dropSession.store.notes = d.store.notes ∧
      d.dropSession.store.backing = d.store.backing ∧
      d.dropSession.store.lasting = d.store.lasting ∧
      d.dropSession.store.readOnly = d.store.readOnly := by
    rw [Directory.dropSession]
    split
    · cases backing : d.store.backing <;> simp [Store.close, backing]
    · exact ⟨rfl, rfl, rfl, rfl⟩
  obtain ⟨notes, backing, lasting, readOnly⟩ := dropped
  have opened : d.dropSession.openStore.notes = d.store.notes ∧
      d.dropSession.openStore.backing = d.store.backing ∧
      d.dropSession.openStore.lasting = d.store.lasting ∧
      d.dropSession.openStore.readOnly = d.store.readOnly := by
    rw [Directory.openStore]
    split <;> simp [Store.reopened, notes, backing, lasting, readOnly, h]
  exact ⟨opened.1, opened.2.1, opened.2.2.1, opened.2.2.2, rfl, rfl⟩

def acquired (d : Directory) : Directory :=
  let session := (d.session.acquire d.store.isOpen d.opening).2
  if session.attempts != d.session.attempts then
    { d with session, store := d.dropSession.openStore }
  else d

theorem acquire_apply (d : Directory) :
    Directory.acquire d =
      match (d.session.acquire d.store.isOpen d.opening).1 with
      | .ok _ => .ok () (acquired d)
      | .error fault => .error fault (acquired d) := by
  rw [Directory.acquire, bind_apply, get_apply, acquired]
  dsimp only
  generalize d.session.acquire d.store.isOpen d.opening = result
  obtain ⟨outcome, session⟩ := result
  cases outcome <;> by_cases renewed : (session.attempts != d.session.attempts) = true <;>
    simp only [renewed, if_true] <;> rfl

theorem alike_acquired {d : Directory} (h : d.store.lasting = true) : Alike d (acquired d) := by
  rw [acquired]
  split
  · exact alike_openStore h _
  · exact ⟨rfl, rfl, rfl, rfl, rfl, rfl⟩

theorem keeps_acquire (hl : ∀ d, J d → d.store.lasting = true)
    (hJ : ∀ d d', Alike d d' → J d → J d') : Keeps J Directory.acquire fun _ => True := by
  refine ⟨fun d hd => ?_⟩
  have kept : J (acquired d) := hJ d _ (alike_acquired (hl d hd)) hd
  rw [acquire_apply]
  cases (d.session.acquire d.store.isOpen d.opening).1 with
  | ok number => exact ⟨kept, trivial⟩
  | error fault => exact kept

theorem acquire_of_live {d : Directory} (h : d.opening = .live) :
    Directory.acquire d = .ok () (acquired d) := by
  have found : ∃ number, (d.session.acquire d.store.isOpen d.opening).1 = .ok number := by
    rw [h, Session.acquire]
    split
    · split
      · exact ⟨_, rfl⟩
      · exact ⟨_, rfl⟩
    · exact ⟨_, rfl⟩
  obtain ⟨number, found⟩ := found
  rw [acquire_apply, found]

theorem acquire_of_current {d : Directory} {number : Nat}
    (hc : d.session.current = some number) (ho : d.store.isOpen = true) :
    Directory.acquire d = .ok () d := by
  have same : d.session.acquire d.store.isOpen d.opening = (.ok number, d.session) := by
    rw [Session.acquire, hc, ho]
    rfl
  rw [acquire_apply, acquired, same]
  simp

theorem isOpen_openStore {d : Directory} (h : d.opening = .live) :
    d.openStore.isOpen = true := by
  rw [Directory.openStore, h]
  change (Store.reopened _).isOpen = true
  rw [Store.reopened]
  split <;> rfl

theorem open?_ok {s : Session} {opening : Opening} {number : Nat}
    (h : (s.open? opening).1 = .ok number) :
    opening = .live ∧ (s.open? opening).2.current = some number ∧
      (s.open? opening).2.attempts = s.attempts + 1 := by
  cases opening with
  | live =>
    cases h
    exact ⟨rfl, rfl, rfl⟩
  | dead => cases h
  | refused fault => cases h

theorem acquire_ok {d d' : Directory} (h : Directory.acquire d = .ok () d') :
    d' = acquired d ∧ (∃ number, d'.session.current = some number) ∧ d'.store.isOpen = true := by
  -- Opening is the same for no session and for a dropped one, as both have the same attempts.
  have opened : ∀ s : Session, s.attempts = d.session.attempts →
      d.session.acquire d.store.isOpen d.opening = s.open? d.opening →
        d' = acquired d ∧ (∃ number, d'.session.current = some number) ∧
          d'.store.isOpen = true := by
    intro s attempts same
    rw [acquire_apply, same] at h
    split at h
    · next number found =>
      cases h
      obtain ⟨live, current, counted⟩ := open?_ok found
      have renewed : ((s.open? d.opening).2.attempts != d.session.attempts) = true := by
        rw [counted, attempts]
        simp
      have later : d.dropSession.opening = .live := by
        rw [Directory.dropSession]
        split <;> exact live
      refine ⟨rfl, ?_⟩
      rw [acquired, same]
      simp only [renewed, if_true]
      exact ⟨⟨number, current⟩, isOpen_openStore later⟩
    · cases h
  cases hc : d.session.current with
  | none => exact opened d.session rfl (by rw [Session.acquire, hc])
  | some number =>
    cases ho : d.store.isOpen with
    | true =>
      have used : acquired d = d := by
        rw [acquired, Session.acquire, hc, ho]
        simp
      rw [acquire_of_current hc ho] at h
      cases h
      exact ⟨used.symm, ⟨number, hc⟩, ho⟩
    | false =>
      refine opened d.session.drop ?_ (by rw [Session.acquire, hc, ho]; rfl)
      rw [Session.drop, hc]

theorem alike_of_acquire {d d' : Directory} (h : Directory.acquire d = .ok () d')
    (hl : d.store.lasting = true) : Alike d d' := by
  rw [(acquire_ok h).1]
  exact alike_acquired hl

/-- Whoever has found a session finds it again. -/
theorem acquire_again {d d' : Directory} (h : Directory.acquire d = .ok () d') :
    Directory.acquire d' = .ok () d' := by
  obtain ⟨-, ⟨number, current⟩, isOpen⟩ := acquire_ok h
  exact acquire_of_current current isOpen

end AddressBook.Action

namespace AddressBook.Directory

open AddressBook.Action

variable {d d' : Directory}

/-- A sound store in memory that outlives the session. -/
structure InMemory (d : Directory) : Prop where
  memory : d.store.backing = .memory
  lasting : d.store.lasting = true
  sound : d.store.Sound

theorem InMemory.alike (h : d.InMemory) (same : Alike d d') : d'.InMemory :=
  ⟨same.backing.trans h.memory, same.lasting.trans h.lasting, h.sound.congr same.notes⟩

theorem InMemory.afterSave (h : d.InMemory) (n : Note) : (d.afterSave n).InMemory :=
  ⟨(backing_afterSave n).trans h.memory, (Store.lasting_spend _).trans h.lasting,
    (h.sound.put rfl).spend⟩

theorem InMemory.afterRefusal (h : d.InMemory) (n : Note) : (d.afterRefusal n).InMemory :=
  ⟨h.memory, h.lasting, h.sound⟩

theorem InMemory.afterDelete (h : d.InMemory) (id : String) (journal : List Write) :
    InMemory { d with store := d.store.erase id, journal } :=
  ⟨h.memory, h.lasting, h.sound.erase id⟩

end AddressBook.Directory

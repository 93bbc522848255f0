import AddressBook.Directory.Session
import Mathlib.Data.List.Induction
import Mathlib.Data.List.Nodup
import Mathlib.Logic.Function.Basic

/-! The session over time. It is asked for and disposed of in any order, sessions die and come back
to life in between, and attempts to open one go as they may. Whoever asks is handed the current
session, which is alive. Of the sessions that were ever opened each is current or was closed once,
apart from those that were dead when they were opened: they are neither. -/

namespace AddressBook

/-- What an attempt to open the session with the number loses: the session, if it is dead. -/
def Opening.loses (opening : Opening) (number : Nat) : List Nat :=
  match opening with
  | .dead => [number]
  | .live | .refused _ => []

namespace Session

/-! What became of the sessions that were opened. -/

/-- Either current, or closed once. -/
def Accounted (s : Session) (number : Nat) : Prop :=
  s.current = some number ∧ number ∉ s.closed ∨
    s.current ≠ some number ∧ s.closed.count number = 1

instance (s : Session) (number : Nat) : Decidable (s.Accounted number) :=
  inferInstanceAs (Decidable (_ ∨ _))

/-- The sessions that were opened are the closed ones, the current one and the lost ones, each once
and in one place. -/
def Balances (s : Session) (lost : List Nat) : Prop :=
  (s.closed ++ s.current.toList ++ lost).Perm (List.range s.opened)

variable {s : Session} {lost : List Nat} {number : Nat}

theorem balances_empty : Balances {} [] := .refl []

theorem current_drop (s : Session) : s.drop.current = none := by
  rw [drop]
  split
  · assumption
  · rfl

theorem counts_drop (s : Session) : s.drop.attempts = s.attempts ∧ s.drop.opened = s.opened := by
  rw [drop]
  split <;> exact ⟨rfl, rfl⟩

theorem Balances.drop (h : s.Balances lost) : s.drop.Balances lost := by
  rw [Session.drop]
  split
  · exact h
  · next current =>
    rw [Balances, current] at h
    simpa [Balances] using h

theorem Balances.open? (h : s.Balances lost) (none : s.current = none) (opening : Opening) :
    (s.open? opening).2.Balances (lost ++ opening.loses s.opened) := by
  rw [Balances, none, Option.toList_none, List.append_nil] at h
  cases opening with
  | refused fault => simpa [Session.open?, Balances, Opening.loses, none] using h
  | dead =>
    have grown := h.append_right [s.opened]
    rw [← List.range_succ] at grown
    simpa [Session.open?, Balances, Opening.loses, none] using grown
  | live =>
    have grown : (s.closed ++ [s.opened] ++ lost).Perm (s.closed ++ lost ++ [s.opened]) := by
      rw [List.append_assoc, List.append_assoc]
      exact List.perm_append_comm.append_left s.closed
    have whole := grown.trans (h.append_right [s.opened])
    rw [← List.range_succ] at whole
    simpa [Session.open?, Balances, Opening.loses] using whole

theorem Balances.accounted_iff (h : s.Balances lost) (hn : number < s.opened) :
    s.Accounted number ↔ number ∉ lost := by
  have total : s.closed.count number + s.current.toList.count number + lost.count number = 1 := by
    rw [← List.count_append, ← List.count_append, h.count_eq]
    exact List.count_eq_one_of_mem List.nodup_range (List.mem_range.mpr hn)
  rw [Accounted, ← List.count_eq_zero, ← List.count_eq_zero]
  by_cases current : s.current = some number
  · have one : s.current.toList.count number = 1 := by simp [current]
    simp only [current, ne_eq, not_true_eq_false, false_and, or_false, true_and]
    omega
  · have zero : s.current.toList.count number = 0 := by
      rw [List.count_eq_zero, Option.mem_toList]
      exact current
    simp only [current, ne_eq, not_false_eq_true, false_and, false_or, true_and]
    omega

theorem Balances.lt_of_mem (h : s.Balances lost) (hn : number ∈ lost) : number < s.opened :=
  List.mem_range.mp (h.mem_iff.mp (List.mem_append_right _ hn))

theorem acquire_of_not_alive (s : Session) (opening : Opening) :
    s.acquire false opening = s.drop.open? opening := by
  rw [acquire]
  cases current : s.current with
  | none => rw [drop, current]
  | some number => rfl

/-! Sessions that live and die. -/

/-- The session, and which of those that were opened are alive. -/
structure Scene where
  session : Session := {}
  alive : Nat → Bool := fun _ => false

inductive Event where
  /-- A session is asked for; if one has to be opened, the attempt goes as told. -/
  | acquire (opening : Opening)
  | dispose
  /-- A session dies, or comes back to life. -/
  | turn (number : Nat) (alive : Bool)
  deriving DecidableEq

namespace Scene

def isLive (w : Scene) : Bool := w.session.current.any w.alive

def acquire (w : Scene) (opening : Opening) : Except Fault Nat × Scene :=
  let (outcome, session) := w.session.acquire w.isLive opening
  let alive :=
    if w.isLive then w.alive
    else Function.update w.alive w.session.opened (opening == .live)
  (outcome, ⟨session, alive⟩)

def step (w : Scene) : Event → Scene
  | .acquire opening => (w.acquire opening).2
  | .dispose => { w with session := w.session.drop }
  | .turn number alive => { w with alive := Function.update w.alive number alive }

def after (events : List Event) : Scene := events.foldl step {}

theorem after_concat (events : List Event) (event : Event) :
    after (events ++ [event]) = (after events).step event := by
  rw [after, after, List.foldl_append, List.foldl_cons, List.foldl_nil]

variable {w : Scene}

theorem acquire_of_isLive (h : w.isLive = true) (opening : Opening) :
    ∃ number, w.session.current = some number ∧ w.alive number = true ∧
      w.acquire opening = (.ok number, w) := by
  obtain ⟨number, current, alive⟩ := (Option.any_eq_true _ _).mp h
  refine ⟨number, current, alive, ?_⟩
  rw [acquire, h, Session.acquire, current]
  rfl

theorem acquire_of_not_isLive (h : w.isLive = false) (opening : Opening) :
    w.acquire opening = ((w.session.drop.open? opening).1, ⟨(w.session.drop.open? opening).2,
      Function.update w.alive w.session.opened (opening == .live)⟩) := by
  rw [acquire, h, acquire_of_not_alive]
  rfl

/-- What whoever asks for the session is answered: the current session, alive, which was opened for
it only if there was none alive; or else that the directory is out of reach, and then no session is
current. -/
structure Serves (w : Scene) (opening : Opening) : Prop where
  answers : (∃ number, (w.acquire opening).1 = .ok number) ↔ w.isLive = true ∨ opening = .live
  current : ∀ number, (w.acquire opening).1 = .ok number →
    (w.acquire opening).2.session.current = some number ∧
      (w.acquire opening).2.alive number = true
  failed : ∀ fault, (w.acquire opening).1 = .error fault →
    (∃ cause, fault = .unavailable cause) ∧ (w.acquire opening).2.session.current = none
  attempts : (w.acquire opening).2.session.attempts =
    w.session.attempts + if w.isLive then 0 else 1

theorem outOfReach_eq (fault : Fault) : ∃ cause, outOfReach fault = .unavailable cause := by
  cases fault <;> exact ⟨_, rfl⟩

theorem serves (w : Scene) (opening : Opening) : w.Serves opening := by
  cases live : w.isLive with
  | true =>
    obtain ⟨number, current, alive, same⟩ := acquire_of_isLive live opening
    refine ⟨?_, ?_, ?_, ?_⟩ <;> rw [same]
    · exact iff_of_true ⟨number, rfl⟩ (Or.inl live)
    · rintro _ ⟨⟩
      exact ⟨current, alive⟩
    · rintro _ ⟨⟩
    · rw [live]
      rfl
  | false =>
    obtain ⟨attempts, opened⟩ := counts_drop w.session
    have same := acquire_of_not_isLive live opening
    refine ⟨?_, ?_, ?_, ?_⟩ <;> rw [same] <;> cases opening <;>
      simp [Session.open?, live, attempts, opened, current_drop, outOfReach_eq, notAlive]

def loses (w : Scene) : Event → List Nat
  | .acquire opening => if w.isLive then [] else opening.loses w.session.opened
  | .dispose | .turn _ _ => []

theorem balances_step (h : w.session.Balances lost) (event : Event) :
    (w.step event).session.Balances (lost ++ w.loses event) := by
  cases event with
  | dispose =>
    rw [loses, List.append_nil]
    exact h.drop
  | turn number alive =>
    rw [loses, List.append_nil]
    exact h
  | acquire opening =>
    rw [step, loses]
    cases live : w.isLive with
    | true =>
      obtain ⟨_, _, _, same⟩ := acquire_of_isLive live opening
      rw [same, if_pos rfl, List.append_nil]
      exact h
    | false =>
      have opened := h.drop.open? (current_drop w.session) opening
      rw [(counts_drop w.session).2] at opened
      rw [acquire_of_not_isLive live, if_neg Bool.false_ne_true]
      exact opened

/-- Somewhere among the events there was no live session, and the one with the number was opened and
was dead. -/
def OpenedDead (events : List Event) (number : Nat) : Prop :=
  ∃ earlier later, events = earlier ++ .acquire .dead :: later ∧
    (after earlier).isLive = false ∧ (after earlier).session.opened = number

theorem mem_loses {event : Event} :
    number ∈ w.loses event ↔
      event = .acquire .dead ∧ w.isLive = false ∧ w.session.opened = number := by
  cases event with
  | dispose => simp [loses]
  | turn _ _ => simp [loses]
  | acquire opening =>
    cases live : w.isLive <;> cases opening <;> simp [loses, live, Opening.loses, eq_comm]

theorem openedDead_concat {events : List Event} {event : Event} :
    OpenedDead (events ++ [event]) number ↔
      OpenedDead events number ∨ number ∈ (after events).loses event := by
  rw [mem_loses]
  constructor
  · rintro ⟨earlier, later, whole, live, opened⟩
    rcases List.eq_nil_or_concat later with rfl | ⟨others, last, rfl⟩
    · obtain ⟨rfl, same⟩ := List.append_inj' whole rfl
      exact Or.inr ⟨List.head_eq_of_cons_eq same, live, opened⟩
    · rw [List.concat_eq_append, ← List.cons_append, ← List.append_assoc] at whole
      exact Or.inl ⟨earlier, others, (List.append_inj' whole rfl).1, live, opened⟩
  · rintro (⟨earlier, later, rfl, live, opened⟩ | ⟨rfl, live, opened⟩)
    · exact ⟨earlier, later ++ [event], by simp, live, opened⟩
    · exact ⟨events, [], rfl, live, opened⟩

/-- After any events the sessions balance, and the lost ones are those that were opened dead. -/
theorem exists_balances (events : List Event) :
    ∃ lost, (after events).session.Balances lost ∧
      ∀ number, number ∈ lost ↔ OpenedDead events number := by
  -- By the last event, which adds what it loses to what was lost before.
  induction events using List.reverseRecOn with
  | nil =>
    refine ⟨[], balances_empty, fun number => ?_⟩
    simp [OpenedDead]
  | append_singleton events event ih =>
    obtain ⟨lost, balances, dead⟩ := ih
    refine ⟨lost ++ (after events).loses event, ?_, fun number => ?_⟩
    · rw [after_concat]
      exact balances_step balances event
    · rw [List.mem_append, dead, openedDead_concat]

/-- After any events whoever asks is handed the current session, alive, and each session that was
opened is current or was closed once, if and only if it was not dead when it was opened. -/
theorem accounted_iff_not_openedDead (events : List Event) :
    (∀ opening, (after events).Serves opening) ∧
      (∀ number < (after events).session.opened,
        (after events).session.Accounted number ↔ ¬OpenedDead events number) ∧
      ((∀ number < (after events).session.opened, (after events).session.Accounted number) ↔
        ∀ number, ¬OpenedDead events number) := by
  obtain ⟨lost, balances, dead⟩ := exists_balances events
  have each : ∀ number < (after events).session.opened,
      ((after events).session.Accounted number ↔ ¬OpenedDead events number) := by
    intro number hn
    rw [balances.accounted_iff hn, dead]
  refine ⟨serves _, each, ?_, fun none number hn => (each number hn).mpr (none number)⟩
  intro all number lost
  have hn := balances.lt_of_mem ((dead number).mpr lost)
  exact (each number hn).mp (all number hn) lost

/-- A session that is dead when it is opened is never closed. -/
theorem not_always_accounted :
    ¬ ∀ events, ∀ number < (after events).session.opened,
      (after events).session.Accounted number := by
  intro always
  have lost := always [.acquire .dead] 0 (by decide)
  revert lost
  decide

theorem accounted_iff_not_openedDead_sample :
    let events : List Event :=
      [.acquire .live, .turn 0 false, .acquire .dead, .acquire .live, .dispose]
    (after events).session.opened = 3 ∧ (after events).session.closed = [0, 2] ∧
      (after events).session.Accounted 0 ∧ ¬(after events).session.Accounted 1 ∧
        OpenedDead events 1 ∧ (after events).session.Accounted 2 := by
  intro events
  have opened : (after events).session.opened = 3 := by decide
  obtain ⟨-, each, -⟩ := accounted_iff_not_openedDead events
  have lost : OpenedDead events 1 :=
    ⟨[.acquire .live, .turn 0 false], [.acquire .live, .dispose], rfl, by decide, by decide⟩
  refine ⟨opened, by decide, by decide, ?_, lost, by decide⟩
  rw [each 1 (by rw [opened]; decide), not_not]
  exact lost

end Session.Scene

end AddressBook

import AddressBook.Entry.Update
import AddressBook.Proofs.Except
import AddressBook.Proofs.Growing
import AddressBook.Proofs.Note.Spelling
import AddressBook.Proofs.Schema.Lookup

/-! Updating one attribute of a note. What is stored is decided before the note is looked at, so that a
refused update leaves no trace. An accepted one puts a list of values in the place of another, and the
list that it would put there next is the same. -/

namespace AddressBook

open Text

namespace Number

theorem sameValue_self {n : Number} {i : Int} (h : n.position = some i) : n.sameValue n = true := by
  have equal : n.compare? n = some (Ord.compare i i) := by
    rw [compare?, h]
    rfl
  have self : Ord.compare i i = .eq := Std.ReflCmp.compare_self
  rw [sameValue, equal, self, beq_self_eq_true]

end Number

namespace Note

namespace Value

theorem same_self {v : Value} (h : v ≠ .number .nan) : v.same v = true := by
  cases v with
  | text s => exact beq_self_eq_true s
  | moment m => exact beq_self_eq_true m
  | number n =>
    cases n with
    | nan => exact absurd rfl h
    | infinite negative | finite negative steps => exact Number.sameValue_self rfl

theorem sameAll_self {vs : List Value} (h : ∀ v ∈ vs, v ≠ .number .nan) : sameAll vs vs = true := by
  induction vs with
  | nil => rfl
  | cons v vs ih =>
    obtain ⟨first, others⟩ := List.forall_mem_cons.mp h
    rw [sameAll, same_self first, ih others, Bool.and_self]

end Value

def valuesAt (n : Note) (name : String) : List Value := (n.item? name).getD []

def withValues (n : Note) (name : String) (values : List Value) : Note :=
  if values.isEmpty then n.removeItem name else n.setItem name values

def HasNumbers (n : Note) : Prop := ∀ entry ∈ n.items, ∀ v ∈ entry.2, v ≠ .number .nan

instance (n : Note) : Decidable n.HasNumbers :=
  inferInstanceAs (Decidable (∀ entry ∈ n.items, ∀ v ∈ entry.2, v ≠ .number .nan))

variable {n : Note} {name : String} {values : List Value}

theorem HasNumbers.valuesAt (h : n.HasNumbers) (name : String) :
    ∀ v ∈ n.valuesAt name, v ≠ .number .nan := by
  intro v hv
  rw [Note.valuesAt] at hv
  cases held : n.item? name with
  | none => rw [held] at hv; exact absurd hv List.not_mem_nil
  | some values =>
    obtain ⟨entry, found, rfl⟩ := Option.map_eq_some_iff.mp held
    rw [held] at hv
    exact h entry (List.mem_of_find?_eq_some found) v hv

theorem valuesAt_withValues (h : n.SpelledOnce) {other : String}
    (same : sameAscii other name = true) : (n.withValues name values).valuesAt other = values := by
  rw [valuesAt, withValues]
  split
  · next none =>
    rw [item?_congr same, h.item?_removeItem, List.isEmpty_iff.mp none]
    rfl
  · rw [item?_setItem_of_same same]
    rfl

theorem SpelledOnce.withValues (h : n.SpelledOnce) (name : String) (values : List Value) :
    (n.withValues name values).SpelledOnce := by
  rw [Note.withValues]
  split
  · exact h.removeItem name
  · exact h.setItem name values

theorem id_withValues (n : Note) (name : String) (values : List Value) :
    (n.withValues name values).id = n.id := by
  rw [withValues]
  split
  · exact id_removeItem n name
  · rfl

theorem modified_withValues (n : Note) (name : String) (values : List Value) :
    (n.withValues name values).modified = n.modified := by
  rw [withValues, removeItem]
  split
  · split <;> rfl
  · rfl

theorem SpelledOnce.get?_withValues_of_ne (h : n.SpelledOnce) {key : String}
    (other : sameAscii key name = false) (values : List Value) :
    (n.withValues name values).items.get? key = n.items.get? key := by
  rw [Note.withValues]
  split
  · exact h.get?_removeItem_of_ne other
  · exact get?_setItem_of_ne other values

end Note

namespace Entry

variable {kind : EntryClass} {name : String} {values : List AttributeValue} {how : UpdateKind}

/-! Combining. -/

section

variable {current incoming : List Note.Value}

theorem mem_union {v : Note.Value} (h : v ∈ union current incoming) :
    v ∈ current ∨ v ∈ incoming := by
  rcases Growing.mem_foldl_unless (f := fun value => value) h with h | ⟨_, given, rfl⟩
  · exact Or.inl h
  · exact Or.inr given

theorem mem_combine {multiValued : Bool} {v : Note.Value}
    (h : v ∈ combine how multiValued current incoming) : v ∈ current ∨ v ∈ incoming := by
  cases how with
  | replace => exact Or.inr h
  | remove => exact Or.inl (List.mem_filter.mp h).1
  | add =>
    rw [combine] at h
    split at h
    · exact mem_union h
    · split at h
      · exact Or.inr h
      · exact Or.inl h

theorem combine_combine (numbers : ∀ v ∈ incoming, v ≠ .number .nan) (how : UpdateKind)
    (multiValued : Bool) (current : List Note.Value) :
    combine how multiValued (combine how multiValued current incoming) incoming =
      combine how multiValued current incoming := by
  cases how with
  | replace => rfl
  | remove => rw [combine, combine, List.filter_filter]; simp
  | add =>
    cases multiValued with
    | true =>
      exact Growing.grown_twice (c := fun v value => v.same value) (f := fun value => value)
        (fun v hv => Note.Value.same_self (numbers v hv)) current
    | false =>
      rw [combine, combine, if_neg Bool.false_ne_true, if_neg Bool.false_ne_true]
      split
      · split <;> rfl
      · rfl

end

/-! What is stored. -/

/-- The values that an update stores, or why it is refused. -/
def accepted (kind : EntryClass) (name : String) (values : List AttributeValue) :
    Except Fault (List Note.Value) :=
  let known := Schema.find? kind name
  if !(known.map (·.updateable)).getD true then
    .error (AttributeFlaw.notUpdateable ((known.map (·.name)).getD name)).fault
  else storedValues kind name values

theorem ofInt_ne_nan (i : Int) : Number.ofInt i ≠ .nan := by
  rw [Number.ofInt, Number.ofRatio, Number.ofSteps]
  split <;> rintro ⟨⟩

theorem storedValue_ne_nan {value : AttributeValue} {v : Note.Value}
    (h : storedValue kind name value = .ok v) : v ≠ .number .nan := by
  rw [storedValue.eq_def] at h
  split at h
  · cases h
  · split at h
    · obtain ⟨i, -, stored⟩ := bind_eq_ok h
      cases stored
      exact fun none => ofInt_ne_nan i (Note.Value.number.inj none)
    · obtain ⟨i, -, stored⟩ := bind_eq_ok h
      cases stored
      rintro ⟨⟩
    · obtain ⟨text, -, stored⟩ := bind_eq_ok h
      cases stored
      rintro ⟨⟩

theorem storedValues_of_accepted {incoming : List Note.Value}
    (h : accepted kind name values = .ok incoming) : storedValues kind name values = .ok incoming := by
  rw [accepted] at h
  split at h
  · cases h
  · exact h

theorem accepted_ne_nan {incoming : List Note.Value} (h : accepted kind name values = .ok incoming) :
    ∀ v ∈ incoming, v ≠ .number .nan := by
  intro v hv
  obtain ⟨value, -, stored⟩ := (mem_of_mapM_ok (storedValues_of_accepted h)).1 v hv
  exact storedValue_ne_nan stored

/-- The values of an item after an update with values to store. -/
def combined (kind : EntryClass) (name : String) (how : UpdateKind) (n : Note)
    (incoming : List Note.Value) : List Note.Value :=
  combine how (((Schema.find? kind name).map (·.multiValued)).getD true) (n.valuesAt name) incoming

theorem update_eq_map (n : Note) (kind : EntryClass) (name : String) (values : List AttributeValue)
    (how : UpdateKind) :
    update n kind name values how = (accepted kind name values).map fun incoming =>
      if Note.Value.sameAll (combined kind name how n incoming) (n.valuesAt name) then (false, n)
      else (true, n.withValues (((Schema.find? kind name).map (·.name)).getD name)
        (combined kind name how n incoming)) := by
  rw [update, accepted]
  dsimp only
  split
  · rfl
  · cases storedValues kind name values with
    | error fault => rfl
    | ok incoming =>
      change ite _ _ (ite _ _ _) = Except.ok (ite _ _ _)
      rw [combined, Note.valuesAt, Note.withValues]
      by_cases same : Note.Value.sameAll (combine how
        (((Schema.find? kind name).map (·.multiValued)).getD true) ((n.item? name).getD []) incoming)
        ((n.item? name).getD [])
      · rw [if_pos same, if_pos same]
        rfl
      · rw [if_neg same, if_neg same]
        split <;> rfl

theorem update_ok_cases {n m : Note} {changed : Bool}
    (h : update n kind name values how = .ok (changed, m)) :
    ∃ incoming, accepted kind name values = .ok incoming ∧
      (changed = false ∧ m = n ∨
        changed = true ∧
          Note.Value.sameAll (combined kind name how n incoming) (n.valuesAt name) = false ∧
          m = n.withValues (((Schema.find? kind name).map (·.name)).getD name)
            (combined kind name how n incoming)) := by
  rw [update_eq_map] at h
  cases stored : accepted kind name values with
  | error fault =>
    rw [stored] at h
    cases h
  | ok incoming =>
    rw [stored] at h
    refine ⟨incoming, rfl, ?_⟩
    have ended := Except.ok.inj h
    dsimp only at ended
    split at ended
    · cases ended
      exact Or.inl ⟨rfl, rfl⟩
    · next other =>
      cases ended
      exact Or.inr ⟨rfl, Bool.eq_false_iff.mpr other, rfl⟩

theorem update_of_combined {n m : Note} {incoming : List Note.Value} (numbers : n.HasNumbers)
    (stored : accepted kind name values = .ok incoming)
    (held : m.valuesAt name = combined kind name how n incoming) :
    update m kind name values how = .ok (false, m) := by
  have given : ∀ v ∈ incoming, v ≠ .number .nan := accepted_ne_nan stored
  have settled : combined kind name how m incoming = m.valuesAt name := by
    rw [combined, held, combined, combine_combine given]
  have numbered : ∀ v ∈ m.valuesAt name, v ≠ .number .nan := by
    intro v hv
    rw [held] at hv
    rcases mem_combine hv with hv | hv
    · exact numbers.valuesAt name v hv
    · exact given v hv
  rw [update_eq_map, stored]
  change Except.ok (ite _ _ _) = _
  rw [settled, if_pos (Note.Value.sameAll_self numbered)]

/-! The note is changed in place. -/

/-- The update of a note in place. What may refuse it comes before the note is written. -/
def updateInPlace (kind : EntryClass) (name : String) (values : List AttributeValue)
    (how : UpdateKind) : EStateM Fault Note Bool := do
  let known := Schema.find? kind name
  let stored := (known.map (·.name)).getD name
  unless (known.map (·.updateable)).getD true do throw (AttributeFlaw.notUpdateable stored).fault
  let incoming ← MonadExcept.ofExcept (storedValues kind name values)
  let current := ((← get).item? name).getD []
  let updated := combine how ((known.map (·.multiValued)).getD true) current incoming
  if Note.Value.sameAll updated current then return false
  if updated.isEmpty then modify (·.removeItem stored) else modify (·.setItem stored updated)
  return true

def concluded (n : Note) : Except Fault (Bool × Note) → EStateM.Result Fault Note Bool
  | .ok (changed, m) => .ok changed m
  | .error fault => .error fault n

theorem updateInPlace_eq (n : Note) (kind : EntryClass) (name : String)
    (values : List AttributeValue) (how : UpdateKind) :
    updateInPlace kind name values how n = concluded n (update n kind name values how) := by
  rw [updateInPlace, update]
  dsimp only
  cases ((Schema.find? kind name).map (·.updateable)).getD true with
  | false => rfl
  | true =>
    cases storedValues kind name values with
    | error fault => rfl
    | ok incoming =>
      rw [if_pos rfl, if_neg (by decide)]
      change (ite _ _ (ite _ _ _) : EStateM Fault Note Bool) n = concluded n (ite _ _ (ite _ _ _))
      split
      · rfl
      · split <;> rfl

/-- A refused update leaves no trace. An accepted one tells whether the values of the attribute
became others, leaves everything else as it was, and comes to nothing when it is repeated. -/
theorem updates_in_place_once {n : Note} (once : n.SpelledOnce) (numbers : n.HasNumbers)
    (kind : EntryClass) (name : String) (values : List AttributeValue) (how : UpdateKind) :
    (∀ fault after, updateInPlace kind name values how n = .error fault after →
      update n kind name values how = .error fault ∧ after = n) ∧
    ∀ changed m, updateInPlace kind name values how n = .ok changed m →
      update n kind name values how = .ok (changed, m) ∧
      (changed = true ↔ m.valuesAt name ≠ n.valuesAt name) ∧ (changed = false → m = n) ∧
      m.id = n.id ∧ m.modified = n.modified ∧
      (∀ key, sameAscii key name = false → m.items.get? key = n.items.get? key) ∧
      m.SpelledOnce ∧
      updateInPlace kind name values how m = .ok false m := by
  rw [updateInPlace_eq]
  cases done : update n kind name values how with
  | error fault =>
    refine ⟨?_, by rintro _ _ ⟨⟩⟩
    rintro _ _ ⟨⟩
    exact ⟨rfl, rfl⟩
  | ok ended =>
    obtain ⟨changed, m⟩ := ended
    refine ⟨by rintro _ _ ⟨⟩, ?_⟩
    rintro _ _ ⟨⟩
    refine ⟨rfl, ?_⟩
    obtain ⟨incoming, stored, ⟨rfl, rfl⟩ | ⟨rfl, other, rfl⟩⟩ := update_ok_cases done
    · refine ⟨by simp, fun _ => rfl, rfl, rfl, fun _ _ => rfl, once, ?_⟩
      rw [updateInPlace_eq, done]
      rfl
    · have spelled := Schema.sameAscii_storedName kind name
      have held : (n.withValues (((Schema.find? kind name).map (·.name)).getD name)
          (combined kind name how n incoming)).valuesAt name = combined kind name how n incoming :=
        n.valuesAt_withValues once (by rwa [sameAscii_comm])
      refine ⟨?_, by simp, n.id_withValues _ _, n.modified_withValues _ _, ?_,
        once.withValues _ _, ?_⟩
      · rw [held]
        refine ⟨fun _ same => ?_, fun _ => rfl⟩
        rw [same, Note.Value.sameAll_self (numbers.valuesAt name)] at other
        cases other
      · intro key apart
        refine once.get?_withValues_of_ne ?_ _
        rw [sameAscii_comm, sameAscii_congr spelled, sameAscii_comm, apart]
      · rw [updateInPlace_eq, update_of_combined numbers stored held]
        rfl

def sampleUnits (units : List String) : Note :=
  (Note.ofClass .account).setTexts "altorgunit" units

theorem updates_in_place_once_samples :
    (∃ m, updateInPlace .account "ALTORGUNIT" [.text "Sales", .text "Support", .text "Support"] .add
        (sampleUnits ["Sales"]) = .ok true m ∧ m.texts "AltOrgUnit" = ["Sales", "Support"] ∧
      updateInPlace .account "ALTORGUNIT" [.text "Sales", .text "Support", .text "Support"] .add
        m = .ok false m) ∧
    ∃ fault, updateInPlace .account "ORGUNIT" [.text "Sales"] .replace (sampleUnits ["Sales"]) =
      .error fault (sampleUnits ["Sales"]) := by
  have known : (sampleUnits ["Sales"]).SpelledOnce ∧ (sampleUnits ["Sales"]).HasNumbers ∧
      (update (sampleUnits ["Sales"]) .account "ALTORGUNIT"
        [.text "Sales", .text "Support", .text "Support"] .add).toOption =
          some (true, sampleUnits ["Sales", "Support"]) ∧
      (sampleUnits ["Sales", "Support"]).texts "AltOrgUnit" = ["Sales", "Support"] ∧
      (Schema.find? .account "ORGUNIT").map (·.updateable) = some false := by
    decide +kernel
  obtain ⟨once, numbers, added, listed, fixed⟩ := known
  constructor
  · have changed : updateInPlace .account "ALTORGUNIT"
        [.text "Sales", .text "Support", .text "Support"] .add (sampleUnits ["Sales"]) =
        .ok true (sampleUnits ["Sales", "Support"]) := by
      rw [updateInPlace_eq, eq_ok_of_toOption added]
      rfl
    obtain ⟨-, -, -, -, -, -, -, again⟩ :=
      (updates_in_place_once once numbers _ _ _ _).2 _ _ changed
    exact ⟨_, changed, listed, again⟩
  · cases done : updateInPlace .account "ORGUNIT" [.text "Sales"] .replace
        (sampleUnits ["Sales"]) with
    | error fault after =>
      exact ⟨fault, by rw [((updates_in_place_once once numbers _ _ _ _).1 _ _ done).2]⟩
    | ok changed m =>
      rw [updateInPlace_eq, update] at done
      dsimp only at done
      rw [fixed] at done
      cases done

end Entry

end AddressBook

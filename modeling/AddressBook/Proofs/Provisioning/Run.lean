import AddressBook.Proofs.Attribute.Taking
import AddressBook.Proofs.Directory.Triple
import AddressBook.Proofs.Name.Nested
import AddressBook.Provisioning.Entries

/-! Runs of calls that write. A call ends with or without a fault, and the next one finds the notes
that it left. In between a session may have come or gone, and a store in memory may have been told
after how many more saves it fails. -/

namespace AddressBook

inductive Call where
  | create (kind : EntryClass) (attributes : Attributes)
  | update (kind : EntryClass) (uid : String) (attributes : Attributes) (how : UpdateKind)
  | delete (kind : EntryClass) (uid : String)

namespace Call

def attributes : Call → Attributes
  | .create _ attributes => attributes
  | .update _ _ attributes _ => attributes
  | .delete _ _ => []

def aliases (call : Call) : Option (List String) :=
  match Group.Request.ofAttributes call.attributes with
  | .ok request => request.aliases
  | .error _ => none

def namesIn (kind : EntryClass) (attributes : Attributes) : List String :=
  match kind with
  | .account => attributes.given Schema.nameAttribute
  | .group =>
    (attributes.given Schema.nameAttribute ++ attributes.given "ListName").flatMap Alias.split ++
      (attributes.given "Members" ++ attributes.given "MemberGroups" ++
        attributes.given "MemberPeople")

def names : Call → List String
  | .create kind attributes => namesIn kind attributes
  | .update kind _ attributes _ => namesIn kind attributes
  | .delete _ _ => []

def run (settings : Settings) : Call → Action Unit
  | .create kind attributes => discard (Entries.create settings kind attributes)
  | .update kind uid attributes how => discard (Entries.update settings kind uid attributes how)
  | .delete kind uid => Entries.delete settings kind uid

/-- No two keys are the same up to case, and none of them is the item that holds the class. -/
structure Proper (call : Call) : Prop where
  distinct : call.attributes.Distinct
  formless : call.attributes.Lacks "Form"

/-- No name, alias or member is a single component with a label whose value starts with a label. -/
def Plain (call : Call) : Prop := ∀ name ∈ call.names, Name.isNested name = false

instance (call : Call) : Decidable call.Proper :=
  decidable_of_iff (call.attributes.Distinct ∧ call.attributes.Lacks "Form")
    ⟨fun ⟨distinct, formless⟩ => ⟨distinct, formless⟩, fun h => ⟨h.distinct, h.formless⟩⟩

instance (call : Call) : Decidable call.Plain := inferInstanceAs (Decidable (∀ name ∈ call.names, _))

end Call

structure Step where
  before : Directory
  settings : Settings
  call : Call

def Step.after (step : Step) : Directory :=
  match step.call.run step.settings step.before with
  | .ok _ d => d
  | .error _ d => d

theorem Step.after_eq (step : Step) :
    step.after = Action.ended (step.call.run step.settings) step.before := by
  rw [after, Action.ended]
  cases step.call.run step.settings step.before <;> rfl

theorem Step.after_of_leads {step : Step} {P K : Directory → Prop}
    (h : Action.Leads P (step.call.run step.settings) (fun _ d => K d) K) (hp : P step.before) :
    K step.after := by
  rw [after_eq]
  exact h.ended hp

structure Store.Unused (s : Store) (id : String) : Prop where
  alphanumeric : id.toList.all Text.isAsciiAlphanumeric = true
  fresh : ∀ key ∈ s.notes.keys, Text.sameAscii key id = false

theorem Store.Unused.get?_eq_none {s : Store} {id : String} (h : s.Unused id) :
    s.notes.get? id = none := by
  rw [Keyed.get?_eq_none_iff]
  intro taken
  have other := h.fresh id taken
  rw [Text.sameAscii_refl] at other
  cases other

namespace Directory

structure Empty (d : Directory) : Prop where
  memory : d.store.backing = .memory
  lasting : d.store.lasting = true
  notes : d.store.notes = []

/-- The second directory has the notes of the first. -/
structure Continues (d d' : Directory) : Prop where
  notes : d'.store.notes = d.store.notes
  backing : d'.store.backing = d.store.backing
  lasting : d'.store.lasting = d.store.lasting

/-- It also has an id for a new one. -/
structure Resumes (d d' : Directory) : Prop extends Continues d d' where
  unused : d'.store.Unused d'.supply.takeId.1

theorem Continues.refl (d : Directory) : d.Continues d := ⟨rfl, rfl, rfl⟩

theorem Continues.with_supply (d : Directory) (supply : Supply) : d.Continues { d with supply } :=
  ⟨rfl, rfl, rfl⟩

theorem Continues.trans {d d₁ d₂ : Directory} (h : d.Continues d₁) (h' : d₁.Continues d₂) :
    d.Continues d₂ :=
  ⟨h'.notes.trans h.notes, h'.backing.trans h.backing, h'.lasting.trans h.lasting⟩

theorem Continues.of_alike {d d' : Directory} (h : Action.Alike d d') : d.Continues d' :=
  ⟨h.notes, h.backing, h.lasting⟩

theorem Empty.inMemory {d : Directory} (h : d.Empty) : d.InMemory :=
  ⟨h.memory, h.lasting, Store.sound_of_notes_nil h.notes⟩

theorem Continues.inMemory {d d' : Directory} (h : d.Continues d') (hd : d.InMemory) :
    d'.InMemory :=
  ⟨h.backing.trans hd.memory, h.lasting.trans hd.lasting, hd.sound.congr h.notes⟩

theorem InMemory.continues {d d' : Directory} (hd : d.InMemory) (memory : d'.store.backing = .memory)
    (lasting : d'.store.lasting = true) (notes : d'.store.notes = d.store.notes) : d.Continues d' :=
  ⟨notes, memory.trans hd.memory.symm, lasting.trans hd.lasting.symm⟩

end Directory

/-- The calls, one after the other, lead from the first directory to the last. -/
inductive Run (start : Directory) : List Step → Directory → Prop
  | start : Run start [] start
  | step {steps : List Step} {step : Step} {d : Directory} (earlier : Run start steps d)
      (resumes : d.Resumes step.before) : Run start (steps ++ [step]) step.after

/-- What holds at the start, and is kept by each call that is allowed, holds along a run. -/
theorem Run.always {P : Directory → Prop} {allowed : Step → Prop} {start d : Directory}
    {steps : List Step} (run : Run start steps d) (first : P start)
    (ha : ∀ step ∈ steps, allowed step)
    (next : ∀ (step : Step) (d : Directory), allowed step → d.Resumes step.before → P d →
      P step.after) : P d := by
  induction run with
  | start => exact first
  | step earlier resumes ih =>
    obtain ⟨before, last⟩ := List.forall_mem_append.mp ha
    exact next _ _ (List.forall_mem_singleton.mp last) resumes (ih before)

theorem Run.next {start d : Directory} {steps : List Step} (earlier : Run start steps d)
    (settings : Settings) (call : Call) {id : String}
    (alphanumeric : id.toList.all Text.isAsciiAlphanumeric = true)
    (fresh : ∀ key ∈ d.store.notes.keys, Text.sameAscii key id = false) :
    Run start (steps ++ [⟨{ d with supply := { ids := [id] } }, settings, call⟩])
      (Step.after ⟨{ d with supply := { ids := [id] } }, settings, call⟩) :=
  .step earlier ⟨.with_supply d _, alphanumeric, fresh⟩

end AddressBook

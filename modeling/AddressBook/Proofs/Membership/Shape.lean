import AddressBook.Proofs.Membership.Table
import AddressBook.Proofs.Membership.Verdict
import AddressBook.Proofs.Provisioning.AliasTable

/-! What groups are besides their members. Changes of memberships leave it as it is, so that what an
update has to say about a group stays the same while groups are saved one after the other. -/

namespace AddressBook

open AddressBook.Action Text

namespace Note

/-- The items of a group other than its members. -/
def shape? (n : Note) : Option (String → Option (List Value)) :=
  if n.isClass .group then
    some fun name =>
      if sameAscii name "Members" || sameAscii name "CheckPassword" then none else n.item? name
  else none

theorem steady_shape? : Steady shape? := by
  intro n m same
  rw [shape?, shape?, isClass_of_item? (same "Form" (by decide) (by decide))]
  congr 2
  funext name
  split
  · rfl
  · next other =>
    rw [Bool.or_eq_true, not_or] at other
    exact same name (Bool.eq_false_iff.mpr other.1) (Bool.eq_false_iff.mpr other.2)

theorem shape?_eq_none_iff {n : Note} : n.shape? = none ↔ n.isClass .group = false := by
  rw [shape?]
  cases n.isClass .group <;> simp

def OfGroups {α : Type} (f : Note → Option α) : Prop := ∀ n : Note, n.isClass .group = false → f n = none

theorem steady_listed? : Steady listed? := fun _ _ same =>
  listed?_congr (same "Form" (by decide) (by decide)) (same "ListName" (by decide) (by decide))

theorem listed?_of_groups : OfGroups listed? := by
  intro n other
  rw [listed?, other]
  rfl

def judged? (v : Note → Option Bool) (n : Note) : Option (Option Bool) :=
  if n.isClass .group then some (v n) else none

theorem judged?_of_groups (v : Note → Option Bool) : OfGroups (judged? v) := by
  intro n other
  rw [judged?, other]
  rfl

theorem steady_judged?_verdict (kind : UpdateKind) (policy : ReplacePolicy) (desired : List String) :
    Steady (judged? (Membership.verdict kind policy desired)) := by
  intro n m same
  have form := same "Form" (by decide) (by decide)
  rw [judged?, judged?, isClass_of_item? form, Membership.verdict_of_item? form
    (same "ListName" (by decide) (by decide)) (same "GroupType" (by decide) (by decide))]

theorem steady_judged?_none : Steady (judged? fun _ => none) := by
  intro n m same
  rw [judged?, judged?, isClass_of_item? (same "Form" (by decide) (by decide))]

end Note

namespace Store

variable {s s' : Store}

theorem table_eq_of_shapes (h : s'.table Note.shape? = s.table Note.shape?) {α : Type}
    {f : Note → Option α} (hf : Steady f) (hg : Note.OfGroups f) : s'.table f = s.table f := by
  funext id
  have shapes := congrFun h id
  rw [table, table] at shapes ⊢
  have silent : ∀ n : Note, n.shape? = none → f n = none :=
    fun n other => hg n (Note.shape?_eq_none_iff.mp other)
  cases hn' : s'.notes.get? id with
  | none =>
    cases hn : s.notes.get? id with
    | none => rfl
    | some n =>
      rw [hn, hn'] at shapes
      exact (silent n shapes.symm).symm
  | some n' =>
    cases hn : s.notes.get? id with
    | none =>
      rw [hn, hn'] at shapes
      exact silent n' shapes
    | some n =>
      rw [hn, hn', Option.bind_some, Option.bind_some] at shapes
      rw [Option.bind_some, Option.bind_some]
      cases told : n.shape? with
      | none => rw [silent n told, silent n' (shapes.trans told)]
      | some shape =>
        refine hf n' n fun name members mark => ?_
        have told' := shapes.trans told
        rw [Note.shape?] at told told'
        split at told
        · split at told'
          · have items := congrFun (Option.some.inj (told'.trans told.symm)) name
            simpa only [members, mark, Bool.or_self, Bool.false_eq_true, if_false] using items
          · cases told'
        · cases told

theorem aliasesDistinct_of_aliasTable (hs : s.Sound) (hs' : s'.Sound)
    (same : s'.aliasTable = s.aliasTable) (h : Membership.AliasesDistinct s) :
    Membership.AliasesDistinct s' := by
  have origin : ∀ g ∈ s'.notesOf .group, ∃ m ∈ s.notesOf .group, m.id = g.id ∧ m.aliases = g.aliases := by
    intro g hg
    obtain ⟨id, hid, hget⟩ := hs'.get?_of_mem_notesOf hg
    have listed : s'.aliasTable id = some g.aliases := by
      rw [aliasTable, hget, Option.bind_some, Note.listed?, if_pos (mem_notesOf.mp hg).2]
    rw [same] at listed
    obtain ⟨m, hm, told⟩ := Option.bind_eq_some_iff.mp listed
    rw [Note.listed?] at told
    split at told
    · next group =>
      refine ⟨m, mem_notesOf.mpr ⟨⟨id, Keyed.mem_of_get? hm⟩, group⟩, ?_, Option.some.inj told⟩
      rw [hs.id_of_get? hm, hid]
    · cases told
  intro g hg g' hg' different
  obtain ⟨m, hm, id, aliases⟩ := origin g hg
  obtain ⟨m', hm', id', aliases'⟩ := origin g' hg'
  rw [← aliases, ← aliases']
  exact h m hm m' hm' (by rwa [id, id'])

end Store

namespace Membership

def Unlisted (name : CanonicalName) (members : Table (List String)) : Prop :=
  ∀ id listed, members id = some listed → (listed.any fun stored => Name.refersTo stored name) = false

theorem unlisted_memberTable_iff {s : Store} (hs : s.Sound) {name : CanonicalName} :
    Unlisted name s.memberTable ↔ ∀ g ∈ s.notesOf .group, g.hasMember name = false := by
  constructor
  · intro unlisted g hg
    obtain ⟨id, _, hget⟩ := hs.get?_of_mem_notesOf hg
    refine unlisted id g.members ?_
    rw [Store.memberTable, hget, Option.bind_some, if_pos (Store.mem_notesOf.mp hg).2]
  · intro unlisted id listed stands
    obtain ⟨g, hget, told⟩ := Option.bind_eq_some_iff.mp stands
    split at told
    · next group =>
      rw [← Option.some.inj told]
      exact unlisted g (Store.mem_notesOf.mpr ⟨⟨id, Keyed.mem_of_get? hget⟩, group⟩)
    · cases told

end Membership

end AddressBook

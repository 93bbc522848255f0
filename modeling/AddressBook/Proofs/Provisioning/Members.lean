import AddressBook.Proofs.Provisioning.Regular

/-! The members of groups, wherever calls and changes of memberships lead. Besides the calls, whoever
has the directory can change memberships alone, which does not look for a session. -/

namespace AddressBook

open AddressBook.Action

namespace Membership

/-- A change of memberships that is asked for by itself, with names that are to be read. -/
inductive Change where
  | join (member group : String)
  | leave (member group : String)
  | updateGroups (account : String) (groups : List String) (kind : UpdateKind)
  | rename (old new : String)
  | removeEverywhere (member : String)

namespace Change

def names : Change → List String
  | .join member _ => [member]
  | .leave member _ => [member]
  | .updateGroups account _ _ => [account]
  | .rename old new => [old, new]
  | .removeEverywhere member => [member]

def run (policy : ReplacePolicy) : Change → Action Unit
  | .join member group => do discard (Membership.join (← Name.canonicalize member) group)
  | .leave member group => do discard (Membership.leave (← Name.canonicalize member) group)
  | .updateGroups account groups kind => do
    Membership.updateGroups policy (← Name.canonicalize account) groups kind
  | .rename old new => do
    let old ← Name.canonicalize old
    let new ← Name.canonicalize new
    discard (Membership.rename old new)
  | .removeEverywhere member => do
    discard (Membership.removeEverywhere (← Name.canonicalize member))

end Change

end Membership

/-- What is done to a directory from outside. -/
inductive Deed where
  | call (call : Call)
  | change (change : Membership.Change)

namespace Deed

def run (settings : Settings) : Deed → Action Unit
  | .call asked => asked.run settings
  | .change asked => asked.run settings.replacePolicy

/-- No two keys are the same up to case, none holds the class, and no name is nested. -/
def Proper : Deed → Prop
  | .call asked => asked.Proper ∧ asked.Plain
  | .change asked => ∀ name ∈ asked.names, Name.isNested name = false

instance : ∀ deed : Deed, Decidable deed.Proper
  | .call asked => inferInstanceAs (Decidable (asked.Proper ∧ asked.Plain))
  | .change asked => inferInstanceAs (Decidable (∀ name ∈ asked.names, Name.isNested name = false))

end Deed

/-- The directories that deeds lead to, with or without a fault. Between two of them a session may
come or go, and a store in memory may be told after how many more saves it fails. -/
inductive Reached (start : Directory) : Directory → Prop
  | start : Reached start start
  | meanwhile {d d' : Directory} (earlier : Reached start d) (continues : d.Continues d') :
      Reached start d'
  | deed {d : Directory} (earlier : Reached start d) (settings : Settings) {deed : Deed}
      (proper : deed.Proper) : Reached start (ended (deed.run settings) d)

namespace Regularity

variable {K : String → Prop} {J : Directory → Prop}

theorem keeps_canonicalize {raw : String} (h : Name.isNested raw = false) :
    Keeps J (liftM (Name.canonicalize raw)) CanonicalName.Settled :=
  keeps_lift fun _ read => Name.settled_of_canonicalize read h

theorem keeps_change (policy : ReplacePolicy) {change : Membership.Change}
    (h : ∀ name ∈ change.names, Name.isNested name = false) :
    Keeps (Directory.Regular K) (change.run policy) fun _ => True := by
  cases change with
  | join member group =>
    refine (keeps_canonicalize (h member List.mem_cons_self)).bind fun name settled => ?_
    exact keeps_discard ((Note.Regular.regimen.frame K).keeps_join settled group)
  | leave member group =>
    refine (keeps_canonicalize (h member List.mem_cons_self)).bind fun name _ => ?_
    exact keeps_discard ((Note.Regular.regimen.frame K).keeps_leave name group)
  | updateGroups account groups kind =>
    refine (keeps_canonicalize (h account List.mem_cons_self)).bind fun name settled => ?_
    exact (Note.Regular.regimen.frame K).keeps_updateGroups policy settled groups kind
  | rename old new =>
    refine (keeps_canonicalize (h old List.mem_cons_self)).bind fun old _ => ?_
    have plain := h new (List.mem_cons_of_mem _ List.mem_cons_self)
    refine (keeps_canonicalize plain).bind fun new settled => ?_
    exact keeps_discard ((Note.Regular.regimen.frame K).keeps_rename old settled)
  | removeEverywhere member =>
    refine (keeps_canonicalize (h member List.mem_cons_self)).bind fun name _ => ?_
    exact keeps_discard ((Note.Regular.regimen.frame K).keeps_removeEverywhere name)

end Regularity

namespace Reached

/-- A deed keeps notes regular, and every directory that deeds lead to has regular notes. -/
theorem regular {start d : Directory} (hs : start.Empty) (h : Reached start d) :
    d.Regular fun _ => True := by
  induction h with
  | start => exact hs.stocked
  | meanwhile _ continues ih => exact ih.continues continues
  | @deed d _ settings deed proper ih =>
    cases deed with
    | call call =>
      exact (Note.Regular.regimen.leads_run settings proper).ended ⟨ih, trivial⟩
    | change change =>
      exact (Regularity.keeps_change settings.replacePolicy proper).ended ih

/-- Every member that is stored is a canonical name, and no group has the same one twice. -/
theorem canonical_distinct_members {start d : Directory} (hs : start.Empty) (h : Reached start d) :
    ∀ g ∈ d.store.notesOf .group, g.HasCanonicalMembers ∧ g.HasDistinctMembers := by
  intro g hg
  obtain ⟨⟨id, stands⟩, group⟩ := Store.mem_notesOf.mp hg
  have regular := (h.regular hs).notes _ stands
  exact ⟨regular.members group, regular.distinct group⟩

/-! A group with two members, one of which takes the name of the other. -/

def createCrew : Call :=
  .create .group
    [("Members", [.text "Ann", .text "Bob"]), ("__NAME__", [.text "Staff"])]

def renameBob : Membership.Change := .rename "Bob" "ANN"

def crewed : Directory := ended (Deed.run {} (.call createCrew)) {}

def merged : Directory := ended (Deed.run {} (.change renameBob)) crewed

theorem proper_createCrew : Deed.Proper (.call createCrew) := by
  decide

theorem proper_renameBob : Deed.Proper (.change renameBob) := by
  decide

theorem canonical_distinct_members_sample :
    Directory.Empty {} ∧ Reached {} merged ∧
      ∃ g ∈ merged.store.notesOf .group, g.members = ["Ann"] ∧
        g.HasCanonicalMembers ∧ g.HasDistinctMembers := by
  have reached : Reached {} merged :=
    .deed (.deed .start {} proper_createCrew) {} proper_renameBob
  have listed : ∃ g ∈ merged.store.notesOf .group, g.members = ["Ann"] := by
    decide +kernel
  obtain ⟨g, hg, members⟩ := listed
  exact ⟨⟨rfl, rfl, rfl⟩, reached, g, hg, members,
    canonical_distinct_members ⟨rfl, rfl, rfl⟩ reached g hg⟩

end Reached

end AddressBook

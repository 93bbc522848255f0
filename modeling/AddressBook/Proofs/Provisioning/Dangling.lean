import AddressBook.Proofs.Provisioning.Departure
import AddressBook.Proofs.Provisioning.Regimen

/-! What still refers to a group that was deleted. Members refer to a group by any of its aliases, and
a read resolves them all; a deletion takes away those that refer to the name of the first alias, where
the query for this name leads. -/

namespace AddressBook

open AddressBook.Action Text

namespace Note

/-- A member means a group when it is one of its aliases or the canonical rendering of one, up to case
and outer blanks. -/
def isMeant (g : Note) (member : String) : Bool :=
  g.aliases.any fun a => sameName member a ||
    match Name.canonicalize a with
    | .ok c => sameName member c.text
    | .error _ => false

end Note

namespace Group

open Provisioning

variable {uid id : String} {name : CanonicalName} {d d₀ d₁ : Directory}

/-- What deleting the group of an id comes to, note by note. -/
structure Dissolved (id : String) (name : CanonicalName) (d d₁ : Directory) : Prop where
  keys : ∀ other, other ∈ d₁.store.notes.keys ↔ other ≠ id ∧ other ∈ d.store.notes.keys
  items : ∀ other n m, d.store.notes.get? other = some n → d₁.store.notes.get? other = some m →
    m.SameBesideMembers n
  members : ∀ other n m, d.store.notes.get? other = some n → d₁.store.notes.get? other = some m →
    m.members = if n.isClass .group && n.showsUp name then Membership.withoutMember n.members name
      else n.members

theorem dissolved (hs : d.store.Sound) (hf : d.store.Faithful) {d' : Directory} {count : Nat}
    (left : Membership.removeEverywhere name d = .ok count d') {found : Bool}
    (deleted : Directory.delete id d' = .ok found d₁) : Dissolved id name d d₁ := by
  have out := Membership.turned_of_removal hs hf left
  have erased := Directory.delete_ok deleted
  have stays : ∀ {other m}, d₁.store.notes.get? other = some m →
      d'.store.notes.get? other = some m := by
    intro other m hm
    rw [erased, Store.erase, Keyed.get?_erase out.sound.sorted] at hm
    split at hm
    · cases hm
    · exact hm
  constructor
  · intro other
    rw [erased, Store.erase, Keyed.mem_keys_erase out.sound.sorted, out.keys]
  · exact fun other n m hn hm => out.sameBesideMembers hn (stays hm)
  · exact fun other n m hn hm => Membership.members_of_removal hs hf left hn (stays hm)

theorem delete_ok (hd : d.InMemory) (h : delete uid d = .ok () d₁) :
    ∃ g id name, find .group uid d.store = .ok (some g) ∧ d.store.notes.get? id = some g ∧
      g.isClass .group = true ∧ Name.canonicalize g.displayName = .ok name ∧
        Dissolved id name d d₁ := by
  rw [delete] at h
  obtain ⟨⟨⟩, d₀, reached, finds⟩ := bind_ok_iff.mp h
  obtain ⟨g, _, existing, names⟩ := bind_ok_iff.mp finds
  obtain ⟨found, rfl⟩ := findExisting_ok existing
  obtain ⟨id, _, lifted, reads⟩ := bind_ok_iff.mp names
  obtain ⟨named, rfl⟩ := lift_ok_iff.mp lifted
  obtain ⟨name, _, lifted', leaves⟩ := bind_ok_iff.mp reads
  obtain ⟨read, rfl⟩ := lift_ok_iff.mp lifted'
  obtain ⟨⟨⟩, d', left, deletes⟩ := bind_ok_iff.mp leaves
  obtain ⟨count, left⟩ := discard_ok_iff.mp left
  obtain ⟨_, deleted⟩ := discard_ok_iff.mp deletes
  have alike := alike_of_acquire reached hd.lasting
  have memory := hd.alike alike
  obtain ⟨other, stands, -⟩ := (Store.groupByAlias_eq_some_iff memory.sound memory.memory).mp found
  have here := memory.sound.id_of_get? stands
  rw [idOf, here, Except.ok.injEq] at named
  subst named
  have gone := dissolved memory.sound (Store.faithful_of_memory memory.memory) left deleted
  refine ⟨g, other, name, ?_, ?_, (Store.returns_of_groupByAlias found).1, read, ?_⟩
  · rw [← find_congr hd.memory memory.memory alike.notes]
    exact found
  · rw [← alike.notes]
    exact stands
  · obtain ⟨keys, items, members⟩ := gone
    rw [alike.notes] at keys items members
    exact ⟨keys, items, members⟩

end Group

namespace Group.Dissolved

variable {id : String} {name : CanonicalName} {d d₁ : Directory} {g : Note}

theorem mem_members (h : Dissolved id name d d₁) {other : String} {n n' : Note}
    (hn : d.store.notes.get? other = some n) (hm : d₁.store.notes.get? other = some n')
    (group : n.isClass .group = true) {m : String} :
    m ∈ n'.members ↔ m ∈ n.members ∧ ¬ (Name.refersTo m name = true ∧ n.spells name = true) := by
  have listed : Name.refersTo m name = true → m ∈ n.members → n.hasMember name = true :=
    fun refers hmem => List.any_eq_true.mpr ⟨m, hmem, refers⟩
  rw [h.members other n n' hn hm, group, Bool.true_and, Note.showsUp]
  split
  · next shows =>
    obtain ⟨-, spells⟩ := Bool.and_eq_true_iff.mp shows
    rw [Membership.withoutMember, List.mem_filter, spells, Bool.not_eq_true']
    simp
  · next hidden =>
    rw [Bool.and_eq_true] at hidden
    refine ⟨fun hmem => ⟨hmem, fun both => hidden ⟨listed both.1 hmem, both.2⟩⟩, And.left⟩

theorem unmeant_iff (h : Dissolved id name d d₁) (hs : d.store.Sound) (hs₁ : d₁.store.Sound)
    (stands : d.store.notes.get? id = some g) :
    (∀ other ∈ d₁.store.notesOf .group, ∀ m ∈ other.members, g.isMeant m = false) ↔
      ∀ other ∈ d.store.notesOf .group, other.id ≠ g.id → ∀ m ∈ other.members,
        g.isMeant m = true → Name.refersTo m name = true ∧ other.spells name = true := by
  constructor
  · intro none n hn different m hm meant
    obtain ⟨other, named, hget⟩ := hs.get?_of_mem_notesOf hn
    have group := (Store.mem_notesOf.mp hn).2
    have left : other ∈ d₁.store.notes.keys := by
      refine (h.keys other).mpr ⟨?_, Keyed.mem_keys_of_get? hget⟩
      rintro rfl
      rw [hget, Option.some.injEq] at stands
      exact different (by rw [stands])
    obtain ⟨n', hget'⟩ := Keyed.exists_get?_of_mem_keys left
    have group' : n'.isClass .group = true := by
      rw [Note.isClass_congr (h.items other n n' hget hget'), group]
    by_contra stays
    have kept := (h.mem_members hget hget' group).mpr ⟨hm, stays⟩
    rw [none n' (Store.mem_notesOf.mpr ⟨⟨other, Keyed.mem_of_get? hget'⟩, group'⟩) m kept] at meant
    cases meant
  · intro all n' hn' m hm
    obtain ⟨other, named, hget'⟩ := hs₁.get?_of_mem_notesOf hn'
    obtain ⟨different, held⟩ := (h.keys other).mp (Keyed.mem_keys_of_get? hget')
    obtain ⟨n, hget⟩ := Keyed.exists_get?_of_mem_keys held
    have group : n.isClass .group = true := by
      rw [← Note.isClass_congr (h.items other n n' hget hget'), (Store.mem_notesOf.mp hn').2]
    obtain ⟨stood, stays⟩ := (h.mem_members hget hget' group).mp hm
    rw [Bool.eq_false_iff]
    intro meant
    refine stays (all n (Store.mem_notesOf.mpr ⟨⟨other, Keyed.mem_of_get? hget⟩, group⟩) ?_ m stood
      meant)
    rw [hs.id_of_get? hget, hs.id_of_get? stands]
    exact fun same => different (Option.some.inj same)

end Group.Dissolved

namespace Run

open Provisioning

variable {start d d₀ d₁ : Directory} {steps : List Step} {uid : String}

/-- After a run of calls, a deletion of a group that succeeds leaves nothing in other groups that means
the group, if and only if all that means it refers to the name of its first alias and stands in a
group that spells this name. Groups that list the name spell it unless some call gave a form or a
nested name. -/
theorem unreferenced_iff (hs : start.Empty) (run : Run start steps d) (continues : d.Continues d₀)
    (h : Group.delete uid d₀ = .ok () d₁) :
    ∃ g name, find .group uid d₀.store = .ok (some g) ∧
      Name.canonicalize g.displayName = .ok name ∧
      ((∀ other ∈ d₁.store.notesOf .group, ∀ m ∈ other.members, g.isMeant m = false) ↔
        ∀ other ∈ d₀.store.notesOf .group, other.id ≠ g.id → ∀ m ∈ other.members,
          g.isMeant m = true → Name.refersTo m name = true ∧ other.spells name = true) ∧
      ((∀ step ∈ steps, step.call.attributes.Lacks "Form" ∧ step.call.Plain) →
        ∀ other ∈ d₀.store.notesOf .group, ∀ m ∈ other.members, Name.refersTo m name = true →
          other.spells name = true) := by
  have before := continues.inMemory (run.indexed hs).toInMemory
  obtain ⟨g, id, name, found, stands, -, read, gone⟩ := Group.delete_ok before h
  have after : d₁.InMemory := by
    have ends := (Group.leads_delete (Within.frame fun _ => True) uid (fun _ hd => hd)
      fun _ id _ _ _ => Within.keeps_erase id).ends d₀ ⟨before, fun _ _ => trivial⟩
    rw [h] at ends
    exact ends.toInMemory
  refine ⟨g, name, found, read, gone.unmeant_iff before.sound after.sound stands, ?_⟩
  intro plain other hother m hm refers
  have stocked := (Note.Orderly.regimen.stocked hs run plain).continues continues
  obtain ⟨form, canonical⟩ := Store.proper_of_orderly stocked.notes other hother
  have lists : other.hasMember name = true := List.any_eq_true.mpr ⟨m, hm, refers⟩
  have shows := other.showsUp_eq_hasMember form canonical name
  rw [lists, Note.showsUp, lists] at shows
  exact shows

/-! A group with two aliases, and one with a member that is given by either of them. -/

def createSales : Step :=
  ⟨{ supply := { ids := ["A1"] } }, {},
    .create .group [("__NAME__", [.text "Sales;Sales Team"])]⟩

def salesNote : Note :=
  { id := some "A1",
    items := [("Form", [.text "Group"]), ("ListName", [.text "Sales", .text "Sales Team"]),
      ("Type", [.text "Group"])],
    modified := some ⟨0⟩ }

def salesDirectory : Directory := { store := { notes := [("A1", salesNote)] } }

def createEverybody (member : String) : Step :=
  ⟨{ salesDirectory with supply := { ids := ["B2"] } }, {},
    .create .group [("Members", [.text member, .text "Bob"]), ("__NAME__", [.text "All"])]⟩

def everybodyNote (members : List String) : Note :=
  { id := some "B2",
    items := [("Form", [.text "Group"]), ("ListName", [.text "All"]), ("Members", members.map .text),
      ("Type", [.text "Group"])],
    modified := some ⟨0⟩ }

def everybodyDirectory (member : String) : Directory :=
  { store := { notes := [("A1", salesNote), ("B2", everybodyNote [member, "Bob"])] } }

theorem run_createEverybody (member : String) :
    Run {} [createSales, createEverybody member] (createEverybody member).after := by
  have first : Run {} [createSales] createSales.after :=
    .step .start ⟨⟨rfl, rfl, rfl⟩, by decide, by decide⟩
  have written : salesDirectory.store.notes = createSales.after.store.notes := by decide
  have continues : createSales.after.Continues salesDirectory :=
    (first.indexed ⟨rfl, rfl, rfl⟩).toInMemory.continues rfl rfl written
  have unused : salesDirectory.store.Unused "B2" := ⟨by decide, by decide⟩
  exact .step first ⟨continues.trans (.with_supply _ _), unused.alphanumeric, unused.fresh⟩

theorem everybody_continues {member : String}
    (written : (everybodyDirectory member).store.notes = (createEverybody member).after.store.notes) :
    (createEverybody member).after.Continues (everybodyDirectory member) :=
  ((run_createEverybody member).indexed ⟨rfl, rfl, rfl⟩).toInMemory.continues rfl rfl written

/-- A member that is given by the second alias is left behind. -/
theorem not_always_unreferenced :
    ¬ ∀ start d d₀ d₁ steps uid g, start.Empty → Run start steps d → d.Continues d₀ →
      find .group uid d₀.store = .ok (some g) → Group.delete uid d₀ = .ok () d₁ →
        ∀ other ∈ d₁.store.notesOf .group, ∀ m ∈ other.members, g.isMeant m = false := by
  intro always
  have written : (everybodyDirectory "Sales Team").store.notes =
      (createEverybody "Sales Team").after.store.notes := by
    decide
  have runs : isOk (Group.delete "Sales" (everybodyDirectory "Sales Team")) = true ∧
      (find .group "Sales" (everybodyDirectory "Sales Team").store).toOption = some (some salesNote) ∧
      everybodyNote ["Sales Team", "Bob"] ∈
        (ended (Group.delete "Sales") (everybodyDirectory "Sales Team")).store.notesOf .group := by
    decide +kernel
  obtain ⟨deletes, found, left⟩ := runs
  obtain ⟨⟨⟩, run⟩ := ok_ended deletes
  have gone := always _ _ _ _ _ "Sales" salesNote ⟨rfl, rfl, rfl⟩ (run_createEverybody "Sales Team")
    (everybody_continues written) (eq_ok_of_toOption found) run _ left "Sales Team" (by decide)
  have meant : salesNote.isMeant "Sales Team" = true := by decide
  rw [gone] at meant
  cases meant

theorem unreferenced_iff_sample :
    Directory.Empty {} ∧
      Run {} [createSales, createEverybody "SALES"] (createEverybody "SALES").after ∧
      (createEverybody "SALES").after.Continues (everybodyDirectory "SALES") ∧
      "SALES" ∈ (everybodyNote ["SALES", "Bob"]).members ∧ salesNote.isMeant "SALES" = true ∧
      ∃ d₁, Group.delete "Sales" (everybodyDirectory "SALES") = .ok () d₁ ∧
        ∀ other ∈ d₁.store.notesOf .group, ∀ m ∈ other.members, salesNote.isMeant m = false := by
  have continues : (createEverybody "SALES").after.Continues (everybodyDirectory "SALES") :=
    everybody_continues (by decide)
  have runs : isOk (Group.delete "Sales" (everybodyDirectory "SALES")) = true ∧
      (find .group "Sales" (everybodyDirectory "SALES").store).toOption = some (some salesNote) ∧
      (Name.canonicalize salesNote.displayName).toOption = some ⟨"Sales"⟩ := by
    decide +kernel
  obtain ⟨deletes, found, read⟩ := runs
  obtain ⟨⟨⟩, deleted⟩ := ok_ended deletes
  have meant : "SALES" ∈ (everybodyNote ["SALES", "Bob"]).members ∧
      salesNote.isMeant "SALES" = true := by
    decide
  have spelled : ∀ other ∈ (everybodyDirectory "SALES").store.notesOf .group,
      other.id ≠ salesNote.id → ∀ m ∈ other.members, salesNote.isMeant m = true →
        Name.refersTo m ⟨"Sales"⟩ = true ∧ other.spells ⟨"Sales"⟩ = true := by
    decide
  obtain ⟨g, name, found', read', exact, -⟩ := unreferenced_iff ⟨rfl, rfl, rfl⟩
    (run_createEverybody "SALES") continues deleted
  rw [eq_ok_of_toOption found, Except.ok.injEq, Option.some.injEq] at found'
  subst found'
  rw [eq_ok_of_toOption read, Except.ok.injEq] at read'
  subst read'
  exact ⟨⟨rfl, rfl, rfl⟩, run_createEverybody "SALES", continues, meant.1, meant.2, _, deleted,
    exact.mpr spelled⟩

end Run

end AddressBook

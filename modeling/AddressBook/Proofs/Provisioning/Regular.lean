import AddressBook.Proofs.Provisioning.Regimen

/-! Notes in order in which no member stands twice. Calls keep every note so unless one gives a key
twice, and with ids that stay different this is what holds along a run. -/

namespace AddressBook

open AddressBook.Action Text

namespace Note

structure Regular (n : Note) : Prop extends n.Orderly where
  distinct : n.isClass .group = true → n.HasDistinctMembers

end Note

namespace Store

variable {s : Store}

theorem proper_of_regular (hr : ∀ entry ∈ s.notes, entry.2.Regular) :
    ∀ g ∈ s.notesOf .group, g.HasGroupForm ∧ g.HasCanonicalMembers :=
  proper_of_orderly fun entry he => (hr entry he).toOrderly

theorem groupsOf_eq_filter (hm : s.backing = .memory) (hr : ∀ entry ∈ s.notes, entry.2.Regular)
    (name : CanonicalName) :
    s.groupsOf name = .ok ((s.notesOf .group).filter (·.hasMember name)) :=
  groupsOf_of_orderly hm (fun entry he => (hr entry he).toOrderly) name

end Store

abbrev Directory.Regular (K : String → Prop) (d : Directory) : Prop := d.Stocked Note.Regular K

abbrev Note.RegularUnder (K : String → Prop) (n : Note) : Prop := n.Filed Note.Regular K

namespace Regularity

variable {attributes : Attributes} {request : Group.Request}

theorem distinct_newGroup {aliases : List String} {n : Note} (ha : attributes.Distinct)
    (hr : Group.Request.ofAttributes attributes = .ok request)
    (h : Group.newNote aliases request = .ok n) : n.HasDistinctMembers := by
  obtain ⟨given, found, listed⟩ := Group.members_newNote h (Group.plain_lacks_members ha hr)
  cases given with
  | none => exact (Note.members_of_item?_none listed).2
  | some names =>
    have texts : n.item? "Members" = some ((names.map (·.text)).map .text) := by
      rw [listed, List.map_map]
      rfl
    exact Note.hasDistinctMembers_of_item? texts
      (List.pairwise_map.mpr (Membership.pairwise_requested found))

theorem distinct_updatedGroup {members : Option (List CanonicalName)} {how : UpdateKind}
    {changed : Bool} {n n' : Note} (ha : attributes.Distinct)
    (hr : Group.Request.ofAttributes attributes = .ok request)
    (hp : ∀ name ∈ Call.namesIn .group attributes, Name.isNested name = false)
    (hm : request.memberNames = .ok members) (hn : n.Regular) (hk : n.isClass .group = true)
    (h : Group.updatedNote n request members how = .ok (changed, n')) : n'.HasDistinctMembers := by
  rcases Group.members_updatedNote h (Group.plain_lacks_members ha hr) with
    same | ⟨names, rfl, listed⟩
  · exact (hn.distinct hk).congr same
  · exact Note.hasDistinctMembers_of_item? listed <|
      Membership.pairwise_edited (fun s => Note.canonicalize_of_mem_members (s := s) (hn.members hk))
        (hn.distinct hk) how (named_memberNames (nameMembers_settled hp) hr hm)
          (Membership.pairwise_requested hm)

end Regularity

theorem Note.Regular.regimen : Regimen Note.Regular fun call => call.Proper ∧ call.Plain where
  orderly _ h := h.toOrderly
  congr n m h same := by
    refine ⟨h.toOrderly.congr same, fun hk => (h.distinct ?_).congr ?_⟩
    · rwa [← isClass_of_items same]
    · rw [item?, item?, same]
  account _ hk h := ⟨h, fun other => by rw [not_isClass_of_isClass hk] at other; cases other⟩
  setMembers _ _ h hk change := ⟨h.toOrderly.setMembers hk change.sources,
    fun _ => change.hasDistinctMembers (h.members hk) (h.distinct hk)⟩
  formless _ h := h.1.formless
  plain _ h := h.2
  newGroup _ _ _ _ ha hr hs h := ⟨Regularity.orderly_newGroup ha.1.formless ha.2 hr hs h,
    fun _ => Regularity.distinct_newGroup ha.1.distinct hr h⟩
  updatedGroup _ _ _ _ _ _ _ _ ha hr hm hn hk h :=
    ⟨Regularity.orderly_updatedGroup ha.1.formless ha.2 hr hm hn.toOrderly hk h,
      fun _ => Regularity.distinct_updatedGroup ha.1.distinct hr ha.2 hm hn hk h⟩

namespace Directory

/-- What every state of a run from an empty directory satisfies. -/
structure Consistent (d : Directory) : Prop extends d.InMemory where
  notes : ∀ entry ∈ d.store.notes, entry.2.Regular
  alphanumeric : ∀ key ∈ d.store.notes.keys, key.toList.all isAsciiAlphanumeric = true
  distinct : ∀ key ∈ d.store.notes.keys, ∀ other ∈ d.store.notes.keys,
    sameAscii key other = true → key = other

theorem Continues.consistent {d d' : Directory} (h : d.Continues d') (hd : d.Consistent) :
    d'.Consistent := by
  refine ⟨h.inMemory hd.toInMemory, ?_, ?_, ?_⟩ <;> rw [h.notes]
  · exact hd.notes
  · exact hd.alphanumeric
  · exact hd.distinct

end Directory

theorem Run.consistent {start d : Directory} {steps : List Step} (hs : start.Empty)
    (run : Run start steps d) (ha : ∀ step ∈ steps, step.call.Proper)
    (hp : ∀ step ∈ steps, step.call.Plain) : d.Consistent := by
  have stocked := Note.Regular.regimen.stocked hs run fun step h => ⟨ha step h, hp step h⟩
  have indexed := run.indexed hs
  exact ⟨stocked.toInMemory, stocked.notes, indexed.alphanumeric, indexed.distinct⟩

end AddressBook

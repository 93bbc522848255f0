import AddressBook.Membership.Basic
import AddressBook.Proofs.Directory.Store
import AddressBook.Proofs.Growing
import AddressBook.Proofs.Name.Nested
import AddressBook.Proofs.Text.Folding

/-! Where the members of an edited group come from: they were members, or a caller gave them. -/

namespace AddressBook

namespace Note

theorem hasAlias_of_sameName {g : Note} {known name : String}
    (same : Text.sameName name known = true) (h : g.hasAlias name = true) :
    g.hasAlias known = true := by
  obtain ⟨group, goes⟩ := Bool.and_eq_true_iff.mp h
  obtain ⟨own, listed, goes⟩ := List.any_eq_true.mp goes
  rw [hasAlias, group, Bool.true_and]
  exact List.any_eq_true.mpr ⟨own, listed, Text.sameName_trans goes same⟩

theorem not_hasAlias_empty (g : Note) : g.hasAlias "" = false := by
  have none : (g.aliases.any fun known => Text.sameName known "") = false := by
    rw [List.any_eq_false]
    intro own listed same
    obtain ⟨listName, -, listed⟩ := List.mem_flatMap.mp listed
    obtain ⟨trimmed, solid, -⟩ := Text.mem_list listed
    rw [Text.sameName_iff, trimmed] at same
    exact solid (Text.lower_eq_empty_iff.mp same)
  rw [hasAlias, none, Bool.and_false]

end Note

namespace Membership

theorem mem_edited {kind : UpdateKind} {members : List String} {edits : List CanonicalName}
    {m : String} (h : m ∈ edited kind members edits) :
    m ∈ members ∨ ∃ name ∈ edits, m = name.text := by
  cases kind with
  | replace =>
    obtain ⟨name, hname, rfl⟩ := List.mem_map.mp h
    exact Or.inr ⟨name, hname, rfl⟩
  | remove => exact Or.inl (List.mem_filter.mp h).1
  | add => exact Growing.mem_foldl_unless h

theorem mem_distinct {names : List CanonicalName} {name : CanonicalName}
    (h : name ∈ distinct names) : name ∈ names := by
  rcases Growing.mem_foldl_unless (f := fun name => name) h with h | ⟨_, listed, rfl⟩
  · exact absurd h List.not_mem_nil
  · exact listed

theorem mem_displayNames {groups : List String} {name : String} (h : name ∈ displayNames groups) :
    ∃ group ∈ groups, name = Alias.display group :=
  (Growing.mem_foldl_unless h).resolve_left List.not_mem_nil

theorem displayNames_eq_grown (groups : List String) :
    displayNames groups =
      Growing.grown (fun known group => Text.sameName known (Alias.display group)) Alias.display
        (groups.filter fun group => !(Alias.display group).isEmpty) [] := by
  rw [displayNames, Growing.grown, List.foldl_filter]
  congr 1
  funext distinct group
  dsimp only
  cases (Alias.display group).isEmpty <;> rfl

theorem any_hasAlias_displayNames (groups : List String) (g : Note) :
    (displayNames groups).any g.hasAlias = (groups.map Alias.display).any g.hasAlias := by
  rw [displayNames_eq_grown, Growing.any_grown, List.any_nil, Bool.false_or, List.any_filter,
    List.any_map]
  · congr 1
    funext group
    cases empty : (Alias.display group).isEmpty with
    | false => rfl
    | true => simp [String.isEmpty_iff.mp empty, Note.not_hasAlias_empty]
  · intro group _ known same
    rw [Text.sameName_comm] at same
    exact Note.hasAlias_of_sameName same

theorem mem_renamed {members : List String} {old new : CanonicalName} {m : String}
    (h : m ∈ renamed members old new) :
    m ∈ members ∧ Name.refersTo m old = false ∨ m = new.text := by
  obtain ⟨stored, hstored, rfl⟩ := (Growing.mem_foldl_unless
    (f := fun stored => if Name.refersTo stored old then new.text else stored) h).resolve_left
      List.not_mem_nil
  split
  · exact Or.inr rfl
  · next other => exact Or.inl ⟨hstored, Bool.eq_false_iff.mpr other⟩

theorem any_refersTo_old {old new : CanonicalName} (hn : Name.canonicalize new.text = .ok new)
    (differs : new.same old = false) (members : List String) :
    ((renamed members old new).any fun stored => Name.refersTo stored old) = false := by
  rw [List.any_eq_false]
  intro stored hs
  rw [Bool.not_eq_true]
  rcases mem_renamed hs with ⟨_, other⟩ | rfl
  · exact other
  · rw [Name.refersTo, hn]
    exact differs

theorem requested_ok {members groups people : Option (List String)} {names : List CanonicalName}
    (h : requested members groups people = .ok (some names)) :
    ∀ name ∈ names, ∃ raws, (members = some raws ∨ groups = some raws ∨ people = some raws) ∧
      ∃ raw ∈ raws, Name.canonicalize raw = .ok name := by
  rw [requested] at h
  split at h
  · cases h
  · next raws source =>
    cases found : Name.canonicalizeAll raws with
    | error fault =>
      rw [found] at h
      cases h
    | ok all =>
      rw [found] at h
      cases h
      intro name hname
      refine ⟨raws, ?_, (mem_of_mapM_ok found).1 name (mem_distinct hname)⟩
      cases members with
      | some given => exact Or.inl source
      | none =>
        cases groups with
        | some given => exact Or.inr (Or.inl source)
        | none => exact Or.inr (Or.inr source)

end Membership

end AddressBook

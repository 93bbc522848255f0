import AddressBook.Proofs.Provisioning.Rejection

/-! Updates of groups that fail. A group is saved before its old and its new name are read for the
groups that list it. An update that cannot read them fails when the group is saved already; any other
that fails, and is not refused a save, has written nothing. -/

namespace AddressBook

open AddressBook.Action Provisioning Text

namespace Membership

theorem rename_refused {old new : CanonicalName} {d d' : Directory} {fault : Fault}
    (h : rename old new d = .error fault d') :
    d.store.groupsOf old = .error fault ∧ d' = d ∨ ∃ record cause, fault = .noteSave record cause := by
  rcases bind_error_iff.mp h with failed | ⟨groups, d₁, _, failed⟩
  · obtain ⟨unread, rfl⟩ := read_error_iff.mp failed
    exact Or.inl ⟨unread, rfl⟩
  · rcases bind_error_iff.mp failed with failed | ⟨_, _, _, returned⟩
    · obtain ⟨_, g, _, d₂, _, _, saved⟩ := forM_error failed
      exact Or.inr (Directory.refused_of_save (discard_error_iff.mp saved))
    · cases returned

end Membership

namespace Group

variable {uid : String} {attributes : Attributes} {how : UpdateKind} {d d' : Directory}
  {fault : Fault}

structure Plan where
  note : Note
  renamed : Bool
  changed : Bool
  updated : Note

def plan (uid : String) (attributes : Attributes) (how : UpdateKind) : Action Plan := do
  let note ← findExisting .group uid
  let request ← Request.ofAttributes attributes
  let members ← request.memberNames
  let renamed ← checkAliases note request.aliases
  let (changed, updated) ← updatedNote note request members how
  return { note, renamed, changed, updated }

def Plan.save (p : Plan) : Action Note :=
  if p.changed then Directory.save p.updated else pure p.updated

theorem update_eq_plan (uid : String) (attributes : Attributes) (how : UpdateKind) :
    update uid attributes how = (do
      Directory.acquire
      let p ← plan uid attributes how
      let m ← p.save
      follow p.note m p.renamed) := by
  rw [update_eq, plan]
  simp only [amend, Plan.save, bind_assoc, pure_bind]

theorem reads_checkAliases (n : Note) (aliases : Option (List String)) :
    Reads (checkAliases n aliases) := by
  cases aliases with
  | none => exact reads_pure false
  | some aliases =>
    rw [checkAliases, checkRename]
    refine reads_ite (reads_pure false) ?_
    refine (reads_read (·.groupByAlias (aliases.headD ""))).bind fun found => ?_
    cases found with
    | none => exact reads_pure true
    | some other => exact reads_ite (reads_pure true) (reads_throw _)

theorem reads_plan (uid : String) (attributes : Attributes) (how : UpdateKind) :
    Reads (plan uid attributes how) := by
  rw [plan]
  refine (reads_findExisting .group uid).bind fun n => ?_
  refine (reads_lift (Request.ofAttributes attributes)).bind fun request => ?_
  refine (reads_lift request.memberNames).bind fun members => ?_
  refine (reads_checkAliases n request.aliases).bind fun renamed => ?_
  exact (reads_lift (updatedNote n request members how)).bind fun result => reads_pure _

theorem sameName_of_sameAll {aliases others : List String} (h : Alias.sameAll aliases others = true)
    (solid : aliases ≠ []) : sameName (aliases.headD "") (others.headD "") = true := by
  cases aliases with
  | nil => exact absurd rfl solid
  | cons a as =>
    cases others with
    | nil => cases h
    | cons b bs =>
      rw [Alias.sameAll, List.zip_cons_cons, List.all_cons, Bool.and_eq_true, Bool.and_eq_true] at h
      exact h.2.1

theorem changed_of_renamed {p : Plan} (h : plan uid attributes how d = .ok p d')
    (renamed : p.renamed = true) : p.changed = true := by
  obtain ⟨n, d₁, _, h⟩ := bind_ok_iff.mp h
  obtain ⟨request, d₂, lifted, h⟩ := bind_ok_iff.mp h
  obtain ⟨asked, rfl⟩ := lift_ok_iff.mp lifted
  obtain ⟨members, d₂, _, h⟩ := bind_ok_iff.mp h
  obtain ⟨renames, d₃, checked, h⟩ := bind_ok_iff.mp h
  obtain ⟨⟨changed, m⟩, d₄, lifted, h⟩ := bind_ok_iff.mp h
  obtain ⟨updated, rfl⟩ := lift_ok_iff.mp lifted
  obtain ⟨rfl, rfl⟩ := pure_ok_iff.mp h
  obtain rfl : renames = true := renamed
  cases named : request.aliases with
  | none =>
    rw [named] at checked
    cases (pure_ok_iff.mp checked).1
  | some aliases =>
    rw [named] at checked
    have differs : sameName (aliases.headD "") n.displayName = false := by
      rw [checkAliases, checkRename] at checked
      split at checked
      · cases (pure_ok_iff.mp checked).1
      · next differs => exact Bool.eq_false_iff.mpr differs
    refine Bool.eq_false_imp_eq_true.mp fun unchanged => ?_
    -- Were nothing changed, the group would have the aliases that were asked for.
    obtain rfl : changed = false := unchanged
    have same := (eq_of_updatedNote_unchanged updated).1
    rw [named, renamedNote] at same
    have known : sameName (aliases.headD "") n.displayName = true := by
      split at same
      · next already => exact sameName_of_sameAll already (aliases_ok asked named).1
      · rw [Note.displayName, ← same, Note.aliases, Note.texts_setTexts,
          splitAll_aliases asked named]
        exact sameName_refl _
    rw [differs] at known
    cases known

/-- Both names can be read, and the groups that list the old one be found. -/
def CanFollow (n m : Note) (s : Store) : Prop :=
  ∃ old new held, Name.canonicalize n.displayName = .ok old ∧
    Name.canonicalize m.displayName = .ok new ∧ s.groupsOf old = .ok held

theorem canFollow_iff_of_memory {n m : Note} {s : Store} (h : s.backing = .memory) :
    CanFollow n m s ↔ (∃ old, Name.canonicalize n.displayName = .ok old) ∧
      ∃ new, Name.canonicalize m.displayName = .ok new := by
  constructor
  · rintro ⟨old, new, _, hold, hnew, _⟩
    exact ⟨⟨old, hold⟩, new, hnew⟩
  · rintro ⟨⟨old, hold⟩, new, hnew⟩
    obtain ⟨held, found⟩ := Membership.exists_groupsOf h old
    exact ⟨old, new, held, hold, hnew, found⟩

theorem follow_error {n m : Note} {renamed : Bool} (h : follow n m renamed d = .error fault d')
    (unrefused : ∀ record cause, fault ≠ .noteSave record cause) :
    renamed = true ∧ ¬ CanFollow n m d.store ∧ d' = d := by
  cases renamed with
  | false => cases h
  | true =>
    refine ⟨rfl, ?_⟩
    rcases bind_error_iff.mp h with failed | ⟨old, _, lifted, h⟩
    · refine ⟨?_, (reads_lift _).error failed⟩
      rintro ⟨old, _, _, read, -, -⟩
      cases failed.symm.trans (lift_ok_iff.mpr ⟨read, rfl⟩)
    obtain ⟨readOld, rfl⟩ := lift_ok_iff.mp lifted
    rcases bind_error_iff.mp h with failed | ⟨new, _, lifted, h⟩
    · refine ⟨?_, (reads_lift _).error failed⟩
      rintro ⟨_, new, _, -, read, -⟩
      cases failed.symm.trans (lift_ok_iff.mpr ⟨read, rfl⟩)
    obtain ⟨-, rfl⟩ := lift_ok_iff.mp lifted
    rcases bind_error_iff.mp h with failed | ⟨_, _, _, returned⟩
    · rcases Membership.rename_refused (discard_error_iff.mp failed) with ⟨lost, rfl⟩ | refused
      · refine ⟨?_, rfl⟩
        rintro ⟨other, _, _, read, -, found⟩
        obtain rfl := Except.ok.inj (readOld.symm.trans read)
        cases lost.symm.trans found
      · obtain ⟨record, cause, refused⟩ := refused
        exact absurd refused (unrefused record cause)
    · cases returned

/-- An update that renames its group, and saves it, and then cannot rename it where it is listed. -/
def Stumbles (uid : String) (attributes : Attributes) (how : UpdateKind) (d : Directory) : Prop :=
  ∃ d₁ p, Directory.acquire d = .ok () d₁ ∧ plan uid attributes how d₁ = .ok p d₁ ∧
    p.renamed = true ∧ ¬ CanFollow p.note p.updated (d₁.afterSave p.updated).store

theorem stumbles_iff_of_memory (h : d.store.backing = .memory) :
    Stumbles uid attributes how d ↔
      ∃ d₁ p, Directory.acquire d = .ok () d₁ ∧ plan uid attributes how d₁ = .ok p d₁ ∧
        p.renamed = true ∧ ¬ ((∃ old, Name.canonicalize p.note.displayName = .ok old) ∧
          ∃ new, Name.canonicalize p.updated.displayName = .ok new) := by
  refine exists_congr fun d₁ => exists_congr fun p => and_congr_right fun acquires => ?_
  have memory : (d₁.afterSave p.updated).store.backing = .memory := by
    rw [Directory.backing_afterSave, (acquire_ok acquires).1, (store_acquired d).1, h]
  rw [canFollow_iff_of_memory memory]

theorem cautious_update (uid : String) (attributes : Attributes) (how : UpdateKind) (d : Directory) :
    Cautious (fun fault => (∃ record cause, fault = .noteSave record cause) ∨
      Stumbles uid attributes how d) (update uid attributes how) d := by
  rw [update_eq_plan]
  refine cautious_acquire_bind fun d₁ acquires => ?_
  refine (reads_plan uid attributes how).bind_cautious fun p planned => ?_
  intro fault d' failed
  left
  by_cases refused : ∃ record cause, fault = .noteSave record cause
  · exact Or.inl refused
  have unrefused : ∀ record cause, fault ≠ .noteSave record cause := by simpa using refused
  right
  rcases bind_error_iff.mp failed with failed | ⟨m, d₂, saved, failed⟩
  · rw [Plan.save] at failed
    split at failed
    · exact absurd (Directory.refused_of_save failed) refused
    · cases failed
  · obtain ⟨renamed, stuck, -⟩ := follow_error failed unrefused
    rw [Plan.save, changed_of_renamed planned renamed, if_pos rfl] at saved
    obtain ⟨rfl, rfl⟩ := Directory.save_ok saved
    exact ⟨d₁, p, acquires, planned, renamed, stuck⟩

theorem Stumbles.written (hs : Stumbles uid attributes how d)
    (h : update uid attributes how d = .error fault d')
    (unrefused : ∀ record cause, fault ≠ .noteSave record cause) : ¬ Unwritten d d' := by
  obtain ⟨d₁, p, acquires, planned, renamed, -⟩ := hs
  have changed := changed_of_renamed planned renamed
  rw [update_eq_plan, bind_apply, acquires] at h
  dsimp only at h
  rw [bind_apply, planned] at h
  rcases bind_error_iff.mp h with failed | ⟨m, d₂, saved, failed⟩
  · rw [Plan.save, changed, if_pos rfl] at failed
    obtain ⟨record, cause, refused⟩ := Directory.refused_of_save failed
    exact absurd refused (unrefused record cause)
  · rw [Plan.save, changed, if_pos rfl] at saved
    obtain ⟨-, rfl⟩ := Directory.save_ok saved
    rw [(follow_error failed unrefused).2.2]
    intro unwritten
    have longer := congrArg List.length unwritten.journal
    simp [Directory.afterSave, (acquire_ok acquires).1] at longer

/-- An update of a group that fails, and is not refused a save, has written nothing exactly if it does
not stumble. In memory it stumbles over the old display name or over the new one. -/
theorem unwritten_of_update_iff (h : update uid attributes how d = .error fault d')
    (unrefused : ∀ record cause, fault ≠ .noteSave record cause) :
    (Unwritten d d' ↔ ¬ Stumbles uid attributes how d) ∧
      (d.store.backing = .memory → (Stumbles uid attributes how d ↔
        ∃ d₁ p, Directory.acquire d = .ok () d₁ ∧ plan uid attributes how d₁ = .ok p d₁ ∧
          p.renamed = true ∧ ¬ ((∃ old, Name.canonicalize p.note.displayName = .ok old) ∧
            ∃ new, Name.canonicalize p.updated.displayName = .ok new))) := by
  refine ⟨⟨?_, ?_⟩, stumbles_iff_of_memory⟩
  · exact fun unwritten stumbles => stumbles.written h unrefused unwritten
  · intro steady
    rcases cautious_update uid attributes how d fault d' h with late | unwritten
    · rcases late with ⟨record, cause, refused⟩ | stumbles
      · exact absurd refused (unrefused record cause)
      · exact absurd stumbles steady
    · exact unwritten

/-! A group by a name that cannot be read: it is saved under another name, which then fails; with a
member whose name cannot be read it is not saved at all. -/

def slashed : Directory :=
  ended (create [(Schema.nameAttribute, [.text "R//D"])]) { supply := { ids := ["A1"] } }

/-- An update that fails, and is not refused a save, may have written something. -/
theorem not_always_unwritten_of_update :
    ¬ ∀ uid attributes how d fault d', update uid attributes how d = .error fault d' →
      (∀ record cause, fault ≠ .noteSave record cause) → Unwritten d d' := by
  intro always
  have fails : fault? (update "R//D" [(Schema.nameAttribute, [.text "Staff"])] .replace slashed) =
      some (.nameFormat "R//D" "empty component") := by
    decide
  have unwritten := always _ _ _ _ _ _ (error_of_fault? fails) fun _ _ => Fault.noConfusion
  have written : (ended (update "R//D" [(Schema.nameAttribute, [.text "Staff"])] .replace)
      slashed).journal ≠ slashed.journal := by
    decide
  exact written unwritten.journal

theorem unwritten_of_update_iff_sample :
    ∃ fault d', update "R//D" [("Members", [.text "X//Y"])] .replace slashed = .error fault d' ∧
      Unwritten slashed d' := by
  have fails : fault? (update "R//D" [("Members", [.text "X//Y"])] .replace slashed) =
      some (.nameFormat "X//Y" "empty component") := by
    decide
  have run := error_of_fault? fails
  refine ⟨_, _, run, (unwritten_of_update_iff run fun _ _ => Fault.noConfusion).1.mpr ?_⟩
  rintro ⟨d₁, p, acquires, planned, -, -⟩
  have stops : isOk (plan "R//D" [("Members", [.text "X//Y"])] .replace (acquired slashed)) =
      false := by
    decide
  rw [← (acquire_ok acquires).1, planned] at stops
  cases stops

end Group

end AddressBook

import AddressBook.Proofs.Provisioning.CarryingOut

/-! Renaming an account, and calling for the same again after a fault. The note of the account is saved
under its new name before any group is; from then on the call finds the name that it asks for, and has
nothing to rename. What was left of the renaming stays undone, and all the rest is made up for. -/

namespace AddressBook

open AddressBook.Action Text AddressBook.Membership AddressBook.Provisioning

namespace Account

variable {K : String → Prop} {t : Table (String → Option (List Note.Value))} {settings : Settings}
  {uid key : String} {attributes : Attributes} {how : UpdateKind} {p : Plan}
  {stored old new : CanonicalName} {n : Note} {d d₀ d₁ d' : Directory}

section

variable (hK : ∀ a b, K a → K b → sameAscii a b = true → a = b) (hd : d.Shaped K t)
  (first : d.Continues d₀) (asks : Asks settings attributes new)

include hK hd first asks

theorem saved_fits (known : StoredAs uid key stored d.store)
    (planned : plan settings uid attributes how d₀.store = .ok p) (saved : p.save d₀ = .ok n d₁) :
    d₀.Shaped K t ∧ p.Fits K t key stored new attributes ∧ d₁.Shaped K t ∧
      (n.FitsShapes K t ∧ n.isClass .account = true) ∧
        d₁.store.memberTable = d.store.memberTable := by
  have shaped := shaped_of_continues first hd
  have fits := plan_fits hK shaped (known.of_notes first.notes) asks planned
  obtain ⟨hd₁, hn, members⟩ := fits.save_ok shaped saved
  exact ⟨shaped, fits, hd₁, hn, members.trans (memberTable_of_notes first.notes)⟩

theorem update_of_differs (known : StoredAs uid key old d.store) (differs : new.same old = false)
    {id : String} (h : update settings uid attributes how d₀ = .ok id d') :
    d'.Shaped K t ∧ Unlisted old d'.store.memberTable ∧
      ∃ request, Request.ofAttributes (attributes.takeText Schema.nameAttribute).2 = .ok request ∧
        (AliasesDistinct d.store → d'.store.memberTable =
          request.membersAfter settings how new d.store
            (renamedTable old new d.store.memberTable)) := by
  have lasting := (shaped_of_continues first hd).1.lasting
  obtain ⟨d₁, p, n, d₂, found, planned, saved, run, _⟩ := update_ok lasting h
  obtain ⟨_, fits, hd₂, hn, members⟩ :=
    saved_fits hK hd (first.trans found) asks known planned saved
  have name := fits.name_eq (Or.inl differs)
  have renamed : p.renamed.isSome = true := by
    rw [fits.renamed, differs]
    rfl
  rw [Plan.settle_eq, renamed, if_pos rfl, fits.old, name] at run
  obtain ⟨⟨⟩, d₃, renames, run⟩ := bind_ok_iff.mp run
  obtain ⟨count, renames⟩ := discard_ok_iff.mp renames
  obtain ⟨hd₃, renamedMembers⟩ := shaped_rename asks.settled hd₂ renames
  rw [members] at renamedMembers
  have reached : Reaches (p.follow settings how n) d₃ d' := Or.inl ⟨(), run⟩
  refine ⟨follow_shaped name asks.settled hn hd₃ reached, ?_, p.request, fits.request, fun ha => ?_⟩
  · rw [follow_unlisted name asks.settled hn hd₃ differs reached, renamedMembers]
    exact unlisted_renamedTable asks.settled differs _
  · rw [follow_ok name asks.settled hn hd₃ (aliasesDistinct_of_shaped hd hd₃ ha) run, renamedMembers,
      membersAfter_eq_of_shaped p.request hd hd₃]

theorem update_of_stored (known : StoredAs uid key new d.store) {id : String}
    (h : update settings uid attributes how d₀ = .ok id d') :
    d'.Shaped K t ∧
      (∀ other, new.same other = false →
        (Unlisted other d'.store.memberTable ↔ Unlisted other d.store.memberTable)) ∧
      ∃ request, Request.ofAttributes (attributes.takeText Schema.nameAttribute).2 = .ok request ∧
        (AliasesDistinct d.store → d'.store.memberTable =
          request.membersAfter settings how new d.store d.store.memberTable) := by
  have lasting := (shaped_of_continues first hd).1.lasting
  obtain ⟨d₁, p, n, d₂, found, planned, saved, run, _⟩ := update_ok lasting h
  obtain ⟨_, fits, hd₂, hn, members⟩ :=
    saved_fits hK hd (first.trans found) asks known planned saved
  have name := fits.name_eq (Or.inr rfl)
  have renamed : p.renamed.isSome = false := by
    rw [fits.renamed, CanonicalName.same, beq_self_eq_true]
    rfl
  rw [Plan.settle_eq, renamed, if_neg Bool.false_ne_true, pure_bind] at run
  have reached : Reaches (p.follow settings how n) d₂ d' := Or.inl ⟨(), run⟩
  refine ⟨follow_shaped name asks.settled hn hd₂ reached, fun other apart => ?_, p.request,
    fits.request, fun ha => ?_⟩
  · rw [follow_unlisted name asks.settled hn hd₂ apart reached, members]
  · rw [follow_ok name asks.settled hn hd₂ (aliasesDistinct_of_shaped hd hd₂ ha) run, members,
      membersAfter_eq_of_shaped p.request hd hd₂]

/-- A call that renames an account and was cut short. Either it changed nothing, or the account goes by
its new name; and then either some group still lists the old name, or all that is left to do is what
the request says about groups. -/
theorem update_cut (known : StoredAs uid key old d.store) (differs : new.same old = false)
    (h : Reaches (update settings uid attributes how) d₀ d') :
    d'.Shaped K t ∧ (d'.store.notes = d.store.notes ∨
      StoredAs uid key new d'.store ∧ (Unlisted old d'.store.memberTable →
        ∃ request, Request.ofAttributes (attributes.takeText Schema.nameAttribute).2 = .ok request ∧
          (AliasesDistinct d.store →
            request.membersAfter settings how new d.store d'.store.memberTable =
              request.membersAfter settings how new d.store
                (renamedTable old new d.store.memberTable)))) := by
  have lasting := (shaped_of_continues first hd).1.lasting
  obtain ⟨d₁, found, same | ⟨p, n, d₂, planned, saved, run⟩⟩ := update_reaches lasting h
  · have found := first.trans found
    have unchanged : d.Continues d' := by
      refine ⟨?_, ?_, ?_⟩ <;> rw [same]
      · exact found.notes
      · exact found.backing
      · exact found.lasting
    exact ⟨shaped_of_continues unchanged hd, Or.inl unchanged.notes⟩
  obtain ⟨hd₁, fits, hd₂, hn, members⟩ :=
    saved_fits hK hd (first.trans found) asks known planned saved
  have named := fits.storedAs hd₁ known.same asks.settled differs saved run
  rcases settle_reaches fits asks.settled differs hd₂ run with ⟨hd', listed⟩ | ⟨d₃, hd₃, renamed, run⟩
  · exact ⟨hd', Or.inr ⟨named, fun unlisted => absurd unlisted listed⟩⟩
  have name := fits.name_eq (Or.inl differs)
  rw [members] at renamed
  refine ⟨follow_shaped name asks.settled hn hd₃ run, Or.inr ⟨named, fun _ => ?_⟩⟩
  refine ⟨p.request, fits.request, fun ha => ?_⟩
  have again := follow_again name asks.settled hn hd₃ (aliasesDistinct_of_shaped hd hd₃ ha) run
  rwa [membersAfter_eq_of_shaped p.request hd hd₃, renamed] at again

end

/-- The call asks for another name of the account that it finds. -/
structure Renames (settings : Settings) (uid : String) (attributes : Attributes) (s : Store)
    (old new : CanonicalName) : Prop where
  stored : ∃ n, find .account uid s = .ok (some n) ∧ storedName n = .ok old
  asked : ∃ raw, (attributes.takeText Schema.nameAttribute).1 = some raw ∧
    nameOf settings.directory raw = .ok new
  differs : new.same old = false

end Account

namespace Run

/-- After a call that renames an account and ends with a fault, the same call may succeed. Then no
group lists the old name exactly if the first call changed nothing or had renamed the account in every
group; and in these cases every group has the members that a call without a fault gives it. -/
theorem update_again_iff {start d d₀ d₁ d₂ d₃ : Directory} {steps : List Step} (hs : start.Empty)
    (run : Run start steps d) (ha : ∀ step ∈ steps, step.call.Proper)
    (hp : ∀ step ∈ steps, step.call.Plain) {settings : Settings} {uid id : String}
    {attributes : Attributes} {how : UpdateKind} {old new : CanonicalName} {fault : Fault}
    (formless : attributes.Lacks "Form") (plain : (Call.update .account uid attributes how).Plain)
    (renames : Account.Renames settings uid attributes d.store old new) (first : d.Continues d₀)
    (cut : Account.update settings uid attributes how d₀ = .error fault d₁)
    (next : d₁.Continues d₂) (again : Account.update settings uid attributes how d₂ = .ok id d₃) :
    ((∀ g ∈ d₃.store.notesOf .group, g.hasMember old = false) ↔
        d₁.store.notes = d.store.notes ∨ ∀ g ∈ d₁.store.notesOf .group, g.hasMember old = false) ∧
      ((∀ g ∈ d₃.store.notesOf .group, g.hasMember old = false) →
        Membership.AliasesDistinct d.store → ∀ d₄ d' id', d.Continues d₄ →
          Account.update settings uid attributes how d₄ = .ok id' d' →
            d₃.store.memberTable = d'.store.memberTable) := by
  have consistent := run.consistent hs ha hp
  let K : String → Prop := (· ∈ d.store.notes.keys)
  have hK : ∀ a b, K a → K b → sameAscii a b = true → a = b := fun a b ha hb same =>
    consistent.distinct a ha b hb same
  have hd : d.Shaped K (d.store.table Note.shape?) :=
    ⟨⟨consistent.toInMemory, fun _ h => h, consistent.notes⟩, consistent.toInMemory, rfl⟩
  have asks : Account.Asks settings attributes new := ⟨formless, plain, renames.asked⟩
  obtain ⟨n, found, named⟩ := renames.stored
  obtain ⟨key, hget, same, account⟩ := Store.accountById_ok consistent.memory found
  have known : Account.StoredAs uid key old d.store := ⟨same, n, hget, account, named⟩
  have whole := fun {d₄ d' id'} (continues : d.Continues d₄)
      (h : Account.update settings uid attributes how d₄ = .ok id' d') =>
    Account.update_of_differs hK hd continues asks known renames.differs h
  obtain ⟨hd₁, rest⟩ := Account.update_cut hK hd first asks known renames.differs (Or.inr ⟨fault, cut⟩)
  -- Either nothing was written, or the record has its new name and the second call renames nothing.
  rcases rest with unchanged | ⟨renamed, rest⟩
  · have continues : d.Continues d₂ := by
      refine ⟨next.notes.trans unchanged, ?_, ?_⟩
      · rw [next.backing, hd₁.1.memory, consistent.memory]
      · rw [next.lasting, hd₁.1.lasting, consistent.lasting]
    obtain ⟨hd₃, unlisted, request, asked, members⟩ := whole continues again
    rw [← unlisted_memberTable_iff hd₃.1.sound]
    refine ⟨⟨fun _ => Or.inl unchanged, fun _ => unlisted⟩, fun _ ha d₄ d' id' continues h => ?_⟩
    obtain ⟨_, _, request', asked', members'⟩ := whole continues h
    obtain rfl := Except.ok.inj (asked.symm.trans asked')
    rw [members ha, members' ha]
  · obtain ⟨hd₃, others, request, asked, members⟩ :=
      Account.update_of_stored hK hd₁ next asks renamed again
    have changed : d₁.store.notes ≠ d.store.notes := by
      intro unchanged
      obtain ⟨m, hm, _, named'⟩ := renamed.note
      rw [unchanged, hget, Option.some.injEq] at hm
      rw [← hm, named, Except.ok.injEq] at named'
      have differs := renames.differs
      rw [named', CanonicalName.same, beq_self_eq_true] at differs
      cases differs
    rw [← unlisted_memberTable_iff hd₃.1.sound, ← unlisted_memberTable_iff hd₁.1.sound,
      others old renames.differs, or_iff_right changed]
    refine ⟨Iff.rfl, fun unlisted ha d₄ d' id' continues h => ?_⟩
    obtain ⟨request₁, asked₁, left⟩ := rest unlisted
    obtain ⟨_, _, request', asked', members'⟩ := whole continues h
    obtain rfl := Except.ok.inj (asked.symm.trans asked₁)
    obtain rfl := Except.ok.inj (asked.symm.trans asked')
    rw [members (aliasesDistinct_of_shaped hd hd₁ ha), members' ha,
      Account.membersAfter_eq_of_shaped request hd hd₁, left ha]

/-! An account that a group lists, and a save of the one or the other that is refused. -/

def createTeam : Step :=
  ⟨{ createAnn.after with supply := { ids := ["G1"] } }, {},
    .create .group [("Members", [.text "Ann Lee/Acme"]), ("__NAME__", [.text "Staff"])]⟩

def renamingAttributes : Attributes := [("__NAME__", [.text "Ann Ray/Acme"])]

def renameAnn : Action String := Account.update {} "A1" renamingAttributes .replace

def failing (d : Directory) (saves : Nat) : Directory :=
  { d with store := { d.store with savesLeft := some saves } }

theorem continues_failing (d : Directory) (saves : Nat) : d.Continues (failing d saves) :=
  ⟨rfl, rfl, rfl⟩

theorem continues_restored (d : Directory) : d.Continues (Membership.restored d) := ⟨rfl, rfl, rfl⟩

def teamFailing (saves : Nat) : Directory := failing createTeam.after saves

theorem run_createTeam : Run {} [createAnn, createTeam] createTeam.after := by
  refine run_createAnn.next _ _ (by decide) ?_
  rw [keys_createAnn]
  decide

theorem proper_createTeam : ∀ step ∈ [createAnn, createTeam], step.call.Proper := by
  decide

theorem plain_createTeam : ∀ step ∈ [createAnn, createTeam], step.call.Plain := by
  decide

theorem formless_renamingAttributes : renamingAttributes.Lacks "Form" := by
  decide

theorem plain_renamingAttributes :
    (Call.update .account "A1" renamingAttributes .replace).Plain := by
  decide

def annNote : Note := (createTeam.after.store.notes.get? "A1").getD {}

theorem renames_createTeam : Account.Renames {} "A1" renamingAttributes createTeam.after.store
    ⟨"CN=Ann Lee/O=Acme"⟩ ⟨"CN=Ann Ray/O=Acme"⟩ := by
  have found : (find .account "A1" createTeam.after.store).toOption = some (some annNote) ∧
      (Account.storedName annNote).toOption = some ⟨"CN=Ann Lee/O=Acme"⟩ := by
    decide +kernel
  exact ⟨⟨annNote, eq_ok_of_toOption found.1, eq_ok_of_toOption found.2⟩,
    ⟨"Ann Ray/Acme", by decide, eq_ok_of_toOption (by decide)⟩, by decide⟩

theorem renameAnn_teamFailing :
    isOk (renameAnn (teamFailing 1)) = false ∧
      isOk (renameAnn (ended renameAnn (teamFailing 1))) = true ∧
        ∃ g ∈ (ended renameAnn (ended renameAnn (teamFailing 1))).store.notesOf .group,
          g.hasMember ⟨"CN=Ann Lee/O=Acme"⟩ = true := by
  decide +kernel

/-- A failed renaming is not always made up for by the same call. -/
theorem not_always_renamed_again :
    ¬ ∀ start steps d d₀ d₁ d₂ d₃, start.Empty → Run start steps d →
      (∀ step ∈ steps, step.call.Proper) → (∀ step ∈ steps, step.call.Plain) →
        ∀ settings uid attributes how old new fault id, attributes.Lacks "Form" →
          (Call.update .account uid attributes how).Plain →
            Account.Renames settings uid attributes d.store old new → d.Continues d₀ →
              Account.update settings uid attributes how d₀ = .error fault d₁ → d₁.Continues d₂ →
                Account.update settings uid attributes how d₂ = .ok id d₃ →
                  ∀ g ∈ d₃.store.notesOf .group, g.hasMember old = false := by
  intro always
  obtain ⟨refused, succeeds, g, hg, lists⟩ := renameAnn_teamFailing
  obtain ⟨fault, cut⟩ := error_ended refused
  obtain ⟨id, again⟩ := ok_ended succeeds
  have unlisted := always {} _ _ _ _ _ _ ⟨rfl, rfl, rfl⟩ run_createTeam proper_createTeam
    plain_createTeam _ _ _ _ _ _ _ _ formless_renamingAttributes plain_renamingAttributes
      renames_createTeam (continues_failing _ 1) cut (.refl _) again
  rw [unlisted g hg] at lists
  cases lists

theorem aliasesDistinct_createTeam : Membership.AliasesDistinct createTeam.after.store := by
  have one : (createTeam.after.store.notesOf .group).length = 1 := by decide
  obtain ⟨group, only⟩ := List.length_eq_one_iff.mp one
  intro g hg h hh different
  rw [only, List.mem_singleton] at hg hh
  exact absurd (hg.trans hh.symm) fun same => different (congrArg Note.id same)

theorem update_again_iff_sample :
    ∃ fault d₁ id d₃ id' d', renameAnn (teamFailing 0) = .error fault d₁ ∧
      renameAnn (Membership.restored d₁) = .ok id d₃ ∧ renameAnn createTeam.after = .ok id' d' ∧
        (∀ g ∈ d₃.store.notesOf .group, g.hasMember ⟨"CN=Ann Lee/O=Acme"⟩ = false) ∧
          d₃.store.memberTable = d'.store.memberTable := by
  have runs : isOk (renameAnn (teamFailing 0)) = false ∧
      isOk (renameAnn (Membership.restored (ended renameAnn (teamFailing 0)))) = true ∧
        isOk (renameAnn createTeam.after) = true ∧
          (ended renameAnn (teamFailing 0)).store.notes = createTeam.after.store.notes := by
    decide +kernel
  obtain ⟨refused, succeeds, whole, unchanged⟩ := runs
  obtain ⟨fault, cut⟩ := error_ended refused
  obtain ⟨id, again⟩ := ok_ended succeeds
  obtain ⟨id', uncut⟩ := ok_ended whole
  obtain ⟨gone, same⟩ := update_again_iff ⟨rfl, rfl, rfl⟩ run_createTeam proper_createTeam
    plain_createTeam formless_renamingAttributes plain_renamingAttributes renames_createTeam
      (continues_failing _ 0) cut (continues_restored _) again
  have unlisted := gone.mpr (Or.inl unchanged)
  exact ⟨fault, _, id, _, id', _, cut, again, uncut, unlisted,
    same unlisted aliasesDistinct_createTeam _ _ _ (.refl _) uncut⟩

end Run

end AddressBook

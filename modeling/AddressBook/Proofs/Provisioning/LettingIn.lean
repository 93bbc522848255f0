import AddressBook.Proofs.Provisioning.Enabling
import AddressBook.Proofs.Provisioning.ReadBack

/-! Whether an account is read as enabled after an update asked for it, in every state of a run. -/

namespace AddressBook

open AddressBook.Action Text Provisioning

namespace Reading

theorem withGroups_enabled {s : Store} {selection : Selection} {n : Note} {e : Entry}
    {held : List Note} (hg : groupsOf s n = .ok held)
    (asked : selection.contains Schema.enableAttribute = true) :
    ∃ e', withGroups s selection n e = .ok e' ∧
      e'.get? Schema.enableAttribute =
        some [.boolean (enabledByMark n && !held.any (·.isDenyList))] := by
  rw [withGroups, asked, Bool.or_true, if_pos rfl, hg]
  refine ⟨_, rfl, ?_⟩
  simp [Entry.setIf]

theorem get_enabled {d d' : Directory} {id : String} {n : Note} {name : CanonicalName}
    {selection : Selection} (hx : d'.Indexed) (ho : ∀ entry ∈ d'.store.notes, entry.2.Orderly)
    (reached : Directory.acquire d = .ok () d') (hn : d'.store.notes.get? id = some n)
    (hk : n.isClass .account = true) (hname : Account.storedName n = .ok name)
    (asked : selection.contains Schema.enableAttribute = true) :
    ∃ e shown, get .account id selection d = .ok (some e) d' ∧
      e.get? Schema.enableAttribute = some [.boolean shown] ∧
        (shown = true ↔ Account.LetIn d'.store n name) := by
  have held := Store.groupsOf_of_orderly hx.memory ho name
  rw [← groupsOf_of_storedName hname] at held
  have found : find .account id d'.store = .ok (some n) := (find_uidOf_iff hx hn).mpr hk
  obtain ⟨e₀, plain⟩ : ∃ e₀, Entry.ofNote .account n selection = .ok e₀ := by
    rw [Entry.ofNote, hx.sound.id_of_get? hn]
    exact ⟨_, rfl⟩
  obtain ⟨e, derived, shown⟩ := withGroups_enabled (e := e₀) held asked
  refine ⟨e, _, get_of_acquire reached found ?_, shown, ?_⟩
  · rw [entryOf, plain]
    exact derived
  · rw [Account.LetIn, Store.Denies, Bool.and_eq_true, Bool.not_eq_true', List.any_eq_false]
    simp only [List.mem_filter, not_exists, not_and, and_imp]
    exact and_congr_right fun _ => ⟨fun h g hg deny member => h g hg member deny,
      fun h g hg member deny => h g hg deny member⟩

end Reading

namespace Run

open Reading

/-- After a run of calls that give no form and no nested names, an account is updated and asked to be
enabled or disabled. It is then read as what was asked for exactly if that prevails over the other
ways to deny it, as they are after the same update without asking. -/
theorem read_as_asked_iff {start d d₀ d₁ d₂ d₃ : Directory} {steps : List Step} (hs : start.Empty)
    (run : Run start steps d)
    (ordinary : ∀ step ∈ steps, step.call.attributes.Lacks "Form" ∧ step.call.Plain)
    (resumes : d.Resumes d₀) {settings : Settings} {given uid : String} {attributes : Attributes}
    {how : UpdateKind} (formless : attributes.Lacks "Form")
    (plain : (Call.update .account given attributes how).Plain) {request : Account.Request}
    (asks : Account.Request.ofAttributes (attributes.takeText Schema.nameAttribute).2 = .ok request)
    {enabled : Bool} (asked : request.enable = some enabled)
    (h : Account.update settings given attributes how d₀ = .ok uid d₁) (continues : d₁.Continues d₂)
    (reached : Directory.acquire d₂ = .ok () d₃) {selection : Selection}
    (selected : selection.contains Schema.enableAttribute = true) :
    ∃ dₘ n name e shown,
      Account.update settings given (attributes.take Schema.enableAttribute).2 how d₀ = .ok uid dₘ ∧
      dₘ.store.notes.get? uid = some n ∧ Account.storedName n = .ok name ∧
      Reading.get .account uid selection d₂ = .ok (some e) d₃ ∧
      e.get? Schema.enableAttribute = some [.boolean shown] ∧
      (shown = enabled ↔
        Account.Prevails settings.directory request.denyGroups enabled dₘ.store n name) := by
  have stocked := (Note.Orderly.regimen.stocked hs run ordinary).continues resumes.toContinues
  obtain ⟨d', p, n, d'', dₘ, acquires, planned, saved, rfl, gathered, without, access⟩ :=
    Account.update_unasked h
  have alike := alike_of_acquire acquires stocked.lasting
  obtain ⟨hd'', stands⟩ :=
    Account.Plan.save_stands (stocked.alike alike) formless plain planned saved
  obtain ⟨hdₘ, stands⟩ := Account.Plan.gather_stands hd'' stands gathered
  obtain ⟨_, _, _, _, _, planned, _⟩ := Account.plan_ok planned
  obtain rfl := Except.ok.inj (planned.symm.trans asks)
  rw [Account.Plan.access, asked] at access
  have next : Run start (steps ++ [⟨d₀, settings, .update .account given attributes how⟩]) d₁ := by
    have longer : Run start _ (Step.after ⟨d₀, settings, .update .account given attributes how⟩) :=
      .step run resumes
    have returns : Call.Returns (.update .account given attributes how) settings p.uid d₀ d₁ := h
    rwa [returns.after] at longer
  have indexed := continues.indexed (next.indexed hs)
  have orderly := (Note.Orderly.regimen.stocked hs next fun step hstep => by
    rcases List.mem_append.mp hstep with earlier | last
    · exact ordinary step earlier
    · rw [List.mem_singleton.mp last]
      exact ⟨formless, plain⟩).continues continues
  obtain ⟨n', hn', account, full, prevails⟩ := Account.letIn_setEnabled hdₘ.toInMemory
    (next.indexed hs).toInMemory stands.note stands.account stands.settled access
  have later := alike_of_acquire reached indexed.lasting
  have same : d₃.store.notes = d₁.store.notes := later.notes.trans continues.notes
  have named := Account.storedName_congr full stands.named
  rw [← same] at hn'
  have indexed' := (Directory.Continues.of_alike later).indexed indexed
  obtain ⟨e, shown, read, shows, letIn⟩ := get_enabled indexed' (orderly.alike later).notes reached
    hn' account named selected
  refine ⟨dₘ, n, p.name, e, shown, without, stands.note, stands.named, read, shows, ?_⟩
  rw [← prevails, ← Account.letIn_congr same, ← letIn]
  cases shown <;> cases enabled <;> simp

/-! An account is disabled by its mark, and then enabled through a deny list that does not list it. -/

def disableAnn : Step :=
  ⟨{ createAnn.after with supply := { ids := ["B2"] } }, {},
    .update .account "A1" [(Schema.enableAttribute, [.boolean false])] .replace⟩

def enableAnn : Step :=
  ⟨{ disableAnn.after with supply := { ids := ["C3"] } }, {},
    .update .account "A1" [("DenyGroups", [.text "Barred"]),
      (Schema.enableAttribute, [.boolean true])] .replace⟩

def enabledSelection : Selection := ⟨[Schema.enableAttribute]⟩

theorem resumes_disableAnn : createAnn.after.Resumes disableAnn.before := by
  refine ⟨.with_supply createAnn.after _, by decide, ?_⟩
  rw [disableAnn, keys_createAnn]
  decide

theorem run_disableAnn : Run {} [createAnn, disableAnn] disableAnn.after :=
  .step run_createAnn resumes_disableAnn

theorem resumes_enableAnn : disableAnn.after.Resumes enableAnn.before :=
  ⟨.with_supply disableAnn.after _, by decide, by decide⟩

theorem asks_disableAnn : ∃ request, Account.Request.ofAttributes
    (disableAnn.call.attributes.takeText Schema.nameAttribute).2 = .ok request ∧
      request.enable = some false ∧
        Account.listsAsked ({} : Settings).directory request.denyGroups = [] :=
  ⟨_, rfl, rfl, rfl⟩

theorem asks_enableAnn : ∃ request, Account.Request.ofAttributes
    (enableAnn.call.attributes.takeText Schema.nameAttribute).2 = .ok request ∧
      request.enable = some true ∧
        Account.listsAsked ({} : Settings).directory request.denyGroups = ["Barred"] :=
  ⟨_, rfl, rfl, rfl⟩

theorem current_enableAnn : ∀ step ∈ [disableAnn, enableAnn],
    value? (Account.update {} "A1" step.call.attributes .replace step.before) = some "A1" ∧
      (ended (Account.update {} "A1" step.call.attributes .replace)
        step.before).session.current = some 0 ∧
        (ended (Account.update {} "A1" step.call.attributes .replace)
          step.before).store.isOpen = true := by
  decide

theorem not_always_read_as_asked :
    ¬ ∀ start steps d d₀ d₁ d₂, start.Empty → Run start steps d → d.Resumes d₀ →
      ∀ settings given uid attributes how request enabled,
        Account.Request.ofAttributes (attributes.takeText Schema.nameAttribute).2 = .ok request →
          request.enable = some enabled →
            Account.update settings given attributes how d₀ = .ok uid d₁ → d₁.Continues d₂ →
              ∃ e d₃, Reading.get .account uid enabledSelection d₂ = .ok (some e) d₃ ∧
                e.get? Schema.enableAttribute = some [.boolean enabled] := by
  intro always
  have read : (((value? (Reading.get .account "A1" enabledSelection
      (ended (Account.update {} "A1" enableAnn.call.attributes .replace) enableAnn.before))).bind id).bind
        (·.get? Schema.enableAttribute)).bind (·.head?.bind AttributeValue.boolean?) = some false := by
    decide +kernel
  obtain ⟨runs, -, -⟩ := current_enableAnn enableAnn (by simp)
  obtain ⟨request, asks, asked, -⟩ := asks_enableAnn
  obtain ⟨e, d₃, found, shown⟩ := always {} [createAnn, disableAnn] disableAnn.after enableAnn.before _ _
    ⟨rfl, rfl, rfl⟩ run_disableAnn resumes_enableAnn {} "A1" "A1" enableAnn.call.attributes .replace
    request true asks asked (ok_of_value? runs) (.refl _)
  rw [found] at read
  change (e.get? Schema.enableAttribute).bind _ = _ at read
  rw [shown] at read
  cases read

theorem ordinary_enableAnn : ∀ step ∈ [createAnn, disableAnn, enableAnn],
    step.call.attributes.Lacks "Form" ∧ step.call.Plain := by
  decide

theorem unmarked_enableAnn : ((ended (Account.update {} "A1"
    (enableAnn.call.attributes.take Schema.enableAttribute).2 .replace)
      enableAnn.before).store.notes.get? "A1").map Reading.enabledByMark = some false := by
  decide

theorem read_as_asked_iff_sample :
    (∃ d₁ e, Account.update {} "A1" disableAnn.call.attributes .replace disableAnn.before =
        .ok "A1" d₁ ∧
      Reading.get .account "A1" enabledSelection d₁ = .ok (some e) d₁ ∧
        e.get? Schema.enableAttribute = some [.boolean false]) ∧
      ∃ d₁ e, Account.update {} "A1" enableAnn.call.attributes .replace enableAnn.before =
          .ok "A1" d₁ ∧
        Reading.get .account "A1" enabledSelection d₁ = .ok (some e) d₁ ∧
          e.get? Schema.enableAttribute = some [.boolean false] := by
  have selected : enabledSelection.contains Schema.enableAttribute = true := by decide
  constructor
  · obtain ⟨runs, session, isOpen⟩ := current_enableAnn disableAnn (by simp)
    obtain ⟨request, asks, asked, lists⟩ := asks_disableAnn
    obtain ⟨formless, plain⟩ := ordinary_enableAnn disableAnn (by simp)
    obtain ⟨dₘ, n, name, e, shown, _, _, _, read, shows, prevails⟩ :=
      read_as_asked_iff ⟨rfl, rfl, rfl⟩ run_createAnn
        (fun step h => ordinary_enableAnn step (List.mem_append_left [disableAnn, enableAnn] h))
        resumes_disableAnn formless plain asks
        asked (ok_of_value? runs) (.refl _) (acquire_of_current session isOpen) selected
    unfold Account.Prevails at prevails
    rw [lists] at prevails
    rw [prevails.mpr trivial] at shows
    exact ⟨_, e, ok_of_value? runs, read, shows⟩
  · obtain ⟨runs, session, isOpen⟩ := current_enableAnn enableAnn (by simp)
    obtain ⟨request, asks, asked, lists⟩ := asks_enableAnn
    obtain ⟨formless, plain⟩ := ordinary_enableAnn enableAnn (by simp)
    obtain ⟨dₘ, n, name, e, shown, without, stands, _, read, shows, prevails⟩ :=
      read_as_asked_iff ⟨rfl, rfl, rfl⟩ run_disableAnn
        (fun step h => ordinary_enableAnn step (List.mem_append_left [enableAnn] h))
        resumes_enableAnn formless plain asks
        asked (ok_of_value? runs) (.refl _) (acquire_of_current session isOpen) selected
    have unmarked := unmarked_enableAnn
    rw [ended, without] at unmarked
    dsimp only at unmarked
    rw [stands, Option.map_some, Option.some.injEq] at unmarked
    unfold Account.Prevails at prevails
    rw [lists, unmarked] at prevails
    have denied : shown = false := by
      rw [Bool.eq_false_iff]
      intro letIn
      cases (prevails.mp letIn).1
    rw [denied] at shows
    exact ⟨_, e, ok_of_value? runs, read, shows⟩

end Run

end AddressBook

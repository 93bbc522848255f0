import AddressBook.Proofs.Membership.Kept
import AddressBook.Proofs.Provisioning.FullName
import AddressBook.Proofs.Provisioning.Indexed

/-! Calls that are refused for what they ask. They have read by then, and written nothing. What comes
up later is a fault of the store or, where an account is updated, a group that is not there. -/

namespace AddressBook

open AddressBook.Action Provisioning

namespace Provisioning

theorem reads_findExisting (kind : EntryClass) (uid : String) : Reads (findExisting kind uid) := by
  refine (reads_read _).bind fun found => ?_
  cases found with
  | some n => exact reads_pure n
  | none => cases kind <;> exact reads_throw _

end Provisioning

namespace Account

variable {backing : Backing}

theorem fails_regroup (p : Plan) (settings : Settings) (how : UpdateKind) :
    Fails backing (·.IsLate backing) (p.regroup settings how) := by
  rw [Plan.regroup]
  split
  · exact Membership.fails_updateGroups _ _ _ how
  · exact fails_pure ()

theorem fails_access (p : Plan) (settings : Settings) (n : Note) :
    Fails backing (·.IsLate backing) (p.access settings n) := by
  rw [Plan.access]
  split
  · exact fails_setEnabled _ n _ _ _
  · exact fails_pure ()

theorem fails_settle (p : Plan) (settings : Settings) (how : UpdateKind) (n : Note) :
    Fails backing (·.IsLate backing) (p.settle settings how n) := by
  rw [Plan.settle_eq, Plan.follow]
  refine Fails.bind (fails_ite ?_ (fails_pure ())) fun _ => ?_
  · exact fails_discard ((Membership.fails_rename _ _).mono fun _ => Or.inl)
  · exact (fails_regroup p settings how).bind fun _ => fails_access p settings n

theorem fails_carryOut (p : Plan) (settings : Settings) (how : UpdateKind) :
    Fails backing (·.IsLate backing) (p.carryOut settings how) := by
  rw [Plan.carryOut_eq, Plan.save]
  refine Fails.bind (fails_ite ?_ (fails_pure p.note)) fun n => ?_
  · exact (fails_save p.note).mono fun _ => Or.inl
  · exact (fails_settle p settings how n).bind fun _ => fails_pure p.uid

theorem cautious_update (settings : Settings) (uid : String) (attributes : Attributes)
    (how : UpdateKind) (d : Directory) :
    Cautious (·.IsLate .sqlite) (update settings uid attributes how) d := by
  rw [update_eq]
  refine cautious_acquire_bind fun d₁ _ => (reads_read _).bind_cautious fun p _ => ?_
  exact ((fails_carryOut p settings how).mono fun _ => Fault.IsLate.sqlite).cautious

theorem ofStore_of_denied {name : CanonicalName} {group id : String} {d d' : Directory}
    {fault : Fault} (hd : d.store.Sound)
    (known : d.store.Knows group)
    (h : (do
      discard (Membership.removeEverywhere name)
      discard (Membership.join name group)
      discard (Directory.delete id) : Action Unit) d = .error fault d') :
    fault.ofStore .sqlite = true := by
  rcases bind_error_iff.mp h with failed | ⟨_, d₁, removed, failed⟩
  · exact Fault.ofStore_sqlite ((Membership.fails_removeEverywhere name).error
      (discard_error_iff.mp failed))
  · have kept := (keeps_discard
      ((Membership.upkeep_texts d.store).keeps_removeEverywhere name)).ok (.refl hd) removed
    rcases bind_error_iff.mp failed with failed | ⟨_, d₂, _, failed⟩
    · exact Fault.ofStore_sqlite
        (Membership.ofStore_of_join kept.1 hd known (discard_error_iff.mp failed))
    · exact (fails_delete id).error (discard_error_iff.mp failed)

theorem fails_letGo (name : CanonicalName) (id : String) :
    Fails backing (·.ofStore .sqlite) (do
      discard (Membership.removeEverywhere name)
      discard (Directory.delete id)) := by
  refine (fails_discard ?_).bind fun _ => fails_discard (fails_delete id)
  exact (Membership.fails_removeEverywhere name).mono fun _ => Fault.ofStore_sqlite

theorem cautious_delete (settings : Settings) (uid : String) {d : Directory}
    (hd : d.store.Sound) : Cautious (·.ofStore .sqlite) (delete settings uid) d := by
  rw [delete]
  refine cautious_acquire_bind fun d₁ acquired => ?_
  refine (reads_findExisting .account uid).bind_cautious fun n _ => ?_
  refine (reads_lift (idOf n)).bind_cautious fun id _ => ?_
  refine (reads_lift (storedName n)).bind_cautious fun name _ => ?_
  cases settings.directory.deleteDenyGroup with
  | none => exact (fails_letGo name id).cautious
  | some group =>
    have sound : d₁.store.Sound := by
      rw [(acquire_ok acquired).1]
      exact sound_acquired hd
    refine (reads_read _).bind_cautious fun found read => ?_
    cases found with
    | none =>
      refine (reads_throw _).bind_cautious fun _ thrown => ?_
      cases thrown
    | some g =>
      have known := (Store.isSome_groupByAlias (read_ok_iff.mp read).1).mp rfl
      exact fun fault d' failed => Or.inl (ofStore_of_denied sound known failed)

end Account

namespace Group

theorem reads_checkUnused (aliases : List String) : Reads (checkUnused aliases) :=
  reads_forM fun _ => (reads_read _).bind fun _ => reads_ite (reads_throw _) (reads_pure ())

theorem cautious_create (attributes : Attributes) (d : Directory) :
    Cautious (·.ofStore .sqlite) (create attributes) d := by
  rw [create]
  refine (reads_lift (Request.ofAttributes attributes)).bind_cautious fun request _ => ?_
  split
  · next aliases _ =>
    refine cautious_acquire_bind fun d₁ _ => ?_
    refine (reads_checkUnused aliases).bind_cautious fun _ _ => ?_
    refine (reads_lift (newNote aliases request)).bind_cautious fun n _ => ?_
    refine Fails.cautious (Fails.bind (fails_discard ?_) fun _ => fails_pure _)
    exact (fails_save n).mono fun _ => Fault.ofStore_sqlite
  · exact (reads_throw _).cautious d

theorem cautious_delete (uid : String) (d : Directory) :
    Cautious (·.ofStore .sqlite) (delete uid) d := by
  rw [delete]
  refine cautious_acquire_bind fun d₁ _ => ?_
  refine (reads_findExisting .group uid).bind_cautious fun n _ => ?_
  refine (reads_lift (idOf n)).bind_cautious fun id _ => ?_
  refine (reads_lift (Name.canonicalize n.displayName)).bind_cautious fun name _ => ?_
  exact (Account.fails_letGo name id).cautious

end Group

namespace Fault

def isRejection : Fault → Bool
  | .invalidAttribute _ => true
  | .nameFormat _ _ => true
  | .alreadyExists _ _ => true
  | .unknownAccount _ => true
  | _ => false

variable {fault : Fault}

theorem not_isLate_of_isRejection {backing : Backing} (h : fault.isRejection = true) :
    ¬ fault.IsLate backing := by
  rintro (store | ⟨name, rfl⟩)
  · cases fault <;> first | exact Bool.false_ne_true h | exact Bool.false_ne_true store
  · cases h

end Fault

namespace Call

/-- The faults by which a call is refused before it writes. An account is updated before its groups
are looked up, so there an unknown group is not among them. -/
inductive Refuses : Call → Fault → Prop
  | updateAccount {uid : String} {attributes : Attributes} {how : UpdateKind} {fault : Fault}
      (rejection : fault.isRejection = true) : Refuses (.update .account uid attributes how) fault
  | createGroup {attributes : Attributes} {fault : Fault}
      (refusal : fault.isRejection = true ∨ ∃ name, fault = .unknownGroup name) :
      Refuses (.create .group attributes) fault
  | delete {kind : EntryClass} {uid : String} {fault : Fault}
      (refusal : fault.isRejection = true ∨ ∃ name, fault = .unknownGroup name) :
      Refuses (.delete kind uid) fault

variable {call : Call} {settings : Settings} {d d' : Directory} {fault : Fault}

theorem not_ofStore_of_refusal {backing : Backing}
    (h : fault.isRejection = true ∨ ∃ name, fault = .unknownGroup name) :
    ¬ fault.ofStore backing = true := by
  rcases h with rejection | ⟨name, rfl⟩
  · exact fun store => Fault.not_isLate_of_isRejection rejection (Or.inl store)
  · exact Bool.false_ne_true

/-- A call that is refused has written nothing and deleted nothing, whatever the store. -/
theorem unwritten_of_refuses (hs : d.store.Sound) (hr : call.Refuses fault)
    (h : call.run settings d = .error fault d') :
    Unwritten d d' ∧ (d.store.lasting = true → d'.store.notes = d.store.notes) := by
  have unwritten : Unwritten d d' := by
    cases hr with
    | @updateAccount uid attributes how _ rejection =>
      have cautious := Account.cautious_update settings uid attributes how d
      exact (cautious fault d' (discard_error_iff.mp h)).resolve_left
        (Fault.not_isLate_of_isRejection rejection)
    | @createGroup attributes _ refusal =>
      have cautious := Group.cautious_create attributes d
      exact (cautious fault d' (discard_error_iff.mp h)).resolve_left (not_ofStore_of_refusal refusal)
    | @delete kind uid _ refusal =>
      cases kind with
      | account =>
        have cautious := Account.cautious_delete settings uid hs
        exact (cautious fault d' h).resolve_left (not_ofStore_of_refusal refusal)
      | group =>
        have cautious := Group.cautious_delete uid d
        exact (cautious fault d' h).resolve_left (not_ofStore_of_refusal refusal)
  exact ⟨unwritten, fun lasting => (unwritten.alike lasting).notes⟩

/-! An account that cannot be deleted, since there is no list for the deleted. -/

def denying : Settings := { directory := { deleteDenyGroup := some "Gone" } }

theorem unwritten_of_refuses_sample :
    ∃ d', Run.createAnn.after.store.Sound ∧
      (Call.delete .account "A1").run denying Run.createAnn.after =
        .error (.unknownGroup "Gone") d' ∧
      Unwritten Run.createAnn.after d' ∧ d'.store.notes = Run.createAnn.after.store.notes := by
  have indexed := Run.run_createAnn.indexed ⟨rfl, rfl, rfl⟩
  have fails : fault? ((Call.delete .account "A1").run denying Run.createAnn.after) =
      some (.unknownGroup "Gone") := by
    decide
  have run := error_of_fault? fails
  obtain ⟨unwritten, notes⟩ :=
    unwritten_of_refuses indexed.toInMemory.sound (.delete (Or.inr ⟨_, rfl⟩)) run
  exact ⟨_, indexed.toInMemory.sound, run, unwritten, notes indexed.toInMemory.lasting⟩

end Call

end AddressBook

import AddressBook.Proofs.Membership.Mirrored
import AddressBook.Proofs.Provisioning.Group
import AddressBook.Proofs.Provisioning.Plan
import AddressBook.Provisioning.Entries

/-! Entries are created, updated, deleted, read and searched on a table as they are in memory. -/

namespace AddressBook

open AddressBook.Action Text Provisioning

namespace Store.Agrees

variable {s t : Store} (h : s.Agrees t)

include h

theorem find (kind : EntryClass) (uid : String) :
    Provisioning.find kind uid t = Provisioning.find kind uid s := by
  cases kind with
  | account => exact h.accountById _
  | group => exact h.groupByAlias _

theorem newNameIn (settings : DirectorySettings) (n : Note) (name : CanonicalName)
    (requested : Option String) :
    Account.newNameIn settings n name requested t = Account.newNameIn settings n name requested s := by
  cases requested with
  | none => rfl
  | some raw => simp only [Account.newNameIn, h.accountByName]

theorem plan (settings : Settings) (uid : String) (attributes : Attributes) (how : UpdateKind) :
    Account.plan settings uid attributes how t = Account.plan settings uid attributes how s := by
  simp only [Account.plan, Account.existingIn, h.find, h.newNameIn]

theorem creation (settings : DirectorySettings) (name : CanonicalName) (attributes : Attributes) :
    Account.creation settings name attributes t = Account.creation settings name attributes s := by
  simp only [Account.creation, Account.checkGroupsIn, h.accountByName, h.groupByAlias]

theorem resolve : Reading.resolve t = Reading.resolve s := by
  funext member
  simp only [Reading.resolve, h.groupByAlias, h.accountByName]

theorem entryOf (kind : EntryClass) (selection : Selection) (n : Note) :
    Reading.entryOf t kind selection n = Reading.entryOf s kind selection n := by
  cases kind with
  | account => simp only [Reading.entryOf, Reading.withGroups, Reading.groupsOf, h.groupsOf]
  | group => simp only [Reading.entryOf, Reading.withMembers, h.resolve]

theorem found (kind : EntryClass) (query : Option String) :
    Reading.found t kind query = Reading.found s kind query := by
  simp only [Reading.found, h.accountById, h.search]

end Store.Agrees

variable {K : String → Prop} {lasting : Bool} (apart : KeysApart K)

include apart

namespace Provisioning

theorem mirrored_findExisting (kind : EntryClass) (uid : String) :
    Mirrored K lasting (findExisting kind uid) := by
  refine (mirrored_read apart fun _ _ h => h.find kind uid).bind fun found => ?_
  cases found with
  | some n => exact mirrored_pure n
  | none => cases kind <;> exact mirrored_throw _

end Provisioning

namespace Account

theorem mirrored_regroup (p : Plan) (settings : Settings) (how : UpdateKind) :
    Mirrored K lasting (p.regroup settings how) := by
  rw [Plan.regroup]
  split
  · exact Membership.mirrored_updateGroups apart _ _ _ how
  · exact mirrored_pure ()

theorem mirrored_access (p : Plan) (settings : Settings) (n : Note) :
    Mirrored K lasting (p.access settings n) := by
  rw [Plan.access]
  split
  · exact mirrored_setEnabled apart _ n _ _ _
  · exact mirrored_pure ()

theorem mirrored_settle (p : Plan) (settings : Settings) (how : UpdateKind) (n : Note) :
    Mirrored K lasting (p.settle settings how n) := by
  have renames : Mirrored K lasting (discard (Membership.rename p.old p.name) : Action Unit) :=
    mirrors_discard (Membership.mirrored_rename apart p.old p.name)
  rw [Plan.settle_eq, Plan.follow]
  refine (mirrors_ite renames (mirrored_pure ())).bind fun _ => ?_
  exact (mirrored_regroup apart p settings how).bind fun _ => mirrored_access apart p settings n

theorem mirrored_settle_creation (c : Creation) (settings : Settings) (n : Note) :
    Mirrored K lasting (c.settle settings n) := by
  rw [Creation.settle_eq, Creation.regroup, Creation.access]
  exact (mirrors_ite (Membership.mirrored_updateGroups apart _ _ _ _) (mirrored_pure ())).bind
    fun _ => mirrors_ite (mirrored_setEnabled apart _ n _ _ _) (mirrored_pure ())

theorem mirrors_create (settings : Settings) (attributes : Attributes) :
    Mirrors K lasting (Directory.Waiting K) (create settings attributes) (Directory.Ready K) := by
  rw [create_eq]
  refine (mirrors_lift _ fun _ hd => hd).bind fun name => mirrors_acquire.bind fun _ => ?_
  refine (mirrored_read apart fun _ _ h => h.creation _ name _).bind fun c => ?_
  refine (mirrored_save c.note).bind fun n => (mirrored_lift (idOf n)).bind fun uid => ?_
  exact (mirrored_settle_creation apart c settings n).bind fun _ => mirrored_pure uid

theorem mirrors_update (settings : Settings) (uid : String) (attributes : Attributes)
    (how : UpdateKind) :
    Mirrors K lasting (Directory.Waiting K) (update settings uid attributes how)
      (Directory.Ready K) := by
  rw [update_eq]
  refine mirrors_acquire.bind fun _ => ?_
  refine (mirrored_read apart fun _ _ h => h.plan settings uid attributes how).bind fun p => ?_
  rw [Plan.carryOut_eq, Plan.save]
  refine Mirrors.bind (mirrors_ite (mirrored_save p.note) (mirrored_pure p.note)) fun n => ?_
  exact (mirrored_settle apart p settings how n).bind fun _ => mirrored_pure p.uid

theorem mirrors_delete (settings : Settings) (uid : String) :
    Mirrors K lasting (Directory.Waiting K) (delete settings uid) (Directory.Ready K) := by
  rw [delete]
  refine mirrors_acquire.bind fun _ => (mirrored_findExisting apart .account uid).bind fun n => ?_
  refine (mirrored_lift (idOf n)).bind fun id => (mirrored_lift (storedName n)).bind fun name => ?_
  have removed : Mirrored K lasting (discard (Membership.removeEverywhere name) : Action Unit) :=
    mirrors_discard (Membership.mirrored_removeEverywhere apart name)
  have erased : Mirrored K lasting (discard (Directory.delete id) : Action Unit) :=
    mirrors_discard (mirrored_delete id)
  cases settings.directory.deleteDenyGroup with
  | none => exact removed.bind fun _ => erased
  | some group =>
    have denied : Mirrored K lasting (discard (Membership.join name group) : Action Unit) :=
      mirrors_discard (Membership.mirrored_join apart name group)
    have rest := removed.bind fun _ => denied.bind fun _ => erased
    refine (Membership.mirrored_groupByAlias apart group).bind fun found => ?_
    cases found with
    | none => exact (mirrored_throw _).bind fun _ => rest
    | some g => exact rest

end Account

namespace Group

theorem mirrored_checkUnused (aliases : List String) : Mirrored K lasting (checkUnused aliases) :=
  mirrors_forM fun name => (Membership.mirrored_groupByAlias apart name).bind fun _ =>
    mirrors_ite (mirrored_throw _) (mirrored_pure ())

theorem mirrored_checkRename (n : Note) (aliases : List String) :
    Mirrored K lasting (checkRename n aliases) := by
  rw [checkRename]
  refine mirrors_ite (mirrored_pure false) ?_
  refine (Membership.mirrored_groupByAlias apart _).bind fun found => ?_
  cases found with
  | none => exact mirrored_pure true
  | some other => exact mirrors_ite (mirrored_pure true) (mirrored_throw _)

theorem mirrored_checkAliases (n : Note) (aliases : Option (List String)) :
    Mirrored K lasting (checkAliases n aliases) := by
  cases aliases with
  | none => exact mirrored_pure false
  | some aliases => exact mirrored_checkRename apart n aliases

theorem mirrored_follow (n m : Note) (renamed : Bool) :
    Mirrored K lasting (follow n m renamed) := by
  rw [follow]
  cases renamed with
  | false => exact mirrored_pure _
  | true =>
    refine (mirrored_lift _).bind fun old => (mirrored_lift _).bind fun new => ?_
    exact (mirrors_discard (Membership.mirrored_rename apart old new)).bind fun _ => mirrored_pure _

theorem mirrors_create (attributes : Attributes) :
    Mirrors K lasting (Directory.Waiting K) (create attributes) (Directory.Ready K) := by
  rw [create]
  refine (mirrors_lift _ fun _ hd => hd).bind fun request => ?_
  split
  · next aliases _ =>
    refine mirrors_acquire.bind fun _ => (mirrored_checkUnused apart aliases).bind fun _ => ?_
    refine (mirrored_lift (newNote aliases request)).bind fun n => ?_
    exact (mirrors_discard (mirrored_save n)).bind fun _ => mirrored_pure _
  · exact mirrors_throw _ fun _ hd => hd

theorem mirrors_update (uid : String) (attributes : Attributes) (how : UpdateKind) :
    Mirrors K lasting (Directory.Waiting K) (update uid attributes how) (Directory.Ready K) := by
  rw [update_eq]
  refine mirrors_acquire.bind fun _ => (mirrored_findExisting apart .group uid).bind fun n => ?_
  refine (mirrored_lift (Request.ofAttributes attributes)).bind fun request => ?_
  refine (mirrored_lift request.memberNames).bind fun members => ?_
  refine (mirrored_checkAliases apart n request.aliases).bind fun renamed => ?_
  refine (mirrored_lift (updatedNote n request members how)).bind fun (changed, m) => ?_
  refine (mirrors_ite (mirrored_save m) (mirrored_pure m)).bind fun m => ?_
  exact mirrored_follow apart n m renamed

theorem mirrors_delete (uid : String) :
    Mirrors K lasting (Directory.Waiting K) (delete uid) (Directory.Ready K) := by
  rw [delete]
  refine mirrors_acquire.bind fun _ => (mirrored_findExisting apart .group uid).bind fun n => ?_
  refine (mirrored_lift (idOf n)).bind fun id => (mirrored_lift _).bind fun name => ?_
  refine (mirrors_discard (Membership.mirrored_removeEverywhere apart name)).bind fun _ => ?_
  exact mirrors_discard (mirrored_delete id)

end Group

namespace Reading

theorem mirrors_get (kind : EntryClass) (uid : String) (selection : Selection) :
    Mirrors K lasting (Directory.Waiting K) (get kind uid selection) (Directory.Ready K) :=
  mirrors_acquire.bind fun _ => mirrored_read apart fun _ _ h => by simp only [h.find, h.entryOf]

theorem mirrors_search (rules : SearchRules) (kind : EntryClass) (filter : Option Filter)
    (selection : Selection) (limit : Option Nat) :
    Mirrors K lasting (Directory.Waiting K) (search rules kind filter selection limit)
      (Directory.Ready K) := by
  have searched : ∀ query, Mirrors K lasting (Directory.Waiting K) (do
      Directory.acquire
      Directory.read fun s => do
        (limited limit (← found s kind query)).mapM (entryOf s kind selection))
      (Directory.Ready K) := fun query =>
    mirrors_acquire.bind fun _ => mirrored_read apart fun s t h => by
      rw [h.found, funext (h.entryOf kind selection)]
  unfold search
  cases filter with
  | none => exact searched none
  | some filter =>
    exact (mirrors_lift (Query.ofFilter rules kind filter) fun _ hd => hd).bind fun query =>
      searched (query.map Query.write)

end Reading

end AddressBook

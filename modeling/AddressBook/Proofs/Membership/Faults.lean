import AddressBook.Proofs.Directory.Outcome
import AddressBook.Proofs.Membership.Groups
import AddressBook.Provisioning.Account

/-! The faults with which changes of memberships end. They are faults of the store; where a group is
named, it may also be that there is no such group. -/

namespace AddressBook

open AddressBook.Action

theorem Store.ofStore_of_groupsOf {s : Store} {member : CanonicalName} {fault : Fault}
    (h : s.groupsOf member = .error fault) : fault.ofStore s.backing = true := by
  rw [groupsOf, search, Membership.read_queryFor] at h
  rcases bind_eq_error h with searched | ⟨_, _, made⟩
  · rcases bind_eq_error searched with unread | ⟨_, _, searched⟩
    · cases unread
    · rcases bind_eq_error searched with groups | ⟨_, _, made⟩
      · exact ofStore_of_ofClass groups
      · cases made
  · cases made

namespace Membership

variable {backing : Backing}

theorem fails_groupsOf (member : CanonicalName) :
    Fails backing (·.ofStore backing) (Directory.read (·.groupsOf member)) :=
  fails_read fun _ _ failed hs => hs ▸ Store.ofStore_of_groupsOf failed

theorem fails_groupByAlias (name : String) :
    Fails backing (·.ofStore backing) (Directory.read (·.groupByAlias name)) :=
  fails_read fun _ _ failed hs => hs ▸ Store.ofStore_of_groupByAlias failed

theorem fails_saveMembers (g : Note) (members : List String) :
    Fails backing (·.ofStore backing) (saveMembers g members) := fails_discard (fails_save _)

theorem fails_addMember (g : Note) (member : CanonicalName) :
    Fails backing (·.ofStore backing) (addMember g member) :=
  fails_ite (fails_pure _) ((fails_saveMembers g _).bind fun _ => fails_pure _)

theorem fails_removeMember (g : Note) (member : CanonicalName) :
    Fails backing (·.ofStore backing) (removeMember g member) :=
  fails_ite (fails_pure _) ((fails_saveMembers g _).bind fun _ => fails_pure _)

theorem fails_leave (member : CanonicalName) (name : String) :
    Fails backing (·.ofStore backing) (leave member name) := by
  refine (fails_groupByAlias name).bind fun found => ?_
  cases found with
  | none => exact fails_pure _
  | some g => exact fails_removeMember g member

theorem fails_join (member : CanonicalName) (name : String) :
    Fails backing (·.IsLate backing) (join member name) := by
  refine ((fails_groupByAlias name).mono fun _ => Or.inl).bind fun found => ?_
  cases found with
  | none => exact fails_throw (Or.inr ⟨name, rfl⟩)
  | some g => exact (fails_addMember g member).mono fun _ => Or.inl

theorem fails_updateGroups (policy : ReplacePolicy) (account : CanonicalName)
    (groups : List String) (kind : UpdateKind) :
    Fails backing (·.IsLate backing) (updateGroups policy account groups kind) := by
  refine ((fails_groupsOf account).mono fun _ => Or.inl).bind fun held => ?_
  refine (fails_forM fun name => fails_discard (fails_join account name)).bind fun _ => ?_
  exact fails_forM fun g =>
    fails_discard ((fails_removeMember g account).mono fun _ => Or.inl)

theorem fails_rename (old new : CanonicalName) : Fails backing (·.ofStore backing) (rename old new) :=
  (fails_groupsOf old).bind fun _ =>
    (fails_forM fun g => fails_saveMembers g _).bind fun _ => fails_pure _

theorem fails_removeEverywhere (member : CanonicalName) :
    Fails backing (·.ofStore backing) (removeEverywhere member) :=
  (fails_groupsOf member).bind fun _ =>
    (fails_mapM fun g => fails_removeMember g member).bind fun _ => fails_pure _

end Membership

namespace Account

variable {backing : Backing}

theorem fails_setEnabled (settings : DirectorySettings) (n : Note) (name : CanonicalName)
    (enabled : Bool) (given : Option (List String)) :
    Fails backing (·.IsLate backing) (setEnabled settings n name enabled given) := by
  rw [setEnabled]
  split
  · refine fails_forM fun group => fails_ite (fails_discard ?_) (fails_discard ?_)
    · exact (Membership.fails_leave name group).mono fun _ => Or.inl
    · exact Membership.fails_join name group
  · dsimp only
    split
    · exact fails_discard ((fails_save _).mono fun _ => Or.inl)
    · exact fails_pure _

end Account

end AddressBook

import AddressBook.Proofs.Directory.Mirrored
import AddressBook.Provisioning.Account

/-! Changes of memberships go the same way on a table as in memory. -/

namespace AddressBook

open AddressBook.Action Text

theorem Store.Agrees.groupsOf {s t : Store} (h : s.Agrees t) (member : CanonicalName) :
    t.groupsOf member = s.groupsOf member := by
  rw [Store.groupsOf, Store.groupsOf, h.search]

variable {K : String → Prop} {lasting : Bool}

namespace Membership

theorem mirrored_saveMembers (g : Note) (members : List String) :
    Mirrored K lasting (saveMembers g members) := mirrors_discard (mirrored_save _)

theorem mirrored_addMember (g : Note) (member : CanonicalName) :
    Mirrored K lasting (addMember g member) :=
  mirrors_ite (mirrored_pure _) ((mirrored_saveMembers g _).bind fun _ => mirrored_pure _)

theorem mirrored_removeMember (g : Note) (member : CanonicalName) :
    Mirrored K lasting (removeMember g member) :=
  mirrors_ite (mirrored_pure _) ((mirrored_saveMembers g _).bind fun _ => mirrored_pure _)

variable (apart : KeysApart K)

include apart

theorem mirrored_groupByAlias (name : String) :
    Mirrored K lasting (Directory.read (·.groupByAlias name)) :=
  mirrored_read apart fun _ _ h => h.groupByAlias name

theorem mirrored_groupsOf (member : CanonicalName) :
    Mirrored K lasting (Directory.read (·.groupsOf member)) :=
  mirrored_read apart fun _ _ h => h.groupsOf member

theorem mirrored_join (member : CanonicalName) (name : String) :
    Mirrored K lasting (join member name) := by
  refine (mirrored_groupByAlias apart name).bind fun found => ?_
  cases found with
  | none => exact mirrored_throw _
  | some g => exact mirrored_addMember g member

theorem mirrored_leave (member : CanonicalName) (name : String) :
    Mirrored K lasting (leave member name) := by
  refine (mirrored_groupByAlias apart name).bind fun found => ?_
  cases found with
  | none => exact mirrored_pure _
  | some g => exact mirrored_removeMember g member

theorem mirrored_updateGroups (policy : ReplacePolicy) (account : CanonicalName)
    (groups : List String) (kind : UpdateKind) :
    Mirrored K lasting (updateGroups policy account groups kind) := by
  refine (mirrored_groupsOf apart account).bind fun held => ?_
  refine (mirrors_forM fun name => mirrors_discard (mirrored_join apart account name)).bind
    fun _ => ?_
  exact mirrors_forM fun g => mirrors_discard (mirrored_removeMember g account)

theorem mirrored_rename (old new : CanonicalName) : Mirrored K lasting (rename old new) :=
  (mirrored_groupsOf apart old).bind fun _ =>
    (mirrors_forM fun g => mirrored_saveMembers g _).bind fun _ => mirrored_pure _

theorem mirrored_removeEverywhere (member : CanonicalName) :
    Mirrored K lasting (removeEverywhere member) :=
  (mirrored_groupsOf apart member).bind fun _ =>
    (mirrors_mapM fun g => mirrored_removeMember g member).bind fun _ => mirrored_pure _

end Membership

theorem Account.mirrored_setEnabled (apart : KeysApart K) (settings : DirectorySettings) (n : Note)
    (name : CanonicalName) (enabled : Bool) (given : Option (List String)) :
    Mirrored K lasting (setEnabled settings n name enabled given) := by
  rw [setEnabled]
  split
  · refine mirrors_forM fun group => mirrors_ite (mirrors_discard ?_) (mirrors_discard ?_)
    · exact Membership.mirrored_leave apart name group
    · exact Membership.mirrored_join apart name group
  · dsimp only
    split
    · exact mirrors_discard (mirrored_save _)
    · exact mirrored_pure _

end AddressBook

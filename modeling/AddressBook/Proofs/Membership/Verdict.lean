import AddressBook.Proofs.Membership.Update

/-! What an update of the groups of an account says about one group. The verdict depends on what the
group is known by and not on whom it lists, and heeding it twice is heeding it once: this is why an
update can be run again after it was cut short. -/

namespace AddressBook

namespace Membership

variable {account : CanonicalName} {kind : UpdateKind} {policy : ReplacePolicy}
  {desired : List String}

/-- Whether the group is to list the account after an update; nothing when it stays as it is. -/
def verdict (kind : UpdateKind) (policy : ReplacePolicy) (desired : List String) (g : Note) :
    Option Bool :=
  match kind, policy with
  | .remove, _ => if desired.any g.hasAlias then some false else none
  | .replace, .exact =>
    if desired.any g.hasAlias then some true else if g.isDenyList then none else some false
  | _, _ => if desired.any g.hasAlias then some true else none

/-- The members of a group after a verdict on an account. -/
def heeded (account : CanonicalName) (verdict : Option Bool) (members : List String) :
    List String :=
  match verdict with
  | none => members
  | some true =>
    if members.any fun stored => Name.refersTo stored account then members
    else withMember members account
  | some false => withoutMember members account

theorem belongs_eq (kind : UpdateKind) (policy : ReplacePolicy) (desired : List String) (g : Note)
    (listed : Bool) :
    belongs kind policy desired g listed = (verdict kind policy desired g).getD listed := by
  rw [belongs.eq_def, verdict.eq_def]
  split <;> cases desired.any g.hasAlias <;> cases g.isDenyList <;> cases listed <;> rfl

theorem verdict_of_item? {n m : Note} (form : n.item? "Form" = m.item? "Form")
    (names : n.item? "ListName" = m.item? "ListName")
    (type : n.item? "GroupType" = m.item? "GroupType") :
    verdict kind policy desired n = verdict kind policy desired m := by
  have aliases : n.hasAlias = m.hasAlias := by
    funext name
    rw [Note.hasAlias, Note.hasAlias, Note.isClass_of_item? form, Note.aliases, Note.aliases,
      Note.texts_congr names]
  have deny : n.isDenyList = m.isDenyList := by
    rw [Note.isDenyList, Note.isDenyList, Note.text?_congr type]
  rw [verdict.eq_def, verdict.eq_def, aliases, deny]

theorem verdict_congr {n m : Note} (h : n.SameBesideMembers m) :
    verdict kind policy desired n = verdict kind policy desired m :=
  verdict_of_item? (h.2 "Form" (by decide)) (h.2 "ListName" (by decide))
    (h.2 "GroupType" (by decide))

theorem any_refersTo_withMember (hc : Name.canonicalize account.text = .ok account)
    (members : List String) :
    (withMember members account).any (fun stored => Name.refersTo stored account) = true := by
  rw [withMember, List.any_append, List.any_cons, Note.refersTo_self hc, Bool.true_or, Bool.or_true]

theorem any_refersTo_withoutMember (members : List String) :
    (withoutMember members account).any (fun stored => Name.refersTo stored account) = false := by
  rw [withoutMember, List.any_eq_false]
  intro stored hs
  simpa using (List.mem_filter.mp hs).2

theorem withoutMember_withMember (hc : Name.canonicalize account.text = .ok account)
    (members : List String) :
    withoutMember (withMember members account) account = withoutMember members account := by
  rw [withMember, withoutMember, List.filter_append, List.filter_cons, Note.refersTo_self hc]
  simp [withoutMember]

theorem withoutMember_eq_self {members : List String}
    (h : members.any (fun stored => Name.refersTo stored account) = false) :
    withoutMember members account = members := by
  rw [withoutMember, List.filter_eq_self]
  intro stored hs
  simpa using List.any_eq_false.mp h stored hs

theorem heeded_heeded (hc : Name.canonicalize account.text = .ok account) (v : Option Bool)
    (members : List String) : heeded account v (heeded account v members) = heeded account v members := by
  cases v with
  | none => rfl
  | some wanted =>
    cases wanted with
    | true =>
      by_cases listed : members.any (fun stored => Name.refersTo stored account) = true
      · simp only [heeded, if_pos listed]
      · simp only [heeded, if_neg listed, any_refersTo_withMember hc, if_true]
    | false => exact withoutMember_eq_self (any_refersTo_withoutMember members)

theorem heeded_of_heeded (hc : Name.canonicalize account.text = .ok account) (v w : Option Bool)
    (members : List String) :
    heeded account w (heeded account v (heeded account w (heeded account v members))) =
      heeded account w (heeded account v members) := by
  have leaves : ∀ v ms, heeded account (some false) (heeded account v ms) =
      heeded account (some false) ms := by
    intro v ms
    rcases v with _ | (_ | _)
    · rfl
    · exact heeded_heeded hc (some false) ms
    · by_cases listed : ms.any (fun stored => Name.refersTo stored account) = true
      · simp only [heeded, if_pos listed]
      · simp only [heeded, if_neg listed, withoutMember_withMember hc]
  rcases w with _ | (_ | _)
  · exact heeded_heeded hc v members
  · rw [leaves, leaves, leaves]
  · rcases v with _ | (_ | _)
    · exact heeded_heeded hc (some true) members
    · rw [leaves (some true), heeded_heeded hc (some false)]
    · rw [heeded_heeded hc (some true), heeded_heeded hc (some true), heeded_heeded hc (some true)]

theorem heeded_members (v : Option Bool) (g : Note) :
    heeded account v g.members =
      if v.getD (g.hasMember account) = g.hasMember account then g.members
      else if g.hasMember account then withoutMember g.members account
      else withMember g.members account := by
  have lists : g.members.any (fun stored => Name.refersTo stored account) = g.hasMember account := rfl
  rcases v with _ | (_ | _) <;> cases listed : g.hasMember account <;> rw [listed] at lists <;>
    simp [heeded, lists]
  exact withoutMember_eq_self lists

end Membership

def Store.memberTable (s : Store) : String → Option (List String) :=
  fun id => (s.notes.get? id).bind fun n => if n.isClass .group then some n.members else none

namespace Membership

def verdictTable (kind : UpdateKind) (policy : ReplacePolicy) (desired : List String) (s : Store) :
    String → Option (Option Bool) :=
  fun id => (s.notes.get? id).bind fun n =>
    if n.isClass .group then some (verdict kind policy desired n) else none

def heededTable (account : CanonicalName) (verdicts : String → Option (Option Bool))
    (members : String → Option (List String)) : String → Option (List String) :=
  fun id => (verdicts id).bind fun v => (members id).map (heeded account v)

/-- It does not matter for which groups the verdicts were heeded before. -/
theorem heededTable_of_partly (hc : Name.canonicalize account.text = .ok account)
    {verdicts : String → Option (Option Bool)} {members members' : String → Option (List String)}
    (h : ∀ id, members' id = members id ∨ members' id = heededTable account verdicts members id) :
    heededTable account verdicts members' = heededTable account verdicts members := by
  funext id
  rw [heededTable]
  rcases h id with same | partly
  · rw [same]
    rfl
  · rw [partly, heededTable]
    cases verdicts id with
    | none => rfl
    | some v =>
      cases members id with
      | none => rfl
      | some ms => exact congrArg some (heeded_heeded hc v ms)

theorem heededTable_of_partly_second (hc : Name.canonicalize account.text = .ok account)
    {first second : String → Option (Option Bool)} {members members' : String → Option (List String)}
    (h : ∀ id, members' id = heededTable account first members id ∨
      members' id = heededTable account second (heededTable account first members) id) :
    heededTable account second (heededTable account first members') =
      heededTable account second (heededTable account first members) := by
  funext id
  simp only [heededTable] at h ⊢
  cases last : second id with
  | none => rfl
  | some w =>
    rcases h id with once | twice
    · rw [once]
      cases first id with
      | none => rfl
      | some v => cases members id <;> simp [heeded_heeded hc]
    · rw [twice, last]
      cases first id with
      | none => rfl
      | some v => cases members id <;> simp [heeded_of_heeded hc]

end Membership

end AddressBook

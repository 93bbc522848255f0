import AddressBook.Proofs.Provisioning.Regimen

/-! Where the passwords of accounts come from. Attributes that are stored as they are never reach a
password, whatever their case; what does reach it is the one step that checks its length and, where
passwords are kept in step, the password that stands there. -/

namespace AddressBook

open AddressBook.Action Text

namespace Attributes

variable {attributes : Attributes} {name other : String}

theorem take_fst (attributes : Attributes) (name : String) :
    (attributes.take name).1 = attributes.find? name := by
  rw [take_eq]
  rfl

theorem find?_take_of_ne (h : sameAscii name other = false) :
    (attributes.take name).2.find? other = attributes.find? other := by
  rw [← take_fst, ← take_fst, take_take_of_ne h]

def offered (attributes : Attributes) (name : String) : Option String :=
  ((attributes.find? name).bind (·.findSome? AttributeValue.secret?)).bind (·.take.1)

end Attributes

/-- The password of a note, if it has one, has at least so many characters. -/
def Note.HasLongPassword (least : Nat) (n : Note) : Prop :=
  ∀ text, n.text? "HTTPPassword" = some text → least ≤ text.length

theorem Note.hasLongPassword_of_item? {least : Nat} {n : Note} {text : String}
    (stored : n.item? "HTTPPassword" = some [.text text]) (long : least ≤ text.length) :
    n.HasLongPassword least := by
  intro other found
  rw [text?, stored] at found
  cases found
  exact long

namespace Account

open Provisioning

variable {settings : DirectorySettings} {attributes : Attributes} {request : Request} {n m m' n' : Note}

/-- The second note has the password that the attributes give, which is long enough; where passwords
are kept in step, they give that of the first note as well. -/
structure ChangesPassword (settings : DirectorySettings) (attributes : Attributes) (n m : Note) :
    Prop where
  given : ∃ new, attributes.offered Schema.passwordAttribute = some new ∧
    m.item? "HTTPPassword" = some [.text new] ∧ settings.minPasswordLength ≤ new.length
  known : settings.syncInternetPassword = true →
    ∃ old, attributes.offered Schema.currentPasswordAttribute = some old ∧
      n.text? "HTTPPassword" = some old

def KeepsPassword (settings : DirectorySettings) (attributes : Attributes) (n m : Note) : Prop :=
  m.item? "HTTPPassword" = n.item? "HTTPPassword" ∨ ChangesPassword settings attributes n m

theorem KeepsPassword.congr (h : KeepsPassword settings attributes n m)
    (same : m'.item? "HTTPPassword" = m.item? "HTTPPassword") :
    KeepsPassword settings attributes n m' := by
  rcases h with kept | ⟨given, known⟩
  · exact Or.inl (same.trans kept)
  · exact Or.inr ⟨by rwa [same], known⟩

theorem KeepsPassword.trans (h : KeepsPassword settings attributes n m)
    (h' : KeepsPassword settings attributes m m') : KeepsPassword settings attributes n m' := by
  rcases h' with same | ⟨given, known⟩
  · exact h.congr same
  · rcases h with kept | changes
    · exact Or.inr ⟨given, fun sync => by rw [← Note.text?_congr kept]; exact known sync⟩
    · exact Or.inr ⟨given, changes.known⟩

theorem KeepsPassword.hasLongPassword (h : KeepsPassword settings attributes n m)
    (long : n.HasLongPassword settings.minPasswordLength) :
    m.HasLongPassword settings.minPasswordLength := by
  rcases h with kept | ⟨⟨new, -, stored, enough⟩, -⟩
  · intro text found
    exact long text (by rwa [← Note.text?_congr kept])
  · exact Note.hasLongPassword_of_item? stored enough

theorem lacks_password {isNew : Bool}
    (h : ∀ a ∈ attributes, checkWritable .account a.1 isNew = .ok ()) :
    attributes.Lacks "HTTPPassword" := by
  refine lacks_of_not_writable ?_ h
  intro writable
  have refused : (checkWritable .account "HTTPPassword" isNew).toOption = none := by
    cases isNew <;> decide
  rw [writable] at refused
  cases refused

theorem request_passwords (h : Request.ofAttributes attributes = .ok request) :
    ∃ grouped enabled denied : Attributes, grouped = (attributes.take "GroupList").2 ∧
      enabled = (grouped.take Schema.enableAttribute).2 ∧ denied = (enabled.take "DenyGroups").2 ∧
      request.password =
        (denied.take Schema.passwordAttribute).1.bind (·.findSome? AttributeValue.secret?) ∧
      request.currentPassword =
        ((denied.take Schema.passwordAttribute).2.take Schema.currentPasswordAttribute).1 := by
  rw [Request.ofAttributes] at h
  obtain ⟨_, _, h⟩ := bind_eq_ok h
  cases h
  exact ⟨_, _, _, rfl, rfl, rfl, rfl, rfl⟩

theorem passwords_of_asked
    (h : Request.ofAttributes (attributes.takeText Schema.nameAttribute).2 = .ok request) :
    request.password = (attributes.find? Schema.passwordAttribute).bind
        (·.findSome? AttributeValue.secret?) ∧
      request.currentPassword = attributes.find? Schema.currentPasswordAttribute := by
  obtain ⟨grouped, enabled, denied, hg, he, hd, password, current⟩ := request_passwords h
  have kept : ∀ name, sameAscii Schema.nameAttribute name = false →
      sameAscii "GroupList" name = false → sameAscii Schema.enableAttribute name = false →
        sameAscii "DenyGroups" name = false → denied.find? name = attributes.find? name := by
    intro name named listed marked denying
    rw [hd, Attributes.find?_take_of_ne denying, he, Attributes.find?_take_of_ne marked, hg,
      Attributes.find?_take_of_ne listed]
    exact Attributes.find?_take_of_ne named
  constructor
  · rw [password, Attributes.take_fst, kept _ (by decide) (by decide) (by decide) (by decide)]
  · rw [current, Attributes.take_fst, Attributes.find?_take_of_ne (by decide),
      kept _ (by decide) (by decide) (by decide) (by decide)]

theorem keepsPassword_updatedNote {renamed : Option CanonicalName} {how : UpdateKind} {changed : Bool}
    (asked : Request.ofAttributes (attributes.takeText Schema.nameAttribute).2 = .ok request)
    (h : updatedNote settings n renamed request how = .ok (changed, n')) :
    KeepsPassword settings attributes n n' := by
  obtain ⟨password, current⟩ := passwords_of_asked asked
  have named : (renamedNote n renamed).item? "HTTPPassword" = n.item? "HTTPPassword" :=
    (sameItem_renamedNote (by decide) n renamed).2
  have written : ∀ {changed₁ : Bool} {n₁ : Note},
      updateAll .account how changed₁ n₁ request.plain = .ok (changed, n') →
        n'.item? "HTTPPassword" = n₁.item? "HTTPPassword" := fun updated =>
    (sameItem_updateAll (lacks_password (checkWritable_of_updateAll updated)) updated).2
  unfold updatedNote at h
  dsimp only at h
  split at h
  · next secret given =>
    obtain ⟨n₁, changes, h⟩ := bind_eq_ok h
    obtain ⟨stored, known⟩ := changePassword_ok changes
    obtain ⟨new, held, enough, rfl⟩ := storePassword_ok stored
    refine Or.inr ⟨⟨new, ?_, ?_, enough⟩, fun sync => ?_⟩
    · rw [Attributes.offered, ← password, given]
      exact held
    · rw [written h, Note.item?_setText_of_same (by decide)]
    · obtain ⟨secret', old, first, hold, stands⟩ := known sync
      refine ⟨old, ?_, ?_⟩
      · rw [Attributes.offered, ← current, first]
        exact hold
      · rw [← Note.text?_congr named]
        exact stands
  · split at h
    · cases h
    · exact Or.inl ((written h).trans named)

theorem hasLongPassword_newNote {name : CanonicalName}
    (h : newNote settings name request = .ok n) : n.HasLongPassword settings.minPasswordLength := by
  obtain ⟨n₁, n₂, written, defaults, stored⟩ := newNote_ok h
  rcases stored with rfl | ⟨secret, stored⟩
  · have none : n.item? "HTTPPassword" = none := by
      rw [(sameItem_withDefaults (by decide) defaults).2,
        (sameItem_fillNew (lacks_password (checkWritable_of_fillNew written)) written).2,
        Note.item?_setText_of_ne (by decide)]
      decide
    intro text found
    rw [Note.text?, none] at found
    cases found
  · obtain ⟨new, -, enough, rfl⟩ := storePassword_ok stored
    refine Note.hasLongPassword_of_item? ?_ enough
    exact Note.item?_setText_of_same (by decide) _ _

end Account

def Note.AccountHas (Q : Note → Prop) (n : Note) : Prop := n.isClass .account = true → Q n

section

variable {Q : Note → Prop} {settings : Settings} {allowed : Call → Prop}

theorem Note.enduring_accountHas (congr : ∀ n m, Note.SameItem "HTTPPassword" m n → Q n → Q m) :
    Enduring (Note.AccountHas Q) fun _ => True where
  congr n m good items id := by
    intro account
    refine congr n m ⟨id, ?_⟩ (good ?_)
    · rw [Note.item?, Note.item?, items]
    · rw [← Note.isClass_of_items items, account]
  setMembers g members good group _ := by
    intro account
    have still : (g.setMembers members).isClass .group = true := by
      rw [← group]
      exact Note.isClass_of_item? (Note.item?_setItem_of_ne (by decide) g _) .group
    rw [Note.not_isClass_of_isClass account] at still
    cases still
  mark n mark good account _ :=
    congr n _ (Note.sameItem_setText (by decide) n mark) (good account)

/-- Calls write groups, new accounts, and accounts whose passwords they keep or change. -/
theorem Note.discipline_accountHas (congr : ∀ n m, Note.SameItem "HTTPPassword" m n → Q n → Q m)
    (formless : ∀ call, allowed call → call.attributes.Lacks "Form")
    (newAccount : ∀ attributes name request n id, allowed (.create .account attributes) →
      Account.newNote settings.directory name request = .ok n → Q { n with id := some id })
    (updatedAccount : ∀ uid attributes how n n', allowed (.update .account uid attributes how) →
      n'.id = n.id → Account.KeepsPassword settings.directory attributes n n' → Q n → Q n') :
    Discipline (Note.AccountHas Q) (fun _ => True) settings allowed where
  toEnduring := Note.enduring_accountHas congr
  stored _ _ _ _ _ := trivial
  shown _ _ _ _ _ := trivial
  formless := formless
  givenNew _ _ _ _ _ _ := trivial
  given _ _ _ _ _ _ _ _ := trivial
  newAccount attributes name request n id ha _ _ h _ := newAccount attributes name request n id ha h
  updatedAccount uid attributes how n n' renamed request changed ha good account _ asked h _ :=
    updatedAccount uid attributes how n n' ha (Account.id_updatedNote h)
      (Account.keepsPassword_updatedNote asked h) (good account)
  newGroup attributes request aliases n id ha hrequest _ h := by
    intro account
    have form := (Group.form_newNote h ((formless _ ha).sublist (Group.plain_sublist hrequest))).2
    have group : Note.isClass { n with id := some id } .group = true := Note.isClass_of_form form
    rw [Note.not_isClass_of_isClass account] at group
    cases group
  updatedGroup uid attributes how request members changed n n' ha hrequest _ _ group h := by
    intro account
    have still := Group.isClass_updatedNote h
      ((formless _ ha).sublist (Group.plain_sublist hrequest)) .group
    rw [group, Note.not_isClass_of_isClass account] at still
    cases still

end

namespace Run

variable {settings : Settings} {start d : Directory} {steps : List Step}

theorem hasLongPassword (hs : start.Empty) (run : Run start steps d)
    (same : ∀ step ∈ steps, step.settings = settings)
    (formless : ∀ step ∈ steps, step.call.attributes.Lacks "Form") :
    d.Stocked (Note.AccountHas (Note.HasLongPassword settings.directory.minPasswordLength))
      fun _ => True := by
  have discipline : Discipline (Note.AccountHas (Note.HasLongPassword
      settings.directory.minPasswordLength)) (fun _ => True) settings
      fun call => call.attributes.Lacks "Form" := by
    refine Note.discipline_accountHas (fun n m item long text found => ?_) (fun _ h => h)
      (fun attributes name request n id _ h => ?_) fun uid attributes how n n' _ _ keeps long => ?_
    · exact long text (by rwa [← Note.text?_congr item.2])
    · exact fun text found => Account.hasLongPassword_newNote h text found
    · exact keeps.hasLongPassword long
  refine run.stocked hs fun step h => ?_
  rw [same step h]
  exact discipline.leads_call (formless step h)

/-- The account was there before, and its password is kept or changed. -/
def PasswordKeptFrom (settings : Settings) (attributes : Attributes) (before : Directory) (m : Note) :
    Prop :=
  ∀ id, m.id = some id → ∃ n, before.store.notes.get? id = some n ∧ n.isClass .account = true ∧
    Account.KeepsPassword settings.directory attributes n m

theorem leads_update_passwords (settings : Settings) (uid : String) {attributes : Attributes}
    (how : UpdateKind) (before : Directory) (formless : attributes.Lacks "Form") :
    Leads (fun d => d.Stocked (Note.AccountHas (PasswordKeptFrom settings attributes before))
        (fun _ => True) ∧ True)
      ((Call.update .account uid attributes how).run settings)
      (fun _ d => d.Stocked (Note.AccountHas (PasswordKeptFrom settings attributes before))
        fun _ => True)
      (Directory.Stocked (Note.AccountHas (PasswordKeptFrom settings attributes before))
        fun _ => True) := by
  have discipline : Discipline (Note.AccountHas (PasswordKeptFrom settings attributes before))
      (fun _ => True) settings (· = .update .account uid attributes how) := by
    refine Note.discipline_accountHas (fun n m item kept id hid => ?_) ?_ ?_ ?_
    · obtain ⟨first, stands, account, keeps⟩ := kept id (item.1 ▸ hid)
      exact ⟨first, stands, account, keeps.congr item.2⟩
    · rintro _ rfl
      exact formless
    · intro _ _ _ _ _ creates
      cases creates
    · rintro _ _ _ n n' ⟨⟩ same keeps kept id hid
      obtain ⟨first, stands, account, earlier⟩ := kept id (same ▸ hid)
      exact ⟨first, stands, account, earlier.trans keeps⟩
  exact discipline.leads_call rfl

/-- Passwords change by the rules only. In every state that calls lead to, the password of an account
is long enough; and where the next update leaves an account with another password, the update gave
this one, and where passwords are kept in step the one before as well. -/
theorem passwords_by_rules (hs : start.Empty) (run : Run start steps d)
    (same : ∀ step ∈ steps, step.settings = settings)
    (formless : ∀ step ∈ steps, step.call.attributes.Lacks "Form") :
    (∀ id n, d.store.notes.get? id = some n → n.isClass .account = true →
      ∀ text, n.text? "HTTPPassword" = some text →
        settings.directory.minPasswordLength ≤ text.length) ∧
      ∀ before uid attributes how, d.Continues before → attributes.Lacks "Form" →
        ∀ id m, (Step.after ⟨before, settings, .update .account uid attributes how⟩).store.notes.get? id =
            some m → m.isClass .account = true →
          ∃ n, before.store.notes.get? id = some n ∧ n.isClass .account = true ∧
            (m.item? "HTTPPassword" = n.item? "HTTPPassword" ∨
              Account.ChangesPassword settings.directory attributes n m) := by
  have stocked := hasLongPassword hs run same formless
  refine ⟨fun id n stands => stocked.notes (id, n) (Keyed.mem_of_get? stands), ?_⟩
  intro before uid attributes how continues lacks id m stands account
  have memory := continues.inMemory stocked.toInMemory
  have kept : before.Stocked (Note.AccountHas (PasswordKeptFrom settings attributes before))
      fun _ => True := by
    refine ⟨memory, fun _ _ => trivial, fun entry he own key hkey => ?_⟩
    rw [memory.sound.ids entry he, Option.some.injEq] at hkey
    subst hkey
    exact ⟨entry.2, memory.sound.get?_of_mem he, own, Or.inl rfl⟩
  have after := @Step.after_of_leads ⟨before, settings, .update .account uid attributes how⟩ _ _
    (leads_update_passwords settings uid how before lacks) ⟨kept, trivial⟩
  exact after.notes (id, m) (Keyed.mem_of_get? stands) account id
    (after.sound.ids _ (Keyed.mem_of_get? stands))

def keepingInStep : Settings := { directory := { syncInternetPassword := true } }

def createGuarded : Step :=
  ⟨{ supply := { ids := ["A1"] } }, keepingInStep,
    .create .account [("__NAME__", [.text "Ann Lee/Acme"]), ("__PASSWORD__", [.text "secret one"])]⟩

def otherPassword : Attributes :=
  [("__CURRENT_PASSWORD__", [.text "secret one"]), ("__PASSWORD__", [.text "secret two"])]

def changeGuarded : Step :=
  ⟨createGuarded.after, keepingInStep, .update .account "A1" otherPassword .replace⟩

theorem passwords_by_rules_sample :
    ∃ n m, createGuarded.after.store.notes.get? "A1" = some n ∧
      changeGuarded.after.store.notes.get? "A1" = some m ∧
        n.text? "HTTPPassword" = some "secret one" ∧ 6 ≤ "secret one".length ∧
          m.text? "HTTPPassword" = some "secret two" ∧
            Account.ChangesPassword keepingInStep.directory otherPassword n m := by
  have run : Run {} [createGuarded] createGuarded.after :=
    Run.start.next _ _ (by decide) (by decide)
  have formless : ∀ step ∈ [createGuarded], step.call.attributes.Lacks "Form" := by
    refine List.forall_mem_singleton.mpr ?_
    refine List.forall_mem_cons.mpr ⟨by decide, List.forall_mem_singleton.mpr (by decide)⟩
  have other : otherPassword.Lacks "Form" :=
    List.forall_mem_cons.mpr ⟨by decide, List.forall_mem_singleton.mpr (by decide)⟩
  obtain ⟨long, changes⟩ := passwords_by_rules ⟨rfl, rfl, rfl⟩ run
    (List.forall_mem_singleton.mpr rfl) formless
  have stands : ∃ m, changeGuarded.after.store.notes.get? "A1" = some m ∧ m.isClass .account = true ∧
      m.text? "HTTPPassword" = some "secret two" := by
    have found : (changeGuarded.after.store.notes.get? "A1").any (fun m => m.isClass .account &&
        m.text? "HTTPPassword" == some "secret two") = true := by decide
    obtain ⟨m, hm, holds⟩ := (Option.any_eq_true _ _).mp found
    exact ⟨m, hm, by simpa using holds⟩
  obtain ⟨m, hm, account, second⟩ := stands
  obtain ⟨n, hn, person, kept⟩ := changes createGuarded.after "A1" otherPassword .replace (.refl _)
    other "A1" m hm account
  have first : n.text? "HTTPPassword" = some "secret one" := by
    have stored : (createGuarded.after.store.notes.get? "A1").bind (·.text? "HTTPPassword") =
        some "secret one" := by decide
    rwa [hn] at stored
  refine ⟨n, m, hn, hm, first, long "A1" n hn person _ first, second, kept.resolve_left fun same => ?_⟩
  rw [Note.text?_congr same, first] at second
  exact absurd second (by decide)

end Run

end AddressBook

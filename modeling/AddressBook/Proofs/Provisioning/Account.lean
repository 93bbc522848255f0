import AddressBook.Proofs.Membership.Frame
import AddressBook.Proofs.Name.Nested
import AddressBook.Proofs.Provisioning.Plan

/-! What creating, updating and deleting accounts does to notes, and the conditions on directories
that it keeps. -/

namespace AddressBook.Account

open Provisioning Text

def defaulted : List String :=
  ["LastName", "FirstName", "MailFile", "MailServer", "PasswordChangeInterval"]

def filled : List String :=
  ["LastName", "FirstName", "MailFile", "MailServer", "PasswordChangeInterval", "HTTPPassword"]

variable {settings : DirectorySettings} {other : String}

theorem isNested_qualified (raw hierarchy : String) :
    Name.isNested (qualified raw hierarchy) = false := by
  rw [Bool.eq_false_iff]
  intro nested
  have whole := (Name.isNested_iff.mp nested).1
  have held : '/' ∈ (trim (qualified raw hierarchy)).toList := by
    rw [toList_trim]
    refine mem_trimChars (by decide) ?_
    simp [qualified, String.toList_append]
  exact absurd (whole '/' held) (by decide)

theorem settled_nameOf {raw : String} {name : CanonicalName}
    (h : nameOf settings raw = .ok name) (hn : Name.isNested raw = false) : name.Settled := by
  rw [nameOf] at h
  obtain ⟨given, read, h⟩ := bind_eq_ok h
  have settled : given.Settled := by
    refine Name.settled_of_canonicalize read (Bool.eq_false_iff.mpr fun nested => ?_)
    rw [Name.isNested_of_collapseBlanks nested] at hn
    cases hn
  split at h
  · cases h
    exact settled
  · next hierarchy _ =>
    obtain ⟨parsed, _, h⟩ := bind_eq_ok h
    split at h
    · exact Name.settled_of_canonicalize h (isNested_qualified _ hierarchy)
    · cases h
      exact settled

theorem plain_sublist {attributes : Attributes} {request : Request}
    (h : Request.ofAttributes attributes = .ok request) : request.plain.Sublist attributes := by
  rw [Request.ofAttributes] at h
  obtain ⟨_, _, h⟩ := bind_eq_ok h
  cases h
  refine (Attributes.take_sublist _ _).trans ?_
  refine (Attributes.take_sublist _ _).trans ?_
  refine (Attributes.take_sublist _ _).trans ?_
  refine (Attributes.take_sublist _ _).trans ?_
  exact Attributes.take_sublist _ _

theorem plain_sublist_of_asked {attributes : Attributes} {request : Request}
    (h : Request.ofAttributes (attributes.takeText Schema.nameAttribute).2 = .ok request) :
    request.plain.Sublist attributes :=
  (plain_sublist h).trans (Attributes.take_sublist _ _)

theorem lacks_fullName {isNew : Bool} {attributes : Attributes}
    (h : ∀ a ∈ attributes, checkWritable .account a.1 isNew = .ok ()) :
    attributes.Lacks "FullName" := by
  refine lacks_of_not_writable ?_ h
  intro writable
  have refused : (checkWritable .account "FullName" isNew).toOption = none := by
    cases isNew <;> decide
  rw [writable] at refused
  cases refused

theorem storePassword_ok {n m : Note} {password : Secret} (h : storePassword settings n password = .ok m) :
    ∃ new, password.take.1 = some new ∧ settings.minPasswordLength ≤ new.length ∧
      m = n.setText "HTTPPassword" new := by
  rw [storePassword] at h
  split at h
  · cases h
  · next new held =>
    split at h
    · cases h
    · next enough =>
      cases h
      exact ⟨new, held, Nat.le_of_not_lt enough, rfl⟩

theorem changePassword_ok {n m : Note} {current : Option Secret} {password : Secret}
    (h : changePassword settings n current password = .ok m) :
    storePassword settings n password = .ok m ∧ (settings.syncInternetPassword = true →
      ∃ secret old, current = some secret ∧ secret.take.1 = some old ∧
        n.text? "HTTPPassword" = some old) := by
  unfold changePassword at h
  split at h
  · split at h
    · cases h
    · next secret =>
      split at h
      · next matches' =>
        obtain ⟨held, same⟩ := (Bool.and_eq_true _ _).mp matches'
        obtain ⟨old, hold⟩ := Option.isSome_iff_exists.mp held
        refine ⟨h, fun _ => ⟨secret, old, rfl, hold, ?_⟩⟩
        rw [← eq_of_beq same, hold]
      · cases h
  · next apart => exact ⟨h, fun sync => absurd sync apart⟩

theorem sameItem_storePassword (h : sameAscii other "HTTPPassword" = false) {n n' : Note}
    {password : Secret} (hs : storePassword settings n password = .ok n') :
    Note.SameItem other n' n := by
  obtain ⟨new, -, -, rfl⟩ := storePassword_ok hs
  exact Note.sameItem_setText h n _

def renamedNote (n : Note) (renamed : Option CanonicalName) : Note :=
  match renamed with
  | some name => n.setText "FullName" name.text
  | none => n

theorem sameItem_renamedNote (h : sameAscii other "FullName" = false) (n : Note)
    (renamed : Option CanonicalName) : Note.SameItem other (renamedNote n renamed) n := by
  cases renamed with
  | none => exact .refl other n
  | some name => exact Note.sameItem_setText h n _

theorem updatedNote_ok {n n' : Note} {renamed : Option CanonicalName} {request : Request}
    {how : UpdateKind} {changed : Bool}
    (h : updatedNote settings n renamed request how = .ok (changed, n')) :
    ∃ changed₁ n₁, (n₁ = renamedNote n renamed ∨
        ∃ password, storePassword settings (renamedNote n renamed) password = .ok n₁) ∧
      updateAll .account how changed₁ n₁ request.plain = .ok (changed, n') := by
  unfold updatedNote at h
  dsimp only at h
  split at h
  · next password _ =>
    obtain ⟨n₁, changedPassword, h⟩ := bind_eq_ok h
    exact ⟨true, n₁, Or.inr ⟨password, (changePassword_ok changedPassword).1⟩, h⟩
  · split at h
    · cases h
    · exact ⟨renamed.isSome, renamedNote n renamed, Or.inl rfl, h⟩

theorem sameItem_updatedNote {n n' : Note} {renamed : Option CanonicalName} {request : Request}
    {how : UpdateKind} {changed : Bool}
    (h : updatedNote settings n renamed request how = .ok (changed, n'))
    (hp : sameAscii other "HTTPPassword" = false) (ha : request.plain.Lacks other) :
    Note.SameItem other n' (renamedNote n renamed) := by
  obtain ⟨_, n₁, first, updated⟩ := updatedNote_ok h
  refine (sameItem_updateAll ha updated).trans ?_
  rcases first with rfl | ⟨password, stored⟩
  · exact .refl other _
  · exact sameItem_storePassword hp stored

section

variable {P : Note → Prop} {n n' : Note} {name : CanonicalName}
  (set : ∀ n, P n → ∀ w ∈ defaulted, ∀ values, P (n.setItem w values))

include set

theorem keeps_splitCommon (hn : P n) (common : String) : P (splitCommon n common) := by
  have last : ∀ text, P (n.setText "LastName" text) := fun _ => set n hn "LastName" (by decide) _
  rw [splitCommon]
  split
  · exact hn
  · exact last _
  · dsimp only
    split
    · exact last _
    · exact set _ (last _) "FirstName" (by decide) _

theorem keeps_withDefaults (hn : P n) (hd : withDefaults settings n name = .ok n') : P n' := by
  rw [withDefaults] at hd
  obtain ⟨n₁, person, hd⟩ := bind_eq_ok hd
  obtain ⟨n₂, server, hd⟩ := bind_eq_ok hd
  cases hd
  have named : P n₁ := by
    rw [defaultPersonName] at person
    split at person
    · cases person
      exact hn
    · obtain ⟨_, _, person⟩ := bind_eq_ok person
      cases person
      exact keeps_splitCommon set hn _
  have boxed : P (defaultMailbox n₁) := by
    rw [defaultMailbox]
    split
    · exact named
    · exact set n₁ named "MailFile" (by decide) _
  have served : P n₂ := by
    rw [defaultServer] at server
    split at server
    · cases server
      exact boxed
    · split at server
      · cases server
        exact boxed
      · obtain ⟨_, _, server⟩ := bind_eq_ok server
        cases server
        exact set _ boxed "MailServer" (by decide) _
  rw [defaultExpiry]
  split
  · exact served
  · exact set n₂ served "PasswordChangeInterval" (by decide) _

end

theorem sameItem_withDefaults (h : ∀ w ∈ defaulted, sameAscii other w = false) {n n' : Note}
    {name : CanonicalName} (hd : withDefaults settings n name = .ok n') :
    Note.SameItem other n' n :=
  keeps_withDefaults (P := fun m => Note.SameItem other m n)
    (fun m same w hw values => (Note.sameItem_setItem (h w hw) m values).trans same)
    (.refl other n) hd

theorem newNote_ok {n : Note} {name : CanonicalName} {request : Request}
    (hn : newNote settings name request = .ok n) :
    ∃ n₁ n₂, fillNew .account ((Note.ofClass .account).setText "FullName" name.text) request.plain =
        .ok n₁ ∧ withDefaults settings n₁ name = .ok n₂ ∧
      (n = n₂ ∨ ∃ password, storePassword settings n₂ password = .ok n) := by
  rw [newNote] at hn
  obtain ⟨n₁, written, hn⟩ := bind_eq_ok hn
  obtain ⟨n₂, defaults, hn⟩ := bind_eq_ok hn
  refine ⟨n₁, n₂, written, defaults, ?_⟩
  split at hn
  · exact Or.inr ⟨_, hn⟩
  · cases hn
    exact Or.inl rfl

theorem sameItem_newNote (h : ∀ w ∈ filled, sameAscii other w = false) {n : Note}
    {name : CanonicalName} {request : Request} (ha : request.plain.Lacks other)
    (hn : newNote settings name request = .ok n) :
    Note.SameItem other n ((Note.ofClass .account).setText "FullName" name.text) := by
  obtain ⟨n₁, n₂, written, defaults, stored⟩ := newNote_ok hn
  have others : ∀ w ∈ defaulted, sameAscii other w = false :=
    fun w hw => h w (List.mem_append_left ["HTTPPassword"] hw)
  have first := (sameItem_withDefaults others defaults).trans (sameItem_fillNew ha written)
  rcases stored with rfl | ⟨password, stored⟩
  · exact first
  · exact (sameItem_storePassword (h "HTTPPassword" (by decide)) stored).trans first

theorem id_newNote {n : Note} {name : CanonicalName} {request : Request}
    (hn : newNote settings name request = .ok n) : n.id = none := by
  obtain ⟨_, _, filled, _⟩ := newNote_ok hn
  have lacks := lacks_fullName (checkWritable_of_fillNew filled)
  exact (sameItem_newNote (by decide) lacks hn).1

theorem form_newNote {n : Note} {name : CanonicalName} {request : Request}
    (ha : request.plain.Lacks "Form") (hn : newNote settings name request = .ok n) :
    n.id = none ∧ n.item? "Form" = some [.text EntryClass.account.form] := by
  have same := sameItem_newNote (by decide) ha hn
  refine ⟨same.1, same.2.trans ?_⟩
  rw [Note.item?_setText_of_ne (by decide), Note.form_ofClass]

theorem fullName_newNote {n : Note} {name : CanonicalName} {request : Request}
    (hn : newNote settings name request = .ok n) :
    n.item? "FullName" = some [.text name.text] := by
  obtain ⟨_, _, filled, _⟩ := newNote_ok hn
  have lacks := lacks_fullName (checkWritable_of_fillNew filled)
  rw [(sameItem_newNote (by decide) lacks hn).2, Note.item?_setText_of_same (by decide)]

theorem parse_of_newNote {n : Note} {name : CanonicalName} {request : Request}
    (ha : request.plain.Lacks "LastName") (hn : newNote settings name request = .ok n) :
    ∃ parsed, Name.parse name.text = .ok parsed := by
  obtain ⟨n₁, _, written, defaults, _⟩ := newNote_ok hn
  obtain ⟨_, person, _⟩ := bind_eq_ok defaults
  have nameless : n₁.hasItem "LastName" = false := by
    rw [Note.hasItem_eq, (sameItem_fillNew ha written).2, Note.item?_setText_of_ne (by decide)]
    decide
  rw [defaultPersonName, nameless, if_neg Bool.false_ne_true] at person
  obtain ⟨parsed, read, _⟩ := bind_eq_ok person
  exact ⟨parsed, read⟩

theorem id_updatedNote {n n' : Note} {renamed : Option CanonicalName} {request : Request}
    {how : UpdateKind} {changed : Bool}
    (h : updatedNote settings n renamed request how = .ok (changed, n')) : n'.id = n.id := by
  obtain ⟨_, _, _, updated⟩ := updatedNote_ok h
  have lacks := lacks_fullName (checkWritable_of_updateAll updated)
  have before : Note.SameItem "Form" (renamedNote n renamed) n :=
    sameItem_renamedNote (by decide) n renamed
  exact (sameItem_updatedNote h (by decide) lacks).1.trans before.1

theorem fullName_updatedNote {n n' : Note} {renamed : Option CanonicalName} {request : Request}
    {how : UpdateKind} {changed : Bool}
    (h : updatedNote settings n renamed request how = .ok (changed, n')) :
    n'.item? "FullName" =
      (renamed.map fun name => [Note.Value.text name.text]).or (n.item? "FullName") := by
  obtain ⟨_, _, _, updated⟩ := updatedNote_ok h
  have lacks := lacks_fullName (checkWritable_of_updateAll updated)
  rw [(sameItem_updatedNote h (by decide) lacks).2]
  cases renamed with
  | none => rfl
  | some name =>
    rw [renamedNote, Note.item?_setText_of_same (by decide)]
    rfl

theorem eq_of_updatedNote_unchanged {n n' : Note} {renamed : Option CanonicalName}
    {request : Request} {how : UpdateKind}
    (h : updatedNote settings n renamed request how = .ok (false, n')) :
    renamed = none ∧ n' = n := by
  unfold updatedNote at h
  dsimp only at h
  split at h
  · obtain ⟨_, _, h⟩ := bind_eq_ok h
    cases (eq_of_updateAll_unchanged h).1
  · split at h
    · cases h
    · obtain ⟨same, rfl⟩ := eq_of_updateAll_unchanged h
      obtain rfl := Option.isSome_eq_false_iff.mp same |> Option.isNone_iff_eq_none.mp
      exact ⟨rfl, rfl⟩

theorem changed_of_renamed {n n' : Note} {name : CanonicalName} {request : Request}
    {how : UpdateKind} {changed : Bool}
    (h : updatedNote settings n (some name) request how = .ok (changed, n')) : changed = true := by
  cases changed with
  | true => rfl
  | false => cases (eq_of_updatedNote_unchanged h).1

section

open AddressBook.Action AddressBook.Membership

variable {J : Directory → Prop} {good : Note → Prop} {named : CanonicalName → Prop}

theorem mem_notesOf_of_accountById {s : Store} (hs : s.backing = .memory) {id : String} {n : Note}
    (h : s.accountById id = .ok (some n)) : n ∈ s.notesOf .account := by
  obtain ⟨key, stands, _, account⟩ := Store.accountById_ok hs h
  exact Store.mem_notesOf.mpr ⟨⟨key, Keyed.mem_of_get? stands⟩, account⟩

section

variable (upkeep : Upkeep J good named)

include upkeep

theorem keeps_regroup (p : Plan) (settings : Settings) (how : UpdateKind) (hp : named p.name) :
    Keeps J (p.regroup settings how) fun _ => True := by
  rw [Plan.regroup]
  split
  · exact upkeep.keeps_updateGroups settings.replacePolicy hp _ how
  · exact keeps_pure trivial

theorem keeps_access (p : Plan) (settings : Settings) {n : Note}
    (hn : ∀ mark, good (n.setText "CheckPassword" mark)) (hp : named p.name) :
    Keeps J (p.access settings n) fun _ => True := by
  rw [Plan.access]
  split
  · exact upkeep.keeps_setEnabled_of_marked settings.directory hn hp _ _
  · exact keeps_pure trivial

theorem keeps_settle_of_marked (p : Plan) (settings : Settings) (how : UpdateKind) {n : Note}
    (hn : ∀ mark, good (n.setText "CheckPassword" mark)) (hp : named p.name) :
    Keeps J (p.settle settings how n) fun _ => True := by
  rw [Plan.settle_eq, Plan.follow]
  refine Keeps.bind (A := fun _ => True) (keeps_ite (fun _ => ?_) fun _ => keeps_pure trivial)
    fun _ _ => ?_
  · exact keeps_discard (upkeep.keeps_rename p.old hp)
  · exact (keeps_regroup upkeep p settings how hp).bind fun _ _ =>
      keeps_access upkeep p settings hn hp

theorem keeps_settle (p : Plan) (settings : Settings) (how : UpdateKind) {n : Note} (hn : good n)
    (hk : n.isClass .account = true) (hp : named p.name) :
    Keeps J (p.settle settings how n) fun _ => True :=
  keeps_settle_of_marked upkeep p settings how (fun mark => upkeep.marked n mark hn hk) hp

theorem keeps_regroup_creation (c : Creation) (settings : Settings) (hc : named c.name) :
    Keeps J (c.regroup settings) fun _ => True :=
  keeps_ite (fun _ => upkeep.keeps_updateGroups settings.replacePolicy hc _ _)
    fun _ => keeps_pure trivial

theorem keeps_settle_creation_of_marked (c : Creation) (settings : Settings) {n : Note}
    (hn : ∀ mark, good (n.setText "CheckPassword" mark)) (hc : named c.name) :
    Keeps J (c.settle settings n) fun _ => True := by
  rw [Creation.settle_eq]
  refine (keeps_regroup_creation upkeep c settings hc).bind fun _ _ => ?_
  refine keeps_ite (fun _ => ?_) fun _ => keeps_pure trivial
  exact upkeep.keeps_setEnabled_of_marked settings.directory hn hc _ _

theorem keeps_settle_creation (c : Creation) (settings : Settings) {n : Note} (hn : good n)
    (hk : n.isClass .account = true) (hc : named c.name) :
    Keeps J (c.settle settings n) fun _ => True :=
  keeps_settle_creation_of_marked upkeep c settings (fun mark => upkeep.marked n mark hn hk) hc

end

variable (frame : Frame J good named)

include frame

theorem keeps_findExisting (uid : String) :
    Keeps J (findExisting .account uid) fun n => good n ∧ n.isClass .account = true := by
  rw [findExisting]
  refine Keeps.bind (A := fun found => ∀ n ∈ found, good n ∧ n.isClass .account = true)
    (keeps_read fun d found hd h n hn => ?_) fun found hfound => ?_
  · rw [Option.mem_def] at hn
    rw [hn] at h
    exact frame.good_of_mem_notesOf hd (mem_notesOf_of_accountById (frame.memory d hd) h)
  · cases found with
    | none => exact keeps_throw
    | some n => exact keeps_pure (hfound n rfl)

theorem keeps_update_of_marked (settings : Settings) (uid : String) {attributes : Attributes}
    (how : UpdateKind)
    (hn : ∀ raw ∈ (attributes.takeText Schema.nameAttribute).1, ∀ c,
      nameOf settings.directory raw = .ok c → named c)
    (hs : ∀ n, good n → n.isClass .account = true → ∀ c, storedName n = .ok c → named c)
    (hu : ∀ n renamed request changed n', good n → n.isClass .account = true →
      (∀ c ∈ renamed, named c) →
        Request.ofAttributes (attributes.takeText Schema.nameAttribute).2 = .ok request →
        updatedNote settings.directory n renamed request how = .ok (changed, n') →
          Keeps J (if changed then Directory.save n' else pure n') fun m =>
            ∀ mark, good (m.setText "CheckPassword" mark)) :
    Keeps J (update settings uid attributes how) fun _ => True := by
  rw [update_eq]
  refine frame.keeps_acquire.bind fun _ _ => ?_
  refine Keeps.bind (A := fun p => (Keeps J p.save fun m =>
      ∀ mark, good (m.setText "CheckPassword" mark)) ∧ named p.name)
    (keeps_read fun d p hd h => ?_) fun p ⟨saved, hname⟩ => ?_
  · obtain ⟨n, found, _, stored, checked, asked, updated⟩ := plan_ok h
    obtain ⟨hgood, haccount⟩ := frame.good_of_mem_notesOf hd
      (mem_notesOf_of_accountById (frame.memory d hd) found)
    have hrenamed : ∀ c ∈ p.renamed, named c := by
      intro c hc
      obtain ⟨raw, hraw, rendered, _⟩ := newNameIn_ok checked c hc
      exact hn raw hraw c rendered
    refine ⟨hu n p.renamed p.request p.changed p.note hgood haccount hrenamed asked updated, ?_⟩
    rw [Plan.name]
    cases renamed : p.renamed with
    | none => exact hs n hgood haccount p.old stored
    | some new => exact hrenamed new renamed
  · rw [Plan.carryOut_eq]
    refine saved.bind fun m hm => ?_
    exact (keeps_settle_of_marked frame.toUpkeep p settings how hm hname).bind
      fun _ _ => keeps_pure trivial

theorem keeps_update (settings : Settings) (uid : String) {attributes : Attributes}
    (how : UpdateKind)
    (hn : ∀ raw ∈ (attributes.takeText Schema.nameAttribute).1, ∀ c,
      nameOf settings.directory raw = .ok c → named c)
    (hs : ∀ n, good n → n.isClass .account = true → ∀ c, storedName n = .ok c → named c)
    (hu : ∀ n renamed request changed n', good n → n.isClass .account = true →
      (∀ c ∈ renamed, named c) →
        Request.ofAttributes (attributes.takeText Schema.nameAttribute).2 = .ok request →
        updatedNote settings.directory n renamed request how = .ok (changed, n') →
          good n' ∧ n'.isClass .account = true) :
    Keeps J (update settings uid attributes how) fun _ => True := by
  refine keeps_update_of_marked frame settings uid how hn hs
    fun n renamed request changed n' hgood account hrenamed asked h => ?_
  obtain ⟨good', account'⟩ := hu n renamed request changed n' hgood account hrenamed asked h
  refine keeps_ite (fun _ => (frame.saved n' good').weaken fun m hm mark => ?_)
    fun _ => keeps_pure fun mark => frame.marked n' mark good' account'
  exact frame.marked m mark hm.1 (by rw [← account', Note.isClass_of_items hm.2])

theorem leads_delete {K E : Directory → Prop} (settings : Settings) (uid : String)
    (hE : ∀ d, J d → E d)
    (hs : ∀ n, good n → n.isClass .account = true → ∀ c, storedName n = .ok c → named c)
    (hd : ∀ n id, good n → n.isClass .account = true → n.id = some id →
      Leads J (Directory.delete id) (fun _ d => K d) E) :
    Leads J (delete settings uid) (fun _ d => K d) E := by
  rw [delete]
  refine Leads.bind_of_keeps frame.keeps_acquire hE fun _ _ => ?_
  refine Leads.bind_of_keeps (keeps_findExisting frame uid) hE fun n hn => ?_
  refine Leads.bind_of_keeps (keeps_idOf n) hE fun id hid => ?_
  refine Leads.bind_of_keeps (A := named) (keeps_lift fun c hc => hs n hn.1 hn.2 c hc) hE
    fun name hname => ?_
  have erased := leads_discard (hd n id hn.1 hn.2 hid)
  cases settings.directory.deleteDenyGroup with
  | none =>
    exact Leads.bind_of_keeps (keeps_discard (frame.keeps_removeEverywhere name)) hE
      fun _ _ => erased
  | some group =>
    refine Leads.bind_of_keeps (A := fun _ => True) (keeps_read fun _ _ _ _ => trivial) hE
      fun found _ => ?_
    cases found with
    | none => exact Leads.bind_of_keeps (A := fun _ => False) keeps_throw hE fun _ h => h.elim
    | some g =>
      refine Leads.bind_of_keeps (keeps_discard (frame.keeps_removeEverywhere name)) hE
        fun _ _ => ?_
      exact Leads.bind_of_keeps (keeps_discard (frame.keeps_join hname group)) hE fun _ _ => erased

theorem keeps_delete (settings : Settings) (uid : String)
    (hs : ∀ n, good n → n.isClass .account = true → ∀ c, storedName n = .ok c → named c)
    (hd : ∀ n id, good n → n.isClass .account = true → n.id = some id →
      Keeps J (Directory.delete id) fun _ => True) :
    Keeps J (delete settings uid) fun _ => True := by
  have deleted := leads_delete frame (K := J) settings uid (fun _ hd => hd) hs
    fun n id hgood haccount hid => Leads.weaken (hd n id hgood haccount hid) (fun _ h => h)
      (fun _ _ h => h.1) fun _ h => h
  exact Leads.weaken deleted (fun _ h => h) (fun _ _ h => ⟨h, trivial⟩) fun _ h => h

theorem keeps_create_of_marked (settings : Settings) {attributes : Attributes}
    {F : Directory → Prop} (hF : ∀ d d', Alike d d' → F d → F d')
    (hn : ∀ raw ∈ (attributes.takeText Schema.nameAttribute).1, ∀ c,
      nameOf settings.directory raw = .ok c → named c)
    (hc : ∀ name request n, named name → request.plain.Sublist attributes →
      newNote settings.directory name request = .ok n →
        Leads (fun d => J d ∧ F d) (Directory.save n)
          (fun n' d => J d ∧ ∀ mark, good (n'.setText "CheckPassword" mark)) J) :
    Leads (fun d => J d ∧ F d) (create settings attributes) (fun _ d => J d) J := by
  have quiet : ∀ d, J d ∧ F d → J d := fun _ h => h.1
  have found : Keeps (fun d => J d ∧ F d) Directory.acquire fun _ => True :=
    Action.keeps_acquire (fun d h => frame.lasting d h.1)
      fun d d' same h => ⟨frame.alike d d' same h.1, hF d d' same h.2⟩
  rw [create_eq]
  refine Leads.bind_of_keeps (A := named) (keeps_lift fun name h => ?_) quiet fun name hname => ?_
  · obtain ⟨raw, hraw, rendered⟩ := givenName_ok h
    exact hn raw hraw name rendered
  refine Leads.bind_of_keeps found quiet fun _ _ => ?_
  refine Leads.bind_of_keeps (A := fun c => c.name = name ∧ c.request.plain.Sublist attributes ∧
      newNote settings.directory name c.request = .ok c.note)
    (keeps_read fun d c _ h => ?_) quiet fun c ⟨same, hplain, written⟩ => ?_
  · obtain ⟨same, _, asked, written⟩ := creation_ok h
    exact ⟨same, (plain_sublist asked).trans (Attributes.take_sublist _ _), written⟩
  · rw [Creation.carryOut]
    refine (hc name c.request c.note hname hplain written).bind fun saved => ⟨?_⟩
    rintro d ⟨hd, hmarked⟩
    refine Leads.ends (Leads.weaken (Q := fun _ d => J d ∧ True) ?_ (fun _ h => h)
      (fun _ _ h => h.1) fun _ h => h) d hd
    refine (keeps_idOf saved).bind fun uid _ => ?_
    rw [← same] at hname
    exact (keeps_settle_creation_of_marked frame.toUpkeep c settings hmarked hname).bind
      fun _ _ => keeps_pure trivial

theorem keeps_create (settings : Settings) {attributes : Attributes} {F : Directory → Prop}
    (hF : ∀ d d', Alike d d' → F d → F d')
    (hn : ∀ raw ∈ (attributes.takeText Schema.nameAttribute).1, ∀ c,
      nameOf settings.directory raw = .ok c → named c)
    (hc : ∀ name request n, named name → request.plain.Sublist attributes →
      newNote settings.directory name request = .ok n →
        Leads (fun d => J d ∧ F d) (Directory.save n)
          (fun n' d => J d ∧ good n' ∧ n'.isClass .account = true) J) :
    Leads (fun d => J d ∧ F d) (create settings attributes) (fun _ d => J d) J :=
  keeps_create_of_marked frame settings hF hn fun name request n hname hplain h =>
    Leads.weaken (hc name request n hname hplain h) (fun _ hd => hd)
      (fun n' _ hd => ⟨hd.1, fun mark => frame.marked n' mark hd.2.1 hd.2.2⟩) fun _ hd => hd

end

end AddressBook.Account

import AddressBook.Proofs.Directory.Action
import AddressBook.Proofs.Provisioning.Items
import AddressBook.Provisioning.Account

/-! Creating and updating accounts in two parts. The first reads the store and says what is to be saved,
or why nothing is; the second saves the note of the account and then brings the groups in line. -/

namespace AddressBook

namespace Action

variable {α β : Type}

theorem read_bind (x : Store → Except Fault α) (f : α → Store → Except Fault β) :
    (Directory.read x >>= fun a => Directory.read (f a)) =
      Directory.read fun s => x s >>= fun a => f a s := by
  funext d
  rw [bind_apply, read_apply, read_apply]
  cases found : x d.store with
  | error fault => simp only [bind, Except.bind]
  | ok a => simp only [bind, Except.bind, read_apply]

theorem lift_eq_read (x : Except Fault α) : (liftM x : Action α) = Directory.read fun _ => x := by
  funext d
  rw [read_apply]
  cases x <;> rfl

theorem bind_eq_read_bind {γ : Type} {x : Action α} {y : Store → Except Fault α} (h : x = Directory.read y)
    {f : α → Action γ} {g : α → Store → Except Fault β} {k : β → Action γ}
    (hf : ∀ a, f a = Directory.read (g a) >>= k) :
    (x >>= f) = (Directory.read fun s => y s >>= fun a => g a s) >>= k := by
  rw [← read_bind, bind_assoc, h]
  exact congrArg _ (funext hf)

end Action

namespace Account

open AddressBook.Action Provisioning

/-- What an update of an account comes to. -/
structure Plan where
  uid : String
  old : CanonicalName
  renamed : Option CanonicalName
  request : Request
  changed : Bool
  note : Note

def Plan.name (p : Plan) : CanonicalName := p.renamed.getD p.old

def newNameIn (settings : DirectorySettings) (n : Note) (name : CanonicalName)
    (requested : Option String) (s : Store) : Except Fault (Option CanonicalName) :=
  match requested with
  | none => .ok none
  | some raw => do
    let new ← nameOf settings raw
    if new.same name then return none
    match ← s.accountByName new with
    | some other =>
      if other.id = n.id then return some new else throw (.alreadyExists .account new.text)
    | none => return some new

def existingIn (uid : String) (s : Store) : Except Fault Note := do
  match ← find .account uid s with
  | some n => return n
  | none => throw (.unknownAccount uid)

/-- What to do for an update, by what the store holds. -/
def plan (settings : Settings) (uid : String) (attributes : Attributes) (how : UpdateKind)
    (s : Store) : Except Fault Plan := do
  let n ← existingIn uid s
  let uid ← idOf n
  let old ← storedName n
  let renamed ← newNameIn settings.directory n old (attributes.takeText Schema.nameAttribute).1 s
  let request ← Request.ofAttributes (attributes.takeText Schema.nameAttribute).2
  let (changed, note) ← updatedNote settings.directory n renamed request how
  return { uid, old, renamed, request, changed, note }

def Plan.settle (p : Plan) (settings : Settings) (how : UpdateKind) (n : Note) : Action Unit := do
  if p.renamed.isSome then discard (Membership.rename p.old p.name)
  if let some groups := p.request.groups then
    Membership.updateGroups settings.replacePolicy p.name groups how
  if let some enabled := p.request.enable then
    setEnabled settings.directory n p.name enabled p.request.denyGroups

def Plan.carryOut (p : Plan) (settings : Settings) (how : UpdateKind) : Action String := do
  let n ← if p.changed then Directory.save p.note else pure p.note
  p.settle settings how n
  return p.uid

def Plan.save (p : Plan) : Action Note := if p.changed then Directory.save p.note else pure p.note

def Plan.regroup (p : Plan) (settings : Settings) (how : UpdateKind) : Action Unit :=
  match p.request.groups with
  | some groups => Membership.updateGroups settings.replacePolicy p.name groups how
  | none => pure ()

def Plan.access (p : Plan) (settings : Settings) (n : Note) : Action Unit :=
  match p.request.enable with
  | some enabled => setEnabled settings.directory n p.name enabled p.request.denyGroups
  | none => pure ()

def Plan.follow (p : Plan) (settings : Settings) (how : UpdateKind) (n : Note) : Action Unit :=
  p.regroup settings how >>= fun _ => p.access settings n

theorem Plan.settle_eq (p : Plan) (settings : Settings) (how : UpdateKind) (n : Note) :
    p.settle settings how n =
      (if p.renamed.isSome then discard (Membership.rename p.old p.name) else pure ()) >>=
        fun _ => p.follow settings how n := by
  rw [Plan.settle, Plan.follow, Plan.regroup, Plan.access]
  cases p.renamed.isSome <;> cases p.request.groups <;> cases p.request.enable <;>
    simp only [Bool.false_eq_true, if_true, if_false, pure_bind]

theorem Plan.carryOut_eq (p : Plan) (settings : Settings) (how : UpdateKind) :
    p.carryOut settings how =
      p.save >>= fun n => p.settle settings how n >>= fun _ => pure p.uid := by
  rw [Plan.carryOut, Plan.save]
  split <;> rfl

theorem newName_eq (settings : DirectorySettings) (n : Note) (name : CanonicalName)
    (requested : Option String) :
    newName settings n name requested = Directory.read (newNameIn settings n name requested) := by
  cases requested with
  | none => rfl
  | some raw =>
    rw [newName]
    change (liftM (nameOf settings raw) >>= _) = Directory.read fun s => nameOf settings raw >>= _
    rw [lift_eq_read, ← read_bind]
    congr 1
    funext new
    split
    · rfl
    · change (Directory.read (fun s => s.accountByName new) >>= _) =
        Directory.read fun s => s.accountByName new >>= _
      rw [← read_bind]
      congr 1
      funext found
      cases found with
      | none => rfl
      | some other => 
        dsimp only
        split <;> rfl

theorem findExisting_eq (uid : String) :
    findExisting .account uid = Directory.read (existingIn uid) := by
  change (Directory.read (find .account uid) >>= _) =
    Directory.read fun s => find .account uid s >>= _
  rw [← read_bind]
  congr 1
  funext found
  cases found <;> rfl

theorem settle_bind (p : Plan) (settings : Settings) (how : UpdateKind) (n : Note) :
    (do
      p.settle settings how n
      return p.uid) = (do
      if p.renamed.isSome then discard (Membership.rename p.old p.name)
      if let some groups := p.request.groups then
        Membership.updateGroups settings.replacePolicy p.name groups how
      if let some enabled := p.request.enable then
        setEnabled settings.directory n p.name enabled p.request.denyGroups
      return p.uid : Action String) := by
  rw [Plan.settle]
  cases p.renamed.isSome <;> cases p.request.groups <;> cases p.request.enable <;>
    simp only [Bool.false_eq_true, if_true, if_false, bind_assoc, pure_bind]

theorem update_eq (settings : Settings) (uid : String) (attributes : Attributes) (how : UpdateKind) :
    update settings uid attributes how = (do
      Directory.acquire
      let p ← Directory.read (plan settings uid attributes how)
      p.carryOut settings how) := by
  rw [update]
  refine congrArg _ (funext fun _ => ?_)
  refine bind_eq_read_bind (findExisting_eq uid) fun n => ?_
  refine bind_eq_read_bind (lift_eq_read (idOf n)) fun id => ?_
  refine bind_eq_read_bind (lift_eq_read (storedName n)) fun old => ?_
  refine bind_eq_read_bind (newName_eq settings.directory n old _) fun renamed => ?_
  refine bind_eq_read_bind (lift_eq_read (Request.ofAttributes _)) fun request => ?_
  refine bind_eq_read_bind
    (lift_eq_read (updatedNote settings.directory n renamed request how)) fun ⟨changed, note⟩ => ?_
  have settled := settle_bind ⟨id, old, renamed, request, changed, note⟩ settings how
  change _ = Plan.carryOut ⟨id, old, renamed, request, changed, note⟩ settings how
  rw [Plan.carryOut]
  exact ite_congr rfl (fun _ => congrArg _ (funext fun m => (settled m).symm))
    fun _ => congrArg _ (funext fun m => (settled m).symm)

theorem newNameIn_ok {settings : DirectorySettings} {n : Note} {old : CanonicalName}
    {requested : Option String} {s : Store} {renamed : Option CanonicalName}
    (h : newNameIn settings n old requested s = .ok renamed) :
    ∀ new ∈ renamed, ∃ raw ∈ requested, nameOf settings raw = .ok new ∧ new.same old = false ∧
      ∃ found, s.accountByName new = .ok found ∧ ∀ other ∈ found, other.id = n.id := by
  cases requested with
  | none =>
    cases h
    exact fun new hnew => absurd hnew (by simp)
  | some raw =>
    obtain ⟨new, named, h⟩ := bind_eq_ok h
    split at h
    · cases h
      exact fun new hnew => absurd hnew (by simp)
    · next different =>
      obtain ⟨found, read, h⟩ := bind_eq_ok h
      refine fun c hc => ⟨raw, rfl, ?_⟩
      have same : renamed = some new ∧ ∀ other ∈ found, other.id = n.id := by
        cases found with
        | none =>
          cases h
          exact ⟨rfl, fun _ hn => absurd hn (by simp)⟩
        | some other =>
          dsimp only at h
          split at h
          · next same =>
            cases h
            refine ⟨rfl, ?_⟩
            rintro _ ⟨⟩
            exact same
          · cases h
      obtain ⟨rfl, checked⟩ := same
      obtain rfl := Option.mem_some_iff.mp hc
      exact ⟨named, Bool.eq_false_iff.mpr different, found, read, checked⟩

theorem plan_ok {settings : Settings} {uid : String} {attributes : Attributes} {how : UpdateKind}
    {s : Store} {p : Plan} (h : plan settings uid attributes how s = .ok p) :
    ∃ n, find .account uid s = .ok (some n) ∧ n.id = some p.uid ∧ storedName n = .ok p.old ∧
      newNameIn settings.directory n p.old (attributes.takeText Schema.nameAttribute).1 s =
        .ok p.renamed ∧
      Request.ofAttributes (attributes.takeText Schema.nameAttribute).2 = .ok p.request ∧
      updatedNote settings.directory n p.renamed p.request how = .ok (p.changed, p.note) := by
  obtain ⟨n, existing, h⟩ := bind_eq_ok h
  obtain ⟨id, named, h⟩ := bind_eq_ok h
  obtain ⟨old, stored, h⟩ := bind_eq_ok h
  obtain ⟨renamed, checked, h⟩ := bind_eq_ok h
  obtain ⟨request, asked, h⟩ := bind_eq_ok h
  obtain ⟨⟨changed, note⟩, updated, h⟩ := bind_eq_ok h
  cases h
  refine ⟨n, ?_, ?_, stored, checked, asked, updated⟩
  · obtain ⟨found, read, existing⟩ := bind_eq_ok existing
    cases found with
    | none => cases existing
    | some m =>
      cases existing
      exact read
  · rw [idOf] at named
    split at named
    · next found =>
      cases named
      exact found
    · cases named

/-- What creating an account comes to. -/
structure Creation where
  name : CanonicalName
  request : Request
  note : Note

def checkGroupsIn (groups : List String) (s : Store) : Except Fault Unit :=
  groups.forM fun group => do
    let display := Alias.display group
    if (← s.groupByAlias display).isNone then throw (.unknownGroup display)

def givenName (settings : DirectorySettings) (attributes : Attributes) : Except Fault CanonicalName :=
  match (attributes.takeText Schema.nameAttribute).1 with
  | none => .error (AttributeFlaw.missing Schema.nameAttribute).fault
  | some raw => nameOf settings raw

theorem givenName_ok {settings : DirectorySettings} {attributes : Attributes} {name : CanonicalName}
    (h : givenName settings attributes = .ok name) :
    ∃ raw ∈ (attributes.takeText Schema.nameAttribute).1, nameOf settings raw = .ok name := by
  rw [givenName] at h
  split at h
  · cases h
  · next raw given => exact ⟨raw, given, h⟩

def creation (settings : DirectorySettings) (name : CanonicalName) (attributes : Attributes)
    (s : Store) : Except Fault Creation := do
  let found ← s.accountByName name
  if found.isSome then throw (.alreadyExists .account name.text)
  checkGroupsIn ((attributes.takeTexts "GroupList").1.getD []) s
  let request ← Request.ofAttributes attributes
  let note ← newNote settings name request
  return { name, request, note }

def Creation.settle (c : Creation) (settings : Settings) (n : Note) : Action Unit := do
  if !(c.request.groups.getD []).isEmpty then
    Membership.updateGroups settings.replacePolicy c.name (c.request.groups.getD []) .add
  if c.request.enable = some false then
    setEnabled settings.directory n c.name false c.request.denyGroups

def Creation.regroup (c : Creation) (settings : Settings) : Action Unit :=
  if !(c.request.groups.getD []).isEmpty then
    Membership.updateGroups settings.replacePolicy c.name (c.request.groups.getD []) .add
  else pure ()

def Creation.access (c : Creation) (settings : Settings) (n : Note) : Action Unit :=
  if c.request.enable = some false then
    setEnabled settings.directory n c.name false c.request.denyGroups
  else pure ()

theorem Creation.settle_eq (c : Creation) (settings : Settings) (n : Note) :
    c.settle settings n = c.regroup settings >>= fun _ => c.access settings n := by
  rw [settle, regroup]
  split <;> rfl

def Creation.carryOut (c : Creation) (settings : Settings) : Action String := do
  let n ← Directory.save c.note
  let uid ← idOf n
  c.settle settings n
  return uid

theorem creation_ok {settings : DirectorySettings} {name : CanonicalName} {attributes : Attributes}
    {s : Store} {c : Creation} (h : creation settings name attributes s = .ok c) :
    c.name = name ∧ s.accountByName name = .ok none ∧
      Request.ofAttributes attributes = .ok c.request ∧
        newNote settings name c.request = .ok c.note := by
  obtain ⟨found, read, h⟩ := bind_eq_ok h
  cases found with
  | some other => cases h
  | none =>
    obtain ⟨_, _, h⟩ := bind_eq_ok h
    obtain ⟨request, asked, h⟩ := bind_eq_ok h
    obtain ⟨note, written, h⟩ := bind_eq_ok h
    cases h
    exact ⟨rfl, read, asked, written⟩

theorem checkGroups_eq (groups : List String) :
    checkGroups groups = Directory.read (checkGroupsIn groups) := by
  induction groups with
  | nil => rfl
  | cons group groups ih =>
    refine Eq.trans ?_ (read_bind _ fun _ => checkGroupsIn groups)
    rw [← ih]
    change (Directory.read (fun s => s.groupByAlias (Alias.display group)) >>= _) >>= _ =
      (Directory.read fun s => s.groupByAlias (Alias.display group) >>= _) >>= _
    rw [← read_bind]
    refine congrArg (· >>= fun _ => checkGroups groups) (congrArg _ (funext fun found => ?_))
    cases found <;> rfl

theorem Creation.settle_bind (c : Creation) (settings : Settings) (n : Note) (uid : String) :
    (do
      c.settle settings n
      return uid) = (do
      if !(c.request.groups.getD []).isEmpty then
        Membership.updateGroups settings.replacePolicy c.name (c.request.groups.getD []) .add
      if c.request.enable = some false then
        setEnabled settings.directory n c.name false c.request.denyGroups
      return uid : Action String) := by
  rw [Creation.settle]
  by_cases grouped : (!(c.request.groups.getD []).isEmpty) = true <;>
    by_cases disabled : c.request.enable = some false <;>
    simp only [grouped, disabled, Bool.false_eq_true, if_true, if_false, bind_assoc, pure_bind]

theorem create_eq (settings : Settings) (attributes : Attributes) :
    create settings attributes = (do
      let name ← givenName settings.directory attributes
      Directory.acquire
      let c ← Directory.read
        (creation settings.directory name (attributes.takeText Schema.nameAttribute).2)
      c.carryOut settings) := by
  rw [create, givenName]
  generalize attributes.takeText Schema.nameAttribute = taken
  obtain ⟨raw, rest⟩ := taken
  cases raw with
  | none => rfl
  | some raw =>
    dsimp only
    congr 1
    funext name
    congr 1
    funext u
    refine bind_eq_read_bind (y := fun s => s.accountByName name) rfl fun found => ?_
    cases found with
    | some other => rfl
    | none =>
      refine bind_eq_read_bind (checkGroups_eq _) fun _ => ?_
      refine bind_eq_read_bind (lift_eq_read (Request.ofAttributes rest)) fun request => ?_
      refine bind_eq_read_bind (lift_eq_read (newNote settings.directory name request)) fun note => ?_
      change _ = Creation.carryOut ⟨name, request, note⟩ settings
      rw [Creation.carryOut]
      congr 1
      funext n
      congr 1
      funext uid
      exact (Creation.settle_bind ⟨name, request, note⟩ settings n uid).symm

end Account

end AddressBook

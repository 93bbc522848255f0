import AddressBook.Proofs.Directory.Concealed
import AddressBook.Proofs.Directory.Outcome
import AddressBook.Proofs.Provisioning.Reading
import AddressBook.Proofs.Query.Exponents

/-! Stored passwords do not show in what is read. Every lookup and every entry is the same in the store
without its passwords, and a formula whose fields are no passwords selects the same notes; so two
directories that differ in the passwords of accounts answer every read alike. -/

namespace AddressBook

open Text

namespace Formula

def fields : Formula → List String
  | .literal _ => []
  | .field name => [name]
  | .lowerCase inner => inner.fields
  | .matching _ text pattern => text.fields ++ pattern.fields
  | .compare _ left right => left.fields ++ right.fields
  | .both left right => left.fields ++ right.fields
  | .either left right => left.fields ++ right.fields
  | .negation inner => inner.fields

theorem values_congr {n m : Note} {f : Formula}
    (h : ∀ name ∈ f.fields, n.fieldValues name = m.fieldValues name) : f.values n = f.values m := by
  induction f with
  | literal values => rfl
  | field name => exact h name List.mem_cons_self
  | lowerCase inner ih => rw [values, values, ih h]
  | negation inner ih => rw [values, values, ih h]
  | matching place text pattern ihl ihr | compare c text pattern ihl ihr
  | both text pattern ihl ihr | either text pattern ihl ihr =>
    obtain ⟨first, second⟩ := List.forall_mem_append.mp h
    rw [values, values, ihl first, ihr second]

end Formula

namespace Query

theorem fields_field (f : Field) : f.formula.fields = [f.name] := by
  rw [Field.formula]
  split <;> rfl

theorem fields_formula (q : Query) : q.formula.fields = q.fieldNames := by
  induction q with
  | equality negated f values => simp [formula, Formula.fields, fields_field, fieldNames]
  | ordering relation name value => rfl
  | matching negated place f value =>
    cases negated <;> simp [formula, Formula.fields, fields_field, fieldNames]
  | both left right ihl ihr | either left right ihl ihr =>
    rw [formula, Formula.fields, ihl, ihr, fieldNames]

theorem sameAscii_fieldName {name : String} (h : sameAscii name "HTTPPassword" = false)
    (kind : EntryClass) : sameAscii (fieldName kind name) "HTTPPassword" = false := by
  rw [fieldName]
  split
  · cases kind <;> decide
  · split
    · cases kind <;> decide
    · cases found : Schema.find? kind name with
      | none => exact h
      | some a =>
        have same := List.find?_some (p := fun a : Schema.Attribute => sameAscii a.name name) found
        rw [Option.map_some, Option.getD_some, sameAscii_congr same, h]

variable {rules : SearchRules} {kind : EntryClass} {q : Option Query}

theorem eq_confinedFormula (numeric : ∀ c ∈ q, c.Numeric) {formula : Formula}
    (read : Formula.read (confined kind (q.map write)) = .ok formula) :
    formula = confinedFormula kind q := by
  have readable : ∀ c ∈ q, c.Readable := by
    rintro c hc
    obtain rfl := Option.mem_def.mp hc
    refine (numeric c rfl).readable fun exponent => ?_
    exact not_read_confined kind (numeric c rfl) exponent formula read
  rw [read_confined kind readable] at read
  exact (Except.ok.inj read).symm

/-- The query can be read unless a number has an exponent, and no field of it is a password. -/
structure Spares (c : Query) : Prop where
  numeric : c.Numeric
  others : ∀ name ∈ c.fieldNames, sameAscii name "HTTPPassword" = false

theorem fieldValues_concealed {name : String} (h : sameAscii name "HTTPPassword" = false) (n : Note) :
    n.concealed.fieldValues name = n.fieldValues name := by
  rw [Note.fieldValues, Note.fieldValues, Note.id_concealed, Note.item?_concealed h]

theorem holds_concealed (spares : ∀ c ∈ q, c.Spares) {formula : Formula}
    (read : Formula.read (confined kind (q.map write)) = .ok formula) (n : Note) :
    formula.holds n.concealed = formula.holds n := by
  have others : ∀ name ∈ formula.fields, sameAscii name "HTTPPassword" = false := by
    rw [eq_confinedFormula (fun c hc => (spares c hc).numeric) read]
    cases q with
    | none =>
      intro name hn
      cases List.mem_singleton.mp hn
      decide
    | some c =>
      intro name hn
      rcases List.mem_cons.mp hn with rfl | hn
      · decide
      · exact (spares c rfl).others name (fields_formula c ▸ hn)
  rw [Formula.holds, Formula.holds,
    Formula.values_congr fun name hn => fieldValues_concealed (others name hn) n]

structure SparedBy (rules : SearchRules) (f : Filter) : Prop where
  identifiers : ∀ name ∈ f.names, Text.isIdentifier name = true
  others : ∀ name ∈ f.names, sameAscii name "HTTPPassword" = false
  finite : ∀ n, Json.real n ∈ f.soughtValues rules → n.isFinite = true

theorem spares_of_ofFilter {f : Filter} (spared : SparedBy rules f)
    (h : ofFilter rules kind f = .ok q) : ∀ c ∈ q, c.Spares := by
  obtain ⟨identifiers, others, finite⟩ := spared
  intro c hc
  obtain ⟨-, numeric⟩ := numeric_of_ofFilter (fun name hn => Or.inl (identifiers name hn)) finite h
  refine ⟨numeric c hc, fun field hf => ?_⟩
  obtain rfl := Filter.query_of_compile h
  obtain ⟨-, fields⟩ := Filter.within_query (fun name => List.mem_map_of_mem) false c hc
  obtain ⟨name, hn, rfl⟩ := List.mem_map.mp (fields field hf)
  exact sameAscii_fieldName (others name hn) kind

end Query

namespace Entry

theorem accountHeader_concealed (n : Note) (id : String) (selection : Selection) :
    accountHeader n.concealed id selection = accountHeader n id selection := by
  rw [accountHeader, accountHeader, Note.text?_congr (Note.item?_concealed (by decide)),
    Note.text?_congr (Note.item?_concealed (by decide))]

theorem valuesOf_password {name : String} (h : sameAscii name "HTTPPassword" = true)
    (values : List Note.Value) : valuesOfItem name (Schema.find? .account name) values = [] := by
  have hidden : (Schema.find? .account "HTTPPassword").map (·.readable) = some false := by
    decide +kernel
  obtain ⟨a, known, unreadable⟩ := Option.map_eq_some_iff.mp hidden
  rw [Schema.find?_congr h, known, valuesOfItem, unreadable]
  rfl

theorem valuesOf_concealed (n : Note) (name : String) :
    valuesOf .account n.concealed name = valuesOf .account n name := by
  rw [valuesOf, valuesOf, Note.modified_concealed, Note.id_concealed]
  cases password : sameAscii name "HTTPPassword" with
  | false => rw [Note.item?_concealed password]
  | true =>
    simp only [valuesOf_password password]
    cases n.concealed.item? name <;> cases n.item? name <;> rfl

theorem foldl_fill_concealed (n : Note) (names : List String) {e : Entry} (he : e.kind = .account) :
    names.foldl (fill n.concealed) e = names.foldl (fill n) e := by
  induction names generalizing e with
  | nil => rw [List.foldl_nil, List.foldl_nil]
  | cons name names ih =>
    have step : fill n.concealed e name = fill n e name := by
      rw [fill, fill, he, valuesOf_concealed]
    rw [List.foldl_cons, List.foldl_cons, step]
    exact ih ((sameHead_fill n e name).1.trans he)

theorem kind_accountHeader (n : Note) (id : String) (selection : Selection) :
    (accountHeader n id selection).kind = .account := by
  rw [accountHeader]
  split
  · rfl
  · split
    · rfl
    · rw [(sameHead_setIf _ _ _ _).1, (sameHead_setIf _ _ _ _).1]

theorem ofNote_concealed (n : Note) (selection : Selection) :
    ofNote .account n.concealed selection = ofNote .account n selection := by
  rw [ofNote, ofNote, Note.id_concealed]
  cases n.id with
  | none =>
    have identity : n.concealed.identity = n.identity := by
      rw [Note.identity, Note.identity, Note.id_concealed,
        Note.text?_congr (Note.item?_concealed (by decide)),
        Note.text?_congr (Note.item?_concealed (by decide))]
    rw [identity]
  | some id =>
    dsimp only
    rw [header, header, accountHeader_concealed,
      foldl_fill_concealed n selection.names (kind_accountHeader n id selection)]

end Entry

namespace Reading

open Provisioning

variable (s : Store) (selection : Selection) (n : Note) (e : Entry)

theorem groupsOf_sealed : groupsOf s.sealed n.concealed = groupsOf s n := by
  rw [groupsOf, groupsOf, Note.text?_congr (Note.item?_concealed (by decide))]
  simp only [Store.groupsOf, Store.search_group_sealed]

theorem withGroups_sealed :
    withGroups s.sealed selection n.concealed e = withGroups s selection n e := by
  have mark : enabledByMark n.concealed = enabledByMark n := by
    rw [enabledByMark, enabledByMark, Note.text?_congr (Note.item?_concealed (by decide))]
  rw [withGroups, withGroups, groupsOf_sealed, mark]

theorem resolve_sealed (member : String) : resolve s.sealed member = resolve s member := by
  rw [resolve, resolve, Store.groupByAlias_sealed]
  refine bind_congr fun found => ?_
  cases found with
  | some group => rfl
  | none =>
    dsimp only
    cases Name.canonicalize member with
    | error fault => rfl
    | ok name =>
      dsimp only
      rw [Store.accountByName_sealed]
      cases s.accountByName name with
      | error fault => rfl
      | ok found => cases found <;> rfl

theorem withMembers_sealed : withMembers s.sealed selection n e = withMembers s selection n e := by
  rw [withMembers, withMembers, funext (resolve_sealed s)]

theorem entryOf_account_sealed :
    entryOf s.sealed .account selection n.concealed = entryOf s .account selection n := by
  rw [entryOf, entryOf, Entry.ofNote_concealed]
  simp only [withGroups_sealed]

theorem entryOf_group_sealed :
    entryOf s.sealed .group selection n = entryOf s .group selection n := by
  rw [entryOf, entryOf]
  simp only [withMembers_sealed]

def shown (s : Store) (kind : EntryClass) (selection : Selection) (found : Except Fault (Option Note)) :
    Except Fault (Option Entry) := do
  match ← found with
  | some n => return some (← entryOf s kind selection n)
  | none => return none

theorem shown_sealed (kind : EntryClass) (uid : String) :
    shown s.sealed kind selection (find kind uid s.sealed) =
      shown s kind selection (find kind uid s) := by
  cases kind with
  | group =>
    rw [find, find, Store.groupByAlias_sealed]
    simp only [shown, entryOf_group_sealed]
  | account =>
    rw [find, find, Store.accountById_sealed]
    rcases s.accountById (NoteId.extract uid) with fault | none | n
    all_goals simp only [shown, bind, Except.bind, Except.map, Option.map_none, Option.map_some,
      entryOf_account_sealed]

theorem mapM_concealed (ns : List Note) :
    (ns.map Note.concealed).mapM (entryOf s.sealed .account selection) =
      ns.mapM (entryOf s .account selection) := by
  rw [List.mapM_map]
  exact congrArg (fun f => ns.mapM f) (funext fun n => entryOf_account_sealed s selection n)

theorem limited_map (limit : Option Nat) (ns : List Note) :
    limited limit (ns.map Note.concealed) = (limited limit ns).map Note.concealed := by
  cases limit with
  | none => rfl
  | some most => exact List.map_take.symm

theorem found_account_sealed {q : Option Query} (spares : ∀ c ∈ q, c.Spares) :
    found s.sealed .account (q.map Query.write) =
      (found s .account (q.map Query.write)).map (List.map Note.concealed) := by
  cases direct : (q.map Query.write).bind Query.directId? with
  | none =>
    simp only [found, direct]
    exact Store.search_sealed s .account fun formula read n => Query.holds_concealed spares read n
  | some id =>
    simp only [found, direct, Store.accountById_sealed]
    cases s.accountById id with
    | error fault => rfl
    | ok found => cases found <;> rfl

def listed (s : Store) (kind : EntryClass) (selection : Selection) (limit : Option Nat)
    (query : Option String) : Except Fault (List Entry) := do
  (limited limit (← found s kind query)).mapM (entryOf s kind selection)

theorem listed_sealed (kind : EntryClass) (limit : Option Nat) {q : Option Query}
    (spares : ∀ c ∈ q, c.Spares) :
    listed s.sealed kind selection limit (q.map Query.write) =
      listed s kind selection limit (q.map Query.write) := by
  rw [listed, listed]
  cases kind with
  | group =>
    have same : found s.sealed .group (q.map Query.write) = found s .group (q.map Query.write) := by
      simp only [found, Store.search_group_sealed]
    rw [same, funext (entryOf_group_sealed s selection)]
  | account =>
    rw [found_account_sealed s spares]
    rcases found s .account (q.map Query.write) with fault | ns
    all_goals simp only [bind, Except.bind, Except.map, limited_map, mapM_concealed]

end Reading

namespace Store

variable {s t : Store}

theorem givesPasswords_memory (h : s.backing = .memory) (n : Note) : s.givesPasswords n = true := by
  rw [givesPasswords, readBack, h]
  rfl

/-- The stores differ in the passwords of accounts at most. -/
structure SameButPasswords (s t : Store) : Prop where
  notes : s.notes.map (fun e => (e.1, e.2.concealed)) = t.notes.map fun e => (e.1, e.2.concealed)
  others : { s with notes := t.notes } = t

/-- A table gives back the passwords of a note if the other table does. -/
def GivesAlike (s t : Store) : Prop :=
  s.backing = .sqlite →
    s.notes.map (fun e => s.givesPasswords e.2) = t.notes.map fun e => t.givesPasswords e.2

theorem sealed_eq (same : s.SameButPasswords t) (given : s.GivesAlike t) : s.sealed = t.sealed := by
  obtain ⟨notes, others⟩ := same
  have backing : t.backing = s.backing := by rw [← others]
  have gives : s.notes.map (fun e => s.givesPasswords e.2) =
      t.notes.map fun e => t.givesPasswords e.2 := by
    cases kind : s.backing with
    | sqlite => exact given kind
    | memory =>
      have all := fun n => givesPasswords_memory kind n
      have all' := fun n => givesPasswords_memory (backing.trans kind) n
      have length := congrArg List.length notes
      simp only [List.length_map] at length
      simp only [all, all', List.map_const', length]
  have pairs : s.notes.map (fun e => ((e.1, e.2.concealed), s.givesPasswords e.2)) =
      t.notes.map fun e => ((e.1, e.2.concealed), t.givesPasswords e.2) := by
    rw [← List.zip_map', notes, gives, List.zip_map']
  -- The note without passwords and whether these come back make up what is sealed.
  have made := congrArg (List.map fun p : (String × Note) × Bool => (p.1.1, p.1.2.sealed p.2)) pairs
  simp only [List.map_map, Function.comp_def, Note.sealed_concealed] at made
  rw [sealed, sealed, made, ← others]

theorem close_sealed (s : Store) : s.sealed.close = s.close.sealed := by
  obtain ⟨backing⟩ := s
  cases backing <;> rfl

theorem reopened_sealed (s : Store) : s.sealed.reopened = s.reopened.sealed := by
  obtain ⟨_, _, _, _, _, lasting⟩ := s
  cases lasting <;> rfl

end Store

namespace Directory

def sealed (d : Directory) : Directory := { d with store := d.store.sealed }

theorem dropSession_sealed (d : Directory) : d.sealed.dropSession = d.dropSession.sealed := by
  rw [dropSession, dropSession]
  change (if d.session.current.isSome then _ else _) = _
  split
  · rw [sealed, sealed, Store.close_sealed]
  · rfl

theorem openStore_sealed (d : Directory) : d.sealed.openStore = d.openStore.sealed := by
  have opening : d.sealed.opening = d.opening := rfl
  rw [openStore, openStore, opening]
  cases d.opening with
  | live => exact Store.reopened_sealed d.store
  | dead =>
    dsimp only
    rw [show d.sealed.store.reopened = _ from Store.reopened_sealed d.store]
    rfl
  | refused fault => rfl

theorem acquired_sealed (d : Directory) : Action.acquired d.sealed = (Action.acquired d).sealed := by
  rw [Action.acquired, Action.acquired, dropSession_sealed, openStore_sealed, apply_ite sealed]
  rfl

end Directory

namespace Action

variable {α : Type}

def answer (x : Action α) (d : Directory) : Except Fault α :=
  match x d with
  | .ok a _ => .ok a
  | .error fault _ => .error fault

theorem answer_reading (reading : Store → Except Fault α) (d : Directory) :
    answer (do Directory.acquire; Directory.read reading) d =
      match (d.session.acquire d.store.isOpen d.opening).1 with
      | .ok _ => reading (acquired d).store
      | .error fault => .error fault := by
  rw [answer, bind_apply, acquire_apply]
  cases (d.session.acquire d.store.isOpen d.opening).1 with
  | error fault => rfl
  | ok number =>
    dsimp only
    rw [read_apply]
    cases reading (acquired d).store <;> rfl

theorem answer_reading_sealed {reading : Store → Except Fault α}
    (h : ∀ s, reading s.sealed = reading s) (d : Directory) :
    answer (do Directory.acquire; Directory.read reading) d.sealed =
      answer (do Directory.acquire; Directory.read reading) d := by
  rw [answer_reading, answer_reading, Directory.acquired_sealed]
  change (match (d.session.acquire d.store.isOpen d.opening).1 with
    | .ok _ => reading (acquired d).store.sealed
    | .error fault => .error fault) = _
  rw [h]

theorem answer_reading_congr {d d' : Directory} (store : d.store = d'.store)
    (session : d.session = d'.session) (opening : d.opening = d'.opening)
    (reading : Store → Except Fault α) :
    answer (do Directory.acquire; Directory.read reading) d =
      answer (do Directory.acquire; Directory.read reading) d' := by
  have left : (acquired d).store = (acquired d').store := by
    simp only [acquired, Directory.dropSession, Directory.openStore, apply_ite Directory.store,
      apply_ite Directory.opening, ite_self, store, session, opening]
  rw [answer_reading, answer_reading, left, store, session, opening]

end Action

namespace Directory

/-- The directories differ in the passwords of accounts at most, as far as they are read. -/
structure SameButPasswords (d d' : Directory) : Prop where
  store : d.store.SameButPasswords d'.store
  session : d.session = d'.session
  opening : d.opening = d'.opening

end Directory

namespace Reading

open AddressBook.Action Provisioning

theorem answer_search (rules : SearchRules) (kind : EntryClass) (filter : Option Filter)
    (selection : Selection) (limit : Option Nat) (d : Directory) :
    answer (search rules kind filter selection limit) d =
      match filter.elim (.ok none) (Query.ofFilter rules kind) with
      | .ok q =>
        answer (do
          Directory.acquire
          Directory.read fun s => listed s kind selection limit (q.map Query.write)) d
      | .error fault => .error fault := by
  cases filter with
  | none => rfl
  | some f =>
    rw [Option.elim]
    cases made : Query.ofFilter rules kind f with
    | error fault =>
      simp only [answer, search, made, bind_apply]
      rfl
    | ok q =>
      simp only [answer, search, made, bind_apply]
      rfl

theorem answer_read_concealed {α : Type} {d d' : Directory} (same : d.SameButPasswords d')
    (given : d.store.GivesAlike d'.store) {reading : Store → Except Fault α}
    (h : ∀ s, reading s.sealed = reading s) :
    answer (do Directory.acquire; Directory.read reading) d =
      answer (do Directory.acquire; Directory.read reading) d' := by
  rw [← answer_reading_sealed h d, ← answer_reading_sealed h d']
  apply answer_reading_congr
  · exact Store.sealed_eq same.store given
  · exact same.session
  · exact same.opening

/-- Passwords do not show: where directories differ in the passwords of accounts at most, and one gives
them back where the other does, every read is answered alike. -/
theorem answers_alike {d d' : Directory} (same : d.SameButPasswords d')
    (given : d.store.GivesAlike d'.store) (kind : EntryClass) (selection : Selection) :
    (∀ uid, answer (get kind uid selection) d = answer (get kind uid selection) d') ∧
      ∀ (rules : SearchRules) (filter : Option Filter) (limit : Option Nat),
        (∀ f ∈ filter, Query.SparedBy rules f) →
          answer (search rules kind filter selection limit) d =
            answer (search rules kind filter selection limit) d' := by
  constructor
  · intro uid
    exact answer_read_concealed same given fun s => shown_sealed s selection kind uid
  · intro rules filter limit spared
    rw [answer_search, answer_search]
    cases made : filter.elim (.ok none) (Query.ofFilter rules kind) with
    | error fault => rfl
    | ok q =>
      have spares : ∀ c ∈ q, c.Spares := by
        cases filter with
        | none =>
          cases made
          intro c hc
          cases hc
        | some f => exact Query.spares_of_ofFilter (spared f rfl) made
      exact answer_read_concealed same given fun s => listed_sealed s selection kind limit spares

def samplePassword (password : Note.Value) : Directory :=
  let items := [("Form", [.text "Person"]), ("FullName", [.text "CN=Ann Lee/O=Acme"]),
    ("HTTPPassword", [password])]
  { store := { backing := .sqlite, notes := [("A1", { id := some "A1", items })], arrivals := ["A1"] } }

def sampleSought : Filter := .equals "FullName" [.text "Ann Lee/Acme"]

theorem answers_alike_sample :
    answer (get .account "A1" ⟨["FullName"]⟩) (samplePassword (.text "secret")) =
        answer (get .account "A1" ⟨["FullName"]⟩) (samplePassword (.text "other")) ∧
      answer (search {} .account (some sampleSought) ⟨["FullName"]⟩ none)
          (samplePassword (.text "secret")) =
        answer (search {} .account (some sampleSought) ⟨["FullName"]⟩ none)
          (samplePassword (.text "other")) := by
  have same : (samplePassword (.text "secret")).SameButPasswords (samplePassword (.text "other")) :=
    ⟨⟨by decide +kernel, rfl⟩, rfl, rfl⟩
  have given : (samplePassword (.text "secret")).store.GivesAlike
      (samplePassword (.text "other")).store := fun _ => by decide +kernel
  have spared : Query.SparedBy {} sampleSought := by
    refine ⟨?_, ?_, ?_⟩
    · intro name hn
      cases List.mem_singleton.mp hn
      decide
    · intro name hn
      cases List.mem_singleton.mp hn
      decide
    · intro n hn
      cases List.mem_singleton.mp hn
  obtain ⟨got, found⟩ := answers_alike same given .account ⟨["FullName"]⟩
  exact ⟨got "A1", found {} (some sampleSought) none fun f hf => Option.mem_some.mp hf ▸ spared⟩

/-- A password that a table does not give back shows: nothing of its account is read. -/
theorem not_always_answers_alike :
    ¬ ∀ (d d' : Directory), d.SameButPasswords d' → ∀ kind uid selection,
      answer (get kind uid selection) d = answer (get kind uid selection) d' := by
  intro always
  have same : (samplePassword (.text "secret")).SameButPasswords (samplePassword (.number .nan)) :=
    ⟨⟨by decide +kernel, rfl⟩, rfl, rfl⟩
  have alike := congrArg (fun a => a.toOption.isSome) (always _ _ same .account "A1" ⟨["FullName"]⟩)
  revert alike
  decide +kernel

end Reading

end AddressBook

import AddressBook.Proofs.Provisioning.Filing
import AddressBook.Proofs.Provisioning.Mirrored

/-! The two kinds of stores are interchangeable. Whatever is asked, one after the other, an empty store in
memory and an empty table give the same answers and end with the same notes. -/

namespace AddressBook

open AddressBook.Action Text

/-- What may be asked of the entries. -/
inductive Operation where
  | create (kind : EntryClass) (attributes : Attributes)
  | update (kind : EntryClass) (uid : String) (attributes : Attributes) (how : UpdateKind)
  | delete (kind : EntryClass) (uid : String)
  | get (kind : EntryClass) (uid : String) (selection : Selection)
  | search (kind : EntryClass) (filter : Option Filter) (selection : Selection) (limit : Option Nat)

inductive Answer where
  | uid (uid : String)
  | deleted
  | entry (found : Option Entry)
  | entries (found : List Entry)

namespace Operation

def attributes : Operation → Attributes
  | .create _ attributes => attributes
  | .update _ _ attributes _ => attributes
  | _ => []

def run (settings : Settings) : Operation → Action Answer
  | .create kind attributes => return .uid (← Entries.create settings kind attributes)
  | .update kind uid attributes how =>
    return .uid (← Entries.update settings kind uid attributes how)
  | .delete kind uid => do
    Entries.delete settings kind uid
    return .deleted
  | .get kind uid selection => return .entry (← Reading.get kind uid selection)
  | .search kind filter selection limit =>
    return .entries (← Reading.search settings.search kind filter selection limit)

def answers (settings : Settings) (operations : List Operation) :
    Action (List (Except Fault Answer)) :=
  operations.mapM fun operation => attempt (operation.run settings)

variable {K : String → Prop} {lasting : Bool} (settings : Settings)

theorem mirrors_run (apart : KeysApart K) (operation : Operation) :
    Mirrors K lasting (Directory.Waiting K) (operation.run settings) (Directory.Ready K) := by
  cases operation with
  | create kind attributes =>
    cases kind with
    | account => exact (Account.mirrors_create apart settings attributes).bind fun _ => mirrored_pure _
    | group => exact (Group.mirrors_create apart attributes).bind fun _ => mirrored_pure _
  | update kind uid attributes how =>
    cases kind with
    | account =>
      exact (Account.mirrors_update apart settings uid attributes how).bind fun _ => mirrored_pure _
    | group => exact (Group.mirrors_update apart uid attributes how).bind fun _ => mirrored_pure _
  | delete kind uid =>
    cases kind with
    | account => exact (Account.mirrors_delete apart settings uid).bind fun _ => mirrored_pure _
    | group => exact (Group.mirrors_delete apart uid).bind fun _ => mirrored_pure _
  | get kind uid selection =>
    exact (Reading.mirrors_get apart kind uid selection).bind fun _ => mirrored_pure _
  | search kind filter selection limit =>
    exact (Reading.mirrors_search apart _ kind filter selection limit).bind fun _ => mirrored_pure _

theorem leads_run {operation : Operation} (ha : operation.attributes.Lacks "Form") :
    Leads (Directory.Filing K) (operation.run settings) (fun _ d => d.Filing K)
      (Directory.Filing K) := by
  have quiet : ∀ {α : Type} {A : α → Prop} {x : Action α}, Keeps (Directory.Filing K) x A →
      Leads (Directory.Filing K) x (fun _ d => d.Filing K) (Directory.Filing K) :=
    fun h => Leads.weaken h (fun _ hd => hd) (fun _ _ hd => hd.1) fun _ hd => hd
  have answered : ∀ {α : Type} {x : Action α} {f : α → Answer},
      Leads (Directory.Filing K) x (fun _ d => d.Filing K) (Directory.Filing K) →
        Leads (Directory.Filing K) (x >>= fun a => pure (f a)) (fun _ d => d.Filing K)
          (Directory.Filing K) := fun h => h.bind fun _ => leads_pure fun _ hd => hd
  have reads : ∀ {α : Type} {reading : Store → Except Fault α},
      Keeps (Directory.Filing K) (Directory.read reading) fun _ => True :=
    keeps_read fun _ _ _ _ => trivial
  have acquires := (Directory.Filing.frame K).keeps_acquire
  cases operation with
  | create kind attributes =>
    cases kind with
    | account => exact answered (Directory.Filing.leads_createAccount settings ha)
    | group => exact answered (Directory.Filing.leads_createGroup ha)
  | update kind uid attributes how =>
    cases kind with
    | account => exact answered (quiet (Directory.Filing.keeps_updateAccount settings uid how ha))
    | group => exact answered (Directory.Filing.leads_updateGroup uid how ha)
  | delete kind uid =>
    cases kind with
    | account => exact answered (quiet (Directory.Filing.keeps_deleteAccount settings uid))
    | group => exact answered (Directory.Filing.leads_deleteGroup uid)
  | get kind uid selection => exact answered (quiet (acquires.bind fun _ _ => reads))
  | search kind filter selection limit =>
    refine answered (quiet (A := fun _ => True) ?_)
    unfold Reading.search
    cases filter with
    | none => exact acquires.bind fun _ _ => reads
    | some filter =>
      exact (keeps_lift (A := fun _ => True) fun _ _ => trivial).bind fun _ _ =>
        acquires.bind fun _ _ => reads

theorem mirrors_answers (apart : KeysApart K) (operations : List Operation) :
    Mirrors K lasting (Directory.Waiting K) (answers settings operations) (Directory.Waiting K) :=
  mirrors_mapM fun operation => mirrors_attempt (mirrors_run settings apart operation) fun _ hd =>
    hd.waiting

theorem keeps_answers {operations : List Operation}
    (formless : ∀ operation ∈ operations, operation.attributes.Lacks "Form") :
    Keeps (Directory.Filing K) (answers settings operations) fun _ => True :=
  keeps_mapM fun operation hop => keeps_attempt (leads_run settings (formless operation hop))

theorem exists_answers (operations : List Operation) (d : Directory) :
    ∃ given d', answers settings operations d = .ok given d' := by
  induction operations generalizing d with
  | nil => exact ⟨[], d, rfl⟩
  | cons operation operations ih =>
    obtain ⟨answer, d₁, first⟩ : ∃ answer d₁, attempt (operation.run settings) d = .ok answer d₁ := by
      rw [attempt]
      cases operation.run settings d <;> exact ⟨_, _, rfl⟩
    obtain ⟨given, d', rest⟩ := ih d₁
    refine ⟨answer :: given, d', ?_⟩
    rw [answers, List.mapM_cons]
    exact bind_ok_iff.mpr ⟨answer, d₁, first, bind_ok_iff.mpr ⟨given, d', rest, rfl⟩⟩

end Operation

/-- What was saved comes back from its JSON text as it is. -/
def Write.comesBack : Write → Bool
  | .saved _ items => Note.itemsThroughJson? items = some items
  | _ => true

theorem Supply.capital_of_mem_idDigits {n : Nat} {c : Char} (h : c ∈ (idDigits n).toList) :
    48 ≤ c.toNat ∧ c.toNat ≤ 90 := by
  have digits : ∀ n : Nat, ∀ d ∈ Nat.toDigits 16 n, ∃ k < 16, d = Nat.digitChar k := by
    intro n
    induction n using Nat.strongRecOn with
    | ind n ih =>
      intro d hd
      rw [Nat.toDigits_eq_if (by decide)] at hd
      split at hd
      · next small => exact ⟨n, small, List.mem_singleton.mp hd⟩
      · next large =>
        rcases List.mem_append.mp hd with hd | hd
        · exact ih (n / 16) (by omega) d hd
        · exact ⟨n % 16, Nat.mod_lt n (by decide), List.mem_singleton.mp hd⟩
  have capital : ∀ k < 16, 48 ≤ (Nat.digitChar k).toUpper.toNat ∧
      (Nat.digitChar k).toUpper.toNat ≤ 90 := by decide
  rw [idDigits, String.toList_ofList] at h
  rcases List.mem_append.mp h with zero | digit
  · rw [List.eq_of_mem_replicate zero]
    decide
  · obtain ⟨d, hd, rfl⟩ := List.mem_map.mp digit
    obtain ⟨k, hk, rfl⟩ := digits n d hd
    exact capital k hk

theorem Directory.filing_empty (supply : Supply) : Directory.Filing supply.Gives { supply } where
  memory := rfl
  lasting := rfl
  sound := Store.sound_of_notes_nil rfl
  keys _ hk := absurd hk List.not_mem_nil
  notes _ he := absurd he List.not_mem_nil
  journal _ _ saved := absurd saved List.not_mem_nil
  supplied _ gives := gives

namespace Operation

/-- Operations on an empty store in memory and on an empty table, with the same ids and the same times:
unless they give a form, each has the same answer or the same fault, and the notes are the same in
the end. -/
theorem answers_tabled (settings : Settings) {operations : List Operation} {supply : Supply}
    (formless : ∀ operation ∈ operations, operation.attributes.Lacks "Form")
    (apart : KeysApart supply.Gives)
    (back : ∀ write ∈ (ended (answers settings operations) { supply }).journal,
      write.comesBack = true) (lasting : Bool) :
    ∃ given d d', answers settings operations { supply } = .ok given d ∧
      answers settings operations { supply, store := { backing := .sqlite, lasting } } =
        .ok given d' ∧ d'.store.notes = d.store.notes := by
  obtain ⟨given, d, run⟩ := exists_answers settings operations { supply }
  have filing : d.Filing supply.Gives :=
    ((keeps_answers settings formless).ok (Directory.filing_empty supply) run).1
  have tenable : (ended (answers settings operations) { supply }).Tenable supply.Gives := by
    intro id items saved
    have whole := back _ saved
    rw [ended_of_ok run] at saved
    obtain ⟨known, classed⟩ := filing.journal id items saved
    exact ⟨known, classed, by simpa [Write.comesBack] using whole⟩
  have blank : Directory.Waiting supply.Gives { supply } := Or.inr ⟨rfl, rfl, rfl⟩
  have mirrors : Mirrors supply.Gives lasting _ (answers settings operations) _ :=
    mirrors_answers settings apart operations
  have same := (mirrors.runs { supply } blank tenable).1
  rw [run] at same
  exact ⟨given, d, d.tabled lasting, run, same, rfl⟩

/-! An account and a group that lists it; then the account is read, the group is left, and it goes. -/

def staffOperations : List Operation :=
  [.create .account [("__NAME__", [.text "Ann Lee/Acme"])],
    .create .group [("Members", [.text "Ann Lee/Acme"]), ("__NAME__", [.text "Staff"])],
    .get .account "a1" ⟨["__NAME__", "GroupList"]⟩,
    .update .account "A1" [("GroupList", [.text "Staff"])] .remove,
    .search .group none ⟨["ListName", "Members"]⟩ none,
    .delete .group "Staff"]

def staffSupply : Supply := { ids := ["A1", "G1"] }

theorem keysApart_staffSupply : KeysApart staffSupply.Gives := by
  refine keysApart_of_capitals fun id gives => ?_
  rcases gives with listed | ⟨k, -, rfl⟩
  · have each : ∀ id ∈ ["A1", "G1"], (id.toList.all fun c => 48 ≤ c.toNat ∧ c.toNat ≤ 90) := by
      decide
    exact fun c hc => by simpa using List.all_eq_true.mp (each id listed) c hc
  · exact fun c hc => Supply.capital_of_mem_idDigits hc

theorem answers_tabled_sample :
    ∃ given d d', answers {} staffOperations { supply := staffSupply } = .ok given d ∧
      answers {} staffOperations
        { supply := staffSupply, store := { backing := .sqlite, lasting := false } } = .ok given d' ∧
      d'.store.notes = d.store.notes := by
  have formless : ∀ operation ∈ staffOperations, operation.attributes.Lacks "Form" := by
    simp only [staffOperations, List.forall_mem_cons, attributes, Attributes.Lacks]
    decide
  have back : ∀ write ∈ (ended (answers {} staffOperations) { supply := staffSupply }).journal,
      write.comesBack = true := by
    decide +kernel
  exact answers_tabled {} formless keysApart_staffSupply back false

end Operation

end AddressBook

import AddressBook.Proofs.Directory.Outcome
import AddressBook.Proofs.Directory.ReadBack
import AddressBook.Proofs.Membership.Groups
import AddressBook.Proofs.Provisioning.Surviving
import AddressBook.Proofs.Text.Lowering

/-! The lookup that answers a search for one id. It takes an id in any case and a form in any case, and
of the ids that are alike up to case it sees one only; a query compares both as they are written. -/

namespace AddressBook

open Provisioning Text

section

variable {α β : Type}

theorem mapM_filter_ok {f : α → Except Fault β} {p : α → Bool} {q : β → Bool} {as : List α}
    {bs : List β} (kept : ∀ a ∈ as, ∀ b, f a = .ok b → q b = p a) (h : as.mapM f = .ok bs) :
    (as.filter p).mapM f = .ok (bs.filter q) := by
  induction as generalizing bs with
  | nil =>
    cases h
    rfl
  | cons a as ih =>
    rw [List.mapM_cons] at h
    obtain ⟨b, first, h⟩ := bind_eq_ok h
    obtain ⟨rest, others, made⟩ := bind_eq_ok h
    cases made
    have same := kept a List.mem_cons_self b first
    have part := ih (fun c hc => kept c (List.mem_cons_of_mem a hc)) others
    rw [List.filter_cons, List.filter_cons, same]
    split
    · rw [List.mapM_cons, first, part]
      rfl
    · exact part

theorem filter_eq_toList_find? {p : α → Bool} {as : List α}
    (h : as.Pairwise fun a b => ¬ (p a = true ∧ p b = true)) :
    as.filter p = (as.find? p).toList := by
  induction as with
  | nil => rfl
  | cons a as ih =>
    obtain ⟨apart, rest⟩ := List.pairwise_cons.mp h
    rw [List.filter_cons, List.find?_cons]
    cases holds : p a with
    | false => exact ih rest
    | true =>
      have none : as.filter p = [] := by
        rw [List.filter_eq_nil_iff]
        exact fun b hb other => apart b hb ⟨holds, other⟩
      rw [none]
      rfl

end

namespace Query

/-- The query for the note of one id. -/
def idQuery (id : String) : Query := .equality false ⟨"NoteID", false⟩ [.text id]

theorem toList_write_idQuery {ids : List Char} (plain : ∀ c ∈ ids, isEscaped c = false) :
    (idQuery (String.ofList ids)).write.toList = idOpening ++ (ids ++ idClosing) := by
  have opening : idOpening = '(' :: ("NoteID".toList ++ ['=', '"']) := by decide
  have closing : idClosing = ['"', ')'] := by decide
  rw [idQuery, toList_write_equality, opening, closing]
  simp [Literal.listText, join, Literal.write, quote, escapeChars_of_not_isEscaped plain, Field.write]

theorem write_of_directId? {text id : String} (h : directId? text = some id) :
    text = (idQuery id).write := by
  rw [directId?] at h
  dsimp only at h
  split at h
  · next starts =>
    obtain ⟨rest, whole⟩ := List.isPrefixOf_iff_prefix.mp starts
    rw [← whole, List.drop_left] at h
    split at h
    · next closes =>
      rw [Bool.and_eq_true, beq_iff_eq] at closes
      have plain : ∀ c ∈ rest.takeWhile isAsciiAlphanumeric, isEscaped c = false := by
        intro c hc
        have alphanumeric := List.mem_takeWhile_imp hc
        rw [Bool.eq_false_iff]
        intro escaped
        rcases (Bool.or_eq_true _ _).mp escaped with mark | mark <;>
          (rw [eq_of_beq mark] at alphanumeric; cases alphanumeric)
      have parts := (List.take_append_drop (rest.takeWhile isAsciiAlphanumeric).length rest).symm
      rw [closes.2, ← List.prefix_iff_eq_take.mp (List.takeWhile_prefix _)] at parts
      generalize rest.takeWhile isAsciiAlphanumeric = ids at h plain parts
      subst parts
      rw [← Option.some.inj h, ← String.toList_inj, ← whole, toList_write_idQuery plain]
    · cases h
  · cases h

theorem read_idQuery (id : String) :
    Formula.read (confined .account (some (idQuery id).write)) =
      .ok (confinedFormula .account (some (idQuery id))) := by
  have readable : ∀ q ∈ some (idQuery id), q.Readable := by
    rintro q ⟨⟩
    refine ⟨by decide, List.cons_ne_nil _ _, fun l hl => ?_⟩
    rw [List.mem_singleton.mp hl]
    trivial
  have read := read_confined .account readable
  rwa [Option.map_some] at read

theorem holds_idQuery (id : String) (n : Note) :
    (confinedFormula .account (some (idQuery id))).holds n =
      (((n.item? "Form").getD []).contains (.text EntryClass.account.form) && n.id == some id) := by
  have named : sameAscii "NoteID" "NoteID" = true := by decide
  have plain : (idQuery id).formula = .compare .equal (.field "NoteID") (.literal [.text id]) := rfl
  have ids : (idQuery id).formula.holds n = (n.id == some id) := by
    rw [plain, Formula.holds_compare, Formula.values, Formula.values, Note.fieldValues, if_pos named]
    cases n.id with
    | none => rfl
    | some other =>
      have order : ((Scalar.text other).order (.text id) == .eq) = (some other == some id) := by
        rw [Bool.eq_iff_iff, beq_iff_eq, beq_iff_eq, Scalar.order_text, Option.some.injEq]
      simpa [Comparison.holds] using order
  have form : (formFormula .account).holds n =
      ((n.item? "Form").getD []).contains (.text EntryClass.account.form) := by
    rw [Bool.eq_iff_iff, holds_formFormula, List.contains_iff_mem]
  rw [confinedFormula, Formula.holds_both, ids, form]

end Query

namespace Note

theorem mem_texts_iff {n : Note} {name text : String} :
    text ∈ n.texts name ↔ Value.text text ∈ (n.item? name).getD [] := by
  rw [texts, List.mem_filterMap]
  constructor
  · rintro ⟨v, hv, same⟩
    cases v with
    | text t =>
      cases same
      exact hv
    | number x => cases same
    | moment m => cases same
  · exact fun h => ⟨_, h, rfl⟩

end Note

namespace Store

variable {s : Store} {id : String}

def picked? (s : Store) (id : String) : Option Note :=
  ((s.accountKey? id).bind fun key => s.notes.get? key).filter (·.isClass .account)

def sought? (s : Store) (id : String) : Option Note := (s.formed .account).find? (·.id == some id)

def AccountsBack (s : Store) : Prop := ∀ n ∈ s.notesOf .account, ∃ m, s.readBack n = .ok m

theorem accountById_eq_picked (readable : s.checkReadable = .ok ()) (id : String) :
    s.accountById id = (s.picked? id).mapM s.readBack := by
  rw [accountById, readable, picked?]
  simp only [bind, Except.bind]
  cases (s.accountKey? id).bind fun key => Keyed.get? key s.notes with
  | none => rfl
  | some n =>
    dsimp only
    rw [Option.filter_some]
    split
    · rw [Option.mapM_some]
      rfl
    · rfl

theorem mem_notesOf_of_picked {n : Note} (h : s.picked? id = some n) : n ∈ s.notesOf .account := by
  rw [picked?, Option.filter_eq_some_iff] at h
  obtain ⟨stands, account⟩ := h
  obtain ⟨key, -, stands⟩ := Option.bind_eq_some_iff.mp stands
  exact mem_notesOf.mpr ⟨⟨key, Keyed.mem_of_get? stands⟩, account⟩

theorem mem_notesOf_of_sought {n : Note} (h : s.sought? id = some n) : n ∈ s.notesOf .account :=
  (List.mem_filter.mp (List.mem_of_find?_eq_some h)).1

theorem search_idQuery (sound : s.Sound) (readable : s.checkReadable = .ok ())
    (back : s.AccountsBack) (id : String) :
    s.search .account (some (Query.confined .account (some (Query.idQuery id).write))) =
      (s.sought? id).toList.mapM s.readBack := by
  obtain ⟨found, mapped⟩ := exists_mapM_ok_iff.mpr back
  have kept : ∀ n ∈ s.notesOf .account, ∀ m, s.readBack n = .ok m →
      (Query.confinedFormula .account (some (Query.idQuery id))).holds m =
        (((n.item? "Form").getD []).contains (.text EntryClass.account.form) && n.id == some id) := by
    intro n _ m read
    rw [Query.holds_idQuery, id_readBack read]
    congr 1
    rw [Bool.eq_iff_iff, List.contains_iff_mem, List.contains_iff_mem, ← Note.mem_texts_iff,
      ← Note.mem_texts_iff, texts_readBack read]
  have single : ((s.notesOf .account).filter fun n =>
      ((n.item? "Form").getD []).contains (.text EntryClass.account.form) && n.id == some id) =
        (s.sought? id).toList := by
    have apart : (s.formed .account).Pairwise fun n m =>
        ¬ ((n.id == some id) = true ∧ (m.id == some id) = true) := by
      refine (List.Pairwise.filter _ (sound.pairwise_notesOf .account)).imp ?_
      rintro a b apart ⟨first, second⟩
      exact apart ((eq_of_beq first).trans (eq_of_beq second).symm)
    rw [sought?, ← filter_eq_toList_find? apart, formed, List.filter_filter]
    exact List.filter_congr fun n _ => Bool.and_comm _ _
  have part := mapM_filter_ok kept mapped
  rw [single] at part
  rw [search, Query.read_idQuery, ofClass, readable]
  simp only [bind, Except.bind]
  rw [← notesOf, mapped, part]
  rfl

theorem eq_serialization_of_readBack {n : Note} {fault : Fault} (h : s.readBack n = .error fault) :
    fault = .serialization := by
  rw [readBack] at h
  split at h
  · cases h
  · split at h <;> cases h
    rfl

theorem eq_serialization_of_ofClass (readable : s.checkReadable = .ok ()) {kind : EntryClass}
    {fault : Fault} (h : s.ofClass kind = .error fault) : fault = .serialization := by
  rw [ofClass, readable] at h
  change (s.notesOf kind).mapM s.readBack = .error fault at h
  generalize s.notesOf kind = notes at h
  induction notes with
  | nil => cases h
  | cons n ns ih =>
    rw [List.mapM_cons] at h
    rcases bind_eq_error h with first | ⟨_, _, h⟩
    · exact eq_serialization_of_readBack first
    · rcases bind_eq_error h with rest | ⟨_, _, made⟩
      · exact ih rest
      · cases made

theorem search_of_not_accountsBack (readable : s.checkReadable = .ok ()) (back : ¬ s.AccountsBack)
    (id : String) :
    s.search .account (some (Query.confined .account (some (Query.idQuery id).write))) =
      .error .serialization := by
  rw [search, Query.read_idQuery]
  cases read : s.ofClass .account with
  | error fault =>
    rw [eq_serialization_of_ofClass readable read]
    rfl
  | ok accounts =>
    obtain ⟨_, -, mapped⟩ := bind_eq_ok read
    exact absurd (exists_mapM_ok_iff.mp ⟨accounts, mapped⟩) back

theorem eq_serialization_of_groupsOf (readable : s.checkReadable = .ok ()) {name : CanonicalName}
    {fault : Fault} (h : s.groupsOf name = .error fault) : fault = .serialization := by
  rw [groupsOf, search, Membership.read_queryFor] at h
  rcases bind_eq_error h with found | ⟨_, _, made⟩
  · rcases bind_eq_error found with read | ⟨_, _, found⟩
    · cases read
    · rcases bind_eq_error found with groups | ⟨_, _, made⟩
      · exact eq_serialization_of_ofClass readable groups
      · cases made
  · cases made

end Store

namespace Reading

variable {s : Store} {selection : Selection} {id : String}

def shownOf (s : Store) (selection : Selection) (n : Note) : Except Fault Entry := do
  entryOf s .account selection (← s.readBack n)

/-- The account is there and cannot be shown. -/
def Hidden (s : Store) (selection : Selection) (found : Option Note) : Prop :=
  ∃ n ∈ found, ∀ e, shownOf s selection n ≠ .ok e

theorem eq_serialization_of_shownOf (readable : s.checkReadable = .ok ()) {n : Note}
    (hid : n.id = some id) {fault : Fault} (h : shownOf s selection n = .error fault) :
    fault = .serialization := by
  rcases bind_eq_error h with lost | ⟨m, back, h⟩
  · exact Store.eq_serialization_of_readBack lost
  · rcases bind_eq_error h with plain | ⟨e, _, h⟩
    · rw [Entry.ofNote, Store.id_readBack back, hid] at plain
      cases plain
    · change withGroups s selection m e = .error fault at h
      rw [withGroups] at h
      split at h
      · rcases bind_eq_error h with groups | ⟨_, _, made⟩
        · rw [groupsOf] at groups
          split at groups
          · cases groups
          · split at groups
            · cases groups
            · exact Store.eq_serialization_of_groupsOf readable groups
        · cases made
      · cases h

theorem uid_of_shownOf {n : Note} {e : Entry} (hid : n.id = some id)
    (h : shownOf s selection n = .ok e) : e.uid = id := by
  obtain ⟨m, back, h⟩ := bind_eq_ok h
  exact uid_of_entryOf h ((Store.id_readBack back).trans hid)

theorem mapM_shownOf (selection : Selection) (sound : s.Sound)
    (readable : s.checkReadable = .ok ()) {found : Option Note}
    (h : ∀ n ∈ found, n ∈ s.notesOf .account) :
    Hidden s selection found ∧ found.toList.mapM (shownOf s selection) = .error .serialization ∨
      ¬ Hidden s selection found ∧ ∃ es, found.toList.mapM (shownOf s selection) = .ok es ∧
        es.map (fun e => some e.uid) = found.toList.map (·.id) := by
  cases found with
  | none =>
    refine Or.inr ⟨?_, [], rfl, rfl⟩
    rintro ⟨n, vacant, -⟩
    cases vacant
  | some n =>
    obtain ⟨id, hid, -⟩ := sound.get?_of_mem_notesOf (h n rfl)
    rw [Option.toList_some, List.mapM_cons, List.mapM_nil]
    cases shown : shownOf s selection n with
    | error fault =>
      obtain rfl := eq_serialization_of_shownOf readable hid shown
      refine Or.inl ⟨⟨n, rfl, fun e other => ?_⟩, rfl⟩
      rw [shown] at other
      cases other
    | ok e =>
      refine Or.inr ⟨?_, [e], rfl, ?_⟩
      · rintro ⟨m, same, hidden⟩
        cases same
        exact hidden e shown
      · rw [List.map_singleton, List.map_singleton, uid_of_shownOf hid shown, hid]

theorem mapM_shownOf_eq_iff (sound : s.Sound) (readable : s.checkReadable = .ok ())
    {found found' : Option Note} (h : ∀ n ∈ found, n ∈ s.notesOf .account)
    (h' : ∀ n ∈ found', n ∈ s.notesOf .account) :
    found.toList.mapM (shownOf s selection) = found'.toList.mapM (shownOf s selection) ↔
      found = found' ∨ Hidden s selection found ∧ Hidden s selection found' := by
  rcases mapM_shownOf selection sound readable h with
    ⟨hidden, failed⟩ | ⟨seen, es, made, ids⟩ <;>
    rcases mapM_shownOf selection sound readable h' with
      ⟨hidden', failed'⟩ | ⟨seen', es', made', ids'⟩
  · exact iff_of_true (failed.trans failed'.symm) (Or.inr ⟨hidden, hidden'⟩)
  · rw [failed, made']
    refine iff_of_false (fun same => by cases same) ?_
    rintro (rfl | ⟨-, other⟩)
    · exact seen' hidden
    · exact seen' other
  · rw [made, failed']
    refine iff_of_false (fun same => by cases same) ?_
    rintro (rfl | ⟨other, -⟩)
    · exact seen hidden'
    · exact seen other
  · constructor
    · intro same
      rw [made, made', Except.ok.injEq] at same
      rw [same, ids'] at ids
      left
      cases found with
      | none =>
        cases found' with
        | none => rfl
        | some m => cases ids
      | some n =>
        cases found' with
        | none => cases ids
        | some m => rw [sound.eq_of_id (h n rfl) (h' m rfl) (List.cons.inj ids).1.symm]
    · rintro (rfl | ⟨hidden, -⟩)
      · rfl
      · exact absurd hidden seen

/-- A search that asks the query and never takes the lookup. -/
def scan (rules : SearchRules) (filter : Filter) (selection : Selection) (limit : Option Nat) :
    Action (List Entry) := do
  let query ← Query.ofFilter rules .account filter
  Directory.acquire
  Directory.read fun s => do
    let notes ← s.search .account (some (Query.confined .account (query.map Query.write)))
    (limited limit notes).mapM (entryOf s .account selection)

/-- The lookup of an id and the query for it come out alike: all accounts come back and both find the
same one or none, or both fail. -/
def Agree (s : Store) (selection : Selection) (id : String) : Prop :=
  s.AccountsBack ∧ s.picked? id = s.sought? id ∨
    Hidden s selection (s.picked? id) ∧ (¬ s.AccountsBack ∨ Hidden s selection (s.sought? id))

/-- In memory everything comes back and every account is shown, so only what is found counts. -/
theorem agree_iff (hm : s.backing = .memory) (sound : s.Sound) :
    Agree s selection id ↔ s.picked? id = s.sought? id := by
  have same : ∀ n, s.readBack n = .ok n := by
    intro n
    rw [Store.readBack, hm]
  have seen : ∀ found : Option Note, (∀ n ∈ found, n ∈ s.notesOf .account) →
      ¬ Hidden s selection found := by
    rintro found account ⟨n, hn, hidden⟩
    obtain ⟨_, hid, -⟩ := sound.get?_of_mem_notesOf (account n hn)
    obtain ⟨e, shown⟩ : ∃ e, entryOf s .account selection n = .ok e :=
      (exists_entryOf_iff hm hid).mpr fun other => by cases other
    refine hidden e ?_
    rw [shownOf, same]
    exact shown
  have picked := seen (s.picked? id) fun n hn => Store.mem_notesOf_of_picked hn
  have back : s.AccountsBack := fun n _ => ⟨n, same n⟩
  simp [Agree, back, picked]

theorem limited_toList (limit : Option Nat) (found : Option Note) :
    limited limit found.toList = found.toList := by
  cases limit with
  | none => rfl
  | some most =>
    refine List.take_of_length_le ?_
    cases found with
    | none => exact Nat.zero_le _
    | some n => exact Nat.le_max_right most 1

theorem mapM_readBack_entryOf (limit : Option Nat) (found : Option Note) :
    (do
      let notes ← found.toList.mapM s.readBack
      (limited limit notes).mapM (entryOf s .account selection)) =
        found.toList.mapM (shownOf s selection) := by
  cases found with
  | none => exact congrArg (List.mapM (entryOf s .account selection)) (limited_toList limit none)
  | some n =>
    rw [Option.toList_some, List.mapM_cons, List.mapM_cons, List.mapM_nil, List.mapM_nil, shownOf]
    cases s.readBack n with
    | error fault => rfl
    | ok m =>
      simp only [bind, Except.bind, pure, Except.pure]
      rw [← Option.toList_some, limited_toList, Option.toList_some, List.mapM_cons, List.mapM_nil]
      rfl

theorem search_of_directId? {rules : SearchRules} {filter : Filter} {q : Query} {d d' : Directory}
    (compiled : Query.ofFilter rules .account filter = .ok (some q))
    (direct : Query.directId? q.write = some id) (reached : Directory.acquire d = .ok () d')
    (readable : d'.store.checkReadable = .ok ()) (limit : Option Nat) :
    search rules .account (some filter) selection limit d =
      Directory.read (fun s => (s.picked? id).toList.mapM (shownOf s selection)) d' := by
  have found : found d'.store .account (some q.write) =
      (d'.store.picked? id).toList.mapM d'.store.readBack := by
    simp only [Reading.found, Option.bind_some, direct, Store.accountById_eq_picked readable]
    cases d'.store.picked? id with
    | none => rfl
    | some n =>
      rw [Option.mapM_some, Option.toList_some, List.mapM_cons, List.mapM_nil]
      cases d'.store.readBack n <;> rfl
  have run : search rules .account (some filter) selection limit d =
      Directory.read (fun s => do
        (limited limit (← Reading.found s .account (some q.write))).mapM
          (entryOf s .account selection)) d' := by
    have lifted : (liftM (Except.ok (some q) : Except Fault (Option Query)) :
        Action (Option Query)) d = .ok (some q) d := Action.lift_ok_iff.mpr ⟨rfl, rfl⟩
    simp only [search, compiled, Action.bind_apply, lifted, pure, EStateM.pure, reached,
      Option.map_some]
  rw [run, Action.read_apply, Action.read_apply, found, mapM_readBack_entryOf]

theorem scan_of_directId? {rules : SearchRules} {filter : Filter} {q : Query} {d d' : Directory}
    (compiled : Query.ofFilter rules .account filter = .ok (some q))
    (direct : Query.directId? q.write = some id) (reached : Directory.acquire d = .ok () d')
    (limit : Option Nat) :
    scan rules filter selection limit d =
      Directory.read (fun s => do
        let notes ← s.search .account
          (some (Query.confined .account (some (Query.idQuery id).write)))
        (limited limit notes).mapM (entryOf s .account selection)) d' := by
  have lifted : (liftM (Except.ok (some q) : Except Fault (Option Query)) :
      Action (Option Query)) d = .ok (some q) d := Action.lift_ok_iff.mpr ⟨rfl, rfl⟩
  simp only [scan, compiled, Action.bind_apply, lifted, reached, Option.map_some,
    Query.write_of_directId? direct]

/-- The lookup by id stands in for the query exactly where the two agree. -/
theorem search_eq_scan_iff {rules : SearchRules} {filter : Filter} {q : Query} {d d' : Directory}
    (compiled : Query.ofFilter rules .account filter = .ok (some q))
    (direct : Query.directId? q.write = some id) (sound : d.store.Sound)
    (reached : Directory.acquire d = .ok () d') (selection : Selection) (limit : Option Nat) :
    search rules .account (some filter) selection limit d = scan rules filter selection limit d ↔
      Agree d'.store selection id := by
  obtain ⟨rfl, -, isOpen⟩ := Action.acquire_ok reached
  have sound := Action.sound_acquired sound
  have readable : (Action.acquired d).store.checkReadable = .ok () := by
    rw [Store.checkReadable, isOpen]
    split <;> rfl
  generalize Action.acquired d = d' at *
  have picked : ∀ n ∈ d'.store.picked? id, n ∈ d'.store.notesOf .account :=
    fun n hn => Store.mem_notesOf_of_picked hn
  have sought : ∀ n ∈ d'.store.sought? id, n ∈ d'.store.notesOf .account :=
    fun n hn => Store.mem_notesOf_of_sought hn
  rw [search_of_directId? compiled direct reached readable, scan_of_directId? compiled direct reached,
    Action.read_eq_iff, Agree]
  by_cases back : d'.store.AccountsBack
  · rw [Store.search_idQuery sound readable back, mapM_readBack_entryOf,
      mapM_shownOf_eq_iff sound readable picked sought]
    simp [back]
  · rw [Store.search_of_not_accountsBack readable back]
    rcases mapM_shownOf selection sound readable picked with
      ⟨hidden, failed⟩ | ⟨seen, es, made, -⟩
    · rw [failed]
      exact iff_of_true rfl (Or.inr ⟨hidden, Or.inl back⟩)
    · rw [made]
      refine iff_of_false (fun same => by cases same) ?_
      rintro (⟨other, -⟩ | ⟨hidden, -⟩)
      · exact back other
      · exact seen hidden

def capitalNotes : Keyed Note :=
  [("AB", { id := some "AB",
            items := [("Form", [.text "Person"]), ("FullName", [.text "CN=Ann Lee/O=Acme"])] })]

def capitalDirectory : Directory := { store := { notes := capitalNotes } }

theorem sound_capitalNotes {s : Store} (h : s.notes = capitalNotes) : s.Sound where
  sorted := by
    rw [h]
    decide
  ids := by
    rw [h]
    decide

theorem acquire_capitalDirectory :
    Directory.acquire capitalDirectory = .ok () (Action.acquired capitalDirectory) :=
  Action.acquire_of_live rfl

theorem search_eq_scan_iff_sample :
    search {} .account (some (.equals "__UID__" [.text "AB"])) ⟨[]⟩ none capitalDirectory =
        scan {} (.equals "__UID__" [.text "AB"]) ⟨[]⟩ none capitalDirectory ∧
      search {} .account (some (.equals "__UID__" [.text "ab"])) ⟨[]⟩ none capitalDirectory ≠
        scan {} (.equals "__UID__" [.text "ab"]) ⟨[]⟩ none capitalDirectory := by
  have compiled : ∀ id ∈ ["AB", "ab"], Query.ofFilter {} .account (.equals "__UID__" [.text id]) =
      .ok (some (Query.idQuery id)) := by
    intro id h
    rcases List.mem_cons.mp h with rfl | h
    · rfl
    · rw [List.mem_singleton.mp h]
      rfl
  have direct : ∀ id ∈ ["AB", "ab"], Query.directId? (Query.idQuery id).write = some id := by
    decide
  have sound : capitalDirectory.store.Sound := sound_capitalNotes rfl
  have kept := Action.sound_acquired sound
  have alike := fun id h => search_eq_scan_iff (compiled id h) (direct id h) sound
    acquire_capitalDirectory ⟨[]⟩ none
  rw [alike "AB" (by decide), Ne, alike "ab" (by decide), agree_iff rfl kept, agree_iff rfl kept]
  decide

/-- The lookup is not only faster: it hands over an account for an id that no account has. -/
theorem not_always_scanned :
    ¬ ∀ rules filter q id d d' selection limit,
      Query.ofFilter rules .account filter = .ok (some q) → Query.directId? q.write = some id →
        d.store.Sound → Directory.acquire d = .ok () d' →
          search rules .account (some filter) selection limit d =
            scan rules filter selection limit d := by
  intro always
  have same := always {} (.equals "__UID__" [.text "ab"]) (Query.idQuery "ab") "ab" _ _ ⟨[]⟩ none rfl
    (by decide) (sound_capitalNotes rfl) acquire_capitalDirectory
  have counts : (Action.value? (search {} .account (some (.equals "__UID__" [.text "ab"])) ⟨[]⟩ none
        capitalDirectory)).map List.length ≠
      (Action.value? (scan {} (.equals "__UID__" [.text "ab"]) ⟨[]⟩ none
        capitalDirectory)).map List.length := by
    decide +kernel
  exact counts (by rw [same])

end Reading

end AddressBook

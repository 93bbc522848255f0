import AddressBook.Proofs.Directory.ReadBack
import AddressBook.Proofs.Note.Items

/-! Stores without the passwords of accounts. What is looked up there is what is looked up in the store,
without the passwords. A table may hold a password that it cannot give back, and then gives back
nothing of the note; in the place of such a password stands another that does not come back. -/

namespace AddressBook

open Text

section

variable {α β γ : Type}

theorem mapM_map_eq {f : α → Except Fault β} {g : α → γ} {f' : γ → Except Fault β} {c : β → β}
    {as : List α} (h : ∀ a ∈ as, f' (g a) = (f a).map c) :
    (as.map g).mapM f' = (as.mapM f).map (List.map c) := by
  induction as with
  | nil => rfl
  | cons a as ih =>
    rw [List.map_cons, List.mapM_cons, List.mapM_cons, h a List.mem_cons_self,
      ih fun b hb => h b (List.mem_cons_of_mem a hb)]
    cases f a with
    | error fault => rfl
    | ok b => cases as.mapM f <;> rfl

theorem mapM_filter {f : α → Option β} {p : α → Bool} {q : β → Bool}
    (h : ∀ a b, f a = some b → q b = p a) (as : List α) :
    as.mapM f = none ∧ ((as.filter p).mapM f = none ∨ (as.filter (!p ·)).mapM f = none) ∨
      ∃ bs, as.mapM f = some bs ∧ (as.filter p).mapM f = some (bs.filter q) ∧
        (as.filter (!p ·)).mapM f = some (bs.filter (!q ·)) := by
  induction as with
  | nil => exact Or.inr ⟨[], rfl, rfl, rfl⟩
  | cons a as ih =>
    cases made : f a with
    | none => cases hp : p a <;> simp [hp, made]
    | some b =>
      have kind := h a b made
      rcases ih with ⟨none, parts⟩ | ⟨bs, whole, first, second⟩
      · left
        cases hp : p a <;> rcases parts with part | part <;> simp [hp, made, none, part]
      · right
        refine ⟨b :: bs, ?_⟩
        cases hp : p a <;> rw [hp] at kind <;> simp [hp, kind, made, whole, first, second]

end

namespace Keyed

variable {α β : Type}

theorem get?_map (g : α → β) (key : String) (entries : Keyed α) :
    get? key (entries.map fun e => (e.1, g e.2)) = (entries.get? key).map g := by
  induction entries with
  | nil => rfl
  | cons entry rest ih =>
    rw [List.map_cons, get?_cons, get?_cons]
    split
    · rfl
    · exact ih

theorem keys_map (g : α → β) (entries : Keyed α) :
    keys (entries.map fun e => (e.1, g e.2)) = keys entries := by
  rw [keys, keys, List.map_map]
  rfl

end Keyed

namespace Note

def isPassword (item : String × List Value) : Bool := sameAscii item.1 "HTTPPassword"

def concealed (n : Note) : Note :=
  if n.isClass .account then { n with items := n.items.filter (!isPassword ·) } else n

def lostPassword : String × List Value := ("HTTPPassword", [.number .nan])

/-- The note of an account without its passwords, or with the one that does not come back. -/
def sealed (given : Bool) (n : Note) : Note :=
  if n.concealed.isClass .account && !given then
    { n.concealed with items := n.concealed.items ++ [lostPassword] }
  else n.concealed

variable {n : Note} {name : String}

theorem item?_eq (n : Note) (name : String) :
    n.item? name = (n.items.find? fun e => sameAscii e.1 name).map Prod.snd := rfl

theorem item?_concealed (h : sameAscii name "HTTPPassword" = false) :
    n.concealed.item? name = n.item? name := by
  have other : ∀ e : String × List Value,
      ((!isPassword e) && sameAscii e.1 name) = sameAscii e.1 name := by
    intro e
    cases same : sameAscii e.1 name with
    | false => rw [Bool.and_false]
    | true => rw [isPassword, sameAscii_congr same, h]; rfl
  rw [concealed]
  split
  · rw [item?_eq, item?_eq, List.find?_filter]
    simp only [Bool.decide_and, Bool.decide_eq_true, other]
  · rfl

theorem id_concealed : n.concealed.id = n.id := by
  rw [concealed]
  split <;> rfl

theorem modified_concealed : n.concealed.modified = n.modified := by
  rw [concealed]
  split <;> rfl

theorem isClass_concealed (kind : EntryClass) : n.concealed.isClass kind = n.isClass kind :=
  isClass_of_item? (item?_concealed (by decide)) kind

theorem item?_sealed (given : Bool) (h : sameAscii name "HTTPPassword" = false) :
    (n.sealed given).item? name = n.item? name := by
  refine Eq.trans ?_ (item?_concealed h)
  rw [sealed]
  split
  · have lost : sameAscii lostPassword.1 name = false := by rw [sameAscii_comm]; exact h
    rw [item?_eq, item?_eq, List.find?_append, List.find?_singleton, lost, if_neg Bool.false_ne_true,
      Option.or_none]
  · rfl

theorem sealed_true : n.sealed true = n.concealed := by
  rw [sealed, Bool.not_true, Bool.and_false]
  rfl

theorem isClass_sealed (given : Bool) (kind : EntryClass) :
    (n.sealed given).isClass kind = n.isClass kind :=
  isClass_of_item? (item?_sealed given (by decide)) kind

theorem concealed_of_not_account (h : n.isClass .account = false) : n.concealed = n := by
  rw [concealed, h]
  rfl

theorem sealed_of_not_account (h : n.isClass .account = false) (given : Bool) :
    n.sealed given = n := by
  rw [sealed, isClass_concealed, h, Bool.false_and, if_neg Bool.false_ne_true,
    concealed_of_not_account h]

theorem concealed_concealed (n : Note) : n.concealed.concealed = n.concealed := by
  rw [concealed, isClass_concealed]
  split
  · next account => simp only [concealed, account, if_true, List.filter_filter, Bool.and_self]
  · rfl

theorem sealed_concealed (given : Bool) (n : Note) : n.concealed.sealed given = n.sealed given := by
  rw [sealed, sealed, concealed_concealed]

theorem isNamed_concealed (name : CanonicalName) : n.concealed.isNamed name = n.isNamed name := by
  rw [isNamed, isNamed, isClass_concealed, text?_congr (item?_concealed (by decide))]

end Note

namespace Store

variable {s t : Store}

def givesPasswords (s : Store) (n : Note) : Bool :=
  (s.readBack { n with items := n.items.filter Note.isPassword }).toOption.isSome

def sealed (s : Store) : Store :=
  { s with notes := s.notes.map fun e => (e.1, e.2.sealed (s.givesPasswords e.2)) }

theorem readBack_of_some (h : s.backing = .sqlite) {n : Note} {items : Keyed (List Note.Value)}
    (through : Note.itemsThroughJson? n.items = some items) : s.readBack n = .ok { n with items } := by
  rw [readBack, h]
  dsimp only
  rw [through]

theorem readBack_of_none (h : s.backing = .sqlite) {n : Note}
    (through : Note.itemsThroughJson? n.items = none) : s.readBack n = .error .serialization := by
  rw [readBack, h]
  dsimp only
  rw [through]

theorem itemsThroughJson?_filter (items : Keyed (List Note.Value)) :
    Note.itemsThroughJson? items = none ∧
        (Note.itemsThroughJson? (items.filter Note.isPassword) = none ∨
          Note.itemsThroughJson? (items.filter (!Note.isPassword ·)) = none) ∨
      ∃ back, Note.itemsThroughJson? items = some back ∧
        Note.itemsThroughJson? (items.filter Note.isPassword) = some (back.filter Note.isPassword) ∧
        Note.itemsThroughJson? (items.filter (!Note.isPassword ·)) =
          some (back.filter (!Note.isPassword ·)) := by
  refine mapM_filter (fun item item' through => ?_) items
  obtain ⟨values, -, rfl⟩ := Option.map_eq_some_iff.mp through
  rfl

theorem itemsThroughJson?_lost (items : Keyed (List Note.Value)) :
    Note.itemsThroughJson? (items ++ [Note.lostPassword]) = none := by
  rw [Note.itemsThroughJson?, List.mapM_append, Option.bind_eq_bind, Option.bind_eq_none_iff]
  intro back _
  rfl

theorem readBack_sealed_false (h : s.backing = .sqlite) {n : Note} (account : n.isClass .account = true) :
    s.readBack (n.sealed false) = .error .serialization := by
  have lost : n.sealed false =
      { n.concealed with items := n.concealed.items ++ [Note.lostPassword] } := by
    rw [Note.sealed, Note.isClass_concealed, account]
    rfl
  rw [lost]
  exact readBack_of_none h (itemsThroughJson?_lost _)

theorem readBack_sealed_account (h : s.backing = .sqlite) {n : Note}
    (account : n.isClass .account = true) :
    s.readBack (n.sealed (s.givesPasswords n)) = (s.readBack n).map Note.concealed := by
  have part : n.concealed.items = n.items.filter (!Note.isPassword ·) := by
    rw [Note.concealed, account]
    rfl
  rcases itemsThroughJson?_filter n.items with ⟨none, parts⟩ | ⟨back, whole, given, others⟩
  · rw [readBack_of_none h none]
    cases given : s.givesPasswords n with
    | false => exact readBack_sealed_false h account
    | true =>
      rcases parts with passwords | others
      · rw [givesPasswords, readBack_of_none h passwords] at given
        cases given
      · rw [Note.sealed_true, readBack_of_none h (by rw [part, others])]
        rfl
  · have gives : s.givesPasswords n = true := by
      rw [givesPasswords, readBack_of_some h given]
      rfl
    have read := readBack_of_some h whole
    have kept : Note.isClass { n with items := back } .account = true := by
      rw [isClass_readBack read, account]
    rw [gives, Note.sealed_true, read, readBack_of_some h (by rw [part, others]), Except.map,
      Note.concealed, Note.concealed, account, kept]
    rfl

theorem readBack_sealed (s : Store) (n : Note) :
    s.sealed.readBack (n.sealed (s.givesPasswords n)) = (s.readBack n).map Note.concealed := by
  change s.readBack _ = _
  cases account : n.isClass .account with
  | false =>
    rw [Note.sealed_of_not_account account]
    cases back : s.readBack n with
    | error fault => rfl
    | ok m =>
      have other : m.isClass .account = false := by rw [isClass_readBack back, account]
      exact congrArg Except.ok (Note.concealed_of_not_account other).symm
  | true =>
    cases backing : s.backing with
    | memory =>
      have given : s.givesPasswords n = true := by
        rw [givesPasswords, readBack, backing]
        rfl
      rw [given, Note.sealed_true, readBack, readBack, backing]
      rfl
    | sqlite => exact readBack_sealed_account backing account

theorem checkReadable_sealed (s : Store) : s.sealed.checkReadable = s.checkReadable := rfl

theorem ofClass_sealed (s : Store) (kind : EntryClass) :
    s.sealed.ofClass kind = (s.ofClass kind).map (List.map Note.concealed) := by
  have all : s.sealed.all = s.all.map fun n => n.sealed (s.givesPasswords n) := by
    rw [Store.all, Store.all, Store.sealed, List.map_map, List.map_map]
    rfl
  have part : s.sealed.all.filter (·.isClass kind) =
      (s.all.filter (·.isClass kind)).map fun n => n.sealed (s.givesPasswords n) := by
    rw [all, List.filter_map]
    congr 2
    funext n
    exact Note.isClass_sealed _ kind
  have each : ((s.all.filter (·.isClass kind)).map fun n => n.sealed (s.givesPasswords n)).mapM
      s.sealed.readBack =
        ((s.all.filter (·.isClass kind)).mapM s.readBack).map (List.map Note.concealed) :=
    mapM_map_eq fun n _ => readBack_sealed s n
  rw [ofClass, ofClass, checkReadable_sealed, part, each]
  cases s.checkReadable <;> rfl

theorem ofClass_group_sealed (s : Store) : s.sealed.ofClass .group = s.ofClass .group := by
  rw [ofClass_sealed]
  cases read : s.ofClass .group with
  | error fault => rfl
  | ok groups =>
    have same : ∀ g ∈ groups, g.concealed = id g := by
      intro g hg
      have group := ((mem_of_ofClass read).1 g hg).1
      refine Note.concealed_of_not_account (Bool.eq_false_iff.mpr fun account => ?_)
      rw [Note.not_isClass_of_isClass account] at group
      cases group
    rw [Except.map, List.map_congr_left same, List.map_id]

theorem groupByAlias_sealed (s : Store) (name : String) :
    s.sealed.groupByAlias name = s.groupByAlias name := by
  rw [groupByAlias, groupByAlias, ofClass_group_sealed]

theorem accountByName_sealed (s : Store) (name : CanonicalName) :
    s.sealed.accountByName name = (s.accountByName name).map (Option.map Note.concealed) := by
  rw [accountByName, accountByName, ofClass_sealed]
  cases s.ofClass .account with
  | error fault => rfl
  | ok accounts =>
    have named : ((fun n : Note => n.isNamed name) ∘ Note.concealed) = fun n => n.isNamed name :=
      funext fun n => Note.isNamed_concealed name
    simp only [Except.map, bind, Except.bind, pure, Except.pure, List.find?_map, named]

theorem form?_sealed (given : Bool) (n : Note) : (n.sealed given).form? = n.form? :=
  Note.text?_congr (Note.item?_sealed given (by decide))

theorem get?_sealed (s : Store) (key : String) :
    Keyed.get? key s.sealed.notes =
      (Keyed.get? key s.notes).map fun n => n.sealed (s.givesPasswords n) :=
  Keyed.get?_map (fun n : Note => n.sealed (s.givesPasswords n)) key s.notes

theorem accountKey?_sealed (s : Store) (id : String) : s.sealed.accountKey? id = s.accountKey? id := by
  have forms : ∀ key, (Keyed.get? key s.sealed.notes).bind Note.form? =
      (Keyed.get? key s.notes).bind Note.form? := by
    intro key
    rw [get?_sealed]
    cases Keyed.get? key s.notes with
    | none => rfl
    | some n => exact form?_sealed _ n
  cases backing : s.backing with
  | memory =>
    have sealed' : s.sealed.backing = .memory := backing
    have keys : s.sealed.notes.keys = s.notes.keys := by
      rw [Store.sealed, Keyed.keys_map (fun n : Note => n.sealed (s.givesPasswords n))]
    rw [accountKey?, accountKey?, backing, sealed', keys]
  | sqlite =>
    have sealed' : s.sealed.backing = .sqlite := backing
    rw [accountKey?, accountKey?, backing, sealed']
    simp only [forms]
    rfl

theorem accountById_sealed (s : Store) (id : String) :
    s.sealed.accountById id = (s.accountById id).map (Option.map Note.concealed) := by
  rw [accountById, accountById, checkReadable_sealed, accountKey?_sealed]
  cases s.checkReadable with
  | error fault => rfl
  | ok u =>
    have kept : ((s.accountKey? id).bind fun key => Keyed.get? key s.sealed.notes) =
        ((s.accountKey? id).bind fun key => Keyed.get? key s.notes).map
          fun n => n.sealed (s.givesPasswords n) := by
      cases s.accountKey? id with
      | none => rfl
      | some key => exact get?_sealed s key
    rw [kept]
    cases ((s.accountKey? id).bind fun key => Keyed.get? key s.notes) with
    | none => rfl
    | some n =>
      simp only [bind, Except.bind, Option.map_some, Note.isClass_sealed, readBack_sealed]
      cases n.isClass .account with
      | false => rfl
      | true => cases s.readBack n <;> rfl

theorem search_sealed (s : Store) (kind : EntryClass) {text : String}
    (ignores : ∀ f, Formula.read text = .ok f → ∀ n : Note, f.holds n.concealed = f.holds n) :
    s.sealed.search kind (some text) =
      (s.search kind (some text)).map (List.map Note.concealed) := by
  rw [search, search]
  cases read : Formula.read text with
  | error fault => rfl
  | ok f =>
    rw [ofClass_sealed]
    cases s.ofClass kind with
    | error fault => rfl
    | ok notes =>
      have holds : f.holds ∘ Note.concealed = f.holds := funext (ignores f read)
      simp only [bind, Except.bind, Except.map, pure, Except.pure, List.filter_map, holds]

theorem search_group_sealed (s : Store) (formula : Option String) :
    s.sealed.search .group formula = s.search .group formula := by
  simp only [search, ofClass_group_sealed]

end Store

end AddressBook

import AddressBook.Proofs.Membership.Moving
import AddressBook.Proofs.Provisioning.Dangling
import AddressBook.Proofs.Provisioning.Listing
import AddressBook.Proofs.Provisioning.Stumbling
import AddressBook.Proofs.Provisioning.Written

/-! The memberships of accounts when a group is renamed or deleted. Groups and accounts stand in one
list of names, and what follows a group goes by its name alone. An account keeps its memberships unless
it has the name of the group, or what the group is called then refers to it. -/

namespace AddressBook

open AddressBook.Action Text

namespace Store

/-- What stands under the id is a group that lists the name. -/
def ListsAt (s : Store) (id : String) (name : CanonicalName) : Prop :=
  ∃ g, s.notes.get? id = some g ∧ g.isClass .group = true ∧ g.hasMember name = true

instance (s : Store) (id : String) (name : CanonicalName) : Decidable (s.ListsAt id name) :=
  decidable_of_iff
    ((s.notes.get? id).any (fun g => g.isClass .group && g.hasMember name) = true)
    (by simp only [ListsAt, Option.any_eq_true, Bool.and_eq_true])

theorem listsAt_congr {s s' : Store} {id : String} {name : CanonicalName}
    (keys : id ∈ s'.notes.keys ↔ id ∈ s.notes.keys)
    (same : ∀ n m, s.notes.get? id = some n → s'.notes.get? id = some m →
      m.isClass .group = n.isClass .group ∧ m.hasMember name = n.hasMember name) :
    s'.ListsAt id name ↔ s.ListsAt id name := by
  constructor
  · rintro ⟨m, hm, group, lists⟩
    obtain ⟨n, hn⟩ := Keyed.exists_get?_of_mem_keys (keys.mp (Keyed.mem_keys_of_get? hm))
    obtain ⟨form, members⟩ := same n m hn hm
    exact ⟨n, hn, form ▸ group, members ▸ lists⟩
  · rintro ⟨n, hn, group, lists⟩
    obtain ⟨m, hm⟩ := Keyed.exists_get?_of_mem_keys (keys.mpr (Keyed.mem_keys_of_get? hn))
    obtain ⟨form, members⟩ := same n m hn hm
    exact ⟨m, hm, form.trans group, members.trans lists⟩

end Store

theorem Directory.listsAt_of_save {n m m' : Note} {id other : String} {name : CanonicalName}
    {d d₁ : Directory} (stands : d.store.notes.get? id = some n) (named : m.id = some id)
    (form : m.isClass .group = n.isClass .group) (members : m.members = n.members)
    (h : Directory.save m d = .ok m' d₁) :
    d₁.store.ListsAt other name ↔ d.store.ListsAt other name := by
  obtain ⟨time, -, notes, -⟩ := Directory.save_ok_of_id named h
  by_cases here : other = id
  · subst here
    have there : d₁.store.notes.get? other = some { m with modified := some time } := by
      simp [notes]
    refine Store.listsAt_congr
      ⟨fun _ => Keyed.mem_keys_of_get? stands, fun _ => Keyed.mem_keys_of_get? there⟩
      fun n' m₁ hn hm => ?_
    rw [stands, Option.some.injEq] at hn
    rw [there, Option.some.injEq] at hm
    subst hn hm
    have listed : Note.members { m with modified := some time } = n.members := members
    exact ⟨form, by rw [Note.hasMember, Note.hasMember, listed]⟩
  · simp [Store.ListsAt, notes, here]

namespace Membership

variable {old new name : CanonicalName} {count : Nat} {d d₁ : Directory}

theorem any_refersTo_withoutOther (apart : name.same old = false) (members : List String) :
    ((withoutMember members old).any fun stored => Name.refersTo stored name) =
      members.any fun stored => Name.refersTo stored name := by
  rw [Bool.eq_iff_iff, List.any_eq_true, List.any_eq_true]
  constructor
  · rintro ⟨m, hm, refers⟩
    exact ⟨m, (List.mem_filter.mp hm).1, refers⟩
  · rintro ⟨m, hm, refers⟩
    refine ⟨m, List.mem_filter.mpr ⟨hm, ?_⟩, refers⟩
    rw [Bool.not_eq_true', Bool.eq_false_iff]
    intro other
    rw [Name.same_of_refersTo refers other] at apart
    cases apart

theorem listsAt_of_renaming (hd : d.Listing) (hn : Name.IsCanonical new.text)
    (hold : name.same old = false) (hnew : Name.refersTo new.text name = false)
    (h : rename old new d = .ok count d₁) (id : String) :
    d₁.store.ListsAt id name ↔ d.store.ListsAt id name := by
  obtain ⟨-, rewritten⟩ := rewritten_of_renaming hd.sound (Store.faithful_of_memory hd.memory) h
  refine Store.listsAt_congr (by rw [rewritten.keys]) fun n m hget hget' => ?_
  refine ⟨Note.isClass_congr (rewritten.sameBesideMembers hget hget') .group, ?_⟩
  have canonical : ∀ s ∈ n.members, Name.IsCanonical s :=
    (hd.notes _ (Keyed.mem_of_get? hget)).isCanonical
  rw [Note.hasMember, rewritten.members_eq hd.sound hget hget']
  split
  · exact any_refersTo_renamed canonical hn hold hnew
  · rfl

end Membership

namespace Group

open Provisioning

variable {uid given : String} {how : UpdateKind} {d d₁ : Directory}

def nameOnly (given : String) : Attributes := [(Schema.nameAttribute, [.text given])]

theorem listsCanonical_renamedNote {g : Note} (h : g.ListsCanonical) (aliases : Option (List String)) :
    (renamedNote g aliases).ListsCanonical := by
  cases aliases with
  | none => exact h
  | some aliases =>
    unfold renamedNote
    dsimp only
    split
    · exact h
    · exact h.setItem (by decide) _

theorem request_nameOnly {request : Request}
    (h : Request.ofAttributes (nameOnly given) = .ok request) :
    request = ⟨some (Alias.split given), none, none, none, []⟩ ∧ Alias.split given ≠ [] := by
  rw [Request.ofAttributes] at h
  obtain ⟨aliases, found, h⟩ := bind_eq_ok h
  obtain ⟨rfl, solid⟩ := someAliases_ok found
  cases h
  exact ⟨rfl, solid⟩

theorem updatedNote_nameOnly {n n' : Note} {request : Request} {changed : Bool}
    {members : Option (List CanonicalName)}
    (asked : Request.ofAttributes (nameOnly given) = .ok request)
    (hm : request.memberNames = .ok members)
    (h : updatedNote n request members how = .ok (changed, n')) :
    n' = renamedNote n (some (Alias.split given)) := by
  obtain ⟨rfl, -⟩ := request_nameOnly asked
  cases hm
  obtain ⟨_, _, n₂, updated, rfl, -⟩ := updatedNote_ok h
  cases updated
  rfl

theorem displayName_of_nameOnly {g m : Note} {d d₀ : Directory}
    (asked : Request.ofAttributes (nameOnly given) =
      .ok ⟨some (Alias.split given), none, none, none, []⟩) (solid : Alias.split given ≠ [])
    (checked : checkAliases g (some (Alias.split given)) d = .ok true d₀)
    (items : m.items = (renamedNote g (some (Alias.split given))).items) :
    m.displayName = Alias.display given := by
  rw [Note.displayName, Note.aliases_of_items items, renamedNote]
  split
  · next already =>
    -- The same aliases give no other name to go by.
    have known := sameName_of_sameAll already solid
    rw [checkAliases, checkRename, Note.displayName, if_pos known] at checked
    cases (pure_ok_iff.mp checked).1
  · rw [Note.aliases, Note.texts_setTexts, splitAll_aliases asked rfl]
    rfl

/-- A renamed group lists the members that it listed. -/
theorem listsAt_of_save_renamedNote {d₀ d₂ : Directory} {g m : Note} {id : String}
    {aliases : Option (List String)} {changed : Bool} (hd : d₀.Listing)
    (stands : d₀.store.notes.get? id = some g)
    (saved : (if changed then Directory.save (renamedNote g aliases)
      else pure (renamedNote g aliases)) d₀ = .ok m d₂) :
    d₂.Listing ∧ m.items = (renamedNote g aliases).items ∧
      ∀ other name, d₂.store.ListsAt other name ↔ d₀.store.ListsAt other name := by
  cases changed with
  | false =>
    obtain ⟨rfl, rfl⟩ := pure_ok_iff.mp saved
    exact ⟨hd, rfl, fun _ _ => Iff.rfl⟩
  | true =>
    have sameForm : Note.SameItem "Form" (renamedNote g aliases) g :=
      sameItem_renamedNote (by decide) g _
    have sameMembers : Note.SameItem "Members" (renamedNote g aliases) g :=
      sameItem_renamedNote (by decide) g _
    have named := sameForm.1.trans (hd.sound.id_of_get? stands)
    have lists : (renamedNote g aliases).ListsCanonical :=
      listsCanonical_renamedNote (hd.notes _ (Keyed.mem_of_get? stands)) aliases
    obtain ⟨listing, -, items⟩ :=
      (Directory.Listing.enduring.keeps_save ⟨lists, id, named, trivial⟩).ok hd saved
    refine ⟨listing, items, fun other name => Directory.listsAt_of_save stands named
      (Note.isClass_of_item? sameForm.2 .group) ?_ saved⟩
    rw [Note.members, Note.members, Note.texts_congr sameMembers.2]

/-- A renaming of a group leaves the memberships of every name that is neither that of the group nor
what it is called then. -/
theorem listsAt_of_update (hd : d.Listing) (h : update uid (nameOnly given) how d = .ok uid' d₁) :
    ∃ g, find .group uid d.store = .ok (some g) ∧ ∀ name : CanonicalName,
      (∀ old, Name.canonicalize g.displayName = .ok old → name.same old = false) →
      (∀ new, Name.canonicalize (Alias.display given) = .ok new →
        Name.refersTo new.text name = false) →
      ∀ id, d₁.store.ListsAt id name ↔ d.store.ListsAt id name := by
  obtain ⟨g, request, members, renamed, changed, g', m, d₀, d₂, reached, found, asked, hm, checked,
    updated, saved, follows⟩ := update_ok h
  have alike := alike_of_acquire reached hd.lasting
  have hd₀ := hd.alike alike
  obtain ⟨id, stands, -⟩ := (Store.groupByAlias_eq_some_iff hd₀.sound hd₀.memory).mp found
  have hid := hd₀.sound.id_of_get? stands
  obtain rfl := updatedNote_nameOnly asked hm updated
  obtain ⟨rfl, solid⟩ := request_nameOnly asked
  obtain ⟨listing, items, lists⟩ := listsAt_of_save_renamedNote hd₀ stands saved
  refine ⟨g, ?_, fun name hold hnew other => ?_⟩
  · rw [← find_congr hd.memory hd₀.memory alike.notes]
    exact found
  have before : d₀.store.ListsAt other name ↔ d.store.ListsAt other name := by
    rw [Store.ListsAt, Store.ListsAt, alike.notes]
  obtain ⟨-, rfl | ⟨rfl, old, new, count, left, taken, renames⟩⟩ := follow_ok follows
  · exact (lists other name).trans before
  · have called := displayName_of_nameOnly asked solid checked items
    rw [called] at taken
    have moved := Membership.listsAt_of_renaming listing ⟨_, taken⟩ (hold old left)
      (hnew new taken) renames other
    exact (moved.trans (lists other name)).trans before

theorem listsAt_of_delete (hd : d.InMemory) (h : delete uid d = .ok () d₁) :
    ∃ g, find .group uid d.store = .ok (some g) ∧ ∀ name : CanonicalName,
      (∀ old, Name.canonicalize g.displayName = .ok old → name.same old = false) →
      ∀ id, g.id ≠ some id → (d₁.store.ListsAt id name ↔ d.store.ListsAt id name) := by
  obtain ⟨g, gone, old, found, stands, -, read, dissolved⟩ := delete_ok hd h
  have named := hd.sound.id_of_get? stands
  refine ⟨g, found, fun name hold id different => ?_⟩
  have other : id ≠ gone := by
    rintro rfl
    exact different named
  refine Store.listsAt_congr ?_ fun n m hn hm => ?_
  · rw [dissolved.keys]
    exact and_iff_right other
  · refine ⟨Note.isClass_congr (dissolved.items id n m hn hm) .group, ?_⟩
    rw [Note.hasMember, dissolved.members id n m hn hm]
    split
    · exact Membership.any_refersTo_withoutOther (hold old read) n.members
    · rfl

end Group

namespace Run

open Provisioning

variable {start d d₀ : Directory} {steps : List Step}

/-- After any run of calls, the groups that list an account are the same before and after a group is
renamed, unless the account has the name by which the group went or what it is called then refers to
the account; and other groups are the same when a group is deleted, unless the account has the name by
which it went. -/
theorem memberships_kept (hs : start.Empty) (run : Run start steps d) (continues : d.Continues d₀) :
    (∀ uid given how uid' d₁, Group.update uid (Group.nameOnly given) how d₀ = .ok uid' d₁ →
      ∃ g, find .group uid d₀.store = .ok (some g) ∧
        ∀ a ∈ d₀.store.notesOf .account, ∀ name, Account.storedName a = .ok name →
          (∀ old, Name.canonicalize g.displayName = .ok old → name.same old = false) →
          (∀ new, Name.canonicalize (Alias.display given) = .ok new →
            Name.refersTo new.text name = false) →
          ∀ id, d₁.store.ListsAt id name ↔ d₀.store.ListsAt id name) ∧
      ∀ uid d₁, Group.delete uid d₀ = .ok () d₁ →
        ∃ g, find .group uid d₀.store = .ok (some g) ∧
          ∀ a ∈ d₀.store.notesOf .account, ∀ name, Account.storedName a = .ok name →
            (∀ old, Name.canonicalize g.displayName = .ok old → name.same old = false) →
            ∀ id, g.id ≠ some id → (d₁.store.ListsAt id name ↔ d₀.store.ListsAt id name) := by
  have listing := (run.listing hs).continues continues
  refine ⟨fun uid given how uid' d₁ h => ?_, fun uid d₁ h => ?_⟩
  · obtain ⟨g, found, same⟩ := Group.listsAt_of_update listing h
    exact ⟨g, found, fun _ _ name _ => same name⟩
  · obtain ⟨g, found, same⟩ := Group.listsAt_of_delete listing.toInMemory h
    exact ⟨g, found, fun _ _ name _ => same name⟩

/-! An account without an organization, beside a group that lists a group and an account. -/

def createSeller (name : String) : Step :=
  ⟨{ (createEverybody "Sales").after with supply := { ids := ["C3"] } }, {},
    .create .account [("__NAME__", [.text name])]⟩

def sellerNote (name : String) : Note := ((createSeller name).after.store.notes.get? "C3").getD {}

theorem run_createSeller (name : String) :
    Run {} [createSales, createEverybody "Sales", createSeller name] (createSeller name).after := by
  have unused : (createEverybody "Sales").after.store.Unused "C3" :=
    ⟨by decide, by decide⟩
  exact .step (run_createEverybody "Sales") ⟨⟨rfl, rfl, rfl⟩, unused.alphanumeric, unused.fresh⟩

/-- An account and a group of one name: the account leaves the other group when the group is
deleted. -/
theorem not_always_memberships_kept :
    ¬ ∀ start d d₀ steps, start.Empty → Run start steps d → d.Continues d₀ →
      (∀ uid given how uid' d₁, Group.update uid (Group.nameOnly given) how d₀ = .ok uid' d₁ →
        ∀ a ∈ d₀.store.notesOf .account, ∀ name, Account.storedName a = .ok name →
          ∀ id, d₁.store.ListsAt id name ↔ d₀.store.ListsAt id name) ∧
        ∀ uid d₁ g, Group.delete uid d₀ = .ok () d₁ →
          find .group uid d₀.store = .ok (some g) →
            ∀ a ∈ d₀.store.notesOf .account, ∀ name, Account.storedName a = .ok name →
              ∀ id, g.id ≠ some id → (d₁.store.ListsAt id name ↔ d₀.store.ListsAt id name) := by
  intro always
  have runs : isOk (Group.delete "Sales" (createSeller "Sales").after) = true ∧
      (find .group "Sales" (createSeller "Sales").after.store).toOption = some (some salesNote) ∧
      (Account.storedName (sellerNote "Sales")).toOption = some ⟨"Sales"⟩ ∧
      sellerNote "Sales" ∈ (createSeller "Sales").after.store.notesOf .account ∧
      salesNote.id ≠ some "B2" ∧
      (createSeller "Sales").after.store.ListsAt "B2" ⟨"Sales"⟩ ∧
      ¬ (ended (Group.delete "Sales") (createSeller "Sales").after).store.ListsAt "B2" ⟨"Sales"⟩ := by
    decide +kernel
  obtain ⟨deletes, found, named, listed, other, lists, left⟩ := runs
  obtain ⟨⟨⟩, run⟩ := ok_ended deletes
  have same := (always _ _ _ _ ⟨rfl, rfl, rfl⟩ (run_createSeller "Sales") (.refl _)).2 _ _ _ run
    (eq_ok_of_toOption found) _ listed _ (eq_ok_of_toOption named) "B2" other
  exact left (same.mpr lists)

theorem memberships_kept_sample :
    Directory.Empty {} ∧
      Run {} [createSales, createEverybody "Sales", createSeller "Bob"] (createSeller "Bob").after ∧
      sellerNote "Bob" ∈ (createSeller "Bob").after.store.notesOf .account ∧
      Account.storedName (sellerNote "Bob") = .ok ⟨"Bob"⟩ ∧
      (createSeller "Bob").after.store.ListsAt "B2" ⟨"Bob"⟩ ∧
      (∃ uid d₁, Group.update "Sales" (Group.nameOnly "Sellers") .replace (createSeller "Bob").after =
        .ok uid d₁ ∧ d₁.store.ListsAt "B2" ⟨"Bob"⟩) ∧
      ∃ d₁, Group.delete "Sales" (createSeller "Bob").after = .ok () d₁ ∧
        d₁.store.ListsAt "B2" ⟨"Bob"⟩ := by
  have runs : isOk (Group.update "Sales" (Group.nameOnly "Sellers") .replace
        (createSeller "Bob").after) = true ∧
      isOk (Group.delete "Sales" (createSeller "Bob").after) = true ∧
      (find .group "Sales" (createSeller "Bob").after.store).toOption = some (some salesNote) ∧
      (Account.storedName (sellerNote "Bob")).toOption = some ⟨"Bob"⟩ ∧
      sellerNote "Bob" ∈ (createSeller "Bob").after.store.notesOf .account ∧
      (createSeller "Bob").after.store.ListsAt "B2" ⟨"Bob"⟩ := by
    decide +kernel
  obtain ⟨updates, deletes, found, named, listed, lists⟩ := runs
  have apart : (Name.canonicalize salesNote.displayName).toOption = some ⟨"Sales"⟩ ∧
      (Name.canonicalize (Alias.display "Sellers")).toOption = some ⟨"Sellers"⟩ ∧
      CanonicalName.same ⟨"Bob"⟩ ⟨"Sales"⟩ = false ∧ Name.refersTo "Sellers" ⟨"Bob"⟩ = false ∧
      salesNote.id ≠ some "B2" := by
    decide
  obtain ⟨left, taken, different, silent, other⟩ := apart
  have hold : ∀ old, Name.canonicalize salesNote.displayName = .ok old →
      CanonicalName.same ⟨"Bob"⟩ old = false := by
    intro old read
    rw [eq_ok_of_toOption left] at read
    cases read
    exact different
  have hnew : ∀ new, Name.canonicalize (Alias.display "Sellers") = .ok new →
      Name.refersTo new.text ⟨"Bob"⟩ = false := by
    intro new read
    rw [eq_ok_of_toOption taken] at read
    cases read
    exact silent
  obtain ⟨uid, renamed⟩ := ok_ended updates
  obtain ⟨⟨⟩, deleted⟩ := ok_ended deletes
  obtain ⟨renames, deletions⟩ := memberships_kept ⟨rfl, rfl, rfl⟩ (run_createSeller "Bob") (.refl _)
  obtain ⟨g, hg, keeps⟩ := renames _ _ _ _ _ renamed
  obtain ⟨g', hg', keeps'⟩ := deletions _ _ deleted
  rw [eq_ok_of_toOption found, Except.ok.injEq, Option.some.injEq] at hg hg'
  subst hg hg'
  have name := eq_ok_of_toOption named
  exact ⟨⟨rfl, rfl, rfl⟩, run_createSeller "Bob", listed, name, lists,
    ⟨uid, _, renamed, (keeps _ listed _ name hold hnew "B2").mpr lists⟩,
    _, deleted, (keeps' _ listed _ name hold "B2" other).mpr lists⟩

end Run

end AddressBook

import AddressBook.Proofs.Membership.Edited
import AddressBook.Proofs.Membership.Frame
import AddressBook.Proofs.Provisioning.Items
import AddressBook.Proofs.Text.Trimming
import AddressBook.Provisioning.Group

/-! What creating, updating and deleting groups does to notes, and where it leads. -/

namespace AddressBook.Group

open Provisioning Text

theorem splitAll_of_mem_split {aliases : List String}
    (h : ∀ a ∈ aliases, ∃ text, a ∈ Alias.split text) : Alias.splitAll aliases = aliases := by
  rw [Alias.splitAll]
  induction aliases with
  | nil => rfl
  | cons a as ih =>
    obtain ⟨text, ha⟩ := h a List.mem_cons_self
    have alone : Alias.split a = [a] := list_of_mem_list ha
    rw [List.flatMap_cons, alone, ih fun b hb => h b (List.mem_cons_of_mem a hb)]
    rfl

theorem split_join_of_mem_split {aliases : List String}
    (h : ∀ a ∈ aliases, ∃ text, a ∈ Alias.split text) :
    Alias.split (Alias.join aliases) = aliases := by
  cases aliases with
  | nil => rfl
  | cons first others =>
    have piece : ∀ a ∈ first :: others, trim a = a ∧ a ≠ "" ∧
        ∀ c ∈ a.toList, (c == ';') = false := by
      intro a ha
      obtain ⟨text, hmem⟩ := h a ha
      exact mem_list hmem
    have cut : splitOn ';' (join ";" (first :: others)) = first :: others :=
      splitOn_join (List.cons_ne_nil _ _) fun a ha => (piece a ha).2.2
    have trimmed : (first :: others).map trim = first :: others :=
      (List.map_congr_left fun a ha => (piece a ha).1).trans (List.map_id _)
    rw [Alias.split, Alias.join, list, cut, trimmed]
    exact List.filter_eq_self.mpr fun a ha => by simpa using (piece a ha).2.1

theorem split_join_aliases (n : Note) : Alias.split (Alias.join n.aliases) = n.aliases := by
  refine split_join_of_mem_split fun a ha => ?_
  obtain ⟨text, _, hmem⟩ := List.mem_flatMap.mp ha
  exact ⟨text, hmem⟩

theorem someAliases_ok {aliases : List String} {found : Option (List String)}
    (h : someAliases aliases = .ok found) : found = some aliases ∧ aliases ≠ [] := by
  rw [someAliases] at h
  split at h
  · cases h
  · next solid =>
    cases h
    exact ⟨rfl, fun none => solid (by simp [none])⟩

theorem requestedAliases_ok {name : Option String} {listNames : Option (List String)}
    {aliases : List String} (h : requestedAliases name listNames = .ok (some aliases)) :
    aliases ≠ [] ∧
      ∀ a ∈ aliases, ∃ text, (name = some text ∨ text ∈ listNames.getD []) ∧
        a ∈ Alias.split text := by
  cases name with
  | some text =>
    have named : ∀ {found}, someAliases (Alias.split text) = .ok found → found = some aliases →
        aliases ≠ [] ∧ ∀ a ∈ aliases, ∃ t, (some text = some t ∨ t ∈ listNames.getD []) ∧
          a ∈ Alias.split t := by
      rintro found hs rfl
      obtain ⟨same, solid⟩ := someAliases_ok hs
      cases same
      exact ⟨solid, fun a ha => ⟨text, Or.inl rfl, ha⟩⟩
    cases listNames with
    | none => exact named h rfl
    | some texts =>
      simp only [requestedAliases, Option.map_some] at h
      split at h
      · exact named h rfl
      · cases h
  | none =>
    cases listNames with
    | none => cases h
    | some texts =>
      obtain ⟨same, solid⟩ := someAliases_ok h
      cases same
      refine ⟨solid, fun a ha => ?_⟩
      obtain ⟨text, ht, ha⟩ := List.mem_flatMap.mp ha
      exact ⟨text, Or.inr ht, ha⟩

section

variable {attributes : Attributes} {request : Request}

theorem request_ok (h : Request.ofAttributes attributes = .ok request) :
    ∃ named listed shown grouped peopled : Attributes,
      named.Sublist attributes ∧ listed.Sublist named ∧ shown.Sublist listed ∧
      grouped.Sublist shown ∧ peopled.Sublist grouped ∧
      requestedAliases (attributes.takeText Schema.nameAttribute).1 (named.takeTexts "ListName").1 =
        .ok request.aliases ∧
      listed = (named.take "ListName").2 ∧
      request.members = (shown.takeTexts "Members").1 ∧
      grouped = (shown.take "Members").2 ∧
      request.groups = (grouped.takeTexts "MemberGroups").1 ∧
      request.people = (peopled.takeTexts "MemberPeople").1 ∧
      request.plain = (peopled.take "MemberPeople").2 := by
  rw [Request.ofAttributes] at h
  obtain ⟨aliases, found, h⟩ := bind_eq_ok h
  cases h
  exact ⟨_, _, _, _, _, Attributes.take_sublist _ _, Attributes.take_sublist _ _,
    Attributes.take_sublist _ _, Attributes.take_sublist _ _, Attributes.take_sublist _ _, found,
    rfl, rfl, rfl, rfl, rfl, rfl⟩

theorem plain_sublist (h : Request.ofAttributes attributes = .ok request) :
    request.plain.Sublist attributes := by
  obtain ⟨named, listed, shown, grouped, peopled, hn, hl, hs, hg, hp, -, -, -, -, -, -, rest⟩ :=
    request_ok h
  rw [rest]
  refine (Attributes.take_sublist _ _).trans ?_
  exact (((hp.trans hg).trans hs).trans hl).trans hn

theorem plain_lacks_listName (ha : attributes.Distinct)
    (h : Request.ofAttributes attributes = .ok request) : request.plain.Lacks "ListName" := by
  obtain ⟨named, listed, shown, grouped, peopled, hn, hl, hs, hg, hp, -, taken, -, -, -, -, rest⟩ :=
    request_ok h
  have lacks : listed.Lacks "ListName" := by
    rw [taken]
    exact Attributes.lacks_take (ha.sublist hn) _
  rw [rest]
  exact lacks.sublist (((Attributes.take_sublist _ _).trans hp).trans (hg.trans hs))

theorem plain_lacks_members (ha : attributes.Distinct)
    (h : Request.ofAttributes attributes = .ok request) : request.plain.Lacks "Members" := by
  obtain ⟨named, listed, shown, grouped, peopled, hn, hl, hs, hg, hp, -, -, -, taken, -, -, rest⟩ :=
    request_ok h
  have lacks : grouped.Lacks "Members" := by
    rw [taken]
    exact Attributes.lacks_take (ha.sublist ((hs.trans hl).trans hn)) _
  rw [rest]
  exact lacks.sublist ((Attributes.take_sublist _ _).trans hp)

theorem aliases_ok (h : Request.ofAttributes attributes = .ok request) {aliases : List String}
    (hs : request.aliases = some aliases) :
    aliases ≠ [] ∧
      ∀ a ∈ aliases, ∃ text,
        (text ∈ attributes.given Schema.nameAttribute ∨ text ∈ attributes.given "ListName") ∧
          a ∈ Alias.split text := by
  obtain ⟨named, _, _, _, _, hn, -, -, -, -, found, -⟩ := request_ok h
  rw [hs] at found
  obtain ⟨solid, pieces⟩ := requestedAliases_ok found
  refine ⟨solid, fun a ha => ?_⟩
  obtain ⟨text, source, ha⟩ := pieces a ha
  refine ⟨text, source.imp Attributes.mem_given_of_takeText fun listed => ?_, ha⟩
  cases texts : (named.takeTexts "ListName").1 with
  | none =>
    rw [texts] at listed
    cases listed
  | some ts =>
    rw [texts] at listed
    exact Attributes.given_subset hn _ (Attributes.mem_given_of_takeTexts texts text listed)

theorem aliases_of_name (h : Request.ofAttributes attributes = .ok request) {name : String}
    (hn : (attributes.takeText Schema.nameAttribute).1 = some name)
    (hl : attributes.Lacks "ListName") : request.aliases = some (Alias.split name) := by
  obtain ⟨named, _, _, _, _, hs, -, -, -, -, found, -⟩ := request_ok h
  have none : (named.takeTexts "ListName").1 = none := by
    rw [Attributes.takeTexts, Attributes.take_of_lacks (hl.sublist hs)]
    rfl
  rw [hn, none, requestedAliases] at found
  exact (someAliases_ok found).1

theorem splitAll_aliases (h : Request.ofAttributes attributes = .ok request)
    {aliases : List String} (hs : request.aliases = some aliases) :
    Alias.splitAll aliases = aliases := by
  refine splitAll_of_mem_split fun a ha => ?_
  obtain ⟨text, _, ha⟩ := (aliases_ok h hs).2 a ha
  exact ⟨text, ha⟩

theorem memberNames_ok (h : Request.ofAttributes attributes = .ok request)
    {names : List CanonicalName} (hm : request.memberNames = .ok (some names)) :
    ∀ name ∈ names, ∃ raw, (raw ∈ attributes.given "Members" ∨
      raw ∈ attributes.given "MemberGroups" ∨ raw ∈ attributes.given "MemberPeople") ∧
        Name.canonicalize raw = .ok name := by
  obtain ⟨named, listed, shown, grouped, peopled, hn, hl, hs, hg, hp, -, -, members, -, groups,
    people, -⟩ := request_ok h
  have shownAll := (hs.trans hl).trans hn
  have groupedAll := hg.trans shownAll
  intro name hname
  obtain ⟨raws, source, raw, hraw, found⟩ := Membership.requested_ok hm name hname
  refine ⟨raw, ?_, found⟩
  rcases source with source | source | source
  · rw [source] at members
    exact Or.inl (Attributes.given_subset shownAll _
      (Attributes.mem_given_of_takeTexts members.symm raw hraw))
  · rw [source] at groups
    exact Or.inr (Or.inl (Attributes.given_subset groupedAll _
      (Attributes.mem_given_of_takeTexts groups.symm raw hraw)))
  · rw [source] at people
    exact Or.inr (Or.inr (Attributes.given_subset (hp.trans groupedAll) _
      (Attributes.mem_given_of_takeTexts people.symm raw hraw)))

end

def renamedNote (n : Note) (aliases : Option (List String)) : Note :=
  match aliases with
  | none => n
  | some aliases => if Alias.sameAll aliases n.aliases then n else n.setTexts "ListName" aliases

def editedNote (n : Note) (members : Option (List CanonicalName)) (how : UpdateKind) : Note :=
  match members with
  | none => n
  | some members => (Membership.edit n members how).2

theorem edit_unchanged {n : Note} {members : List CanonicalName} {how : UpdateKind}
    (h : (Membership.edit n members how).1 = false) : (Membership.edit n members how).2 = n := by
  rw [Membership.edit] at h ⊢
  split at h
  · next same => rw [if_pos same]
  · cases h

theorem updatedNote_ok {n n' : Note} {request : Request} {members : Option (List CanonicalName)}
    {how : UpdateKind} {changed : Bool}
    (h : updatedNote n request members how = .ok (changed, n')) :
    ∃ changed₁ changed₂ n₂,
      updateAll .group how changed₁ (renamedNote n request.aliases) request.plain =
        .ok (changed₂, n₂) ∧ n' = editedNote n₂ members how ∧
      (changed₁ = false → renamedNote n request.aliases = n) ∧
      (changed = false → changed₂ = false ∧ n' = n₂) := by
  have told : ∀ {changed₂ : Bool} {n₂ : Note} {names : List CanonicalName},
      (changed₂ || (Membership.edit n₂ names how).1) = false →
        changed₂ = false ∧ (Membership.edit n₂ names how).2 = n₂ := by
    intro changed₂ n₂ names unchanged
    rw [Bool.or_eq_false_iff] at unchanged
    exact ⟨unchanged.1, edit_unchanged unchanged.2⟩
  unfold updatedNote at h
  unfold renamedNote
  cases asked : request.aliases with
  | none =>
    rw [asked] at h
    obtain ⟨⟨changed₂, n₂⟩, updated, h⟩ := bind_eq_ok h
    refine ⟨_, changed₂, n₂, updated, ?_⟩
    cases members <;> cases h
    · exact ⟨rfl, fun _ => rfl, fun same => ⟨same, rfl⟩⟩
    · exact ⟨rfl, fun _ => rfl, told⟩
  | some aliases =>
    rw [asked] at h
    dsimp only at h ⊢
    split at h
    · next same =>
      obtain ⟨⟨changed₂, n₂⟩, updated, h⟩ := bind_eq_ok h
      rw [if_pos same]
      refine ⟨_, changed₂, n₂, updated, ?_⟩
      cases members <;> cases h
      · exact ⟨rfl, fun _ => rfl, fun same => ⟨same, rfl⟩⟩
      · exact ⟨rfl, fun _ => rfl, told⟩
    · next differ =>
      obtain ⟨⟨changed₂, n₂⟩, updated, h⟩ := bind_eq_ok h
      rw [if_neg differ]
      refine ⟨true, changed₂, n₂, updated, ?_⟩
      cases members <;> cases h
      · exact ⟨rfl, by simp, fun same => ⟨same, rfl⟩⟩
      · exact ⟨rfl, by simp, told⟩

theorem sameItem_editedNote {other : String} (h : sameAscii other "Members" = false) (n : Note)
    (members : Option (List CanonicalName)) (how : UpdateKind) :
    Note.SameItem other (editedNote n members how) n := by
  cases members with
  | none => exact .refl other n
  | some edits =>
    rw [editedNote, Membership.edit]
    split
    · exact .refl other n
    · exact Note.sameItem_setTexts h n _

theorem sameItem_renamedNote {other : String} (h : sameAscii other "ListName" = false) (n : Note)
    (aliases : Option (List String)) : Note.SameItem other (renamedNote n aliases) n := by
  cases aliases with
  | none => exact .refl other n
  | some as =>
    rw [renamedNote]
    split
    · exact .refl other n
    · exact Note.sameItem_setTexts h n _

section

variable {other : String} {n n' : Note} {request : Request}
  {members : Option (List CanonicalName)} {how : UpdateKind} {changed : Bool}

theorem sameItem_updatedNote (h : updatedNote n request members how = .ok (changed, n'))
    (hm : sameAscii other "Members" = false) (ha : request.plain.Lacks other) :
    Note.SameItem other n' (renamedNote n request.aliases) := by
  obtain ⟨_, _, n₂, updated, rfl, -⟩ := updatedNote_ok h
  exact (sameItem_editedNote hm n₂ members how).trans (sameItem_updateAll ha updated)

theorem isClass_updatedNote (h : updatedNote n request members how = .ok (changed, n'))
    (ha : request.plain.Lacks "Form") (kind : EntryClass) : n'.isClass kind = n.isClass kind := by
  have written := sameItem_updatedNote h (by decide) ha
  exact Note.isClass_of_item? (written.trans (sameItem_renamedNote (by decide) n _)).2 kind

theorem aliases_updatedNote {attributes : Attributes}
    (h : updatedNote n request members how = .ok (changed, n'))
    (hr : Request.ofAttributes attributes = .ok request) (ha : attributes.Distinct) :
    n'.aliases = n.aliases ∨ request.aliases = some n'.aliases := by
  have same := sameItem_updatedNote h (by decide) (plain_lacks_listName ha hr)
  have kept : n'.aliases = (renamedNote n request.aliases).aliases := by
    rw [Note.aliases, Note.aliases, Note.texts_congr same.2]
  rw [kept]
  cases asked : request.aliases with
  | none => exact Or.inl rfl
  | some aliases =>
    by_cases already : Alias.sameAll aliases n.aliases = true
    · rw [renamedNote, if_pos already]
      exact Or.inl rfl
    · rw [renamedNote, if_neg already, Note.aliases, Note.texts_setTexts,
        splitAll_aliases hr asked]
      exact Or.inr rfl

theorem sameItem_newNote {aliases : List String} (h : newNote aliases request = .ok n)
    (hm : sameAscii other "Members" = false) (ha : request.plain.Lacks other) :
    Note.SameItem other n ((Note.ofClass .group).setTexts "ListName" aliases) := by
  rw [newNote] at h
  obtain ⟨given, _, h⟩ := bind_eq_ok h
  obtain ⟨n₁, written, h⟩ := bind_eq_ok h
  have first := sameItem_fillNew ha written
  cases given with
  | none =>
    cases h
    exact first
  | some names =>
    cases h
    exact (Note.sameItem_setTexts hm n₁ _).trans first

theorem form_newNote {aliases : List String} (h : newNote aliases request = .ok n)
    (ha : request.plain.Lacks "Form") :
    n.id = none ∧ n.item? "Form" = some [.text EntryClass.group.form] := by
  have same := sameItem_newNote h (by decide) ha
  refine ⟨same.1, same.2.trans ?_⟩
  rw [Note.item?_setTexts_of_ne (by decide), Note.form_ofClass]

theorem id_newNote {aliases : List String} (h : newNote aliases request = .ok n) : n.id = none := by
  rw [newNote] at h
  obtain ⟨given, _, h⟩ := bind_eq_ok h
  obtain ⟨n₁, written, h⟩ := bind_eq_ok h
  have unsaved : n₁.id = none := id_fillNew written
  cases given <;> cases h <;> exact unsaved

theorem id_updatedNote (h : updatedNote n request members how = .ok (changed, n')) :
    n'.id = n.id := by
  obtain ⟨_, _, n₂, updated, rfl, -⟩ := updatedNote_ok h
  have edited : Note.SameItem "Form" (editedNote n₂ members how) n₂ :=
    sameItem_editedNote (by decide) n₂ members how
  have renamed : Note.SameItem "Form" (renamedNote n request.aliases) n :=
    sameItem_renamedNote (by decide) n request.aliases
  exact (edited.1.trans (id_updateAll updated)).trans renamed.1

theorem eq_of_updatedNote_unchanged (h : updatedNote n request members how = .ok (false, n')) :
    renamedNote n request.aliases = n ∧ n' = n := by
  obtain ⟨_, _, n₂, updated, -, named, told⟩ := updatedNote_ok h
  obtain ⟨unchanged, rfl⟩ := told rfl
  rw [unchanged] at updated
  obtain ⟨asked, same⟩ := eq_of_updateAll_unchanged updated
  exact ⟨named asked, same.trans (named asked)⟩

theorem members_newNote {aliases : List String} (h : newNote aliases request = .ok n)
    (ha : request.plain.Lacks "Members") :
    ∃ given, request.memberNames = .ok given ∧
      n.item? "Members" = given.map fun names => names.map fun name => .text name.text := by
  rw [newNote] at h
  obtain ⟨given, found, h⟩ := bind_eq_ok h
  obtain ⟨n₁, written, h⟩ := bind_eq_ok h
  refine ⟨given, found, ?_⟩
  cases given with
  | none =>
    cases h
    rw [(sameItem_fillNew ha written).2, Note.item?_setTexts_of_ne (by decide)]
    decide
  | some names =>
    cases h
    rw [Note.setMembers, Note.item?_setTexts_of_same (by decide), List.map_map]
    rfl

theorem members_updatedNote (h : updatedNote n request members how = .ok (changed, n'))
    (ha : request.plain.Lacks "Members") :
    n'.item? "Members" = n.item? "Members" ∨
      ∃ names, members = some names ∧
        n'.item? "Members" = some ((Membership.edited how n.members names).map .text) := by
  obtain ⟨_, _, n₂, updated, rfl, -⟩ := updatedNote_ok h
  have same : n₂.item? "Members" = n.item? "Members" :=
    ((sameItem_updateAll ha updated).trans (sameItem_renamedNote (by decide) n _)).2
  cases members with
  | none => exact Or.inl same
  | some names =>
    simp only [editedNote, Membership.edit]
    split
    · exact Or.inl same
    · refine Or.inr ⟨names, rfl, ?_⟩
      rw [Note.setMembers, Note.item?_setTexts_of_same (by decide), Note.members, Note.members,
        Note.texts_congr same]

theorem aliases_newNote {aliases : List String} (h : newNote aliases request = .ok n)
    (ha : request.plain.Lacks "ListName") (read : Alias.splitAll aliases = aliases) :
    n.aliases = aliases := by
  have same := sameItem_newNote h (by decide) ha
  rw [Note.aliases, Note.texts_congr same.2, Note.texts_setTexts, read]

end

def checkAliases (n : Note) (aliases : Option (List String)) : Action Bool :=
  match aliases with
  | some aliases => checkRename n aliases
  | none => pure false

def follow (n m : Note) (renamed : Bool) : Action String := do
  if renamed then
    let old ← Name.canonicalize n.displayName
    let new ← Name.canonicalize m.displayName
    discard (Membership.rename old new)
  return Alias.join m.aliases

/-- What an update of a group does, once its note and the request are at hand. -/
def amend (n : Note) (request : Request) (how : UpdateKind) : Action String := do
  let members ← request.memberNames
  let renamed ← checkAliases n request.aliases
  let (changed, m) ← updatedNote n request members how
  let m ← (if changed then Directory.save m else pure m : Action Note)
  follow n m renamed

theorem update_eq (uid : String) (attributes : Attributes) (how : UpdateKind) :
    update uid attributes how = (do
      Directory.acquire
      let n ← findExisting .group uid
      let request ← Request.ofAttributes attributes
      amend n request how) := by
  have rest : ∀ (n : Note) (request : Request) (members : Option (List CanonicalName))
      (renamed : Bool), (do
        let (changed, m) ← updatedNote n request members how
        let m ← if changed then Directory.save m else pure m
        if renamed then
          let old ← Name.canonicalize n.displayName
          let new ← Name.canonicalize m.displayName
          discard (Membership.rename old new)
        return Alias.join m.aliases : Action String) = (do
        let (changed, m) ← updatedNote n request members how
        let m ← (if changed then Directory.save m else pure m : Action Note)
        follow n m renamed) := by
    intro n request members renamed
    refine congrArg _ (funext fun result => ?_)
    obtain ⟨changed, m⟩ := result
    cases changed <;> rfl
  rw [update]
  refine congrArg _ (funext fun _ => congrArg _ (funext fun n => ?_))
  refine congrArg (_ >>= ·) (funext fun request => congrArg (_ >>= ·) (funext fun members => ?_))
  dsimp only [checkAliases]
  cases request.aliases with
  | none => exact congrArg (pure false >>= ·) (funext (rest n request members))
  | some aliases => exact congrArg (checkRename n aliases >>= ·) (funext (rest n request members))

section

open AddressBook.Action AddressBook.Membership

variable {P E J K : Directory → Prop} {good : Note → Prop} {named : CanonicalName → Prop}
  {attributes : Attributes}

theorem keeps_checkUnused (aliases : List String) : Keeps J (checkUnused aliases) fun _ => True := by
  refine keeps_forM fun a _ => ?_
  refine Keeps.bind (A := fun _ => True) (keeps_read fun _ _ _ _ => trivial) fun found _ => ?_
  exact keeps_ite (fun _ => keeps_throw) fun _ => keeps_pure trivial

theorem keeps_checkRename (n : Note) (aliases : List String) :
    Keeps J (checkRename n aliases) fun _ => True := by
  rw [checkRename]
  refine keeps_ite (fun _ => keeps_pure trivial) fun _ => ?_
  refine Keeps.bind (A := fun _ => True) (keeps_read fun _ _ _ _ => trivial) fun found _ => ?_
  cases found with
  | none => exact keeps_pure trivial
  | some other => exact keeps_ite (fun _ => keeps_pure trivial) fun _ => keeps_throw

theorem leads_create {U : List String → Prop} (hE : ∀ d, P d → E d)
    (hs : Keeps P Directory.acquire fun _ => True)
    (hu : ∀ aliases, Keeps P (checkUnused aliases) fun _ => U aliases)
    (hc : ∀ request aliases n, Request.ofAttributes attributes = .ok request →
      request.aliases = some aliases → U aliases → newNote aliases request = .ok n →
        Leads P (Directory.save n) (fun _ d => K d) E) :
    Leads P (create attributes) (fun _ d => K d) E := by
  rw [create]
  refine Leads.bind_of_keeps (A := fun request => Request.ofAttributes attributes = .ok request)
    (keeps_lift fun request h => h) hE fun request hrequest => ?_
  split
  · next aliases haliases =>
    refine Leads.bind_of_keeps hs hE fun _ _ => ?_
    refine Leads.bind_of_keeps (hu aliases) hE fun _ hunused => ?_
    refine Leads.bind_of_keeps (A := fun n => newNote aliases request = .ok n)
      (keeps_lift fun n h => h) hE fun n hn => ?_
    refine (leads_discard (hc request aliases n hrequest haliases hunused hn)).bind fun _ => ?_
    exact leads_pure fun _ hd => hd
  · exact leads_throw hE

variable (frame : Frame J good named)

include frame

theorem keeps_findExisting (uid : String) :
    Keeps J (findExisting .group uid) fun n => good n ∧ n.isClass .group = true := by
  rw [findExisting]
  refine Keeps.bind (A := fun found => ∀ n ∈ found, good n ∧ n.isClass .group = true)
    (frame.keeps_groupByAlias (Alias.display uid)) fun found hfound => ?_
  cases found with
  | none => exact keeps_throw
  | some n => exact keeps_pure (hfound n rfl)

theorem leads_update {C : Note → List String → Prop}
    {G : Note → Prop} (uid : String) (how : UpdateKind)
    (hE : ∀ d, J d → E d) (hK : ∀ d, K d → E d)
    (hc : ∀ n aliases, good n → n.isClass .group = true →
      Keeps J (checkRename n aliases) fun _ => C n aliases)
    (hu : ∀ n request members changed n', good n → n.isClass .group = true →
      Request.ofAttributes attributes = .ok request → request.memberNames = .ok members →
        (∀ aliases ∈ request.aliases, C n aliases) →
          updatedNote n request members how = .ok (changed, n') →
            Leads J (if changed then Directory.save n' else pure n')
              (fun n'' d => K d ∧ G n'') E)
    (hr : ∀ n old new, G n → Name.canonicalize n.displayName = .ok new →
      Leads K (rename old new) (fun _ d => K d) E) :
    Leads J (update uid attributes how) (fun _ d => K d) E := by
  rw [update]
  refine Leads.bind_of_keeps frame.keeps_acquire hE fun _ _ => ?_
  refine Leads.bind_of_keeps (keeps_findExisting frame uid) hE fun n ⟨hgood, hgroup⟩ => ?_
  refine Leads.bind_of_keeps (A := fun request => Request.ofAttributes attributes = .ok request)
    (keeps_lift fun request h => h) hE fun request hrequest => ?_
  refine Leads.bind_of_keeps (A := fun members => request.memberNames = .ok members)
    (keeps_lift fun members h => h) hE fun members hmembers => ?_
  have named : ∀ (renamed : Bool) (m : Note), Leads (fun d => K d ∧ G m) (if renamed = true then do
        let old ← liftM (Name.canonicalize n.displayName)
        let new ← liftM (Name.canonicalize m.displayName)
        discard (rename old new)
        pure (Alias.join m.aliases)
      else pure (Alias.join m.aliases) : Action String) (fun _ d => K d) E := by
    intro renamed m
    refine ⟨?_⟩
    rintro d ⟨hd, hm⟩
    refine Leads.ends (P := K) ?_ d hd
    split
    · refine Leads.bind_of_keeps (A := fun _ => True) (keeps_lift fun _ _ => trivial) hK
        fun old _ => ?_
      refine Leads.bind_of_keeps (A := fun new => Name.canonicalize m.displayName = .ok new)
        (keeps_lift fun _ h => h) hK fun new hnew => ?_
      exact (leads_discard (hr m old new hm hnew)).bind fun _ => leads_pure fun _ h => h
    · exact leads_pure fun _ h => h
  have rest : ∀ later : Note → Action String,
      (∀ m, Leads (fun d => K d ∧ G m) (later m) (fun _ d => K d) E) →
        (∀ aliases ∈ request.aliases, C n aliases) →
          Leads J (liftM (updatedNote n request members how) >>= fun result =>
            if result.1 = true then Directory.save result.2 >>= later
            else pure result.2 >>= later) (fun _ d => K d) E := by
    intro later hlater hchecked
    refine Leads.bind_of_keeps
      (A := fun result => updatedNote n request members how = .ok result)
      (keeps_lift fun result h => h) hE fun result hn' => ?_
    obtain ⟨changed, n'⟩ := result
    have saved := hu n request members changed n' hgood hgroup hrequest hmembers hchecked hn'
    cases changed with
    | true => exact saved.bind hlater
    | false => exact saved.bind hlater
  dsimp only
  split
  · next aliases asked =>
    refine Leads.bind_of_keeps (hc n aliases hgood hgroup) hE fun renamed hchecked => ?_
    exact rest _ (named renamed) (by simpa [asked] using hchecked)
  · next none =>
    refine Leads.bind_of_keeps (A := fun _ => True) (keeps_pure trivial) hE fun renamed _ => ?_
    exact rest _ (named renamed) (by simp [none])

theorem leads_delete (uid : String) (hE : ∀ d, J d → E d)
    (hd : ∀ n id, good n → n.isClass .group = true → n.id = some id →
      Leads J (Directory.delete id) (fun _ d => K d) E) :
    Leads J (delete uid) (fun _ d => K d) E := by
  rw [delete]
  refine Leads.bind_of_keeps frame.keeps_acquire hE fun _ _ => ?_
  refine Leads.bind_of_keeps (keeps_findExisting frame uid) hE fun n ⟨hgood, hgroup⟩ => ?_
  refine Leads.bind_of_keeps (keeps_idOf n) hE fun id hid => ?_
  refine Leads.bind_of_keeps (A := fun _ => True) (keeps_lift fun _ _ => trivial) hE
    fun name _ => ?_
  refine Leads.bind_of_keeps (keeps_discard (frame.keeps_removeEverywhere name)) hE fun _ _ => ?_
  exact leads_discard (hd n id hgood hgroup hid)

end

end AddressBook.Group

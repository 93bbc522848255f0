import AddressBook.Proofs.Name.Abbreviated
import AddressBook.Proofs.Provisioning.Plan
import AddressBook.Proofs.Provisioning.Reading
import AddressBook.Provisioning.Entries

/-! Names as they are shown, handed back. Entries show names abbreviated; where the abbreviated
rendering of a stored name tells the places of its parts, an update that is given it does what it
would do if it were given the stored name, or no name at all. -/

namespace AddressBook

open Text

namespace Name

/-- A text is no name, or a name whose abbreviated rendering is read as the same name. -/
def Recoverable (text : String) : Prop :=
  ∀ n, parse text = .ok n → n.Unlabelled ∧ n.Unambiguous

instance (text : String) : Decidable (Recoverable text) :=
  match h : parse text with
  | .ok n => decidable_of_iff (n.Unlabelled ∧ n.Unambiguous)
      ⟨fun told m hm => by rw [h] at hm; cases hm; exact told, fun all => all n h⟩
  | .error _ => isTrue fun m hm => by rw [h] at hm; cases hm

theorem canonicalize_abbreviated {text : String} {n : Name} (h : parse text = .ok n)
    (hr : Recoverable text) : canonicalize n.abbreviated = .ok ⟨n.canonical⟩ := by
  obtain ⟨bare, placed⟩ := hr n h
  exact (canonicalize_abbreviated_iff (read_ok (parse_ok_iff.mp h)).1 bare).mpr placed

theorem canonicalize_shownText {text : String} (hr : Recoverable text) (item : String) :
    canonicalize (Entry.shownText item text) = canonicalize text := by
  rw [Entry.shownText]
  split
  · cases parsed : parse text with
    | error fault => rw [abbreviate, parsed]; rfl
    | ok n =>
      rw [abbreviate_of_parse parsed, canonicalize_of_parse parsed]
      exact canonicalize_abbreviated parsed hr
  · rfl

end Name

namespace Entry

theorem name_accountHeader {n : Note} {full : String} (hf : n.text? "FullName" = some full)
    {name : Name} (hn : Name.parse full = .ok name) (id : String) (selection : Selection) :
    (accountHeader n id selection).name = name.abbreviated := by
  rw [accountHeader, hf]
  dsimp only
  rw [hn]
  dsimp only
  rw [(sameHead_setIf _ _ _ _).2.2, (sameHead_setIf _ _ _ _).2.2]

end Entry

namespace Account

open Provisioning

/-- The name of an account can be handed back as it is shown: the places of its parts can be told,
and no setting asks for a change of it. Blanks are collapsed in new names, and names without an
organization are put below the configured one. -/
structure Returns (settings : DirectorySettings) (n : Note) (shown : String) : Prop where
  recoverable : ∀ full ∈ n.text? "FullName", Name.Recoverable full
  collapsed : collapseBlanks shown = shown
  placed : settings.certifierOrgHierarchy = none ∨
    ∀ full ∈ n.text? "FullName", ∀ name, Name.parse full = .ok name → name.isFlat = false

theorem nameOf_of_canonicalize {settings : DirectorySettings} {raw : String} {n : Name}
    (hc : collapseBlanks raw = raw) (hn : Name.canonicalize raw = .ok ⟨n.canonical⟩)
    (hf : n.WellFormed) (hp : settings.certifierOrgHierarchy = none ∨ n.isFlat = false) :
    nameOf settings raw = .ok ⟨n.canonical⟩ := by
  rw [nameOf, hc, hn]
  simp only [bind, Except.bind]
  split
  · rfl
  · next hierarchy certified =>
    cases position : n.position with
    | none => simp [certified, Name.isFlat, position] at hp
    | some p =>
      have parsed := Name.parse_ok_iff.mpr (Name.read_canonical hf position)
      have solid : p.organization ≠ "" :=
        (hf.parts p position p.organization (by simp [Position.parts])).solid
      simp only [parsed, Name.organization, position, Option.map_some, Option.getD_some,
        String.isEmpty_iff, solid, if_false]
      rfl

/-- An account that is given the name by which it is shown keeps its name. -/
theorem newNameIn_shown {settings : DirectorySettings} {n : Note} {s : Store} {e : Entry}
    {selection : Selection} (he : Reading.entryOf s .account selection n = .ok e)
    (hr : Returns settings n e.name) {old : CanonicalName} (ho : storedName n = .ok old) :
    newNameIn settings n old (some e.name) s = .ok none := by
  rw [storedName] at ho
  split at ho
  · cases ho
  · next full found =>
    obtain ⟨name, hread, rfl⟩ := Name.canonicalize_ok_iff.mp ho
    have parsed := Name.parse_ok_iff.mpr hread
    obtain ⟨id, -, head⟩ := Reading.entryOf_ok he
    have shown : e.name = name.abbreviated :=
      head.2.2.trans (Entry.name_accountHeader found parsed id selection)
    have same : nameOf settings e.name = .ok ⟨name.canonical⟩ := by
      refine nameOf_of_canonicalize hr.collapsed ?_ (Name.read_ok hread).1
        (hr.placed.imp_right fun placed => placed full found name parsed)
      rw [shown]
      exact Name.canonicalize_abbreviated parsed (hr.recoverable full found)
    rw [newNameIn, same]
    simp only [bind, Except.bind, CanonicalName.same, beq_self_eq_true, if_true]
    rfl

theorem plan_shown {settings : Settings} {uid : String} {attributes : Attributes} {how : UpdateKind}
    {s : Store} {n : Note} (hn : find .account uid s = .ok (some n)) {e : Entry}
    {selection : Selection} (he : Reading.entryOf s .account selection n = .ok e)
    (hr : Returns settings.directory n e.name) (ha : attributes.Distinct)
    (given : (attributes.takeText Schema.nameAttribute).1 = some e.name) :
    plan settings uid attributes how s =
      plan settings uid (attributes.takeText Schema.nameAttribute).2 how s := by
  have existing : existingIn uid s = .ok n := by
    rw [existingIn, hn]
    rfl
  have without : (attributes.takeText Schema.nameAttribute).2.takeText Schema.nameAttribute =
      (none, (attributes.takeText Schema.nameAttribute).2) :=
    Attributes.takeText_of_lacks (Attributes.lacks_take ha Schema.nameAttribute)
  rw [plan, plan, existing, without, given]
  simp only [bind, Except.bind]
  cases idOf n with
  | error fault => rfl
  | ok id =>
    dsimp only
    cases stored : storedName n with
    | error fault => rfl
    | ok old =>
      dsimp only
      rw [newNameIn_shown he hr stored]
      rfl

theorem update_shown {settings : Settings} {uid : String} {selection : Selection} {d d' : Directory}
    {e : Entry} (h : Reading.get .account uid selection d = .ok (some e) d') :
    ∃ n, find .account uid d'.store = .ok (some n) ∧
      ∀ (attributes : Attributes) (how : UpdateKind), attributes.Distinct →
        (attributes.takeText Schema.nameAttribute).1 = some e.name →
          Returns settings.directory n e.name →
            update settings uid attributes how d' =
              update settings uid (attributes.takeText Schema.nameAttribute).2 how d' := by
  obtain ⟨reached, n, found, derived⟩ := Reading.get_ok h
  have again := Action.acquire_again reached
  refine ⟨n, found, fun attributes how distinct given returns => ?_⟩
  rw [update_eq, update_eq, Action.bind_apply, Action.bind_apply, again]
  simp only [Action.bind_apply, Action.read_apply, plan_shown found derived returns distinct given]

end Account

namespace Attributes

/-- The attributes with other values in the place of those under one name. -/
def instead (attributes : Attributes) (name : String) (values : List AttributeValue) : Attributes :=
  attributes.map fun a => (a.1, if sameAscii a.1 name then values else a.2)

variable {attributes : Attributes} {name other : String} {values : List AttributeValue}

theorem erase_instead (key : String) :
    Keyed.erase key (attributes.instead name values) =
      instead (Keyed.erase key attributes) name values := by
  rw [instead]
  induction attributes with
  | nil => rfl
  | cons entry rest ih =>
    obtain ⟨k, v⟩ := entry
    rw [List.map_cons, Keyed.erase, Keyed.erase]
    split
    · rfl
    · rw [ih]
      rfl

theorem find?_instead :
    List.find? (fun a => sameAscii a.1 other) (attributes.instead name values) =
      (List.find? (fun a => sameAscii a.1 other) attributes).map fun a =>
        (a.1, if sameAscii a.1 name then values else a.2) := by
  rw [instead, List.find?_map]
  rfl

theorem take_instead_of_ne (h : sameAscii other name = false) :
    (attributes.instead name values).take other =
      ((attributes.take other).1, (attributes.take other).2.instead name values) := by
  rw [take, take, find?_instead]
  cases found : List.find? (fun a => sameAscii a.1 other) attributes with
  | none => rfl
  | some entry =>
    obtain ⟨key, old⟩ := entry
    have matched : sameAscii key other = true := by simpa using List.find?_some found
    have different : sameAscii key name = false := (sameAscii_congr matched name).trans h
    simp only [Option.map_some, different, Bool.false_eq_true, if_false, erase_instead]

theorem instead_of_lacks (h : attributes.Lacks name) : attributes.instead name values = attributes := by
  rw [instead, List.map_congr_left (g := id), List.map_id]
  intro a ha
  rw [h a ha]
  rfl

theorem take_instead_self (h : attributes.Distinct) :
    (attributes.instead name values).take name =
      ((attributes.take name).1.map fun _ => values, (attributes.take name).2) := by
  have rest : (attributes.take name).2.instead name values = (attributes.take name).2 :=
    instead_of_lacks (lacks_take h name)
  rw [take] at rest
  rw [take, take, find?_instead]
  cases found : List.find? (fun a => sameAscii a.1 name) attributes with
  | none =>
    rw [found] at rest
    exact Prod.ext rfl rest
  | some entry =>
    obtain ⟨key, old⟩ := entry
    have matched : sameAscii key name = true := by simpa using List.find?_some found
    rw [found] at rest
    simp only [Option.map_some, matched, if_true, erase_instead]
    exact Prod.ext rfl rest

end Attributes

namespace Group

open Provisioning

theorem ofAttributes_instead {attributes : Attributes} (h : attributes.Distinct)
    (values : List AttributeValue) :
    Request.ofAttributes (attributes.instead "Members" values) =
      (Request.ofAttributes attributes).map fun request =>
        { request with members :=
            request.members.map fun _ => values.filterMap AttributeValue.storedText? } := by
  have name : sameAscii Schema.nameAttribute "Members" = false := by decide
  have list : sameAscii "ListName" "Members" = false := by decide
  have shown : sameAscii "DisplayName" "Members" = false := by decide
  have distinct : ∀ {rest : Attributes}, rest.Distinct → ∀ other, (rest.take other).2.Distinct :=
    fun h other => h.sublist (Attributes.take_sublist _ other)
  have left := distinct (distinct (distinct h Schema.nameAttribute) "ListName") "DisplayName"
  rw [Request.ofAttributes, Request.ofAttributes]
  simp only [Attributes.takeText, Attributes.takeTexts, Attributes.take_instead_of_ne name,
    Attributes.take_instead_of_ne list, Attributes.take_instead_of_ne shown,
    Attributes.take_instead_self left]
  generalize requestedAliases _ _ = asked
  generalize (Attributes.take _ "Members").1 = members
  cases asked <;> cases members <;> rfl

@[simp]
theorem checkRename_self (n : Note) : checkRename n n.aliases = pure false := by
  rw [checkRename]
  exact if_pos (sameName_refl _)

@[simp]
theorem sameAll_self (aliases : List String) : Alias.sameAll aliases aliases = true := by
  rw [Alias.sameAll, beq_self_eq_true, Bool.true_and, List.all_eq_true]
  intro pair hpair
  have twice : aliases.zip aliases = aliases.map fun a => (a, a) := by
    rw [List.zip_eq_zipWith, List.zipWith_self]
  rw [twice] at hpair
  obtain ⟨a, _, rfl⟩ := List.mem_map.mp hpair
  exact sameName_refl a

theorem amend_self (n : Note) (request : Request) (how : UpdateKind) :
    amend n { request with aliases := some n.aliases } how =
      amend n { request with aliases := none } how := by
  have same : ∀ members, updatedNote n { request with aliases := some n.aliases } members how =
      updatedNote n { request with aliases := none } members how := by
    intro members
    unfold updatedNote
    simp only [sameAll_self, if_true]
  simp only [amend, checkAliases, checkRename_self, same, Request.memberNames]

theorem aliases_ne_nil {s : Store} {uid : String} {n : Note} (h : find .group uid s = .ok (some n)) :
    n.aliases ≠ [] := by
  obtain ⟨groups, _, found⟩ := bind_eq_ok h
  have has := List.find?_some (Except.ok.inj found)
  intro none
  simp [Note.hasAlias, none] at has

def Request.ofRest (rest : Attributes) (aliases : Option (List String)) : Request :=
  let (members, rest) := (rest.take "DisplayName").2.takeTexts "Members"
  let (groups, rest) := rest.takeTexts "MemberGroups"
  let (people, plain) := rest.takeTexts "MemberPeople"
  { aliases, members, groups, people, plain }

theorem Request.ofAttributes_eq (attributes : Attributes) :
    Request.ofAttributes attributes =
      (requestedAliases (attributes.takeText Schema.nameAttribute).1
        ((attributes.takeText Schema.nameAttribute).2.takeTexts "ListName").1).map
          (Request.ofRest ((attributes.takeText Schema.nameAttribute).2.takeTexts "ListName").2) := by
  rw [Request.ofAttributes]
  dsimp only
  cases requestedAliases (attributes.takeText Schema.nameAttribute).1
    ((attributes.takeText Schema.nameAttribute).2.takeTexts "ListName").1 with
  | error fault => rfl
  | ok aliases => simp only [bind, Except.bind, Except.map, pure, Except.pure, Request.ofRest]

theorem ofAttributes_own {attributes : Attributes} {n : Note} (hn : n.aliases ≠ [])
    (given : (attributes.takeText Schema.nameAttribute).1 = some (Alias.join n.aliases))
    (ha : attributes.Distinct) (hl : attributes.Lacks "ListName") :
    ∃ request : Request, Request.ofAttributes attributes =
        .ok { request with aliases := some n.aliases } ∧
      Request.ofAttributes (attributes.takeText Schema.nameAttribute).2 =
        .ok { request with aliases := none } := by
  have without : (attributes.takeText Schema.nameAttribute).2.takeText Schema.nameAttribute =
      (none, (attributes.takeText Schema.nameAttribute).2) :=
    Attributes.takeText_of_lacks (Attributes.lacks_take ha Schema.nameAttribute)
  have unlisted : (attributes.takeText Schema.nameAttribute).2.takeTexts "ListName" =
      (none, (attributes.takeText Schema.nameAttribute).2) := by
    have lacks : (attributes.takeText Schema.nameAttribute).2.Lacks "ListName" :=
      hl.sublist (Attributes.take_sublist attributes _)
    rw [Attributes.takeTexts, Attributes.take_of_lacks lacks]
    rfl
  have own : requestedAliases (some (Alias.join n.aliases)) none = .ok (some n.aliases) := by
    simp only [requestedAliases, Option.map_some, Option.map_none, split_join_aliases n, someAliases,
      List.isEmpty_iff, hn, if_false]
  refine ⟨Request.ofRest (attributes.takeText Schema.nameAttribute).2 none, ?_, ?_⟩
  · rw [Request.ofAttributes_eq, given, unlisted, own]
    rfl
  · rw [Request.ofAttributes_eq, without, unlisted]
    rfl

theorem update_shown {uid : String} {selection : Selection} {d d' : Directory} {e : Entry}
    (h : Reading.get .group uid selection d = .ok (some e) d') :
    ∀ (attributes : Attributes) (how : UpdateKind), attributes.Distinct →
      (attributes.takeText Schema.nameAttribute).1 = some e.name → attributes.Lacks "ListName" →
        update uid attributes how d' =
          update uid (attributes.takeText Schema.nameAttribute).2 how d' := by
  obtain ⟨reached, n, found, derived⟩ := Reading.get_ok h
  have again := Action.acquire_again reached
  obtain ⟨id, -, head⟩ := Reading.entryOf_ok derived
  intro attributes how distinct given unlisted
  rw [head.2.2.trans (Entry.name_groupHeader n selection)] at given
  obtain ⟨request, named, unnamed⟩ :=
    ofAttributes_own (aliases_ne_nil found) given distinct unlisted
  have existing : findExisting .group uid d' = .ok n d' := by
    rw [findExisting, Action.bind_apply, Action.read_apply, found]
    rfl
  rw [update_eq, update_eq, named, unnamed]
  simp only [Action.bind_apply, again, existing]
  exact congrFun (amend_self n request how) d'

def storedMembers (n : Note) : List String := ((n.item? "Members").getD []).map Note.Value.shown

theorem valuesOf_members (n : Note) :
    Entry.valuesOf .group n "Members" =
      (storedMembers n).map fun m => .text (Entry.shownText "Members" m) := by
  have known : ∃ a, Schema.find? .group "Members" = some a ∧ a.readable = true ∧ a.type = .text := by
    exact ⟨_, rfl, rfl, rfl⟩
  obtain ⟨a, known, readable, text⟩ := known
  rw [Entry.valuesOf_textual known readable text (by decide) (by decide), storedMembers,
    List.map_map]
  rfl

theorem members_entryOf {s : Store} {selection : Selection} {n : Note} {e : Entry}
    (he : Reading.entryOf s .group selection n = .ok e) {values : List AttributeValue}
    (hv : e.get? "Members" = some values) :
    values = ((storedMembers n).map (Entry.shownText "Members")).map .text := by
  obtain ⟨e₀, plain, he⟩ := bind_eq_ok he
  rw [(Reading.withMembers_ok he).2 "Members" (by decide) (by decide)] at hv
  rw [Entry.get?_ofNote plain (by decide) hv, valuesOf_members, List.map_map]
  rfl

theorem canonicalizeAll_congr {raws raws' : List String}
    (h : raws.map Name.canonicalize = raws'.map Name.canonicalize) :
    Name.canonicalizeAll raws = Name.canonicalizeAll raws' := by
  have all : ∀ texts : List String, Name.canonicalizeAll texts =
      (texts.map Name.canonicalize).mapM id := by
    intro texts
    rw [Name.canonicalizeAll, List.mapM_map]
    rfl
  rw [all, all, h]

theorem update_instead_congr {raws raws' : List String}
    (h : raws.map Name.canonicalize = raws'.map Name.canonicalize) {attributes : Attributes}
    (ha : attributes.Distinct) (uid : String) (how : UpdateKind) :
    update uid (attributes.instead "Members" (raws.map .text)) how =
      update uid (attributes.instead "Members" (raws'.map .text)) how := by
  have texts : ∀ texts : List String,
      (texts.map AttributeValue.text).filterMap AttributeValue.storedText? = texts := by
    intro texts
    rw [List.filterMap_map]
    exact List.filterMap_some
  have amended : ∀ (n : Note) (request : Request),
      amend n { request with members := request.members.map fun _ => raws } how =
        amend n { request with members := request.members.map fun _ => raws' } how := by
    intro n request
    have asked : ∀ given : Option (List String),
        Membership.requested (given.map fun _ => raws) request.groups request.people =
          Membership.requested (given.map fun _ => raws') request.groups request.people := by
      intro given
      cases given with
      | none => rfl
      | some _ =>
        simp only [Membership.requested, Option.map_some, Option.some_or, canonicalizeAll_congr h]
    simp only [amend, Request.memberNames, asked]
    rfl
  rw [update_eq, update_eq, ofAttributes_instead ha, ofAttributes_instead ha, texts, texts]
  refine congrArg _ (funext fun _ => congrArg _ (funext fun n => ?_))
  cases Request.ofAttributes attributes with
  | error fault => rfl
  | ok request => exact amended n request

end Group

namespace Reading

/-- What abbreviated renderings keep. A name without parts that start with a label is read from its
abbreviated rendering as the same name if and only if its parts tell their places. Handed back as it
is shown, such a name renames nobody, and as a member it stands for the stored one. -/
theorem names_handed_back (settings : Settings) (how : UpdateKind) :
    (∀ raw n, Name.parse raw = .ok n → n.Unlabelled →
      ∃ short, Name.abbreviate raw = .ok short ∧
        (Name.canonicalize short = Name.canonicalize raw ↔ n.Unambiguous)) ∧
    ∀ kind uid selection d e d', get kind uid selection d = .ok (some e) d' →
      ∃ n, Provisioning.find kind uid d'.store = .ok (some n) ∧
        (∀ attributes : Attributes, attributes.Distinct →
          (attributes.takeText Schema.nameAttribute).1 = some e.name →
            (kind = .account → Account.Returns settings.directory n e.name) →
              (kind = .group → attributes.Lacks "ListName") →
                Entries.update settings kind uid attributes how d' =
                  Entries.update settings kind uid
                    (attributes.takeText Schema.nameAttribute).2 how d') ∧
        (kind = .group → ∀ values, e.get? "Members" = some values →
          values = ((Group.storedMembers n).map (Entry.shownText "Members")).map .text ∧
          (∀ m ∈ Group.storedMembers n, Name.Recoverable m →
            Name.canonicalize (Entry.shownText "Members" m) = Name.canonicalize m) ∧
          ((∀ m ∈ Group.storedMembers n, Name.Recoverable m) →
            ∀ (uid : String) (attributes : Attributes), attributes.Distinct →
              Entries.update settings .group uid (attributes.instead "Members" values) how =
                Entries.update settings .group uid
                  (attributes.instead "Members" ((Group.storedMembers n).map .text)) how)) := by
  refine ⟨fun raw n parsed bare => ?_, fun kind uid selection d e d' read => ?_⟩
  · have formed := (Name.read_ok (Name.parse_ok_iff.mp parsed)).1
    refine ⟨n.abbreviated, Name.abbreviate_of_parse parsed, ?_⟩
    rw [← Name.canonicalize_abbreviated_iff formed bare, Name.canonicalize_of_parse parsed]
  · cases kind with
    | account =>
      obtain ⟨n, found, unchanged⟩ := Account.update_shown read
      refine ⟨n, found, fun attributes distinct given returns _ => ?_, fun other => by cases other⟩
      exact unchanged attributes how distinct given (returns rfl)
    | group =>
      obtain ⟨-, n, found, derived⟩ := get_ok read
      refine ⟨n, found, fun attributes distinct given _ unlisted => ?_, fun _ values hv => ?_⟩
      · exact Group.update_shown read attributes how distinct given (unlisted rfl)
      · have shown := Group.members_entryOf derived hv
        refine ⟨shown, fun m _ hr => Name.canonicalize_shownText hr _, ?_⟩
        intro recoverable uid attributes distinct
        have same : ((Group.storedMembers n).map (Entry.shownText "Members")).map
            Name.canonicalize = (Group.storedMembers n).map Name.canonicalize := by
          rw [List.map_map]
          exact List.map_congr_left fun m hm => Name.canonicalize_shownText (recoverable m hm) _
        rw [shown]
        exact Group.update_instead_congr same distinct uid how

/-- An organization of two characters is read as a country, and the last unit as the organization. -/
theorem not_always_read_back :
    ¬ ∀ raw n, Name.parse raw = .ok n → ∃ short, Name.abbreviate raw = .ok short ∧
      Name.canonicalize short = Name.canonicalize raw := by
  intro kept
  obtain ⟨short, rendered, same⟩ := kept "CN=Ann Lee/OU=Sales/O=IT"
    ⟨"Ann Lee", some ⟨["Sales"], "IT", none⟩⟩ rfl
  have shown : Name.abbreviate "CN=Ann Lee/OU=Sales/O=IT" = .ok "Ann Lee/Sales/IT" := rfl
  rw [shown] at rendered
  cases rendered
  have guessed : Name.canonicalize "Ann Lee/Sales/IT" = .ok ⟨"CN=Ann Lee/O=Sales/C=IT"⟩ := rfl
  have stored : Name.canonicalize "CN=Ann Lee/OU=Sales/O=IT" = .ok ⟨"CN=Ann Lee/OU=Sales/O=IT"⟩ :=
    rfl
  rw [guessed, stored] at same
  exact absurd (congrArg CanonicalName.text (Except.ok.inj same)) (by decide)

theorem eq_of_get {kind : EntryClass} {uid : String} {selection : Selection} {d d' : Directory}
    {e : Entry} (reached : Directory.acquire d = .ok () d)
    (read : get kind uid selection d = .ok (some e) d') : d' = d := by
  have again := (get_ok read).1
  rw [reached] at again
  cases again
  rfl

def shownName (kind : EntryClass) (uid : String) (selection : Selection) (d : Directory) :
    Option String :=
  match get kind uid selection d with
  | .ok (some e) _ => some e.name
  | _ => none

def shownTexts (uid item : String) (selection : Selection) (d : Directory) :
    Option (List String) :=
  match get .group uid selection d with
  | .ok (some e) _ => (e.get? item).map (·.filterMap AttributeValue.text?)
  | _ => none

theorem names_handed_back_sample :
    (∃ short, Name.abbreviate "CN=Ann Lee/OU=Sales/O=Acme" = .ok short ∧
      Name.canonicalize short = Name.canonicalize "CN=Ann Lee/OU=Sales/O=Acme") ∧
    (∃ e d', get .account "B2" ⟨["__NAME__"]⟩ Run.createMember.after = .ok (some e) d' ∧
      Entries.update {} .account "B2" [("__NAME__", [.text e.name])] .replace d' =
        Entries.update {} .account "B2" [] .replace d') ∧
    ∃ e d' values, get .group "Staff" ⟨["Members"]⟩ Run.createMember.after = .ok (some e) d' ∧
      e.get? "Members" = some values ∧
        Entries.update {} .group "Staff" [("Members", values)] .replace =
          Entries.update {} .group "Staff" [("Members", [.text "CN=Ann Lee/O=Acme"])] .replace := by
  have runs : Run.createMember.after.session.current = some 0 ∧
      Run.createMember.after.store.isOpen = true ∧
        shownName .account "B2" ⟨["__NAME__"]⟩ Run.createMember.after = some "Ann Lee/Acme" ∧
          (Provisioning.find .account "B2" Run.createMember.after.store).toOption.map
              (·.bind (·.text? "FullName")) = some (some "CN=Ann Lee/O=Acme") ∧
            shownTexts "Staff" "Members" ⟨["Members"]⟩ Run.createMember.after =
                some ["Ann Lee/Acme"] ∧
              (Provisioning.find .group "Staff" Run.createMember.after.store).toOption.map
                (·.map Group.storedMembers) = some (some ["CN=Ann Lee/O=Acme"]) := by
    decide
  obtain ⟨current, isOpen, named, stored, listed, members⟩ := runs
  obtain ⟨rendered, reads⟩ := names_handed_back {} .replace
  have reached := Action.acquire_of_current current isOpen
  refine ⟨?_, ?_, ?_⟩
  · obtain ⟨short, shown, kept⟩ := rendered "CN=Ann Lee/OU=Sales/O=Acme"
      ⟨"Ann Lee", some ⟨["Sales"], "Acme", none⟩⟩ rfl (by decide)
    exact ⟨short, shown, kept.mpr (by decide)⟩
  · rw [shownName] at named
    split at named
    · next e d' read =>
      have named : e.name = "Ann Lee/Acme" := Option.some.inj named
      obtain ⟨n, found, handed, -⟩ := reads .account "B2" _ _ e d' read
      rw [← eq_of_get reached read, found] at stored
      have full : n.text? "FullName" = some "CN=Ann Lee/O=Acme" := Option.some.inj stored
      refine ⟨e, d', read, handed [("__NAME__", [.text e.name])] (List.pairwise_singleton _ _) rfl
        (fun _ => ⟨fun text ht => ?_, ?_, Or.inl rfl⟩) fun other => by cases other⟩
      · rw [full] at ht
        cases ht
        decide
      · rw [named]
        decide
    · cases named
  · rw [shownTexts] at listed
    split at listed
    · next e d' read =>
      obtain ⟨values, given, -⟩ := Option.map_eq_some_iff.mp listed
      obtain ⟨n, found, -, handed⟩ := reads .group "Staff" _ _ e d' read
      rw [← eq_of_get reached read, found] at members
      have only : Group.storedMembers n = ["CN=Ann Lee/O=Acme"] :=
        Option.some.inj (Option.some.inj members)
      obtain ⟨-, -, same⟩ := handed rfl values given
      rw [only] at same
      exact ⟨e, d', values, read, given, same (by decide) "Staff" [("Members", [])]
        (List.pairwise_singleton _ _)⟩
    · cases listed

end Reading

end AddressBook

import AddressBook.Schema.Registry

/-! Which attributes a read returns. The name always is among them and an unreadable attribute
never, even when it is asked for. A name that the registry does not know is kept as it is. -/

namespace AddressBook

structure Selection where
  names : List String
  deriving DecidableEq, Repr

namespace Selection

def contains (s : Selection) (name : String) : Bool :=
  s.names.any fun n => Text.sameAscii n name

/-- The name under which a requested attribute is read. -/
def readName? (kind : EntryClass) (requested : String) : Option String :=
  match Schema.find? kind requested with
  | some a => if a.readable then some a.name else none
  | none => some requested

def defaultNames (kind : EntryClass) : List String :=
  ((Schema.attributes kind).filter (·.readByDefault)).map (·.name)

/-- The names read, each once, in the order of the requests. -/
def gather (kind : EntryClass) (excluded requested : List String) : List String :=
  requested.foldl (fun names request =>
    match readName? kind request with
    | none => names
    | some name =>
      if (excluded ++ names).any fun n => Text.sameAscii n name then names else names ++ [name])
    [Schema.nameAttribute]

/-- Excluded attributes are left out of the default ones only. -/
def resolve (kind : EntryClass) (wanted excluded : Option (List String)) : Selection :=
  match wanted with
  | some requested => ⟨gather kind [] requested⟩
  | none => ⟨gather kind (excluded.getD []) (defaultNames kind)⟩

def ofLists (kind : EntryClass) (wanted excluded : Option String) : Selection :=
  resolve kind (wanted.map (Text.list ',')) (excluded.map (Text.list ','))

def defaults (kind : EntryClass) : Selection := resolve kind none none

end Selection

end AddressBook

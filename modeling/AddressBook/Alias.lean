import AddressBook.Text.Lowercase

/-! Aliases of groups, ids inside markers, and the mail file of a person. -/

namespace AddressBook.Alias

/-- The aliases in a list name, which semicolons separate. -/
def split (listName : String) : List String := Text.list ';' listName

def join (aliases : List String) : String := Text.join ";" aliases

/-- The aliases in several list names. -/
def splitAll (listNames : List String) : List String := listNames.flatMap split

/-- A group goes by the first of its aliases. -/
def display (listName : String) : String := (split listName).headD ""

/-- The same aliases in the same order. -/
def sameAll (a b : List String) : Bool :=
  a.length == b.length && (a.zip b).all fun (x, y) => Text.sameName x y

end AddressBook.Alias

namespace AddressBook.NoteId

def markerStart : List Char := "<GUID=".toList

/-- The id between the first opening marker that is closed and its closing bracket. -/
def inMarker? : List Char → Option (List Char)
  | [] => none
  | c :: cs =>
    let closed :=
      if markerStart.isPrefixOf (c :: cs) then
        Text.cutAtFirst '>' ((c :: cs).drop markerStart.length)
      else none
    match closed with
    | some (id, _) => some id
    | none => inMarker? cs

/-- The id inside a marker, or the whole text when there is no marker. -/
def extract (s : String) : String :=
  match inMarker? s.toList with
  | some id => String.ofList id
  | none => s

end AddressBook.NoteId

namespace AddressBook

/-- The mail file of a person whose record names none. -/
def defaultMailFile (first last : String) : String :=
  let letters := (first.toList ++ last.toList).filter fun c => !Text.isBlank c
  "mail\\" ++ Text.lower (String.ofList letters)

end AddressBook

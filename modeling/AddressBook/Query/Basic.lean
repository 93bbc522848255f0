import AddressBook.Formula.Basic
import AddressBook.Json.Printer
import AddressBook.Text.Lowercase
import AddressBook.EntryClass

/-! Queries: what a filter compiles to, and the formula text that the directory is given. -/

namespace AddressBook

namespace Query

/-- A literal of a query. Numbers keep their JSON form. -/
inductive Literal where
  | text (s : String)
  | number (json : Json)
  deriving BEq, Repr, Inhabited

namespace Literal

def isText : Literal → Bool
  | .text _ => true
  | .number _ => false

def lowerCase : Literal → Literal
  | .text s => .text (Text.lower s)
  | .number json => .number json

def write : Literal → String
  | .text s => Text.quote s
  | .number json => json.compact

end Literal

/-- A field of a note, with its texts in lower case if `lowered`. -/
structure Field where
  name : String
  lowered : Bool
  deriving DecidableEq, Repr, Inhabited

def Field.write (f : Field) : String :=
  if f.lowered then "@LowerCase(" ++ f.name ++ ")" else f.name

end Query

inductive Query where
  /-- The field has one of the values, or none of them. -/
  | equality (negated : Bool) (field : Query.Field) (values : List Query.Literal)
  | ordering (relation : Relation) (field : String) (value : Query.Literal)
  | matching (negated : Bool) (place : Place) (field : Query.Field) (value : Query.Literal)
  | both (left right : Query)
  | either (left right : Query)
  deriving BEq, Repr, Inhabited

namespace Query

def write : Query → String
  | .equality negated field values =>
    "(" ++ field.write ++ (if negated then "!=" else "=") ++
      Text.join ":" (values.map Literal.write) ++ ")"
  | .ordering relation field value =>
    field ++ " " ++ relation.symbol ++ " " ++ value.write
  | .matching negated place field value =>
    (if negated then "!" else "") ++ place.function ++ "(" ++ field.write ++ "; " ++
      value.write ++ ")"
  | .both left right => "(" ++ left.write ++ ") & (" ++ right.write ++ ")"
  | .either left right => "(" ++ left.write ++ ") | (" ++ right.write ++ ")"

/-- The text of a query, confined to the notes of one class. -/
def confined (kind : EntryClass) (query : Option String) : String :=
  let form := "(Form = " ++ Text.quote kind.form ++ ")"
  match query with
  | none => form
  | some text => if text.isEmpty then form else form ++ " & (" ++ text ++ ")"

def idOpening : List Char := "(NoteID=\"".toList

def idClosing : List Char := "\")".toList

/-- The id, when a query asks for the note of one id and nothing else. -/
def directId? (query : String) : Option String :=
  let cs := query.toList
  if idOpening.isPrefixOf cs then
    let rest := cs.drop idOpening.length
    let id := rest.takeWhile Text.isAsciiAlphanumeric
    if !id.isEmpty && rest.drop id.length == idClosing then some (String.ofList id) else none
  else none

end Query

end AddressBook

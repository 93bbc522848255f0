import AddressBook.Json.Basic

/-! JSON text, without spaces or indented by two. -/

namespace AddressBook.Json

def escapeChar (c : Char) : List Char :=
  if c == '"' then ['\\', '"']
  else if c == '\\' then ['\\', '\\']
  else if c == '\n' then ['\\', 'n']
  else if c == '\r' then ['\\', 'r']
  else if c == '\t' then ['\\', 't']
  else if c.toNat == 8 then ['\\', 'b']
  else if c.toNat == 12 then ['\\', 'f']
  else if c.toNat < 0x20 then
    ['\\', 'u', '0', '0', Nat.digitChar (c.toNat / 16), Nat.digitChar (c.toNat % 16)]
  else [c]

def writeText (s : String) : String := String.ofList ('"' :: s.toList.flatMap escapeChar ++ ['"'])

/-- The text of a value that is neither list nor object. JSON has no text for an infinity. -/
def writeScalar : Json → String
  | .bool b => if b then "true" else "false"
  | .integer i => toString i
  | .real n => if n.isFinite then n.write Number.json else "null"
  | .text s => writeText s
  | _ => "null"

mutual

def compact : Json → String
  | .list items => "[" ++ compactItems items ++ "]"
  | .object members => "\x7b" ++ compactMembers members ++ "\x7d"
  | scalar => writeScalar scalar

def compactItems : List Json → String
  | [] => ""
  | [item] => compact item
  | item :: items => compact item ++ "," ++ compactItems items

def compactMembers : List (String × Json) → String
  | [] => ""
  | [(key, value)] => writeText key ++ ":" ++ compact value
  | (key, value) :: members =>
    writeText key ++ ":" ++ compact value ++ "," ++ compactMembers members

end

def newLine (depth : Nat) : String := "\n" ++ String.ofList (List.replicate (2 * depth) ' ')

mutual

def indented (depth : Nat) : Json → String
  | .list [] => "[]"
  | .list items => "[" ++ indentedItems (depth + 1) items ++ newLine depth ++ "]"
  | .object [] => "\x7b\x7d"
  | .object members => "\x7b" ++ indentedMembers (depth + 1) members ++ newLine depth ++ "\x7d"
  | scalar => writeScalar scalar

def indentedItems (depth : Nat) : List Json → String
  | [] => ""
  | [item] => newLine depth ++ indented depth item
  | item :: items => newLine depth ++ indented depth item ++ "," ++ indentedItems depth items

def indentedMembers (depth : Nat) : List (String × Json) → String
  | [] => ""
  | [(key, value)] => newLine depth ++ writeText key ++ ": " ++ indented depth value
  | (key, value) :: members =>
    newLine depth ++ writeText key ++ ": " ++ indented depth value ++ "," ++
      indentedMembers depth members

end

end AddressBook.Json

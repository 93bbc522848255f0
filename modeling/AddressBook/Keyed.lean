/-! Values under text keys, kept sorted by key, each key once. -/

namespace AddressBook

abbrev Keyed (α : Type) := List (String × α)

namespace Keyed

variable {α : Type}

def get? (key : String) : Keyed α → Option α
  | [] => none
  | (k, v) :: rest => if k = key then some v else get? key rest

/-- Puts a value under a key, in the place of the value that was there. -/
def put (key : String) (value : α) : Keyed α → Keyed α
  | [] => [(key, value)]
  | (k, v) :: rest =>
    if key < k then (key, value) :: (k, v) :: rest
    else if k = key then (key, value) :: rest
    else (k, v) :: put key value rest

def erase (key : String) : Keyed α → Keyed α
  | [] => []
  | (k, v) :: rest => if k = key then rest else (k, v) :: erase key rest

def keys (entries : Keyed α) : List String := entries.map Prod.fst

def ofList (entries : List (String × α)) : Keyed α :=
  entries.foldl (fun sorted (k, v) => put k v sorted) []

end Keyed

end AddressBook

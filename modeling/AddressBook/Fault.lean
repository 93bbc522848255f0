import AddressBook.EntryClass

/-! What can go wrong, and how it is worded. -/

namespace AddressBook

inductive Fault where
  /-- A text is not a name. -/
  | nameFormat (value reason : String)
  | unknownGroup (name : String)
  | unknownAccount (uid : String)
  | alreadyExists (kind : EntryClass) (name : String)
  /-- A note was not saved. -/
  | noteSave (note cause : String)
  /-- The directory is out of reach; the operation can be repeated later. -/
  | unavailable (cause : String)
  | invalidAttribute (cause : String)
  /-- A filter or formula cannot be read or compiled. -/
  | filterParse (cause : String)
  | configuration (cause : String)
  | database (cause : String)
  /-- Text that is not the JSON that was wanted. -/
  | serialization
  | internal (cause : String)
  deriving DecidableEq, Repr, Inhabited

namespace Fault

def message : Fault → String
  | .nameFormat value reason => "Invalid name format '" ++ value ++ "': " ++ reason
  | .unknownGroup name => "Unknown group: " ++ name
  | .unknownAccount uid => "Unknown account: " ++ uid
  | .alreadyExists kind name => kind.title ++ " '" ++ name ++ "' already exists"
  | .noteSave note cause => "Failed to save record " ++ note ++ ": " ++ cause
  | .unavailable cause => "Directory unavailable: " ++ cause
  | .invalidAttribute cause => "Invalid attribute: " ++ cause
  | .filterParse cause => "Filter parse error: " ++ cause
  | .configuration cause => "Configuration error: " ++ cause
  | .database cause => "Database error: " ++ cause
  | .serialization => "Serialization error"
  | .internal cause => "Internal error: " ++ cause

/-- Whether trying again may help. -/
def isTransient : Fault → Bool
  | .unavailable _ => true
  | _ => false

end Fault

end AddressBook

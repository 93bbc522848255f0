import AddressBook.Provisioning.Account
import AddressBook.Provisioning.Group
import AddressBook.Provisioning.Reading

/-! The operations on entries of either class. -/

namespace AddressBook.Entries

/-- Creates an entry and returns its uid. -/
def create (settings : Settings) (kind : EntryClass) (attributes : Attributes) : Action String :=
  match kind with
  | .account => Account.create settings attributes
  | .group => Group.create attributes

/-- Updates an entry and returns its uid. -/
def update (settings : Settings) (kind : EntryClass) (uid : String) (attributes : Attributes)
    (how : UpdateKind) : Action String :=
  match kind with
  | .account => Account.update settings uid attributes how
  | .group => Group.update uid attributes how

def delete (settings : Settings) (kind : EntryClass) (uid : String) : Action Unit :=
  match kind with
  | .account => Account.delete settings uid
  | .group => Group.delete uid

/-- Checks the settings and reaches for the directory. -/
def test (settings : Settings) : Action Unit := do
  settings.check
  Directory.acquire

end AddressBook.Entries

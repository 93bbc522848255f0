/-! Secrets. A secret gives up its text once, is never shown, and equals no secret, itself
included. -/

namespace AddressBook

structure Secret where
  held : Option String

namespace Secret

def ofText (plain : String) : Secret := ⟨some plain⟩

/-- The text, if it was not taken before, and the secret without it. -/
def take (s : Secret) : Option String × Secret := (s.held, ⟨none⟩)

def isTaken (s : Secret) : Bool := s.held.isNone

def shown (_ : Secret) : String := "GuardedString(***)"

instance : BEq Secret := ⟨fun _ _ => false⟩

instance : Inhabited Secret := ⟨⟨none⟩⟩

@[simp] theorem take_ofText (plain : String) : (ofText plain).take.1 = some plain := rfl

@[simp] theorem take_take (s : Secret) : s.take.2.take.1 = none := rfl

end Secret

end AddressBook

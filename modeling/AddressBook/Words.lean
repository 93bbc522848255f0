import AddressBook.Fault
import AddressBook.Number.Reading

/-! Words that callers and configurations use, and the faults of the words that mean nothing. -/

namespace AddressBook

def EntryClass.read (s : String) : Except Fault EntryClass :=
  match EntryClass.ofWord? s with
  | some kind => .ok kind
  | none => .error (.invalidAttribute ("Unsupported object class: " ++ Text.asciiLower s))

def UpdateKind.read (s : String) : Except Fault UpdateKind :=
  match UpdateKind.ofWord? s with
  | some kind => .ok kind
  | none => .error (.invalidAttribute ("Unknown update kind: " ++ Text.asciiLower s))

/-- What keeps the notes of a directory. -/
inductive Backing where
  | memory
  | sqlite
  deriving DecidableEq, Repr, Inhabited

namespace Backing

def title : Backing → String
  | .memory => "Memory"
  | .sqlite => "Sqlite"

def read (s : String) : Except Fault Backing :=
  match Text.asciiLower s with
  | "memory" => .ok .memory
  | "sqlite" => .ok .sqlite
  | other => .error (.configuration ("Unsupported backend type: " ++ other))

end Backing

/-- How much is logged. -/
inductive LogLevel where
  | error
  | warn
  | info
  | debug
  | trace
  deriving DecidableEq, Repr, Inhabited

namespace LogLevel

def title : LogLevel → String
  | .error => "ERROR"
  | .warn => "WARN"
  | .info => "INFO"
  | .debug => "DEBUG"
  | .trace => "TRACE"

def ofRank? : Nat → Option LogLevel
  | 1 => some .error
  | 2 => some .warn
  | 3 => some .info
  | 4 => some .debug
  | 5 => some .trace
  | _ => none

def ofName? (s : String) : Option LogLevel :=
  match Text.asciiLower s with
  | "error" => some .error
  | "warn" => some .warn
  | "info" => some .info
  | "debug" => some .debug
  | "trace" => some .trace
  | _ => none

/-- The rank of a level as digits, which a plus sign may precede. -/
def rank? (s : String) : Option Nat :=
  let digits :=
    match s.toList with
    | '+' :: cs => cs
    | cs => cs
  if isDigits digits then some (digitsValue digits) else none

def ofWord? (s : String) : Option LogLevel :=
  match (rank? s).bind ofRank? with
  | some level => some level
  | none => ofName? s

def read (s : String) : Except Fault LogLevel :=
  match ofWord? s with
  | some level => .ok level
  | none => .error (.configuration ("Unknown log level: " ++ s))

end LogLevel

end AddressBook

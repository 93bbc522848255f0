import AddressBook.Words

/-! The arguments of the command line. Options may stand anywhere behind the command they belong to,
with their value behind an equals sign or in the next argument; two hyphens end them. A value is
looked at only when the next argument has been found to fit, so that of two faults the later one may
be reported. -/

namespace AddressBook.CommandLine

inductive Command where
  | test
  | schema
  | compile (kind : EntryClass) (filter : String)
  | search (kind : EntryClass) (filter wanted excluded : Option String) (limit : Option Nat)
  | get (kind : EntryClass) (uid : String) (wanted : Option String)
  | create (kind : EntryClass) (json : String)
  | update (kind : EntryClass) (uid json : String) (how : UpdateKind)
  | delete (kind : EntryClass) (uid : String)
  deriving DecidableEq, Repr, Inhabited

structure Invocation where
  configPath : String
  logLevel : Option String
  command : Command
  deriving DecidableEq, Repr, Inhabited

/-- Why arguments are not carried out. -/
inductive Misuse where
  /-- Help was asked for. -/
  | help
  /-- There are no arguments at all. -/
  | nothing
  | missingCommand
  | unknownCommand
  | unknownArgument
  | missingArgument
  | missingValue
  | unneededValue
  | badValue
  | repeatedOption
  deriving DecidableEq, Repr, Inhabited

/-- The arguments that belong together: options by name and short letter, and positional ones, each
with the check of its values. -/
structure Shape where
  options : List (String × Option Char × (String → Bool))
  positionals : List (String → Bool)
  /-- How many positional arguments there have to be. -/
  least : Nat

/-- The values found so far. -/
structure Found where
  options : List (String × String) := []
  positionals : List String := []
  deriving DecidableEq, Repr, Inhabited

/-- What was read last and is not yet checked. -/
inductive Pending where
  | nothing
  | optionName (name : String)
  | optionValue (name value : String)
  | positional (value : String)
  deriving DecidableEq, Repr

namespace Found

def option? (f : Found) (name : String) : Option String :=
  (f.options.find? fun entry => entry.1 == name).map Prod.snd

def addOption (shape : Shape) (f : Found) (name value : String) : Except Misuse Found :=
  if (f.option? name).isSome then .error .repeatedOption
  else
    match shape.options.find? fun option => option.1 == name with
    | some (_, _, check) =>
      if check value then .ok { f with options := f.options ++ [(name, value)] }
      else .error .badValue
    | none => .error .unknownArgument

/-- Checks what is pending and adds it. -/
def settle (shape : Shape) (f : Found) : Pending → Except Misuse Found
  | .nothing => .ok f
  | .optionName _ => .error .missingValue
  | .optionValue name value => f.addOption shape name value
  | .positional value =>
    match shape.positionals[f.positionals.length]? with
    | some check =>
      if check value then .ok { f with positionals := f.positionals ++ [value] }
      else .error .badValue
    | none => .error .unknownArgument

end Found

/-- What an argument is by its hyphens. -/
inductive Look where
  | long (name : String) (value : Option String)
  | short (letter : Char) (rest : List Char)
  | separator
  | plain
  deriving DecidableEq, Repr

def Look.ofText (s : String) : Look :=
  match s.toList with
  | ['-', '-'] => .separator
  | '-' :: '-' :: rest =>
    match Text.cutAtFirst '=' rest with
    | some (name, value) => .long (String.ofList name) (some (String.ofList value))
    | none => .long (String.ofList rest) none
  | '-' :: letter :: rest => .short letter rest
  | _ => .plain

/-- What an argument with hyphens asks for. -/
inductive Asked where
  | help
  | unneeded
  | named (option : String) (value : Option String)
  | unknown
  | separator
  | value
  deriving DecidableEq, Repr

/-- The value that is written together with a short option. -/
def attachedValue : List Char → Option String
  | [] => none
  | '=' :: rest => some (String.ofList rest)
  | rest => some (String.ofList rest)

def Shape.ask (shape : Shape) (argument : String) : Asked :=
  match Look.ofText argument with
  | .separator => .separator
  | .plain => .value
  | .long name value =>
    if name == "help" then if value.isSome then .unneeded else .help
    else if shape.options.any fun option => option.1 == name then .named name value
    else .unknown
  | .short letter rest =>
    if letter == 'h' then .help
    else
      match shape.options.find? fun option => option.2.1 == some letter with
      | some (name, _) => .named name (attachedValue rest)
      | none => .unknown

/-- Takes an option in, with its value or as the one whose value follows. -/
def takeOption (shape : Shape) (found : Found) (pending : Pending) (name : String)
    (value : Option String) : Except Misuse (Found × Pending) := do
  let found ← found.settle shape pending
  match value with
  | some value => return (← found.addOption shape name value, .nothing)
  | none => return (found, .optionName name)

/-- Asking for help settles what came before it. -/
def helpAfter {α : Type} (shape : Shape) (found : Found) (pending : Pending) : Except Misuse α := do
  discard (found.settle shape pending)
  throw .help

/-- Takes a positional argument in. -/
def takePositional (shape : Shape) (found : Found) (pending : Pending) (argument : String) :
    Except Misuse (Found × Pending) :=
  let waiting := match pending with
    | .positional _ => 1
    | _ => 0
  if found.positionals.length + waiting < shape.positionals.length then do
    return (← found.settle shape pending, .positional argument)
  else .error .unknownArgument

/-- Reads the arguments of a command; behind the separator all of them are positional. -/
def readAll (shape : Shape) (positionalOnly : Bool) (found : Found) (pending : Pending) :
    List String → Except Misuse Found
  | [] => do
    let found ← found.settle shape pending
    if found.positionals.length < shape.least then throw .missingArgument
    return found
  | argument :: rest =>
    if positionalOnly then do
      let (found, pending) ← takePositional shape found pending argument
      readAll shape true found pending rest
    else
      match shape.ask argument, pending with
      | .help, pending => helpAfter shape found pending
      | .unneeded, _ => .error .unneededValue
      | .unknown, _ => .error .unknownArgument
      | .separator, pending => readAll shape true found pending rest
      | .named name value, pending => do
        let (found, pending) ← takeOption shape found pending name value
        readAll shape false found pending rest
      | .value, .optionName name => readAll shape false found (.optionValue name argument) rest
      | .value, pending => do
        let (found, pending) ← takePositional shape found pending argument
        readAll shape false found pending rest

def anyText : String → Bool := fun _ => true

def isClass (s : String) : Bool := (EntryClass.ofWord? s).isSome

def isUpdateKind (s : String) : Bool := (UpdateKind.ofWord? s).isSome

/-- A count as digits, which a plus sign may precede. -/
def count? (s : String) : Option Nat :=
  let digits :=
    match s.toList with
    | '+' :: cs => cs
    | cs => cs
  if isDigits digits && digitsValue digits < 2 ^ 64 then some (digitsValue digits) else none

def isCount (s : String) : Bool := (count? s).isSome

def textOption (name : String) : String × Option Char × (String → Bool) := (name, none, anyText)

def shapes : List (String × Shape) :=
  [("test", ⟨[], [], 0⟩),
   ("schema", ⟨[], [], 0⟩),
   ("compile", ⟨[], [isClass, anyText], 2⟩),
   ("search", ⟨[textOption "attributes", textOption "excluded-attributes", ("limit", none, isCount)],
     [isClass, anyText], 1⟩),
   ("get", ⟨[textOption "attributes"], [isClass, anyText], 2⟩),
   ("create", ⟨[], [isClass, anyText], 2⟩),
   ("update", ⟨[("kind", none, isUpdateKind)], [isClass, anyText, anyText], 3⟩),
   ("delete", ⟨[], [isClass, anyText], 2⟩)]

def shape? (name : String) : Option Shape :=
  (shapes.find? fun entry => entry.1 == name).map Prod.snd

/-- The options in front of the command. -/
def outerShape : Shape :=
  { options := [("config", some 'c', anyText), ("log-level", none, anyText)]
    positionals := []
    least := 0 }

/-- The command that checked values stand for. -/
def commandOf (name : String) (found : Found) : Except Misuse Command :=
  let kind := (found.positionals[0]?.bind EntryClass.ofWord?).getD .account
  let second := found.positionals[1]?.getD ""
  match name with
  | "test" => .ok .test
  | "schema" => .ok .schema
  | "compile" => .ok (.compile kind second)
  | "search" =>
    .ok (.search kind found.positionals[1]? (found.option? "attributes")
      (found.option? "excluded-attributes") ((found.option? "limit").bind count?))
  | "get" => .ok (.get kind second (found.option? "attributes"))
  | "create" => .ok (.create kind second)
  | "update" =>
    .ok (.update kind second (found.positionals[2]?.getD "")
      (((found.option? "kind").bind UpdateKind.ofWord?).getD .replace))
  | "delete" => .ok (.delete kind second)
  | _ => .error .unknownCommand

def readCommand (name : String) (arguments : List String) : Except Misuse Command :=
  match shape? name with
  | none => .error .unknownCommand
  | some shape => do commandOf name (← readAll shape false {} .nothing arguments)

/-- The help command knows the commands, and itself. -/
def helpCommand (arguments : List String) : Misuse :=
  match arguments with
  | [] => .help
  | [name] => if (shape? name).isSome || name == "help" then .help else .unknownCommand
  | _ => .unknownCommand

def isCommand (name : String) : Bool := (shape? name).isSome || name == "help"

/-- Reads the options in front of the command, and the command. -/
def readOuter (positionalOnly : Bool) (found : Found) (pending : Pending) :
    List String → Except Misuse Invocation
  | [] => do
    let found ← found.settle outerShape pending
    throw (if found.options.isEmpty then .nothing else .missingCommand)
  | argument :: rest =>
    if positionalOnly then
      .error (if isCommand argument then .unknownArgument else .unknownCommand)
    else
      match outerShape.ask argument, pending with
      | .help, pending => helpAfter outerShape found pending
      | .unneeded, _ => .error .unneededValue
      | .unknown, _ => .error .unknownArgument
      | .separator, pending => readOuter true found pending rest
      | .named name value, pending => do
        let (found, pending) ← takeOption outerShape found pending name value
        readOuter false found pending rest
      | .value, .optionName name => readOuter false found (.optionValue name argument) rest
      | .value, pending =>
        if argument == "help" then .error (helpCommand rest)
        else do
          let command ← readCommand argument rest
          let found ← found.settle outerShape pending
          return {
            configPath := (found.option? "config").getD "config.yaml"
            logLevel := found.option? "log-level"
            command }

/-- Reads the arguments that follow the name of the program. -/
def Invocation.read (arguments : List String) : Except Misuse Invocation :=
  readOuter false {} .nothing arguments

end AddressBook.CommandLine

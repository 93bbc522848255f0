import AddressBook.Text.Path
import AddressBook.Text.Quoted
import AddressBook.Text.Utf8

/-! Addresses of databases: a file or the memory, and in parameters behind a question mark how it
may be used. -/

namespace AddressBook

structure Address where
  /-- The path of the file in its normal form, unless the database is in memory. -/
  file : Option String
  /-- Whether it is opened for reading only. -/
  readOnly : Bool
  /-- Whether a file that is not there is made. -/
  creates : Bool
  /-- Whether the file is taken to stay as it is. -/
  frozen : Bool
  deriving DecidableEq, Repr, Inhabited

namespace Address

/-- What is wrong with an address. -/
inductive Flaw where
  | unknownParameter (key : String)
  | unknownValue (key value : String)
  | notText (flaw : Text.Utf8.Flaw)
  | nul
  | unknownSystem (name : String)
  | foreignHost (name : String)
  deriving DecidableEq, Repr

/-- What a database says when it fails. -/
def saying (code : Nat) (text : String) : String :=
  "error returned from database: (code: " ++ toString code ++ ") " ++ text

def Flaw.message : Flaw → String
  | .unknownParameter key =>
    "error with configuration: unknown query parameter \x60" ++ key ++
      "\x60 while parsing connection URL"
  | .unknownValue key value =>
    "error with configuration: unknown value " ++ Text.quotation value ++ " for \x60" ++ key ++ "\x60"
  | .notText flaw => "error with configuration: " ++ flaw.message
  | .nul =>
    "error communicating with database: filename passed to SQLite must not contain nul bytes"
  | .unknownSystem name => saying 1 ("no such vfs: " ++ name)
  | .foreignHost name => saying 1 ("invalid uri authority: " ++ name)

structure Options where
  readOnly : Bool := false
  creates : Bool := false
  inMemory : Bool := false
  frozen : Bool := false
  /-- The file system by which the file is reached. -/
  system : Option String := none
  deriving DecidableEq, Repr, Inhabited

/-- Takes a parameter into account. A later one adds to an earlier one. -/
def Options.add (o : Options) : String × String → Except Flaw Options
  | ("mode", "ro") => .ok { o with readOnly := true }
  | ("mode", "rw") => .ok o
  | ("mode", "rwc") => .ok { o with creates := true }
  | ("mode", "memory") => .ok { o with inMemory := true }
  | ("cache", "private") => .ok o
  | ("cache", "shared") => .ok o
  | ("immutable", "true") => .ok { o with frozen := true }
  | ("immutable", "1") => .ok { o with frozen := true }
  | ("immutable", "false") => .ok { o with frozen := false }
  | ("immutable", "0") => .ok { o with frozen := false }
  | ("vfs", name) => .ok { o with system := some name }
  | (key, value) =>
    if key ∈ ["mode", "cache", "immutable"] then .error (.unknownValue key value)
    else .error (.unknownParameter key)

/-- The text of a key or value in parameters, where a plus sign stands for a space. -/
def parameterText (cs : List Char) : String :=
  String.ofList
    (Text.Utf8.readAny (Text.Utf8.unescaped (cs.map fun c => if c == '+' then ' ' else c)))

def parameters (cs : List Char) : List (String × String) :=
  ((Text.cutWhere (· == '&') cs).filter (!·.isEmpty)).map fun piece =>
    let (key, value) := (Text.cutAtFirst '=' piece).getD (piece, [])
    (parameterText key, parameterText value)

/-- Drops a mark as often as it is repeated. -/
def dropMarks (mark : List Char) : Nat → List Char → List Char
  | 0, cs => cs
  | fuel + 1, cs =>
    if mark.isPrefixOf cs then dropMarks mark fuel (cs.drop mark.length) else cs

/-- The address without the mark of its kind. -/
def withoutKind (cs : List Char) : List Char :=
  dropMarks "sqlite:".toList cs.length (dropMarks "sqlite://".toList cs.length cs)

/-- The path in a name that starts as a file's address does. -/
def filePath (cs : List Char) : Except Flaw (List Char) := do
  let path ←
    match cs with
    | '/' :: '/' :: rest =>
      let host := String.ofList (rest.takeWhile (· != '/'))
      if host = "" || host = "localhost" then pure (rest.dropWhile (· != '/'))
      else throw (.foreignHost host)
    | cs => pure cs
  return Text.Utf8.readAny (Text.Utf8.unescaped (path.takeWhile fun c => c != '?' && c != '#'))

/-- The file at a path; nothing and a certain name stand for the memory. -/
def fileAt (path : List Char) : Option String :=
  if path.isEmpty || path == ":memory:".toList then none
  else some (Text.Path.normal (String.ofList path))

/-- The file that a name stands for. -/
def fileNamed (name : List Char) : Except Flaw (Option String) := do
  let mark := "file:".toList
  if mark.isPrefixOf name then return fileAt (← filePath (name.drop mark.length))
  else return fileAt name

def fileSystems : List String := ["unix", "unix-none", "unix-dotfile", "unix-excl", "memdb"]

/-- The file under options, some of which take a name for a path. -/
def fileUnder (o : Options) (name : List Char) : Except Flaw (Option String) := do
  let system := o.system.getD "unix"
  if name.any (·.toNat == 0) then throw .nul
  else if system ∉ fileSystems then throw (.unknownSystem system)
  else if o.inMemory || system = "memdb" then return none
  else if o.frozen || o.system.isSome then return fileAt name
  else fileNamed name

def read (url : String) : Except Flaw Address := do
  let behind := withoutKind url.toList
  let (name, rest) := (Text.cutAtFirst '?' behind).getD (behind, [])
  let path ← (Text.Utf8.read (Text.Utf8.unescaped name)).mapError .notText
  let options ← (parameters rest).foldlM Options.add {}
  return {
    file := ← fileUnder options path
    readOnly := options.readOnly
    creates := options.creates && !options.readOnly
    frozen := options.frozen }

end Address

end AddressBook

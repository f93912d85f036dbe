import MemoryAtlas.Report.Containers
import MemoryAtlas.Report.Hexdump
import MemoryAtlas.Report.Objects
import MemoryAtlas.Report.Slots
import MemoryAtlas.Report.Types
import MemoryAtlas.Session.Source

namespace MemoryAtlas

/-!
The commands of a session.

A command is given the catalog and the memory as the attempts to get them, and
only those that it needs can make it fail.  The catalog is asked for first.
-/

/-- An object that a command is about. -/
structure Subject where
  target : String
  address : Address
  /-- Whether the target names an entity instead of a type. -/
  isEntity : Bool
deriving Repr, DecidableEq

/-- What a session can be asked for. -/
inductive Command where
  | check
  | offsets (subject : Subject) (other : Option Address) (form : Report.Form)
  | chain (name : String) (isClass : Bool) (object : Option Address)
  | map (a : Address) (key : String) (value : Option String) (find : Option Int) (limit : Nat)
  | string (a : Address) (wide : Bool)
  | vector (a : Address) (element : String) (limit : Nat)
  | slots (command : Report.SlotCommand)
  | hexdump (a : Address) (size : Nat)
  /-- Goes on until the count is reached, looking again after some
  milliseconds. -/
  | watch (subject : Subject) (interval : Option Nat) (count : Option Nat)
deriving Repr, DecidableEq

/-- What the commands of a session work on. -/
structure Session where
  host : Schema.Host
  decoders : Text.Decoders
  config : Config
  schema : String
  /-- The text of the schema file, if the file exists. -/
  schemaText : Option String
  snapshot : Except Failure Snapshot

namespace Session

/-- The catalog of the session. -/
def catalog (s : Session) : Except Failure Catalog :=
  Report.openCatalog s.host s.schema s.schemaText

/-- The memory of the session. -/
def memory (s : Session) : Except Failure Memory :=
  s.snapshot.map Snapshot.memory

/-- The slot directory of the session. -/
def directory (s : Session) (snapshot : Snapshot) : Except Failure Directory :=
  Report.loadDirectory snapshot.memory s.config.slots snapshot.scanRange

/-- The class chain of a live object.  Slots have no names while there is no
directory. -/
def resolvedChain (s : Session) (c : Catalog) (name : String) (isClass : Bool) (object : Address) :
    Except Failure (List String) := do
  let snapshot <- s.snapshot
  let directory := (s.directory snapshot).toOption.getD .empty
  Report.resolvedChainLines c snapshot.memory object name isClass directory

/-- What a command prints.  A watch looks once. -/
def outcome (s : Session) : Command -> Outcome
  | .check => .of (Report.checkLines s.host s.schema s.schemaText)
  | .offsets subject other form => .of do
    let c <- s.catalog
    let m <- s.memory
    Report.objectLines s.decoders c m s.config.layoutOptions subject.target subject.address
      subject.isEntity other form
  | .chain name isClass object => .of do
    let c <- s.catalog
    match object with
    | none => return Report.chainLines c name isClass
    | some object => s.resolvedChain c name isClass object
  | .map a key value find limit =>
    match (do return (<- s.catalog, <- s.memory) : Except Failure (Catalog × Memory)) with
    | .error failure => ⟨[], some failure⟩
    | .ok (c, m) => Report.mapOutcome c m a key value find limit
  | .string a wide => .of do
    Report.stringLines s.decoders (<- s.memory) a wide
  | .vector a element limit => .of do
    let c <- s.catalog
    Report.vectorLines c (<- s.memory) a element limit
  | .slots command => .of do
    let directory <- s.directory (<- s.snapshot)
    return (command.run directory).1
  | .hexdump a size => .of do
    Report.hexdump (<- s.memory) a size
  | .watch subject _ _ => .of do
    let c <- s.catalog
    Report.watchLines s.decoders c (<- s.memory) s.config.layoutOptions subject.target
      subject.address subject.isEntity (some 1) .waiting

end Session
end MemoryAtlas

import MemoryAtlas.Session.Arguments

namespace MemoryAtlas

/-!
The program.

Here files are read and lines are printed; what the lines say is decided
elsewhere.
-/

/-- The text of a file that can be read. -/
def fileText? (path : String) : IO (Option String) := do
  try return some (<- IO.FS.readFile path) catch _ => return none

/-- The bytes of a file that can be read. -/
def fileBytes? (path : String) : IO (Option (Array UInt8)) := do
  try return some (<- IO.FS.readBinFile path).data catch _ => return none

/-- The settings that are read unless another file is named. -/
def standingConfigPath : String := "memoryatlas.toml"

/-- The settings in a file.  A missing file leaves everything standing. -/
def loadConfig (path : String) : IO (Except Failure Config) := do
  match <- fileText? path with
  | none => return .ok .standing
  | text => return Config.load path text

/-- Opens the dump that is asked for. -/
def openSnapshot (request : SourceRequest) (config : Config) : IO (Except Failure Snapshot) := do
  match request.locate config with
  | .error failure => return .error failure
  | .ok (path, _) =>
    let bytes <- fileBytes? path
    let table <- fileText? (SourceRequest.tablePath path)
    return request.openIn config ⟨fun _ => bytes, fun _ => table⟩

/-- Prints a failure and gives the exit code for it. -/
def fail (failure : Failure) : IO UInt32 := do
  failure.report.forM (fun line => IO.eprintln line)
  return 1

/-- Goes on looking at an object until the count is reached.  A schema that has
changed and loads replaces the catalog. -/
partial def watchOn (s : Session) (m : Memory) (subject : Subject) (interval : Nat)
    (count : Option Nat) (looks : Nat) (c : Catalog) (file : Report.FileWatch String)
    (w : Report.Watch) : IO Unit := do
  let (changed, file) := file.changed (<- fileText? s.schema)
  let (c, w) :=
    match changed, Report.loadFile s.host file.last with
    | true, .ok c => (c, w.rebuild c subject.target subject.address subject.isEntity)
    | _, _ => (c, w)
  let (lines, w) := w.look s.decoders c s.config.layoutOptions m
  lines.forM (fun line => IO.println line)
  if count.any (fun n => n <= looks + 1) then return ()
  IO.sleep (UInt32.ofNat interval)
  watchOn s m subject interval count (looks + 1) c file w

/-- Watches an object. -/
def watch (s : Session) (subject : Subject) (interval count : Option Nat) : IO UInt32 := do
  let prepared : Except Failure (Catalog × Memory × View) := do
    let c <- s.catalog
    let m <- s.memory
    return (c, m, <- Report.viewOf c subject.target subject.address subject.isEntity)
  match prepared with
  | .error failure => fail failure
  | .ok (c, m, view) =>
    watchOn s m subject (interval.getD s.config.refreshInterval) count 0 c ⟨s.schemaText⟩ ⟨view, []⟩
    return 0

/-- Carries out a command. -/
def execute (s : Session) (command : Command) : IO UInt32 := do
  match command with
  | .watch subject interval count => watch s subject interval count
  | command =>
    let outcome := s.outcome command
    outcome.lines.forM (fun line => IO.println line)
    match outcome.failure with
    | none => return 0
    | some failure => fail failure

/-- The session that the arguments ask for, and its command. -/
def run (arguments : Arguments) (request : SourceRequest) (command : Command) : IO UInt32 := do
  match <- loadConfig ((arguments.option? "config").getD standingConfigPath) with
  | .error failure => fail failure
  | .ok config =>
    let schema := (arguments.option? "schema").getD config.schema
    let session : Session :=
      ⟨.standing, .standard, config, schema, <- fileText? schema, <- openSnapshot request config⟩
    execute session command

end MemoryAtlas

open MemoryAtlas in
/-- Carries out the command that the arguments name. -/
def main (arguments : List String) : IO UInt32 := do
  let asked := do
    let sorted <- Arguments.ofList arguments
    return (sorted, <- sorted.source, <- sorted.command)
  match asked with
  | .error fault =>
    IO.eprintln ("error: " ++ fault.message)
    return 2
  | .ok (sorted, request, command) => run sorted request command

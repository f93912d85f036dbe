import MemoryAtlas.Session.Config

namespace MemoryAtlas

/-!
Where the memory of a session comes from.

Only dumps can be opened.  A dump named on the command line counts before the
one in the settings, and so does its address.
-/

/-- The files that a session can see, by their paths. -/
structure Files where
  bytes : String -> Option (Array UInt8)
  text : String -> Option String

/-- What the command line says about the source. -/
structure SourceRequest where
  snapshot : Option String
  base : Option Address
  process : Option Nat
  attach : Bool
deriving Repr, DecidableEq

namespace SourceRequest

/-- The request that says nothing. -/
def nothing : SourceRequest :=
  ⟨none, none, none, false⟩

/-- The path of the region table that belongs to a dump: the last extension is
replaced. -/
def tablePath (path : String) : String :=
  let reversed := path.toList.reverse
  let extension := reversed.takeWhile (fun c => c != '.' && c != '/')
  let before :=
    match reversed.drop extension.length with
    | '.' :: c :: rest => if c == '/' then reversed else c :: rest
    | _ => reversed
  String.ofList before.reverse ++ ".maps"

/-- The dump that is asked for, and the address to put it at if it comes
without a region table. -/
def locate (request : SourceRequest) (config : Config) : Except Failure (String × Option Address) :=
  if request.process.isSome || request.attach then
    .error (.ofSentence "Live process access is only available on Windows")
  else
    match request.snapshot.or config.snapshot with
    | none =>
      .error (.ofSentence
        ("No memory source: pass --snapshot, --pid or --attach, "
          ++ "or set `snapshot` in the config"))
    | some path => do
      match request.base with
      | some base => return (path, some base)
      | none => return (path, <- config.snapshotBaseAddress)

/-- Opens the dump that is asked for. -/
def openIn (request : SourceRequest) (config : Config) (files : Files) : Except Failure Snapshot := do
  let (path, base) <- request.locate config
  let opened :=
    match base with
    | some base => Snapshot.ofFlatFile (files.bytes path) base
    | none => Snapshot.ofFiles (files.bytes path) (files.text (tablePath path))
  opened.mapError (fun fault =>
    (Failure.ofFault (.file fault)).during ("Failed to open snapshot " ++ path))

end SourceRequest

/-- The range that is searched for a signature when none is set: the first
region. -/
def Snapshot.scanRange (s : Snapshot) : Option (Address × Nat) :=
  s.regions.head?.map (fun r => (r.first, r.size))

end MemoryAtlas

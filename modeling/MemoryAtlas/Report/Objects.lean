import MemoryAtlas.Report.Input
import MemoryAtlas.Report.Rendering
import MemoryAtlas.Report.Tree

namespace MemoryAtlas
namespace Report

/-!
An object field by field, and what has changed since the last look.
-/

/-- The view of an object: an entity by its name, a class, or a type. -/
def viewOf (c : Catalog) (target : String) (a : Address) (isEntity : Bool) : Except Failure View :=
  if isEntity then .ok (.ofEntity a c target)
  else if c.isClass target then .ok (.ofClass a c target)
  else if (c.resolve target).isNone then .error (.ofSentence ("Unknown type " ++ target))
  else .ok (.ofStruct a target)

/-- An entry on one line, indented by its nesting. -/
def entryLine (decoders : Text.Decoders) (c : Catalog) (m : Memory) (map : OffsetMap) (e : Entry) :
    String :=
  let nesting := e.path.toList.count '.'
  Text.trimmedEnd (Text.columnHex e.address.toNat ++ "  "
    ++ String.ofList (List.replicate (2 * nesting) ' ') ++ e.path ++ "  "
    ++ valueText decoders c m map e)

/-- A difference on one line. -/
def differenceLine (d : Difference) : String :=
  let side := fun (bytes : Option (List UInt8)) => (bytes.map bytesText).getD unreadableText
  "  " ++ d.path ++ ": " ++ side d.firstBytes ++ " -> " ++ side d.secondBytes

/-- All entries, and the differences if there was something to compare with. -/
def observationLines (decoders : Text.Decoders) (c : Catalog) (m : Memory) (o : Observation) :
    List String :=
  o.offsets.toList.map (entryLine decoders c m o.offsets)
    ++ (if o.comparison.isSome then
          ["", "Differences: " ++ toString o.differences.length] ++ o.differences.map differenceLine
        else [])

/-- The forms in which an object can be reported. -/
inductive Form where
  | values
  | labels
  | json
deriving Repr, DecidableEq

/-- The object at an address in one of the forms. -/
def objectLines (decoders : Text.Decoders) (c : Catalog) (m : Memory) (options : LayoutOptions)
    (target : String) (a : Address) (isEntity : Bool) (other : Option Address) (form : Form) :
    Except Failure (List String) := do
  let view <- viewOf c target a isEntity
  let view := other.elim view view.comparedWith
  let found <- (view.refresh c options m).1.mapError (fun fault => .ofFault (.refresh fault))
  match form with
  | .json => return found.toJson.wideLines
  | .labels => return (found.offsets.labels "").map (fun (a, name) => a.text ++ " " ++ name)
  | .values => return observationLines decoders c m found

/-! ## Watching -/

/-- The values of an object by path. -/
abbrev Sample := Table String

/-- The values of all entries that have one. -/
def sampleOf (decoders : Text.Decoders) (c : Catalog) (m : Memory) (o : Observation) : Sample :=
  Table.ofBindings ((o.offsets.toList.filter (fun e => e.kind.structName?.isNone)).map
    (fun e => (e.path, valueText decoders c m o.offsets e)))

/-- The values of a view at the moment, and the view afterwards. -/
def sample (decoders : Text.Decoders) (v : View) (c : Catalog) (options : LayoutOptions)
    (m : Memory) : Except RefreshFault Sample × View :=
  let (found, v) := v.refresh c options m
  (found.map (sampleOf decoders c m), v)

/-- A line for every value that is new or has changed. -/
def changedLines (before now : Sample) : List String :=
  now.filterMap (fun (path, value) =>
    match before.find? path with
    | none => some (path ++ ": " ++ value)
    | some old => if old = value then none else some (path ++ ": " ++ old ++ " -> " ++ value))

/-- A watched object: the view and the values it last had. -/
structure Watch where
  view : View
  last : Sample

namespace Watch

/-- Looks once and says what has changed.  A look that fails says nothing. -/
def look (decoders : Text.Decoders) (w : Watch) (c : Catalog) (options : LayoutOptions)
    (m : Memory) : List String × Watch :=
  match sample decoders w.view c options m with
  | (.ok now, view) => (changedLines w.last now, ⟨view, now⟩)
  | (.error _, view) => ([], { w with view := view })

/-- Looks a number of times at an unchanging memory. -/
def looks (decoders : Text.Decoders) (c : Catalog) (options : LayoutOptions) (m : Memory) :
    Nat -> Watch -> List String
  | 0, _ => []
  | rounds + 1, w =>
    let (lines, w) := w.look decoders c options m
    lines ++ looks decoders c options m rounds w

/-- The watch under a new catalog.  A target that the catalog does not know
keeps its view. -/
def rebuild (w : Watch) (c : Catalog) (target : String) (a : Address) (isEntity : Bool) : Watch :=
  match viewOf c target a isEntity with
  | .ok view => { w with view := view }
  | .error _ => w

end Watch

/-- A signal to stop.  Once it is given it stays. -/
structure StopSignal where
  given : Bool
deriving Repr, DecidableEq

namespace StopSignal

/-- The signal before it is given. -/
def waiting : StopSignal :=
  ⟨false⟩

def trigger (_ : StopSignal) : StopSignal :=
  ⟨true⟩

/-- Waits for a while, in which the signal may be given.  Says whether it is
given in the end; one that is given already is not waited for. -/
def wait (signal : StopSignal) (triggered : Bool) : Bool × StopSignal :=
  let signal := if triggered then signal.trigger else signal
  (signal.given, signal)

end StopSignal

/-- The lines that watching an object prints.  There is always one look; then
the watch goes on until the count is reached or the signal to stop is given. -/
def watchLines (decoders : Text.Decoders) (c : Catalog) (m : Memory) (options : LayoutOptions)
    (target : String) (a : Address) (isEntity : Bool) (count : Option Nat) (signal : StopSignal) :
    Except Failure (List String) := do
  let view <- viewOf c target a isEntity
  let rounds := if (signal.wait false).1 then 1 else max 1 (count.getD 1)
  return Watch.looks decoders c options m rounds ⟨view, []⟩

/-- A file under observation by a mark that a change alters, such as the time
of its last change. -/
structure FileWatch (α : Type) where
  last : Option α
deriving Repr, DecidableEq

/-- Whether the file has changed since the last look.  A missing file has not. -/
def FileWatch.changed {α : Type} [DecidableEq α] (w : FileWatch α) (now : Option α) :
    Bool × FileWatch α :=
  if now.isSome && now != w.last then (true, ⟨now⟩) else (false, w)

end Report
end MemoryAtlas

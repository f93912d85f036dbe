import MemoryAtlas.Report.Outcome
import MemoryAtlas.Report.Rendering

namespace MemoryAtlas
namespace Report

/-!
Maps, vectors and texts of the observed program, element by element.
-/

/-- The value of a scalar at an address, nothing for other kinds. -/
def elementText (m : Memory) (s : Option Scalar) (a : Address) : String :=
  match s with
  | some s => orUnreadable ScalarValue.text (m.readScalar a s)
  | none => ""

/-! ## Maps and sets -/

/-- The layout of the nodes of a map with named types. -/
def nodeLayout (c : Catalog) (key : String) (value : Option String) : Except Failure NodeLayout :=
  match NodeLayout.ofTypes c key value with
  | some layout => .ok layout
  | none =>
    let shown := match value with
      | some name => "Some(" ++ Text.quoted name ++ ")"
      | none => "None"
    .error (.ofSentence ("Unknown key or value type (" ++ key ++ " / " ++ shown ++ ")"))

/-- An element of a map or set on one line. -/
def nodeLine (c : Catalog) (m : Memory) (layout : NodeLayout) (value : Option String) (key : Int)
    (node : Address) : String :=
  let start := "  [" ++ toString key ++ "] node " ++ node.text
  match layout.valueAddress node with
  | none => start
  | some a =>
    let s := (value.bind c.valueShape).bind (fun shape => shape.kind.scalar?)
    Text.trimmedEnd (start ++ " -> " ++ a.text ++ " " ++ elementText m s a)

/-- The element with one key. -/
def findLines (c : Catalog) (m : Memory) (tree : OrderedTree) (value : Option String) (key : Int) :
    Except Failure (List String) := do
  let node <- liftMemory (tree.find m key)
  if node = (<- liftMemory (tree.finish m)) then return [toString key ++ " not found"]
  else return [nodeLine c m tree.layout value key node]

/-- The first elements in order. -/
def nodeLines (c : Catalog) (m : Memory) (tree : OrderedTree) (value : Option String) (limit : Nat) :
    Except Failure (List String) := do
  let nodes <- liftMemory (tree.nodes m limit)
  nodes.mapM (fun node => do
    let node <- liftMemory node
    let key <- liftMemory (tree.layout.readKey m node)
    return nodeLine c m tree.layout value key node)

/-- The heading of a listed map. -/
def mapHeading (tree : OrderedTree) (size : Nat) : String :=
  let value := match tree.layout.valueOffset with
    | some offset => "Some(" ++ toString offset ++ ")"
    | none => "None"
  "Map at " ++ tree.base.text ++ ": " ++ toString size ++ " entries (key +"
    ++ Text.hex tree.layout.keyOffset ++ ", value " ++ value ++ ")"

/-- A listed map.  The heading is printed before the elements are read. -/
def listMap (c : Catalog) (m : Memory) (tree : OrderedTree) (value : Option String) (limit : Nat) :
    Outcome :=
  match liftMemory (tree.size m) with
  | .error failure => ⟨[], some failure⟩
  | .ok size =>
    let listed := (nodeLines c m tree value limit).map (fun lines =>
      if lines.length < size then lines ++ ["... " ++ toString (size - lines.length) ++ " more"]
      else lines)
    (Outcome.of listed).after [mapHeading tree size]

/-- A map or set at an address, or its element with one key. -/
def mapOutcome (c : Catalog) (m : Memory) (a : Address) (key : String) (value : Option String)
    (find : Option Int) (limit : Nat) : Outcome :=
  match nodeLayout c key value with
  | .error failure => ⟨[], some failure⟩
  | .ok layout =>
    match find with
    | some wanted => .of (findLines c m ⟨a, layout⟩ value wanted)
    | none => listMap c m ⟨a, layout⟩ value limit

/-! ## Vectors and texts -/

/-- A vector at an address with its first elements. -/
def vectorLines (c : Catalog) (m : Memory) (a : Address) (element : String) (limit : Nat) :
    Except Failure (List String) := do
  let shape <-
    match c.valueShape element with
    | some shape => pure shape
    | none => throw (.ofSentence ("Unknown element type " ++ element))
  let vector : ForeignVector := ⟨a, shape.size⟩
  let length <- liftMemory (vector.length m)
  let capacity <- liftMemory (vector.capacity m)
  let elements <- liftMemory (vector.elements m limit)
  let heading := toString length ++ " x " ++ element ++ " (" ++ toString shape.size
    ++ " bytes each), capacity " ++ toString capacity
  let lines := elements.zipIdx.map (fun (a, i) =>
    Text.trimmedEnd ("  [" ++ toString i ++ "] " ++ a.text ++ " "
      ++ elementText m shape.kind.scalar? a))
  let more := if limit < length then ["  ... " ++ toString (length - limit) ++ " more"] else []
  return heading :: lines ++ more

/-- A text at an address and where it is kept. -/
def stringLines (decoders : Text.Decoders) (m : Memory) (a : Address) (wide : Bool) :
    Except Failure (List String) :=
  liftMemory (do
    let s := ForeignString.of a (if wide then 2 else 1)
    let place <-
      if <- s.isInline m then pure "inline"
      else do pure ("heap " ++ (<- s.dataAddress m).text)
    let length <- s.length m
    let capacity <- s.capacity m
    let text <- s.text decoders m
    return ["length " ++ toString length ++ " / capacity " ++ toString capacity ++ " (" ++ place ++ ")",
      Text.quoted text])

end Report
end MemoryAtlas

import MemoryAtlas.Report.Outcome
import MemoryAtlas.Schema.Loading
import MemoryAtlas.Slots.Resolution

namespace MemoryAtlas
namespace Report

/-!
What a schema says, without or with a look at one live object.
-/

/-- The catalog of a schema file, `none` standing for a file that does not
exist. -/
def loadFile (host : Schema.Host) (text : Option String) : Except Fault Catalog :=
  match text with
  | none => .error (.file .notFound)
  | some text => (Schema.loadText host text).mapError .schema

/-- The catalog of the schema file of a session. -/
def openCatalog (host : Schema.Host) (name : String) (text : Option String) :
    Except Failure Catalog :=
  (loadFile host text).mapError (fun fault =>
    (Failure.ofFault fault).during ("Failed to load schema " ++ name))

/-- The summary of a schema file that loads. -/
def checkLines (host : Schema.Host) (name : String) (text : Option String) :
    Except Failure (List String) :=
  match loadFile host text with
  | .error fault => .error ((Failure.ofFault fault).during ("Schema " ++ name ++ " rejected"))
  | .ok c =>
    .ok ["Schema OK: " ++ name,
      "  structs:        " ++ toString c.structCount,
      "  entity classes: " ++ toString c.classCount,
      "  class rules:    " ++ toString c.rules.length]

/-- The class chain of a class, or of an entity by its name. -/
def chainOf (c : Catalog) (name : String) (isClass : Bool) : List String :=
  if isClass then c.ancestors name else c.chainFor name

/-- A declared function on one line. -/
def functionText (f : VirtualFunction) : String :=
  "[" ++ toString f.index ++ "] " ++ f.returns ++ " " ++ f.owner ++ "::" ++ f.name
    ++ "(" ++ f.params ++ ")"

/-- The functions at the end of a chain. -/
def functionsAtEnd (c : Catalog) (chain : List String) : List VirtualFunction :=
  (chain.getLast?.map c.functionsOf).getD []

/-- A chain and its declared functions. -/
def chainLines (c : Catalog) (name : String) (isClass : Bool) : List String :=
  let chain := chainOf c name isClass
  " -> ".intercalate chain :: (functionsAtEnd c chain).map (fun f => "  " ++ functionText f)

/-- A resolved function on one line. -/
def resolvedText (r : ResolvedFunction) : String :=
  "  " ++ functionText r.function ++ "  slot " ++ r.slotAddress.text ++ " -> " ++ r.codeAddress.text
    ++ (match r.slot with
        | some slot => " (table slot " ++ toString slot ++ ")"
        | none => "")
    ++ (if r.names.isEmpty then "" else " [" ++ ", ".intercalate r.names ++ "]")

/-- A chain and its functions as a live object has them. -/
def resolvedChainLines (c : Catalog) (m : Memory) (object : Address) (name : String)
    (isClass : Bool) (d : Directory) : Except Failure (List String) := do
  let chain := chainOf c name isClass
  let resolved <- liftMemory (resolveFunctions m object (functionsAtEnd c chain) d)
  return " -> ".intercalate chain :: resolved.map resolvedText

end Report
end MemoryAtlas

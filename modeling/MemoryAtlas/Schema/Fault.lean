namespace MemoryAtlas
namespace Schema

/-!
Why a schema document is refused.

Every fault names the first reference that is wrong, so that its message can be
shown as it is.
-/

/-- What can be wrong inside one declaration. -/
inductive FieldProblem where
  | gapMarkedPointer
  | gapWithoutSize
  | textWithoutSize
  | flagsElsewhere
  | statesElsewhere
  | zeroCount
  | badTitleKey (key : String)
  | badFunctionIndex (index : String)
deriving Repr, DecidableEq

def FieldProblem.message : FieldProblem -> String
  | .gapMarkedPointer => "skip element cannot be marked as pointer"
  | .gapWithoutSize => "skip needs `offset`"
  | .textWithoutSize => "fixed size string needs `offset`"
  | .flagsElsewhere => "`flags` on a non-flags field"
  | .statesElsewhere => "`states` on a non-state field"
  | .zeroCount => "`count` must be at least 1"
  | .badTitleKey key => "title key `" ++ key ++ "` is not a number"
  | .badFunctionIndex index => "virtual function index `" ++ index ++ "` is not a number"

/-- What can be wrong with a document. -/
inductive Fault where
  | malformed
  | unresolvedType (owner name : String)
  | duplicateField (owner field : String)
  | unknownTitles (owner name : String)
  | unknownParent (className parent : String)
  | cyclicHierarchy (className : String)
  | hierarchyTooDeep (className : String) (limit : Nat)
  | invalidRule (pattern : String)
  | unknownRuleClass (pattern className : String)
  | recursiveEmbedding (name : String) (path : List String)
  | invalidField (owner : String) (problem : FieldProblem)
  | invalidAlignment (name : String) (alignment : Nat)
deriving Repr, DecidableEq

def Fault.message : Fault -> String
  | .malformed => "Malformed schema document"
  | .unresolvedType owner name =>
    "Unresolved type `" ++ name ++ "` referenced by (" ++ owner ++ ")"
  | .duplicateField owner field =>
    "Struct (" ++ owner ++ ") contains duplicate field name: (" ++ field ++ ")"
  | .unknownTitles owner name => "Unknown ref `" ++ name ++ "` referenced by (" ++ owner ++ ")"
  | .unknownParent className parent =>
    "Entity class `" ++ className ++ "` has unknown parent `" ++ parent ++ "`"
  | .cyclicHierarchy className =>
    "Entity class hierarchy contains a cycle through `" ++ className ++ "`"
  | .hierarchyTooDeep className limit =>
    "Entity class `" ++ className ++ "` is more than " ++ toString limit ++ " levels below the root"
  | .invalidRule pattern => "Invalid class rule `" ++ pattern ++ "`"
  | .unknownRuleClass pattern className =>
    "Class rule `" ++ pattern ++ "` assigns unknown class `" ++ className ++ "`"
  | .recursiveEmbedding name path =>
    "Struct `" ++ name ++ "` embeds itself by value (" ++ " -> ".intercalate path ++ ")"
  | .invalidField owner problem => "Invalid field (" ++ owner ++ "): " ++ problem.message
  | .invalidAlignment name alignment =>
    "Invalid alignment " ++ toString alignment ++ " for struct `" ++ name ++ "`, allowed range: 1-8"

end Schema
end MemoryAtlas

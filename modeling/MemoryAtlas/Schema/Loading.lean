import MemoryAtlas.Json.Reader
import MemoryAtlas.Schema.Catalog
import MemoryAtlas.Schema.Document
import MemoryAtlas.Schema.Embedding

namespace MemoryAtlas
namespace Schema

/-!
From a document to a catalog.

Loading goes through the sections one after the other and stops at the first
thing that is wrong.  Titles and functions are gathered while fields are read,
because a field can bring its own.
-/

/-- What the fields read so far have brought along. -/
structure Gathered where
  titleNames : Table String
  titleTables : Table TitleTable
  functions : Table (List VirtualFunction)

/-! ## Names -/

/-- The members of a section that lists structures; each has to be declared. -/
def checkMembers (document : Document) (listing : String) (members : List String) :
    Except Fault (List String) :=
  match members.find? (fun name => !document.structs.contains name) with
  | some name => .error (.unresolvedType listing name)
  | none => .ok members

/-- The names that a document declares.  Those of the classes are kept in the
order in which they are visited. -/
def collectNames (order : VisitingOrder) (document : Document) : Except Fault TypeNames := do
  let pointers <- checkMembers document "pointer_types" document.pointerTypes
  let inlines <- checkMembers document "inline_struct_types" document.inlineTypes
  let entities := order.arrange (Table.names (Table.insert rootClass rootClass document.hierarchy))
  match document.entities.names.find? (fun name => !entities.contains name) with
  | some name => throw (.unresolvedType "entity_fields" name)
  | none => return { pointers, inlines, structs := document.structs.names, entities }

/-- The declared alignments, which have to lie between 1 and 8. -/
def checkAlignments (alignments : Table Nat) : Except Fault (Table Nat) :=
  match List.find? (fun entry => entry.2 < 1 || 8 < entry.2) alignments with
  | some (name, alignment) => .error (.invalidAlignment name alignment)
  | none => .ok alignments

/-! ## Rules and titles -/

/-- The pattern text that matches whole names only. -/
def wholeName (pattern : String) : String :=
  "^(?:" ++ pattern ++ ")$"

/-- A class rule.  The pattern is looked at before the class. -/
def loadRule (engine : Regex.Engine) (entities : List String) (decl : RuleDecl) :
    Except Fault ClassRule :=
  match engine.compile (wholeName decl.pattern) with
  | none => .error (.invalidRule decl.pattern)
  | some occursIn =>
    if entities.contains decl.className then .ok ⟨decl.pattern, occursIn, decl.className⟩
    else .error (.unknownRuleClass decl.pattern decl.className)

/-- The number that a title is written for, in decimal or after `0x` in
hexadecimal. -/
def titleKey? (key : String) : Option Int :=
  let key := Text.trim key.toList
  let number :=
    match key with
    | '0' :: 'x' :: digits => Text.readNumeral 16 (.signed 64) digits
    | digits => Text.readNumeral 10 (.signed 64) digits
  number.toOption

/-- A table of titles.  Of several keys for one number the last counts. -/
def loadTitles (owner : String) (titles : Table String) : Except Fault TitleTable :=
  titles.foldlM
    (fun table entry =>
      match titleKey? entry.1 with
      | some key => .ok (table.insert key entry.2)
      | none => .error (.invalidField owner (.badTitleKey entry.1)))
    []

/-! ## Functions -/

/-- The functions of one list, in the order of their written indices. -/
def readFunctions (owner : String) (decls : Table FunctionDecl) :
    Except Fault (List VirtualFunction) :=
  decls.mapM (fun entry =>
    match Text.readWord 10 32 (Text.trim entry.1.toList) with
    | .ok index => .ok ⟨index, entry.2.name, entry.2.params, entry.2.returns, owner⟩
    | .error _ => .error (.invalidField owner (.badFunctionIndex entry.1)))

/-- Adds the functions of one list to those of their owner. -/
def addFunctions (owner : String) (decls : Table FunctionDecl) (g : Gathered) :
    Except Fault Gathered := do
  let added <- readFunctions owner decls
  let before := (g.functions.find? owner).getD []
  return { g with functions := Table.insert owner (before ++ added) g.functions }

/-! ## Fields -/

/-- The element type of a container; eight-byte words where none is named. -/
def parameterType (names : TypeNames) (path : String) (name : Option String) : Except Fault String :=
  match name with
  | none => .ok "UnsignedQword"
  | some name =>
    if (names.resolve name).isSome then .ok name else .error (.unresolvedType path name)

/-- The kind that a type name and the arguments beside it declare. -/
def baseKind (names : TypeNames) (owner : String) (decl : FieldDecl) : Except Fault Kind :=
  let path := owner ++ "." ++ decl.name
  match StandardType.ofName? decl.typeName with
  | some .gap =>
    if decl.pointer then .error (.invalidField path .gapMarkedPointer)
    else
      match decl.offset with
      | none => .error (.invalidField path .gapWithoutSize)
      | some bytes => .ok (.skip bytes)
  | some .wideText =>
    match decl.offset with
    | none => .error (.invalidField path .textWithoutSize)
    | some bytes => .ok (.fixedArray (.scalar ⟨2, .char16⟩) (bytes / 2))
  | some .narrowText =>
    match decl.offset with
    | none => .error (.invalidField path .textWithoutSize)
    | some bytes => .ok (.fixedArray (.scalar ⟨1, .unsigned⟩) bytes)
  | some .vector => do return .dynamicArray (<- parameterType names path decl.elementType)
  | some .map => do
    let key <- parameterType names path decl.keyType
    let value <- parameterType names path decl.valueType
    return .orderedMap key (some value)
  | some .set => do return .orderedMap (<- parameterType names path decl.keyType) none
  | some .string => .ok (.foreignString 1)
  | some .wideString => .ok (.foreignString 2)
  | some .functionTable => .ok (.slotTable owner)
  | some (.scalar s) => .ok (.scalar s)
  | none =>
    match names.resolve decl.typeName with
    | some kind => .ok kind
    | none => .error (.unresolvedType path decl.typeName)

/-- The functions that a field for a function table brings along. -/
def gatherFunctions (owner : String) (decl : FieldDecl) (g : Gathered) : Except Fault Gathered :=
  match StandardType.ofName? decl.typeName, decl.functions with
  | some .functionTable, some functions => addFunctions owner functions g
  | _, _ => .ok g

/-- The titles that a flags or state field names or brings along. -/
def gatherTitles (path : String) (decl : FieldDecl) (g : Gathered) : Except Fault Gathered :=
  let standard := StandardType.ofName? decl.typeName
  let isFlags := standard.any StandardType.isFlags
  let isState := standard.any StandardType.isState
  if decl.flags.isSome && !isFlags then .error (.invalidField path .flagsElsewhere)
  else if decl.states.isSome && !isState then .error (.invalidField path .statesElsewhere)
  else if !isFlags && !isState then .ok g
  else
    match decl.titles, decl.flags.or decl.states with
    | some name, _ =>
      if g.titleTables.contains name then
        .ok { g with titleNames := Table.insert path name g.titleNames }
      else .error (.unknownTitles path name)
    | none, some titles => do
      let table <- loadTitles path titles
      return { g with titleTables := Table.insert path table g.titleTables
                      titleNames := Table.insert path path g.titleNames }
    | none, none => .ok g

/-- The kind with the marks of the field applied: pointer first, then count. -/
def markedKind (path : String) (decl : FieldDecl) (kind : Kind) : Except Fault Kind :=
  let kind :=
    match decl.pointer, kind with
    | true, .ownedPointer name => .ownedPointer name
    | true, kind => .pointerTo kind
    | false, kind => kind
  match decl.count with
  | none => .ok kind
  | some 0 => .error (.invalidField path .zeroCount)
  | some count => .ok (.fixedArray kind count)

/-- One declared field. -/
def loadField (names : TypeNames) (owner : String) (decl : FieldDecl) (g : Gathered) :
    Except Fault (Field × Gathered) := do
  let path := owner ++ "." ++ decl.name
  let kind <- baseKind names owner decl
  let g <- gatherFunctions owner decl g
  let g <- gatherTitles path decl g
  let kind <- markedKind path decl kind
  return (⟨decl.name, kind, decl.typeName, decl.declaredOffset, decl.comment⟩, g)

/-- The fields with one more, whose name has to be new. -/
def appendField (owner : String) (fields : List Field) (field : Field) : Except Fault (List Field) :=
  if fields.any (fun f => f.name == field.name) then .error (.duplicateField owner field.name)
  else .ok (fields ++ [field])

/-- The fields of a structure. -/
def loadFields (names : TypeNames) (owner : String) (decls : List FieldDecl) (g : Gathered) :
    Except Fault (List Field × Gathered) :=
  decls.foldlM
    (fun (fields, g) decl => do
      let (field, g) <- loadField names owner decl g
      return (<- appendField owner fields field, g))
    ([], g)

/-- The entries of a class. -/
def loadEntries (names : TypeNames) (owner : String) (entries : List EntityEntry) (g : Gathered) :
    Except Fault (List Field × Gathered) :=
  entries.foldlM
    (fun (fields, g) entry => do
      match entry with
      | .functions decls => return (fields, <- addFunctions owner decls g)
      | .field decl =>
        let (field, g) <- loadField names owner decl g
        return (<- appendField owner fields field, g))
    ([], g)

/-- The fields of all declarations, one after the other. -/
def loadAll {α : Type} (load : String -> α -> Gathered -> Except Fault (List Field × Gathered))
    (decls : Table α) (g : Gathered) : Except Fault (Table (List Field) × Gathered) :=
  decls.foldlM
    (fun (tables, g) decl => do
      let (fields, g) <- load decl.1 decl.2 g
      return (tables ++ [(decl.1, fields)], g))
    ([], g)

/-! ## The whole document -/

/-- The fields of the first of several tables that has the name. -/
def fieldsIn (tables : List (Table (List Field))) (name : String) : List Field :=
  (tables.findSome? (fun table => table.find? name)).getD []

/-- The function lists by ascending index, equal indices in declared order. -/
def sortFunctions (functions : Table (List VirtualFunction)) : Table (List VirtualFunction) :=
  functions.map (fun entry => (entry.1, entry.2.mergeSort (fun a b => a.index <= b.index)))

/-- The function lists of types, outside of any field. -/
def loadTypeFunctions (names : TypeNames) (decls : Table (Table FunctionDecl)) (g : Gathered) :
    Except Fault Gathered :=
  decls.foldlM
    (fun g entry =>
      if (names.resolve entry.1).isNone then .error (.unresolvedType "vftablefunctions" entry.1)
      else addFunctions entry.1 entry.2 g)
    g

/-- The catalog of a document. -/
def load (host : Host) (document : Document) : Except Fault Catalog := do
  let names <- collectNames host.classes document
  let alignments <- checkAlignments document.alignments
  let parents <- checkHierarchy host.parents document.hierarchy
  let rules <- document.rules.mapM (loadRule host.engine names.entities)
  let titleTables <- document.titles.mapM (fun entry => do
    return (entry.1, <- loadTitles ("refs." ++ entry.1) entry.2))
  let (structs, g) <- loadAll (loadFields names) document.structs ⟨[], titleTables, []⟩
  let classes := names.entities.map (fun name => (name, (document.entities.find? name).getD []))
  let (entities, g) <- loadAll (loadEntries names) classes g
  let g <- loadTypeFunctions names document.functions g
  let isPointer := fun (entry : String × List Field) => names.pointers.contains entry.1
  let isInline := fun (entry : String × List Field) => names.inlines.contains entry.1
  let pointers := structs.filter isPointer
  let inlines := structs.filter (fun entry => !isPointer entry && isInline entry)
  let composites := structs.filter (fun entry => !isPointer entry && !isInline entry)
  let tables := [composites, pointers, inlines, entities]
  let tableNames := (tables.flatMap Table.names).mergeSort (fun a b => a <= b)
  checkEmbedding (fieldsIn tables) tableNames
  return { names, composites, pointers, inlines, entities, parents, rules
           titleNames := g.titleNames
           titleTables := g.titleTables
           functions := sortFunctions g.functions
           alignments }

/-- The document that a text is. -/
def readDocument (text : String) : Except Fault Document :=
  match (Json.parse text).bind Document.decode with
  | some document => .ok document
  | none => .error .malformed

/-- The catalog of a schema text. -/
def loadText (host : Host) (text : String) : Except Fault Catalog :=
  readDocument text >>= load host

end Schema
end MemoryAtlas

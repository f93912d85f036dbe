import MemoryAtlas.Json.Decoding

namespace MemoryAtlas
namespace Schema

open Json

/-!
Schema documents as they are written.

A document declares structures and entity classes with their fields, says
which structures are pointer types or inline, and adds titles, class rules and
virtual functions.  All sections may be missing.  What is decoded here is only
the form of the document; whether its names make sense is decided when it is
loaded.
-/

/-- A declared virtual function. -/
structure FunctionDecl where
  name : String
  params : String
  returns : String
deriving Repr, DecidableEq

/-- A declared field. -/
structure FieldDecl where
  name : String
  typeName : String
  comment : Option String
  pointer : Bool
  /-- The number of bytes of a gap or of a text of fixed size. -/
  offset : Option Nat
  declaredOffset : Option Nat
  count : Option Nat
  flags : Option (Table String)
  states : Option (Table String)
  titles : Option String
  keyType : Option String
  valueType : Option String
  elementType : Option String
  functions : Option (Table FunctionDecl)
deriving Repr, DecidableEq

/-- An entry in the field list of an entity class. -/
inductive EntityEntry where
  | functions (decls : Table FunctionDecl)
  | field (decl : FieldDecl)
deriving Repr, DecidableEq

/-- A rule that gives entities a class by their names. -/
structure RuleDecl where
  pattern : String
  className : String
deriving Repr, DecidableEq

/-- A whole document. -/
structure Document where
  hierarchy : Table String
  rules : List RuleDecl
  pointerTypes : List String
  inlineTypes : List String
  alignments : Table Nat
  titles : Table (Table String)
  structs : Table (List FieldDecl)
  entities : Table (List EntityEntry)
  functions : Table (Table FunctionDecl)
deriving Repr, DecidableEq

/-- The document in which every section is missing. -/
def Document.empty : Document :=
  ⟨[], [], [], [], [], [], [], [], []⟩

/-! ## Reading the form of a document -/

def decodeFunction (json : Json) : Option FunctionDecl := do
  match <- recordFields ["name", "params", "return"] 0 json with
  | [name, params, returns] =>
    return { name := <- otherwise "unnamed function" decodeText name
             params := <- otherwise "" decodeText params
             returns := <- otherwise "void" decodeText returns }
  | _ => none

def decodeField (json : Json) : Option FieldDecl := do
  match <- recordFields
      ["field", "type", "comment", "pointer", "offset", "declared_offset", "count", "flags",
       "states", "ref", "keytype", "valuetype", "vectortype", "functions"] 14 json with
  | [name, typeName, comment, pointer, offset, declaredOffset, count, flags, states, titles,
      keyType, valueType, elementType, functions] =>
    return { name := <- required decodeText name
             typeName := <- required decodeText typeName
             comment := <- optionally decodeText comment
             pointer := <- otherwise false decodeFlag pointer
             offset := <- optionally (decodeNatural (wordCount 64)) offset
             declaredOffset := <- optionally (decodeNatural (wordCount 64)) declaredOffset
             count := <- optionally (decodeNatural (wordCount 64)) count
             flags := <- optionally (decodeTable decodeText) flags
             states := <- optionally (decodeTable decodeText) states
             titles := <- optionally decodeText titles
             keyType := <- optionally decodeText keyType
             valueType := <- optionally decodeText valueType
             elementType := <- optionally decodeText elementType
             functions := <- optionally (decodeTable decodeFunction) functions }
  | _ => none

def decodeRule (json : Json) : Option RuleDecl := do
  match <- recordFields ["pattern", "class"] 2 json with
  | [pattern, className] =>
    return ⟨<- required decodeText pattern, <- required decodeText className⟩
  | _ => none

/-- The functions of an entry that is an object with a list of functions. -/
def decodeFunctionEntry (json : Json) : Option (Table FunctionDecl) :=
  match json with
  | .object _ => do
    match <- recordFields ["vftablefunctions"] 0 json with
    | [functions] => required (decodeTable decodeFunction) functions
    | _ => none
  | _ => none

/-- The nesting of arrays and objects that is still allowed inside the field
list of an entity class. -/
def entryDepthLimit : Nat := 124

/-- An entry of a class: functions if it can be read as such, a field
otherwise.  The whole entry has to be well formed, its unknown members
included. -/
def decodeEntityEntry (json : Json) : Option EntityEntry :=
  if json.isSound && json.depth <= entryDepthLimit then
    match decodeFunctionEntry json with
    | some functions => some (.functions functions)
    | none => (decodeField json).map .field
  else none

/-- The document that a JSON value is, if it has the form of one. -/
def Document.decode (json : Json) : Option Document := do
  match <- recordFields
      ["entity_class_hierarchy", "default_entity_types", "pointer_types", "inline_struct_types",
       "struct_alignments", "refs", "fields", "entity_fields", "vftablefunctions"] 0 json with
  | [hierarchy, rules, pointerTypes, inlineTypes, alignments, titles, structs, entities,
      functions] =>
    return { hierarchy := <- otherwise [] (decodeTable decodeText) hierarchy
             rules := <- otherwise [] (decodeList decodeRule) rules
             pointerTypes := <- otherwise [] (decodeList decodeText) pointerTypes
             inlineTypes := <- otherwise [] (decodeList decodeText) inlineTypes
             alignments := <- otherwise [] (decodeTable (decodeNatural 256)) alignments
             titles := <- otherwise [] (decodeTable (decodeTable decodeText)) titles
             structs := <- otherwise [] (decodeTable (decodeList decodeField)) structs
             entities := <- otherwise [] (decodeTable (decodeList decodeEntityEntry)) entities
             functions := <- otherwise [] (decodeTable (decodeTable decodeFunction)) functions }
  | _ => none

end Schema
end MemoryAtlas

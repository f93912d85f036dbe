import MemoryAtlas.Json.Decoding
import MemoryAtlas.Report.Input
import MemoryAtlas.Slots.Signature
import MemoryAtlas.Toml.Reader

namespace MemoryAtlas

/-!
The settings of a session.

A configuration says where the schema and the memory come from, how often and
how far to look, and where the slot table is.  Everything in it has a standing
value.  Addresses are kept as they are written and read when they are needed.
-/

/-- Where the slot table is and which of its functions have known names. -/
structure SlotSettings where
  /-- A fixed start, which counts before the signature. -/
  tableStart : Option String
  slotCount : Nat
  signature : Option Signature
  scanStart : Option String
  scanLength : Option Nat
  /-- Code addresses and their names. -/
  symbols : Table String
deriving Repr, DecidableEq

namespace SlotSettings

def standing : SlotSettings :=
  ⟨none, 0, none, none, none, []⟩

/-- An address that may be missing. -/
def readOptional (text : Option String) : Except Failure (Option Address) :=
  match text with
  | none => .ok none
  | some text => (Report.readAddress text).map some

/-- Names by address, in ascending order of the addresses. -/
def insertSymbol (a : Address) (name : String) : List (Address × String) -> List (Address × String)
  | [] => [(a, name)]
  | (other, old) :: rest =>
    if a = other then (a, name) :: rest
    else if a < other then (a, name) :: (other, old) :: rest
    else (other, old) :: insertSymbol a name rest

/-- The known names by address.  Of several spellings of one address the last
counts. -/
def symbolTable (s : SlotSettings) : Except Failure (List (Address × String)) :=
  s.symbols.foldlM
    (fun table entry => do return insertSymbol (<- Report.readAddress entry.1) entry.2 table) []

end SlotSettings

/-- The settings of a session. -/
structure Config where
  schema : String
  /-- The dump that is used when no other memory is asked for. -/
  snapshot : Option String
  /-- The address of a dump without a region table. -/
  snapshotBase : Option String
  processName : String
  refreshInterval : Nat
  pointerDepth : Nat
  slots : SlotSettings
deriving Repr, DecidableEq

namespace Config

open Json

def standing : Config :=
  ⟨"schema.json", none, none, "Spel2.exe", 500, 8, .standing⟩

def decodeSignature (json : Json) : Option Signature := do
  match <- recordFields ["pattern", "instr_offset", "disp_offset", "instr_len"] 4 json with
  | [pattern, instruction, displacement, length] =>
    return { pattern := <- required decodeText pattern
             instruction := <- otherwise 0 (decodeNatural (wordCount 64)) instruction
             displacement := <- required (decodeNatural (wordCount 64)) displacement
             length := <- required (decodeNatural (wordCount 64)) length }
  | _ => none

def decodeSlots (json : Json) : Option SlotSettings := do
  match <- recordFields
      ["table_start", "slot_count", "signature", "scan_start", "scan_len", "symbols"] 0 json with
  | [tableStart, slotCount, signature, scanStart, scanLength, symbols] =>
    return { tableStart := <- optionally decodeText tableStart
             slotCount := <- otherwise 0 (decodeNatural (wordCount 32)) slotCount
             signature := <- optionally decodeSignature signature
             scanStart := <- optionally decodeText scanStart
             scanLength := <- optionally (decodeNatural (wordCount 64)) scanLength
             symbols := <- otherwise [] (decodeTable decodeText) symbols }
  | _ => none

def decode (json : Json) : Option Config := do
  match <- recordFields
      ["schema", "snapshot", "snapshot_base", "process_name", "refresh_interval_ms",
       "max_pointer_depth", "vtable"] 0 json with
  | [schema, snapshot, snapshotBase, processName, refreshInterval, pointerDepth, slots] =>
    return { schema := <- otherwise standing.schema decodeText schema
             snapshot := <- optionally decodeText snapshot
             snapshotBase := <- optionally decodeText snapshotBase
             processName := <- otherwise standing.processName decodeText processName
             refreshInterval := <- otherwise standing.refreshInterval (decodeNatural (wordCount 64)) refreshInterval
             pointerDepth := <- otherwise standing.pointerDepth (decodeNatural (wordCount 64)) pointerDepth
             slots := <- otherwise .standing decodeSlots slots }
  | _ => none

/-- The settings in a file, `none` standing for a file that does not exist. -/
def load (path : String) (text : Option String) : Except Failure Config :=
  match text with
  | none => .error ⟨["Failed to read config " ++ path, FileFault.notFound.reason], none⟩
  | some text =>
    match (Toml.parse text).bind decode with
    | some config => .ok config
    | none => .error ((Failure.ofFault .settings).during ("Invalid config " ++ path))

/-- The address of a dump without a region table. -/
def snapshotBaseAddress (c : Config) : Except Failure (Option Address) :=
  SlotSettings.readOptional c.snapshotBase

/-- How far pointers are followed in this session. -/
def layoutOptions (c : Config) : LayoutOptions :=
  { pointerDepth := c.pointerDepth }

end Config
end MemoryAtlas

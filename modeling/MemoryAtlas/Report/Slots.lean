import MemoryAtlas.Session.Config

namespace MemoryAtlas
namespace Report

/-!
Questions to the slot directory.
-/

/-- The first address of the slot table: set outright, or found by its
signature. -/
def tableStart (m : Memory) (s : SlotSettings) (range : Option (Address × Nat)) :
    Except Failure Address := do
  match <- SlotSettings.readOptional s.tableStart, s.signature with
  | some start, _ => return start
  | none, none =>
    throw (.ofSentence "Set [vtable] table_start or [vtable.signature] in the config")
  | none, some signature =>
    let range :=
      match <- SlotSettings.readOptional s.scanStart, s.scanLength with
      | some start, some size => some (start, size)
      | _, _ => range
    match range with
    | none => throw (.ofSentence "No scan region for the vtable signature")
    | some (start, size) =>
      (signature.locate m start size).mapError (fun fault => .ofFault fault.toFault)

/-- The directory that the settings describe. -/
def loadDirectory (m : Memory) (s : SlotSettings) (range : Option (Address × Nat)) :
    Except Failure Directory := do
  let start <- tableStart m s range
  let symbols <- s.symbolTable
  (Directory.load m start s.slotCount (fun a => symbols.lookup a)).mapError
    (fun fault => .ofFault (.slots fault))

/-- A question to the directory, or a name for one of its slots. -/
inductive SlotCommand where
  /-- The slot at an address, or the slots that hold it. -/
  | lookup (a : Address)
  /-- The nearest labeled slot at or below a number. -/
  | nearest (number : Nat)
  | label (a : Address) (name : String)
  /-- All slots that have a name. -/
  | named
deriving Repr, DecidableEq

/-- A slot on one line. -/
def slotLine (d : Directory) (s : Slot) : String :=
  "slot " ++ toString s.number ++ " @ " ++ (d.addressOf s).text ++ " -> " ++ s.value.text
    ++ (if s.isValid then "" else " (not code)")
    ++ (if s.names.isEmpty then ""
        else " [" ++ ", ".intercalate s.names ++ "]" ++ if s.isImported then " (imported)" else "")

/-- Carries out a command and gives the directory as it is afterwards. -/
def SlotCommand.run (command : SlotCommand) (d : Directory) : List String × Directory :=
  match command with
  | .lookup a =>
    match d.slotAt? a with
    | some number => ([slotLine d (d.slot number)], d)
    | none =>
      match d.slotsHolding a with
      | [] => ([a.text ++ " is neither a slot nor a slot target"], d)
      | numbers => (numbers.map (fun number => slotLine d (d.slot number)), d)
  | .nearest number =>
    let found := d.nearestLabeled number
    if found = .none then (["No labeled slot at or below " ++ toString number], d)
    else ([slotLine d found], d)
  | .label a name =>
    match d.attach? a name, d.slotAt? a with
    | some d, some number => ([slotLine d (d.slot number)], d)
    | _, _ => ([a.text ++ " is not a slot of the table"], d)
  | .named =>
    ((d.slots.toList.filter (fun s => !s.names.isEmpty)).map (slotLine d), d)

end Report
end MemoryAtlas

import MemoryAtlas.Image.Pattern
import MemoryAtlas.Image.Snapshot
import MemoryAtlas.Layout.View
import MemoryAtlas.Schema.Fault
import MemoryAtlas.Slots.Signature

namespace MemoryAtlas

/-!
What a command prints and how it fails.

A failure is a chain of sentences, outermost first.  It ends with a fault of
one of the parts of the library, or with the last sentence if the command
itself had something to object.
-/

/-- The faults of all parts of the library. -/
inductive Fault where
  | memory (fault : MemoryFault)
  | pattern (fault : PatternFault)
  | refresh (fault : RefreshFault)
  | slots (fault : SlotFault)
  | file (fault : FileFault)
  | schema (fault : Schema.Fault)
  /-- A configuration text that cannot be read or has a setting of the wrong
  type. -/
  | settings
deriving Repr, DecidableEq

def Fault.message : Fault -> String
  | .memory fault => fault.message
  | .pattern fault => fault.message
  | .refresh fault => fault.message
  | .slots fault => fault.message
  | .file fault => fault.message
  | .schema fault => fault.message
  | .settings => "invalid configuration"

def LocateFault.toFault : LocateFault -> Fault
  | .pattern fault => .pattern fault
  | .memory fault => .memory fault
  | .slots fault => .slots fault

/-- A failed command. -/
structure Failure where
  context : List String
  cause : Option Fault
deriving Repr, DecidableEq

namespace Failure

/-- A failure that is an objection of the command itself. -/
def ofSentence (sentence : String) : Failure :=
  ⟨[sentence], none⟩

def ofFault (fault : Fault) : Failure :=
  ⟨[], some fault⟩

/-- The failure with a sentence in front that says what was being done. -/
def during (failure : Failure) (sentence : String) : Failure :=
  { failure with context := sentence :: failure.context }

/-- All sentences, outermost first. -/
def sentences (failure : Failure) : List String :=
  failure.context ++ (failure.cause.map Fault.message).toList

/-- A failure as it is shown at the end of the program. -/
def report (failure : Failure) : List String :=
  match failure.sentences with
  | [] => []
  | [sentence] => ["Error: " ++ sentence]
  | sentence :: causes => ["Error: " ++ sentence, "", "Caused by:"] ++ causes.map ("    " ++ ·)

end Failure

/-- What a command has printed, and its failure if it failed. -/
structure Outcome where
  lines : List String
  failure : Option Failure
deriving Repr, DecidableEq

/-- The outcome of a command that prints all or nothing. -/
def Outcome.of : Except Failure (List String) -> Outcome
  | .ok lines => ⟨lines, none⟩
  | .error failure => ⟨[], some failure⟩

/-- The outcome with lines printed before it. -/
def Outcome.after (outcome : Outcome) (lines : List String) : Outcome :=
  { outcome with lines := lines ++ outcome.lines }

/-- A memory access as a step of a command. -/
def liftMemory {α : Type} (result : Except MemoryFault α) : Except Failure α :=
  result.mapError (fun fault => .ofFault (.memory fault))

end MemoryAtlas

import MemoryAtlas.Image.Memory
import MemoryAtlas.Text.Blank

namespace MemoryAtlas

/-!
Byte patterns and where they occur.

A pattern is a row of bytes some of which are left open.  Its written form is
a row of two-digit hexadecimal bytes and `??` for the open places.
-/

/-- A row of bytes; `none` stands for a place where any byte fits. -/
abbrev Pattern := List (Option UInt8)

/-- What can be wrong with a written pattern. -/
inductive PatternFault where
  | badToken (token : String) (cause : Text.NumeralFault)
  | empty
  | onlyWildcards
deriving Repr, DecidableEq

def PatternFault.reason : PatternFault -> String
  | .badToken token cause => "invalid token '" ++ token ++ "': " ++ cause.message
  | .empty => "pattern is empty"
  | .onlyWildcards => "pattern consists only of wildcards"

def PatternFault.message (fault : PatternFault) : String :=
  "Invalid byte pattern: " ++ fault.reason

namespace Pattern

/-- One place of a written pattern. -/
def readToken (token : List Char) : Except PatternFault (Option UInt8) :=
  if token = ['?', '?'] || token = ['?'] then .ok none
  else
    match Text.readWord 16 8 token with
    | .ok value => .ok (some (UInt8.ofNat value))
    | .error cause => .error (.badToken (String.ofList token) cause)

/-- Reads a written pattern.  At least one place must be fixed. -/
def parse (text : List Char) : Except PatternFault Pattern := do
  let places <- (Text.words text).mapM readToken
  if places.isEmpty then .error .empty
  else if places.all Option.isNone then .error .onlyWildcards
  else .ok places

/-- The written form of one place. -/
def placeText : Option UInt8 -> String
  | some b => Text.byteHex b
  | none => "??"

/-- The written form of a pattern. -/
def text (p : Pattern) : String :=
  " ".intercalate (p.map placeText)

/-- Whether the bytes begin with a match of the pattern. -/
def fits : Pattern -> List UInt8 -> Bool
  | [], _ => true
  | _ :: _, [] => false
  | place :: p, b :: rest => (place.isNone || place == some b) && fits p rest

/-- The first fixed byte of a pattern with its place: the anchor by which matches
are looked for. -/
def anchor? : Pattern -> Option (Nat × UInt8)
  | [] => none
  | some b :: _ => some (0, b)
  | none :: p => (anchor? p).map (fun anchor => (anchor.1 + 1, anchor.2))

/-- Goes from one occurrence of the anchor to the next until the whole pattern
fits around it.  `index` is the anchor's place in the pattern.  The bytes among
which it is looked for are `ahead`, from position `next` on; a match with its
anchor at `next` would begin where `rest` does. -/
def scan (p : Pattern) (index : Nat) (anchor : UInt8) (next : Nat) (ahead rest : List UInt8) :
    Option Nat :=
  match found : ahead.idxOf? anchor with
  | none => none
  | some skipped =>
    if fits p (rest.drop skipped) then some (next + skipped - index)
    else scan p index anchor (next + skipped + 1) (ahead.drop (skipped + 1)) (rest.drop (skipped + 1))
termination_by ahead.length
decreasing_by
  obtain ⟨within, -, -⟩ := List.findIdx?_eq_some_iff_getElem.mp found
  rw [List.length_drop]
  omega

/-- The position of the first match in the bytes.  The anchor is looked for only
where the pattern around it lies wholly inside.  A pattern without a fixed byte is
found nowhere. -/
def find (p : Pattern) (bytes : List UInt8) : Option Nat :=
  if p.isEmpty || bytes.length < p.length then none
  else
    match anchor? p with
    | none => none
    | some (index, anchor) =>
      let last := bytes.length - p.length
      scan p index anchor index ((bytes.take (last + index + 1)).drop index) bytes

end Pattern

/-- The address of the first match wholly inside a range of memory. -/
def Memory.findPattern (m : Memory) (start : Address) (size : Nat) (p : Pattern) :
    Except MemoryFault (Option Address) := do
  let bytes <- m.read start size
  return (p.find bytes).map start.shift

end MemoryAtlas

namespace MemoryAtlas
namespace Text

/-!
Bytes and code units as text.

Decoding never fails.  Where the input is not well formed the replacement
character stands for the longest stretch that could still have begun a
character, and the byte that broke the stretch is looked at afresh.  A byte
order mark is an ordinary character.
-/

/-- The character that stands for undecodable input. -/
def replacement : Char := '\uFFFD'

/-- The character of a code point; the code points that are none give the
replacement character. -/
def charOf (n : Nat) : Char :=
  if h : n.isValidChar then Char.ofNatAux n h else replacement

/-- Where a byte decoder stands: between characters, or inside one that still
needs `missing` more bytes, the next of them between `low` and `high`. -/
inductive Utf8State where
  | between
  | inside (value missing low high : Nat)
deriving Repr, DecidableEq

/-- What the first byte of a character does. -/
def Utf8State.start (b : Nat) : List Char × Utf8State :=
  if b < 0x80 then ([charOf b], .between)
  else if 0xC2 <= b && b <= 0xDF then ([], .inside (b - 0xC0) 1 0x80 0xBF)
  else if 0xE0 <= b && b <= 0xEF then
    ([], .inside (b - 0xE0) 2 (if b == 0xE0 then 0xA0 else 0x80) (if b == 0xED then 0x9F else 0xBF))
  else if 0xF0 <= b && b <= 0xF4 then
    ([], .inside (b - 0xF0) 3 (if b == 0xF0 then 0x90 else 0x80) (if b == 0xF4 then 0x8F else 0xBF))
  else ([replacement], .between)

/-- What the next byte does: the characters it completes and the state after. -/
def Utf8State.next (state : Utf8State) (b : Nat) : List Char × Utf8State :=
  match state with
  | .between => start b
  | .inside value missing low high =>
    if low <= b && b <= high then
      let value := value * 64 + (b - 0x80)
      if missing <= 1 then ([charOf value], .between)
      else ([], .inside value (missing - 1) 0x80 0xBF)
    else
      let (done, after) := start b
      (replacement :: done, after)

/-- Decodes the rest of the bytes from a given state. -/
def decodeUtf8From : Utf8State -> List UInt8 -> List Char
  | .between, [] => []
  | .inside .., [] => [replacement]
  | state, b :: rest =>
    let (done, after) := state.next b.toNat
    done ++ decodeUtf8From after rest

/-- The text of a sequence of bytes. -/
def decodeUtf8 (bytes : List UInt8) : String :=
  String.ofList (decodeUtf8From .between bytes)

/-- The bytes of a text. -/
def encodeUtf8 (text : String) : List UInt8 :=
  text.toList.flatMap String.utf8EncodeChar

/-- The sixteen-bit units of a sequence of bytes, low byte first, and whether
a single byte is left over. -/
def units : List UInt8 -> List Nat × Bool
  | [] => ([], false)
  | [_] => ([], true)
  | low :: high :: rest =>
    let (more, odd) := units rest
    ((low.toNat + 256 * high.toNat) :: more, odd)

def isLeadUnit (u : Nat) : Bool := 0xD800 <= u && u <= 0xDBFF

def isTrailUnit (u : Nat) : Bool := 0xDC00 <= u && u <= 0xDFFF

/-- The character of a lead unit and the trail unit after it. -/
def joinUnits (lead trail : Nat) : Char :=
  charOf (0x10000 + (lead - 0xD800) * 0x400 + (trail - 0xDC00))

/-- The characters of a sequence of sixteen-bit units, and whether the last
unit is a lead without its trail. -/
def decodeUnitsFrom : Option Nat -> List Nat -> List Char × Bool
  | held, [] => ([], held.isSome)
  | none, u :: rest =>
    if isLeadUnit u then decodeUnitsFrom (some u) rest
    else
      let (more, cut) := decodeUnitsFrom none rest
      (charOf u :: more, cut)
  | some lead, u :: rest =>
    if isTrailUnit u then
      let (more, cut) := decodeUnitsFrom none rest
      (joinUnits lead u :: more, cut)
    else if isLeadUnit u then
      let (more, cut) := decodeUnitsFrom (some u) rest
      (replacement :: more, cut)
    else
      let (more, cut) := decodeUnitsFrom none rest
      (replacement :: charOf u :: more, cut)

/-- The text of a sequence of sixteen-bit little-endian units.  Whatever is
left unfinished at the end counts as one undecodable stretch. -/
def decodeUtf16 (bytes : List UInt8) : String :=
  let (codes, odd) := units bytes
  let (chars, cut) := decodeUnitsFrom none codes
  String.ofList (if odd || cut then chars ++ [replacement] else chars)

/-- The decoders that captured bytes are read with. -/
structure Decoders where
  utf8 : List UInt8 -> String
  utf16 : List UInt8 -> String

/-- The decoders of the Encoding Standard. -/
def Decoders.standard : Decoders :=
  ⟨decodeUtf8, decodeUtf16⟩

/-- The decoders do what the Encoding Standard says, without looking for a byte
order mark. -/
structure Decoders.FollowStandard (decoders : Decoders) : Prop where
  utf8 : forall bytes, decoders.utf8 bytes = decodeUtf8 bytes
  utf16 : forall bytes, decoders.utf16 bytes = decodeUtf16 bytes

end Text
end MemoryAtlas

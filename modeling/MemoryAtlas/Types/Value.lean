import MemoryAtlas.Decimal.Shortest
import MemoryAtlas.Text.Quoted
import MemoryAtlas.Text.Unicode
import MemoryAtlas.Types.Scalar

namespace MemoryAtlas

/-!
Scalar values as read from memory.
-/

/-- A decoded scalar. -/
inductive ScalarValue where
  | signed (value : Int)
  | unsigned (value : Nat)
  | float (value : Decimal.Binary)
  | bool (value : Bool)
  | char (unit : Nat)
  | ipv4 (octets : List UInt8)
  | address (value : Address)
deriving Repr, DecidableEq

namespace ScalarValue

/-- A word of sixty-four bits read as two's complement. -/
def signedWord (n : Nat) : Int :=
  asSigned 8 (n % wordCount 64)

/-- The value as a signed word, for looking up titles.  Floating point numbers
have none. -/
def asInt? : ScalarValue -> Option Int
  | .signed v => some v
  | .unsigned v => some (signedWord v)
  | .address a => some (signedWord a.toNat)
  | .bool b => some (if b then 1 else 0)
  | .char u => some u
  | .ipv4 octets => some (octets.foldl (fun n b => n * 256 + b.toNat) 0 : Nat)
  | .float _ => none

/-- The written form.  Floating point numbers have the digits of a double. -/
def text : ScalarValue -> String
  | .signed v => toString v
  | .unsigned v => toString v
  | .float b => Decimal.double.text b
  | .bool b => if b then "true" else "false"
  | .char u =>
    if u < 0xD800 || 0xE000 <= u then "'" ++ Text.plainChar (Text.charOf u) ++ "'"
    else "U+" ++ Text.padZeros 4 (Text.upperHexDigits u)
  | .ipv4 octets => ".".intercalate (octets.map (fun b => toString b.toNat))
  | .address a => a.text

/-- The name of the form of a value. -/
def formName : ScalarValue -> String
  | .signed _ => "Signed"
  | .unsigned _ => "Unsigned"
  | .float _ => "Float"
  | .bool _ => "Bool"
  | .char _ => "Char"
  | .ipv4 _ => "Ipv4"
  | .address _ => "Address"

end ScalarValue

namespace Scalar

/-- The stored integer as an unsigned word of some number of bits. -/
def decodeBits (s : Scalar) (bits : Nat) (bytes : List UInt8) : Nat :=
  (s.decode bytes % wordCount bits).toNat

/-- The value that stored bytes stand for. -/
def valueOf (s : Scalar) (bytes : List UInt8) : ScalarValue :=
  match s.reading with
  | .float =>
    if s.width = 4 then .float (Decimal.single.decode (s.decodeBits 32 bytes))
    else .float (Decimal.double.decode (s.decodeBits 64 bytes))
  | .bool => .bool (bytes.any (· != 0))
  | .char16 => .char (s.decodeBits 16 bytes)
  | .ipv4 => .ipv4 (bytes.take 4)
  | .address => .address (UInt64.ofNat (s.decodeBits 64 bytes))
  | _ => if s.isSigned then .signed (s.decode bytes) else .unsigned (s.decodeBits 64 bytes)

end Scalar

/-- The scalar stored at an address.  Nothing is stored at address 0. -/
def Memory.readScalar (m : Memory) (a : Address) (s : Scalar) : Except MemoryFault ScalarValue :=
  if a = 0 then .error (.unreadable 0 .unresolved)
  else (m.read a s.width).map s.valueOf

end MemoryAtlas

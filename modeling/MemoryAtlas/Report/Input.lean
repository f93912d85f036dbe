import MemoryAtlas.Image.Address
import MemoryAtlas.Report.Outcome
import MemoryAtlas.Text.Blank

namespace MemoryAtlas
namespace Report

/-!
Addresses, keys and bytes as a user writes and reads them.
-/

/-- The digits of a written address: no blanks around it, no `0x` in front,
however often it is repeated, and no backticks between the digits. -/
def addressDigits (text : String) : List Char :=
  let text := Text.trim text.toList
  (Text.dropPairs '0' 'X' (Text.dropPairs '0' 'x' text)).filter (fun c => c != Char.ofNat 0x60)

/-- The address that a user wrote. -/
def readAddress (text : String) : Except Failure Address :=
  let digits := addressDigits text
  if digits.isEmpty then .error (.ofSentence ("Invalid hex address: `" ++ text ++ "`"))
  else
    match Text.readWord 16 64 digits with
    | .ok n => .ok (UInt64.ofNat n)
    | .error fault =>
      .error (.ofSentence ("Invalid hex address `" ++ text ++ "`: " ++ fault.message))

/-- The range of map keys. -/
def keyRange : Text.Range := .signed 128

/-- The map key that a user wrote, in decimal or after `0x` in hexadecimal. -/
def readKey (text : String) : Except Failure Int :=
  let trimmed := Text.trim text.toList
  let number :=
    match trimmed with
    | '0' :: 'x' :: digits => Text.readNumeral 16 keyRange digits
    | '0' :: 'X' :: digits => Text.readNumeral 16 keyRange digits
    | digits => Text.readNumeral 10 keyRange digits
  number.mapError (fun fault =>
    .ofSentence ("Invalid key `" ++ String.ofList trimmed ++ "`: " ++ fault.message))

/-- An address in upper-case digits. -/
def addressText (a : Address) : String :=
  "0x" ++ Text.upperHexDigits a.toNat

/-- Bytes as pairs of digits with spaces between them. -/
def bytesText (bytes : List UInt8) : String :=
  " ".intercalate (bytes.map Text.byteHex)

end Report
end MemoryAtlas

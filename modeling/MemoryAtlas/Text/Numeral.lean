import MemoryAtlas.Word

namespace MemoryAtlas
namespace Text

/-!
Whole numbers as text.

A numeral is an optional sign followed by digits of one radix.  A plus sign is
always allowed, a minus sign only where negative numbers are in range.  Digits
are taken from left to right, and the first thing that goes wrong is the fault
that is reported: a character that is no digit, or a value that has left the
range.
-/

/-- What can be wrong with a numeral. -/
inductive NumeralFault where
  | empty
  | invalidDigit
  | tooLarge
  | tooSmall
deriving Repr, DecidableEq

/-- The sentence shown for a faulty numeral. -/
def NumeralFault.message : NumeralFault -> String
  | .empty => "cannot parse integer from empty string"
  | .invalidDigit => "invalid digit found in string"
  | .tooLarge => "number too large to fit in target type"
  | .tooSmall => "number too small to fit in target type"

/-- The value of one digit, in either case, if it is a digit of the radix. -/
def digitValue? (radix : Nat) (c : Char) : Option Nat :=
  let value? : Option Nat :=
    if '0' <= c && c <= '9' then some (c.toNat - '0'.toNat)
    else if 'a' <= c && c <= 'z' then some (c.toNat - 'a'.toNat + 10)
    else if 'A' <= c && c <= 'Z' then some (c.toNat - 'A'.toNat + 10)
    else none
  value?.filter (· < radix)

/-- A closed range of whole numbers. -/
structure Range where
  low : Int
  high : Int
deriving Repr, DecidableEq

/-- The numbers that an unsigned word of `bits` bits can hold. -/
def Range.unsigned (bits : Nat) : Range :=
  ⟨0, wordCount bits - 1⟩

/-- The numbers that a two's-complement word of `bits` bits can hold. -/
def Range.signed (bits : Nat) : Range :=
  ⟨-wordCount (bits - 1), wordCount (bits - 1) - 1⟩

/-- The number reached from `value` by appending the digits, moving away from
zero in the direction of the sign and staying in the range. -/
def appendDigits (radix : Nat) (range : Range) (negative : Bool) :
    Int -> List Char -> Except NumeralFault Int
  | value, [] => .ok value
  | value, c :: rest =>
    match digitValue? radix c with
    | none => .error .invalidDigit
    | some digit =>
      if negative then
        let next := value * radix - digit
        if next < range.low then .error .tooSmall
        else appendDigits radix range negative next rest
      else
        let next := value * radix + digit
        if range.high < next then .error .tooLarge
        else appendDigits radix range negative next rest

/-- The number that a numeral stands for.  A sign alone is no numeral. -/
def readNumeral (radix : Nat) (range : Range) : List Char -> Except NumeralFault Int
  | [] => .error .empty
  | ['+'] => .error .invalidDigit
  | ['-'] => .error .invalidDigit
  | '+' :: digits => appendDigits radix range false 0 digits
  | '-' :: digits =>
    if range.low < 0 then appendDigits radix range true 0 digits
    else .error .invalidDigit
  | digits => appendDigits radix range false 0 digits

/-- The natural number that a numeral of an unsigned word stands for. -/
def readWord (radix bits : Nat) (text : List Char) : Except NumeralFault Nat :=
  (readNumeral radix (.unsigned bits) text).map Int.toNat

/-- Lower-case hexadecimal digits, most significant first. -/
def hexDigits (n : Nat) : String :=
  String.ofList (Nat.toDigits 16 n)

/-- Upper-case hexadecimal digits, most significant first. -/
def upperHexDigits (n : Nat) : String :=
  String.ofList ((Nat.toDigits 16 n).map Char.toUpper)

/-- The text brought to a width by zeros on its left. -/
def padZeros (width : Nat) (digits : String) : String :=
  String.ofList (List.replicate (width - digits.length) '0') ++ digits

/-- The text brought to a width by spaces on its right. -/
def padRight (width : Nat) (text : String) : String :=
  text ++ String.ofList (List.replicate (width - text.length) ' ')

/-- An address as it is written everywhere: `0x` and lower-case digits. -/
def hex (n : Nat) : String :=
  "0x" ++ hexDigits n

/-- An address in a column: `0x` and at least twelve digits. -/
def columnHex (n : Nat) : String :=
  "0x" ++ padZeros 12 (hexDigits n)

/-- A byte as two upper-case digits. -/
def byteHex (b : UInt8) : String :=
  padZeros 2 (upperHexDigits b.toNat)

end Text
end MemoryAtlas

import MemoryAtlas.Json.Value
import MemoryAtlas.Text.Unicode

namespace MemoryAtlas
namespace Json

/-!
Reading JSON text.

The whole text has to be one value with blanks around it.  Every step returns
the text that is left, and the nesting of values is bounded by the length of
the text, which is the fuel of the reader.
-/

/-- One character of a string literal: itself, or a sixteen-bit unit written
as an escape. -/
inductive Piece where
  | char (c : Char)
  | unit (u : Nat)
deriving Repr

/-- The blanks that may stand between tokens. -/
def isGap (c : Char) : Bool :=
  c == ' ' || c == '\t' || c == '\n' || c == '\r'

def skipGap (text : List Char) : List Char :=
  text.dropWhile isGap

/-- The value of four hexadecimal digits. -/
def fourDigits? (a b c d : Char) : Option Nat := do
  let a <- Text.digitValue? 16 a
  let b <- Text.digitValue? 16 b
  let c <- Text.digitValue? 16 c
  let d <- Text.digitValue? 16 d
  return ((a * 16 + b) * 16 + c) * 16 + d

/-- The character of a one-letter escape. -/
def shortEscape? (c : Char) : Option Char :=
  if c == '"' || c == '\\' || c == '/' then some c
  else if c == 'b' then some '\x08'
  else if c == 'f' then some '\x0c'
  else if c == 'n' then some '\n'
  else if c == 'r' then some '\r'
  else if c == 't' then some '\t'
  else none

/-- The pieces of a string literal up to its closing quote, in reverse, and
the text after it. -/
def readPieces : List Piece -> List Char -> Option (List Piece × List Char)
  | _, [] => none
  | done, '"' :: rest => some (done, rest)
  | done, '\\' :: 'u' :: a :: b :: c :: d :: rest =>
    match fourDigits? a b c d with
    | some u => readPieces (.unit u :: done) rest
    | none => none
  | done, '\\' :: c :: rest =>
    match shortEscape? c with
    | some c => readPieces (.char c :: done) rest
    | none => none
  | done, c :: rest =>
    if c == '\\' || c.toNat < 0x20 then none else readPieces (.char c :: done) rest

/-- The characters that pieces in reverse stand for.  Units have to be whole
characters or come as pairs. -/
def joinPieces : List Char -> List Piece -> Option (List Char)
  | done, [] => some done
  | done, .char c :: rest => joinPieces (c :: done) rest
  | done, .unit u :: rest =>
    if Text.isTrailUnit u then
      match rest with
      | .unit lead :: rest =>
        if Text.isLeadUnit lead then joinPieces (Text.joinUnits lead u :: done) rest else none
      | _ => none
    else if Text.isLeadUnit u then none
    else joinPieces (Text.charOf u :: done) rest

/-- A string literal after its opening quote. -/
def readString (text : List Char) : Option (Option String × List Char) :=
  (readPieces [] text).map (fun r => ((joinPieces [] r.1).map String.ofList, r.2))

/-- The digits at the start of the text and what follows them. -/
def takeDigits (text : List Char) : List Char × List Char :=
  (text.takeWhile Char.isDigit, text.dropWhile Char.isDigit)

/-- The number that decimal digits write. -/
def decimalValue (digits : List Char) : Nat :=
  digits.foldl (fun n c => n * 10 + (c.toNat - 48)) 0

/-- Whether `digits * 10 ^ exponent` rounds to a double. -/
def isFiniteDouble (digits : List Char) (exponent : Int) : Bool :=
  let digits := digits.dropWhile (· == '0')
  let magnitude := (digits.length : Int) + exponent
  if digits.isEmpty || magnitude < 300 then true
  else if 310 < magnitude then false
  else
    let value := decimalValue digits
    let limit := Nat.pow 2 1024 - Nat.pow 2 970
    if 0 <= exponent then value * Nat.pow 10 exponent.toNat < limit
    else value < limit * Nat.pow 10 (-exponent).toNat

/-- The exponent of a number, if one is written. -/
def readExponent : List Char -> Option (Option Int × List Char)
  | c :: rest =>
    if c == 'e' || c == 'E' then
      let (below, rest) :=
        match rest with
        | '+' :: rest => (false, rest)
        | '-' :: rest => (true, rest)
        | _ => (false, rest)
      match takeDigits rest with
      | ([], _) => none
      | (digits, rest) =>
        let size : Int := decimalValue digits
        some (some (if below then -size else size), rest)
    else some (none, c :: rest)
  | [] => some (none, [])

/-- The digits after the point of a number, if it has one. -/
def readFraction : List Char -> Option (Option (List Char) × List Char)
  | '.' :: rest =>
    match takeDigits rest with
    | ([], _) => none
    | (digits, rest) => some (some digits, rest)
  | text => some (none, text)

/-- The number that its parts write. -/
def numberOf (below : Bool) (whole : List Char) (places : Option (List Char))
    (exponent : Option Int) : Json :=
  let n := decimalValue whole
  if places.isNone && exponent.isNone && !below && n < wordCount 64 then .natural n
  else if places.isNone && exponent.isNone && below && 0 < n && n <= wordCount 63 then .negative n
  else
    let places := places.getD []
    .fraction (isFiniteDouble (whole ++ places) (exponent.getD 0 - places.length))

/-- A number without its sign. -/
def readNumber (below : Bool) (text : List Char) : Option (Json × List Char) := do
  let (whole, rest) := takeDigits text
  if whole.isEmpty || (whole.head? == some '0' && whole.length != 1) then none
  else
    let (places, rest) <- readFraction rest
    let (exponent, rest) <- readExponent rest
    return (numberOf below whole places exponent, rest)

mutual

/-- A value at the start of the text, blanks before it skipped. -/
def readValue : Nat -> List Char -> Option (Json × List Char)
  | 0, _ => none
  | fuel + 1, text =>
    match skipGap text with
    | 'n' :: 'u' :: 'l' :: 'l' :: rest => some (.null, rest)
    | 't' :: 'r' :: 'u' :: 'e' :: rest => some (.bool true, rest)
    | 'f' :: 'a' :: 'l' :: 's' :: 'e' :: rest => some (.bool false, rest)
    | '"' :: rest => (readString rest).map (fun r => (.string r.1, r.2))
    | '-' :: rest => readNumber true rest
    | '[' :: rest =>
      match skipGap rest with
      | ']' :: rest => some (.array [], rest)
      | rest => (readItems fuel rest).map (fun r => (.array r.1, r.2))
    | '{' :: rest =>
      match skipGap rest with
      | '}' :: rest => some (.object [], rest)
      | rest => (readMembers fuel rest).map (fun r => (.object r.1, r.2))
    | rest => readNumber false rest

/-- The items of an array up to its closing bracket. -/
def readItems : Nat -> List Char -> Option (List Json × List Char)
  | 0, _ => none
  | fuel + 1, text =>
    match readValue fuel text with
    | none => none
    | some (item, rest) =>
      match skipGap rest with
      | ']' :: rest => some ([item], rest)
      | ',' :: rest => (readItems fuel rest).map (fun r => (item :: r.1, r.2))
      | _ => none

/-- The members of an object up to its closing brace. -/
def readMembers : Nat -> List Char -> Option (List (Option String × Json) × List Char)
  | 0, _ => none
  | fuel + 1, text =>
    match skipGap text with
    | '"' :: rest =>
      match readString rest with
      | none => none
      | some (name, rest) =>
        match skipGap rest with
        | ':' :: rest =>
          match readValue fuel rest with
          | none => none
          | some (value, rest) =>
            match skipGap rest with
            | '}' :: rest => some ([(name, value)], rest)
            | ',' :: rest => (readMembers fuel rest).map (fun r => ((name, value) :: r.1, r.2))
            | _ => none
        | _ => none
    | _ => none

end

/-- The value that a text is. -/
def parse (text : String) : Option Json :=
  let chars := text.toList
  match readValue (chars.length + 1) chars with
  | some (value, rest) => if (skipGap rest).isEmpty then some value else none
  | none => none

end Json
end MemoryAtlas

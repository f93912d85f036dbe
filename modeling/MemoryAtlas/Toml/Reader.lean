import MemoryAtlas.Text.Unicode
import MemoryAtlas.Toml.Tree

namespace MemoryAtlas
namespace Toml

/-!
Reading configuration text.

The text is a row of lines: headers that open tables, and keys with values.
The finished tree has the form of a JSON value; numbers that are not whole and
dates become numbers without a whole value, since no setting takes either.
-/

/-- The blanks within a line. -/
def skipSpace (text : List Char) : List Char :=
  text.dropWhile (fun c => c == ' ' || c == '\t')

/-- Whether a character may stand in a remark or a literal text. -/
def isVisible (c : Char) : Bool :=
  c == '\t' || (0x20 <= c.toNat && c.toNat != 0x7F)

/-- Steps over a remark. -/
def skipRemark : List Char -> List Char
  | '#' :: rest => rest.dropWhile isVisible
  | text => text

/-- Steps over the end of a line, or stands at the end of the text. -/
def endLine? : List Char -> Option (List Char)
  | [] => some []
  | '\n' :: rest => some rest
  | '\r' :: '\n' :: rest => some rest
  | _ => none

/-- Steps over blanks, remarks and line ends. -/
def skipLines : Nat -> List Char -> List Char
  | 0, text => text
  | fuel + 1, text =>
    match skipRemark (skipSpace text) with
    | '\n' :: rest => skipLines fuel rest
    | '\r' :: '\n' :: rest => skipLines fuel rest
    | rest => rest

/-! ## Texts -/

/-- The character of a hexadecimal code. -/
def codeCharacter? (digits : List Char) : Option Char :=
  if digits.all (fun c => (Text.digitValue? 16 c).isSome) then
    match Text.readWord 16 32 digits with
    | .ok n => if h : n.isValidChar then some (Char.ofNatAux n h) else none
    | .error _ => none
  else none

def escapeOf? (c : Char) : Option Char :=
  if c == 'b' then some '\x08'
  else if c == 't' then some '\t'
  else if c == 'n' then some '\n'
  else if c == 'f' then some '\x0c'
  else if c == 'r' then some '\r'
  else if c == '"' || c == '\\' then some c
  else none

/-- A text with escapes on one line, after its opening quote. -/
def readBasic : List Char -> List Char -> Option (List Char × List Char)
  | _, [] => none
  | done, '"' :: rest => some (done.reverse, rest)
  | done, '\\' :: 'u' :: a :: b :: c :: d :: rest =>
    match codeCharacter? [a, b, c, d] with
    | some code => readBasic (code :: done) rest
    | none => none
  | done, '\\' :: 'U' :: a :: b :: c :: d :: e :: f :: g :: h :: rest =>
    match codeCharacter? [a, b, c, d, e, f, g, h] with
    | some code => readBasic (code :: done) rest
    | none => none
  | done, '\\' :: c :: rest =>
    match escapeOf? c with
    | some c => readBasic (c :: done) rest
    | none => none
  | done, c :: rest => if c != '\\' && isVisible c then readBasic (c :: done) rest else none

/-- A text without escapes on one line, after its opening quote. -/
def readLiteral (quote : Char) : List Char -> List Char -> Option (List Char × List Char)
  | _, [] => none
  | done, c :: rest =>
    if c == quote then some (done.reverse, rest)
    else if isVisible c then readLiteral quote (c :: done) rest
    else none

/-- The quotes that close a text of several lines: three, with up to two more
that still belong to the text. -/
def closing? (quote : Char) (text : List Char) : Option (List Char × List Char) :=
  let count := (text.takeWhile (· == quote)).length
  if count < 3 then none
  else
    let inside := min (count - 3) 2
    some (List.replicate inside quote, text.drop (inside + 3))

/-- The blanks and line ends after a backslash at the end of a line. -/
def skipFolded (text : List Char) : List Char :=
  text.dropWhile (fun c => c == ' ' || c == '\t' || c == '\n' || c == '\r')

/-- A text of several lines. -/
def readLong (quote : Char) (escapes : Bool) : Nat -> List Char -> List Char ->
    Option (List Char × List Char)
  | 0, _, _ => none
  | fuel + 1, done, text =>
    match closing? quote text with
    | some (inside, rest) => some (done.reverse ++ inside, rest)
    | none =>
      match text with
      | [] => none
      | '\r' :: '\n' :: rest => readLong quote escapes fuel ('\n' :: done) rest
      | '\n' :: rest => readLong quote escapes fuel ('\n' :: done) rest
      | c :: rest =>
        if c == '\\' && escapes then
          match rest with
          | 'u' :: a :: b :: c :: d :: rest =>
            match codeCharacter? [a, b, c, d] with
            | some code => readLong quote escapes fuel (code :: done) rest
            | none => none
          | 'U' :: a :: b :: c :: d :: e :: f :: g :: h :: rest =>
            match codeCharacter? [a, b, c, d, e, f, g, h] with
            | some code => readLong quote escapes fuel (code :: done) rest
            | none => none
          | c :: after =>
            match escapeOf? c with
            | some c => readLong quote escapes fuel (c :: done) after
            | none =>
              match endLine? (skipSpace rest) with
              | some (_ :: _) => readLong quote escapes fuel done (skipFolded rest)
              | _ => none
          | [] => none
        else if isVisible c then readLong quote escapes fuel (c :: done) rest
        else none

/-- A text of several lines after its opening quotes.  A line end right after
them does not count. -/
def readLongAfter (quote : Char) (escapes : Bool) (text : List Char) :
    Option (List Char × List Char) :=
  let text :=
    match text with
    | '\n' :: rest => rest
    | '\r' :: '\n' :: rest => rest
    | rest => rest
  readLong quote escapes (text.length + 1) [] text

/-- The quote of texts without escapes. -/
def plainQuote : Char := Char.ofNat 39

/-- A quoted text on one line, or nothing if none starts here. -/
def readShort (text : List Char) : Option (Option (List Char × List Char)) :=
  match text with
  | '"' :: rest => some (readBasic [] rest)
  | c :: rest => if c == plainQuote then some (readLiteral plainQuote [] rest) else none
  | [] => none

/-! ## Keys -/

def isBareKey (c : Char) : Bool :=
  c.isAlphanum || c == '_' || c == '-'

/-- One name of a key. -/
def readName (text : List Char) : Option (String × List Char) :=
  match readShort text with
  | some result => result.map (fun r => (String.ofList r.1, r.2))
  | none =>
    let name := text.takeWhile isBareKey
    if name.isEmpty then none else some (String.ofList name, text.dropWhile isBareKey)

/-- A key: names with dots between them. -/
def readKey : Nat -> List Char -> Option (List String × List Char)
  | 0, _ => none
  | fuel + 1, text => do
    let (name, rest) <- readName (skipSpace text)
    match skipSpace rest with
    | '.' :: rest => do
      let (names, rest) <- readKey fuel rest
      return (name :: names, rest)
    | rest => return ([name], rest)

/-! ## Values -/

/-- Digits of a radix with single underscores between them. -/
def plainDigits? (radix : Nat) : Bool -> List Char -> Option (List Char)
  | afterDigit, [] => if afterDigit then some [] else none
  | afterDigit, c :: rest =>
    if c == '_' then if afterDigit then plainDigits? radix false rest else none
    else if (Text.digitValue? radix c).isSome then (plainDigits? radix true rest).map (c :: ·)
    else none

/-- A whole number of a signed word. -/
def wholeNumber? (radix : Nat) (negative : Bool) (digits : List Char) : Option Json :=
  match plainDigits? radix false digits with
  | none => none
  | some digits =>
    let text := if negative then '-' :: digits else digits
    match Text.readNumeral radix (.signed 64) text with
    | .ok n => some (.integer n)
    | .error _ => none

/-- Whether digits with underscores start with a needless zero. -/
def hasLeadingZero (digits : List Char) : Bool :=
  digits.head? == some '0' && digits.length != 1

/-- Whether the text is a number with a fraction or an exponent. -/
def isFractional (text : List Char) : Bool :=
  let whole := text.takeWhile (fun c => c.isDigit || c == '_')
  let rest := text.dropWhile (fun c => c.isDigit || c == '_')
  let exponent := fun (text : List Char) =>
    match text with
    | [] => true
    | e :: rest =>
      (e == 'e' || e == 'E') &&
        match rest with
        | '+' :: digits => (plainDigits? 10 false digits).isSome
        | '-' :: digits => (plainDigits? 10 false digits).isSome
        | digits => (plainDigits? 10 false digits).isSome
  (plainDigits? 10 false whole).isSome && !hasLeadingZero whole && !rest.isEmpty &&
    match rest with
    | '.' :: rest =>
      let places := rest.takeWhile (fun c => c.isDigit || c == '_')
      (plainDigits? 10 false places).isSome
        && exponent (rest.dropWhile (fun c => c.isDigit || c == '_'))
    | rest => exponent rest

/-- Whether the text has the outline of a date or a time of day. -/
def isMoment (text : List Char) : Bool :=
  match text with
  | a :: b :: c :: d :: '-' :: _ => a.isDigit && b.isDigit && c.isDigit && d.isDigit && 10 <= text.length
  | a :: b :: ':' :: c :: d :: ':' :: _ => a.isDigit && b.isDigit && c.isDigit && d.isDigit && 8 <= text.length
  | _ => false

/-- A number, truth value or date, given all its characters. -/
def readToken? (token : List Char) : Option Json :=
  if token = "true".toList then some (.bool true)
  else if token = "false".toList then some (.bool false)
  else if isMoment token then some (.fraction true)
  else
    match token with
    | '0' :: 'x' :: digits => wholeNumber? 16 false digits
    | '0' :: 'o' :: digits => wholeNumber? 8 false digits
    | '0' :: 'b' :: digits => wholeNumber? 2 false digits
    | _ =>
      let (negative, size) :=
        match token with
        | '+' :: rest => (false, rest)
        | '-' :: rest => (true, rest)
        | rest => (false, rest)
      if size = "inf".toList || size = "nan".toList then some (.fraction true)
      else if isFractional size then some (.fraction true)
      else if hasLeadingZero size then none
      else wholeNumber? 10 negative size

/-- The characters that numbers, truth values and dates are made of. -/
def isTokenCharacter (c : Char) : Bool :=
  c.isAlphanum || c == '_' || c == '-' || c == '+' || c == '.' || c == ':'

mutual

/-- A value at the start of the text. -/
def readValue : Nat -> List Char -> Option (Json × List Char)
  | 0, _ => none
  | fuel + 1, text =>
    match text with
    | '"' :: '"' :: '"' :: rest =>
      (readLongAfter '"' true rest).map (fun r => (.text (String.ofList r.1), r.2))
    | '[' :: rest => (readItems fuel (skipLines rest.length rest)).map (fun r => (.array r.1, r.2))
    | '\x7b' :: rest =>
      match skipSpace rest with
      | '\x7d' :: rest => some (.object [], rest)
      | rest => (readInline fuel [] rest).map (fun r => (.object (membersToJson r.1), r.2))
    | _ =>
      if text.take 3 = [plainQuote, plainQuote, plainQuote] then
        (readLongAfter plainQuote false (text.drop 3)).map (fun r => (.text (String.ofList r.1), r.2))
      else
        match readShort text with
        | some result => result.map (fun r => (.text (String.ofList r.1), r.2))
        | none =>
          let token := text.takeWhile isTokenCharacter
          (readToken? token).map (fun json => (json, text.dropWhile isTokenCharacter))

/-- The items of an array up to its closing bracket. -/
def readItems : Nat -> List Char -> Option (List Json × List Char)
  | 0, _ => none
  | fuel + 1, text =>
    match text with
    | ']' :: rest => some ([], rest)
    | _ =>
      match readValue fuel text with
      | none => none
      | some (item, rest) =>
        match skipLines rest.length rest with
        | ']' :: rest => some ([item], rest)
        | ',' :: rest =>
          (readItems fuel (skipLines rest.length rest)).map (fun r => (item :: r.1, r.2))
        | _ => none

/-- The members of a table on one line up to its closing brace. -/
def readInline : Nat -> Members -> List Char -> Option (Members × List Char)
  | 0, _, _ => none
  | fuel + 1, done, text =>
    match readKey (text.length + 1) text with
    | none => none
    | some (key, rest) =>
      match skipSpace rest with
      | '=' :: rest =>
        match readValue fuel (skipSpace rest) with
        | none => none
        | some (value, rest) =>
          match define key (.value value) done with
          | none => none
          | some done =>
            match skipSpace rest with
            | '\x7d' :: rest => some (done, rest)
            | ',' :: rest => readInline fuel done rest
            | _ => none
      | _ => none

end

/-! ## Lines -/

/-- The rest of a line after a header or a value. -/
def finishLine (text : List Char) : Option (List Char) :=
  endLine? (skipRemark (skipSpace text))

/-- The lines of a text from a header on. -/
def readLines : Nat -> List String -> Members -> List Char -> Option Members
  | 0, _, _, _ => none
  | fuel + 1, header, members, text =>
    match skipLines (text.length + 1) text with
    | [] => some members
    | '[' :: '[' :: rest => do
      let (path, rest) <- readKey (rest.length + 1) rest
      match skipSpace rest with
      | ']' :: ']' :: rest => readLines fuel path (<- openNext path members) (<- finishLine rest)
      | _ => none
    | '[' :: rest => do
      let (path, rest) <- readKey (rest.length + 1) rest
      match skipSpace rest with
      | ']' :: rest => readLines fuel path (<- openTable path members) (<- finishLine rest)
      | _ => none
    | rest => do
      let (key, rest) <- readKey (rest.length + 1) rest
      match skipSpace rest with
      | '=' :: rest =>
        let (value, rest) <- readValue (rest.length + 1) (skipSpace rest)
        readLines fuel header (<- defineIn header key (.value value) members) (<- finishLine rest)
      | _ => none

/-- The configuration that a text is. -/
def parse (text : String) : Option Json :=
  let chars := text.toList
  (readLines (chars.length + 2) [] [] chars).map (fun members => .object (membersToJson members))

end Toml
end MemoryAtlas

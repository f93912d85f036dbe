import MemoryAtlas.Json.Value

namespace MemoryAtlas
namespace Json

/-!
Writing JSON text.

Only quotes, backslashes and control characters are escaped; every other
character stands for itself.  The wide form puts each item and each member on
a line of its own, two spaces deeper than what holds it, and keeps empty
arrays and objects closed up.  A number that is not whole is written as a
number that is read in the same way.
-/

/-- One character inside a string literal. -/
def escapeChar (c : Char) : String :=
  if c == '"' then "\\\""
  else if c == '\\' then "\\\\"
  else if c == '\x08' then "\\b"
  else if c == '\x0c' then "\\f"
  else if c == '\n' then "\\n"
  else if c == '\r' then "\\r"
  else if c == '\t' then "\\t"
  else if c.toNat < 0x20 then "\\u" ++ Text.padZeros 4 (Text.hexDigits c.toNat)
  else c.toString

/-- A string literal. -/
def literal (s : String) : String :=
  "\"" ++ String.join (s.toList.map escapeChar) ++ "\""

def literalOf (s : Option String) : String :=
  literal (s.getD "\uFFFD")

mutual

/-- The value on one line without blanks. -/
def compact : Json -> String
  | .null => "null"
  | .bool value => if value then "true" else "false"
  | .natural n => toString n
  | .negative n => "-" ++ toString n
  | .fraction finite => if finite then "0.0" else "1e999"
  | .string s => literalOf s
  | .array items => "[" ++ ",".intercalate (compactItems items) ++ "]"
  | .object members => "\x7b" ++ ",".intercalate (compactMembers members) ++ "\x7d"

def compactItems : List Json -> List String
  | [] => []
  | item :: rest => item.compact :: compactItems rest

def compactMembers : List (Option String × Json) -> List String
  | [] => []
  | (name, value) :: rest => (literalOf name ++ ":" ++ value.compact) :: compactMembers rest

end

/-- The lines of a bracketed group: the parts one level deeper, all but the
last followed by a comma. -/
def groupLines (opening closing : String) : List (List String) -> List String
  | [] => [opening ++ closing]
  | parts =>
    let rec separated : List (List String) -> List String
      | [] => []
      | [last] => last
      | part :: rest => part.dropLast ++ [part.getLastD "" ++ ","] ++ separated rest
    [opening] ++ (separated parts).map ("  " ++ ·) ++ [closing]

mutual

/-- The lines of the wide form. -/
def wideLines : Json -> List String
  | .array items => groupLines "[" "]" (wideItems items)
  | .object members => groupLines "\x7b" "\x7d" (wideMembers members)
  | other => [other.compact]

def wideItems : List Json -> List (List String)
  | [] => []
  | item :: rest => item.wideLines :: wideItems rest

def wideMembers : List (Option String × Json) -> List (List String)
  | [] => []
  | (name, value) :: rest =>
    (match value.wideLines with
     | [] => [literalOf name ++ ": "]
     | first :: more => (literalOf name ++ ": " ++ first) :: more) :: wideMembers rest

end

end Json
end MemoryAtlas

import MemoryAtlas.Text.Category
import MemoryAtlas.Text.Numeral

namespace MemoryAtlas
namespace Text

/-!
Characters and texts between quotes.

Two spellings are in use.  A quoted text keeps every character that can be
seen on its own and escapes the others, so that combining characters never
attach to the quote.  A quoted character keeps only visible seven-bit
characters.
-/

/-- A character by its code point. -/
def codePointEscape (c : Char) : String :=
  "\\u\x7b" ++ hexDigits c.toNat ++ "\x7d"

/-- One character inside a quoted text. -/
def quotedChar (c : Char) : String :=
  if c == '\x00' then "\\0"
  else if c == '\t' then "\\t"
  else if c == '\r' then "\\r"
  else if c == '\n' then "\\n"
  else if c == '"' then "\\\""
  else if c == '\\' then "\\\\"
  else if isExtender c || !isPrintable c then codePointEscape c
  else c.toString

/-- The text between double quotes. -/
def quoted (text : String) : String :=
  "\"" ++ String.join (text.toList.map quotedChar) ++ "\""

/-- One character in seven-bit spelling, as it stands between single quotes. -/
def plainChar (c : Char) : String :=
  if c == '\t' then "\\t"
  else if c == '\r' then "\\r"
  else if c == '\n' then "\\n"
  else if c == '\'' then "\\'"
  else if c == '"' then "\\\""
  else if c == '\\' then "\\\\"
  else if 0x20 <= c.toNat && c.toNat <= 0x7E then c.toString
  else codePointEscape c

end Text
end MemoryAtlas

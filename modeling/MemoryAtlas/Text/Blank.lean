namespace MemoryAtlas
namespace Text

/-!
White space and the cuts made at it.

A blank is a character with the white-space property, so the set reaches past
the seven-bit characters: the no-break space, the ideographic space and the
line and paragraph separators are in it.  Texts are cut as lists of
characters, which keeps each cut an ordinary list function.
-/

/-- The code points that have the white-space property. -/
def isBlank (c : Char) : Bool :=
  let n := c.toNat
  (9 <= n && n <= 13) || n == 0x20 || n == 0x85 || n == 0xA0 || n == 0x1680
    || (0x2000 <= n && n <= 0x200A) || n == 0x2028 || n == 0x2029
    || n == 0x202F || n == 0x205F || n == 0x3000

/-- The text without the blanks at its start. -/
def trimStart (text : List Char) : List Char :=
  text.dropWhile isBlank

/-- The text without the blanks at its end. -/
def trimEnd (text : List Char) : List Char :=
  (text.reverse.dropWhile isBlank).reverse

/-- The text without the blanks at its two ends. -/
def trim (text : List Char) : List Char :=
  trimEnd (trimStart text)

/-- The text cut at every character that satisfies `cut`.  There is always at
least one piece, and the cutting characters are in none. -/
def pieces (cut : Char -> Bool) : List Char -> List (List Char)
  | [] => [[]]
  | c :: rest =>
    match pieces cut rest with
    | [] => [[c]]
    | piece :: later => if cut c then [] :: piece :: later else (c :: piece) :: later

/-- The longest stretches of the text that hold no blank, in order. -/
def words (text : List Char) : List (List Char) :=
  (pieces isBlank text).filter (fun piece => !piece.isEmpty)

/-- A line without the carriage return that may end it. -/
def withoutReturn (line : List Char) : List Char :=
  if line.getLast? == some '\r' then line.dropLast else line

/-- The lines of the text.  A line feed, with or without a carriage return
before it, ends a line, and a text that ends with one has no empty line after
it. -/
def lines (text : List Char) : List (List Char) :=
  let all := pieces (· == '\n') text
  match all.getLast? with
  | none => []
  | some last => all.dropLast.map withoutReturn ++ (if last.isEmpty then [] else [last])

/-- The text with its first characters removed when they are `lead`. -/
def afterLead? : List Char -> List Char -> Option (List Char)
  | [], text => some text
  | _ :: _, [] => none
  | l :: lead, c :: text => if l = c then afterLead? lead text else none

/-- The text without the copies of a pair of characters that stand one after
the other at its start. -/
def dropPairs (first second : Char) : List Char -> List Char
  | a :: b :: rest => if a = first && b = second then dropPairs first second rest else a :: b :: rest
  | text => text

/-- The string without the blanks at its two ends. -/
def trimmed (text : String) : String :=
  String.ofList (trim text.toList)

/-- The string without the blanks at its end. -/
def trimmedEnd (text : String) : String :=
  String.ofList (trimEnd text.toList)

theorem pieces_ne_nil (cut : Char -> Bool) (text : List Char) : pieces cut text ≠ [] := by
  induction text with
  | nil => simp [pieces]
  | cons c rest ih =>
    rw [pieces]
    split <;> simp
    split <;> simp

end Text
end MemoryAtlas

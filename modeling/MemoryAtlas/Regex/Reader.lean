import MemoryAtlas.Regex.Syntax
import MemoryAtlas.Text.Category
import MemoryAtlas.Text.Numeral

namespace MemoryAtlas
namespace Regex

/-!
Reading patterns.

The reader descends by the grammar: branches, rows of items, groups and
classes.  A cursor holds the text that is left and the two things that the
grammar depends on: whether blanks and remarks are skipped, and the group
names in use.  The length of the text is the fuel, since every descent
consumes a character.
-/

/-- A place in a pattern. -/
structure Cursor where
  rest : List Char
  spaced : Bool
  names : List (List Char)
deriving Repr

namespace Cursor

/-- Removes blanks and remarks from the start of a spaced text. -/
def skipRemarks (inRemark : Bool) : List Char -> List Char
  | [] => []
  | c :: rest =>
    if inRemark then skipRemarks (c != '\n') rest
    else if Text.isBlank c then skipRemarks false rest
    else if c == '#' then skipRemarks true rest
    else c :: rest

/-- Steps over blanks and remarks where they are allowed. -/
def skip (cur : Cursor) : Cursor :=
  if cur.spaced then { cur with rest := skipRemarks false cur.rest } else cur

/-- The cursor at another rest. -/
def goTo (cur : Cursor) (rest : List Char) : Cursor :=
  { cur with rest := rest }

/-- Moves to another rest and over blanks and remarks there; something has to
follow. -/
def advance? (cur : Cursor) (rest : List Char) : Option Cursor :=
  let cur := (cur.goTo rest).skip
  if cur.rest.isEmpty then none else some cur

end Cursor

/-- The characters with a meaning of their own. -/
def isMeta (c : Char) : Bool :=
  "\\.+*?()|[]\x7b\x7d^$#&-~".toList.contains c

/-- The other characters that may be escaped for no reason. -/
def isEscapable (c : Char) : Bool :=
  isMeta c || (c.toNat < 128 && !c.isAlphanum && c != '<' && c != '>')

/-- A primitive part: something that is no group, class or repetition. -/
inductive Primitive where
  | literal (c : Char) (byte : Bool)
  | dot
  | anchor (a : Anchor)
  | short (k : ShortClass) (negated : Bool)
  | property (q : PropertyQuery) (negated : Bool)
deriving Repr

def Primitive.toPattern : Primitive -> Pattern
  | .literal c byte => .literal c byte
  | .dot => .dot
  | .anchor a => .anchor a
  | .short k negated => .short k negated
  | .property q negated => .property q negated

/-- A primitive part as a member of a class, where anchors have no place. -/
def Primitive.toSet? : Primitive -> Option CharacterSet
  | .literal c byte => some (.literal c byte)
  | .short k negated => some (.short k negated)
  | .property q negated => some (.property q negated)
  | _ => none

/-! ## Flags and names -/

def flagOf? (c : Char) : Option Flag :=
  if c == 'i' then some .ignoreCase
  else if c == 'm' then some .multiLine
  else if c == 's' then some .dotAll
  else if c == 'U' then some .swapGreed
  else if c == 'u' then some .unicode
  else if c == 'R' then some .carriageReturn
  else if c == 'x' then some .spaced
  else none

/-- The flags up to a colon or a closing parenthesis, and the text from there
on.  No flag may be repeated, and a minus sign needs a flag after it. -/
def readFlags (negated : Bool) (g : FlagGroup) : List Char -> Option (FlagGroup × List Char)
  | [] => none
  | c :: rest =>
    if c == ':' || c == ')' then
      if negated && g.off.isEmpty then none else some (g, c :: rest)
    else if c == '-' then
      if negated then none else readFlags true g rest
    else
      match flagOf? c with
      | none => none
      | some f =>
        if g.on.contains f || g.off.contains f then none
        else if negated then readFlags true { g with off := g.off ++ [f] } rest
        else readFlags false { g with on := g.on ++ [f] } rest

/-- Whether a character may stand in a group name. -/
def isNameCharacter (first : Bool) (c : Char) : Bool :=
  let k := Text.category c
  let alphabetic := k.isLetter || k == .nl || Text.inRanges Text.alphabeticSymbols c.toNat
  if first then c == '_' || alphabetic
  else c == '_' || c == '.' || c == '[' || c == ']' || alphabetic || (k matches .nd | .no)

/-- A group name up to its closing angle, and the text after it. -/
def readName : List Char -> List Char -> Option (List Char × List Char)
  | _, [] => none
  | done, c :: rest =>
    if c == '>' then if done.isEmpty then none else some (done.reverse, rest)
    else if isNameCharacter done.isEmpty c then readName (c :: done) rest
    else none

/-! ## Escapes -/

/-- The character of a hexadecimal code. -/
def codeCharacter? (digits : List Char) : Option Char :=
  match Text.readWord 16 32 digits with
  | .ok n => if h : n.isValidChar then some (Char.ofNatAux n h) else none
  | .error _ => none

/-- The digits of a hexadecimal code in braces, after the opening one. -/
def readBraced : Nat -> List Char -> Cursor -> Option (List Char × Cursor)
  | 0, _, _ => none
  | fuel + 1, done, cur =>
    match cur.skip.rest with
    | [] => none
    | c :: rest =>
      if c == '\x7d' then some (done.reverse, (cur.goTo rest).skip)
      else if (Text.digitValue? 16 c).isSome then readBraced fuel (c :: done) (cur.goTo rest)
      else none

/-- A fixed number of hexadecimal digits. -/
def readFixed : Nat -> List Char -> Cursor -> Option (List Char × Cursor)
  | 0, done, cur => some (done.reverse, cur.skip)
  | more + 1, done, cur =>
    match cur.skip.rest with
    | [] => none
    | c :: rest =>
      if (Text.digitValue? 16 c).isSome then readFixed more (c :: done) (cur.goTo rest) else none

/-- A hexadecimal escape after its letter. -/
def readCode (count : Nat) (cur : Cursor) : Option (Primitive × Cursor) :=
  match cur.skip.rest with
  | '\x7b' :: rest => do
    let (digits, cur) <- readBraced (rest.length + 1) [] (cur.goTo rest)
    return (.literal (<- codeCharacter? digits) false, cur)
  | _ => do
    let (digits, cur) <- readFixed count [] cur
    return (.literal (<- codeCharacter? digits) (count == 2), cur)

/-- The name in a property escape, after the opening brace. -/
def readPropertyName : Nat -> List Char -> Cursor -> Option (List Char × Cursor)
  | 0, _, _ => none
  | fuel + 1, done, cur =>
    match cur.skip.rest with
    | [] => none
    | c :: rest =>
      if c == '\x7d' then some (done.reverse, cur.goTo rest)
      else readPropertyName fuel (c :: done) (cur.goTo rest)

/-- Cuts a text at the first place where it goes on with `mark`. -/
def cutAt? (mark : List Char) : List Char -> List Char -> Option (List Char × List Char)
  | _, [] => none
  | before, c :: rest =>
    match Text.afterLead? mark (c :: rest) with
    | some after => some (before.reverse, after)
    | none => cutAt? mark (c :: before) rest

/-- The question that the text between the braces asks. -/
def queryOf (name : List Char) : PropertyQuery :=
  match cutAt? ['!', '='] [] name with
  | some (left, right) => .valued false left right
  | none =>
    match cutAt? [':'] [] name with
    | some (left, right) => .valued true left right
    | none =>
      match cutAt? ['='] [] name with
      | some (left, right) => .valued true left right
      | none => .named name

/-- A property escape after its letter. -/
def readProperty (negated : Bool) (cur : Cursor) : Option (Primitive × Cursor) :=
  match cur.skip.rest with
  | [] => none
  | '\x7b' :: rest => do
    let (name, cur) <- readPropertyName (rest.length + 1) [] (cur.goTo rest)
    return (.property (queryOf name) negated, cur)
  | c :: rest => if c == '\\' then none else some (.property (.letter c) negated, (cur.goTo rest).skip)

/-- The letters of a special word boundary up to its closing brace. -/
def readBoundaryName : Nat -> List Char -> Cursor -> Option (List Char × Cursor)
  | 0, _, _ => none
  | fuel + 1, done, cur =>
    match cur.rest with
    | [] => none
    | c :: rest =>
      if c == '\x7d' then some (done.reverse, cur.goTo rest)
      else if c.isAlpha || c == '-' then readBoundaryName fuel (c :: done) (cur.goTo rest).skip
      else none

/-- A word boundary after its letter.  Braces after it may name a special one;
if they do not start with a letter they are left for a repetition. -/
def readBoundary (cur : Cursor) : Option (Primitive × Cursor) :=
  match cur.rest with
  | '\x7b' :: rest =>
    match (cur.goTo rest).skip.rest with
    | [] => none
    | c :: _ =>
      if c.isAlpha || c == '-' then do
        let (name, after) <- readBoundaryName (rest.length + 1) [] (cur.goTo rest).skip
        match String.ofList name with
        | "start" => return (.anchor .wordStart, after)
        | "end" => return (.anchor .wordEnd, after)
        | "start-half" => return (.anchor .wordStartHalf, after)
        | "end-half" => return (.anchor .wordEndHalf, after)
        | _ => none
      else some (.anchor .wordBoundary, cur)
  | _ => some (.anchor .wordBoundary, cur)

/-- The character of a one-letter escape. -/
def controlOf? (c : Char) : Option Char :=
  if c == 'a' then some '\x07'
  else if c == 'f' then some '\x0c'
  else if c == 't' then some '\t'
  else if c == 'n' then some '\n'
  else if c == 'r' then some '\r'
  else if c == 'v' then some '\x0b'
  else none

/-- An escape after its backslash. -/
def readEscape (cur : Cursor) : Option (Primitive × Cursor) :=
  match cur.rest with
  | [] => none
  | c :: rest =>
    let cur := cur.goTo rest
    if c == 'x' then readCode 2 cur
    else if c == 'u' then readCode 4 cur
    else if c == 'U' then readCode 8 cur
    else if c == 'p' then readProperty false cur
    else if c == 'P' then readProperty true cur
    else if c == 'd' then some (.short .digit false, cur)
    else if c == 'D' then some (.short .digit true, cur)
    else if c == 's' then some (.short .space false, cur)
    else if c == 'S' then some (.short .space true, cur)
    else if c == 'w' then some (.short .word false, cur)
    else if c == 'W' then some (.short .word true, cur)
    else if isEscapable c then some (.literal c false, cur)
    else if c == 'A' then some (.anchor .textStart, cur)
    else if c == 'z' then some (.anchor .textEnd, cur)
    else if c == 'b' then readBoundary cur
    else if c == 'B' then some (.anchor .notWordBoundary, cur)
    else if c == '<' then some (.anchor .wordStart, cur)
    else if c == '>' then some (.anchor .wordEnd, cur)
    else (controlOf? c).map (fun c => (.literal c false, cur))

/-! ## Classes -/

/-- One member of a class: an escape or a character. -/
def readMember (cur : Cursor) : Option (Primitive × Cursor) :=
  match cur.rest with
  | [] => none
  | '\\' :: rest => readEscape (cur.goTo rest)
  | c :: rest => some (.literal c false, cur.goTo rest)

/-- The character after the current one, blanks and remarks skipped. -/
def peek? (cur : Cursor) : Option Char :=
  match cur.rest with
  | [] => none
  | _ :: rest => (cur.goTo rest).skip.rest.head?

/-- A member or a range of a class. -/
def readRange (cur : Cursor) : Option (CharacterSet × Cursor) := do
  let (first, cur) <- readMember cur
  let cur := cur.skip
  match cur.rest with
  | [] => none
  | '-' :: rest =>
    if peek? cur == some ']' || peek? cur == some '-' then return (<- first.toSet?, cur)
    else
      let cur <- cur.advance? rest
      let (last, cur) <- readMember cur
      match first, last with
      | .literal a aByte, .literal b bByte =>
        if a <= b then return (.range a aByte b bByte, cur) else none
      | _, _ => none
  | _ => return (<- first.toSet?, cur)

/-- The names of the seven-bit classes. -/
def classNames : List String :=
  ["alnum", "alpha", "ascii", "blank", "cntrl", "digit", "graph", "lower", "print", "punct",
   "space", "upper", "word", "xdigit"]

/-- A seven-bit class after its opening bracket, if it is one. -/
def readNamedClass? (text : List Char) : Option (CharacterSet × List Char) :=
  match text with
  | ':' :: rest =>
    let (negated, rest) :=
      match rest with
      | '^' :: rest => (true, rest)
      | rest => (false, rest)
    let name := rest.takeWhile (· != ':')
    match rest.dropWhile (· != ':') with
    | ':' :: ']' :: rest =>
      if classNames.contains (String.ofList name) then some (.named name negated, rest) else none
    | _ => none
  | _ => none

/-- Puts what was read last behind the operation that waits for it. -/
def closeOperation (waiting : Option (SetOperation × CharacterSet)) (set : CharacterSet) :
    CharacterSet :=
  match waiting with
  | none => set
  | some (op, left) => .combined op left set

/-- The minus signs at the start of a class, in reverse before `done`. -/
def readLeadingDashes : Nat -> List CharacterSet -> Cursor -> Option (List CharacterSet × Cursor)
  | 0, _, _ => none
  | fuel + 1, done, cur =>
    match cur.rest with
    | '-' :: rest => do readLeadingDashes fuel (.literal '-' false :: done) (<- cur.advance? rest)
    | _ => some (done, cur)

/-- The start of a class after its bracket: whether it is negated, and the
members that are characters only because they stand first. -/
def readOpening (cur : Cursor) : Option (Bool × List CharacterSet × Cursor) := do
  let cur <- cur.advance? cur.rest
  let (negated, cur) <-
    match cur.rest with
    | '^' :: rest => do pure (true, <- cur.advance? rest)
    | _ => pure (false, cur)
  let (members, cur) <- readLeadingDashes (cur.rest.length + 1) [] cur
  match members, cur.rest with
  | [], ']' :: rest => return (negated, [.literal ']' false], <- cur.advance? rest)
  | _, _ => return (negated, members, cur)

mutual

/-- A class after its opening bracket. -/
def readClass : Nat -> Cursor -> Option (CharacterSet × Cursor)
  | 0, _ => none
  | fuel + 1, cur => do
    let (negated, members, cur) <- readOpening cur
    let (inner, cur) <- readMembers fuel none members cur
    return (.bracketed negated inner, cur)

/-- The members of a class up to its closing bracket.  The members since the
last operation are kept in reverse. -/
def readMembers : Nat -> Option (SetOperation × CharacterSet) -> List CharacterSet -> Cursor ->
    Option (CharacterSet × Cursor)
  | 0, _, _, _ => none
  | fuel + 1, waiting, done, cur =>
    let cur := cur.skip
    let close := closeOperation waiting (CharacterSet.ofParts done.reverse)
    match cur.rest with
    | [] => none
    | '[' :: rest =>
      match readNamedClass? rest with
      | some (set, rest) => readMembers fuel waiting (set :: done) (cur.goTo rest)
      | none =>
        match readClass fuel (cur.goTo rest) with
        | some (set, cur) => readMembers fuel waiting (set :: done) cur
        | none => none
    | ']' :: rest => some (close, cur.goTo rest)
    | '&' :: '&' :: rest => readMembers fuel (some (.intersection, close)) [] (cur.goTo rest)
    | '-' :: '-' :: rest => readMembers fuel (some (.difference, close)) [] (cur.goTo rest)
    | '~' :: '~' :: rest => readMembers fuel (some (.symmetricDifference, close)) [] (cur.goTo rest)
    | _ =>
      match readRange cur with
      | some (set, cur) => readMembers fuel waiting (set :: done) cur
      | none => none

end

/-! ## Repetition -/

/-- Whether a part can be repeated. -/
def isRepeatable : Pattern -> Bool
  | .empty | .flags _ => false
  | _ => true

/-- Steps over the mark that makes a repetition lazy, which matters for where
a match ends but not for whether there is one. -/
def skipLazy (cur : Cursor) : Cursor :=
  match cur.rest with
  | '?' :: rest => cur.goTo rest
  | _ => cur

/-- The digits at the cursor, blanks between them skipped where allowed. -/
def readDigits : Nat -> List Char -> Cursor -> List Char × Cursor
  | 0, done, cur => (done.reverse, cur)
  | fuel + 1, done, cur =>
    match cur.rest with
    | c :: rest =>
      if c.isDigit then readDigits fuel (c :: done) (cur.goTo rest).skip else (done.reverse, cur)
    | [] => (done.reverse, cur)

/-- A count in braces.  Blanks around it never matter. -/
def readCount (cur : Cursor) : Option (Nat × Cursor) :=
  let cur := cur.goTo (Text.trimStart cur.rest)
  let (digits, cur) := readDigits cur.rest.length [] cur
  let cur := if (cur.rest.head?.map Text.isBlank) == some true
    then (cur.goTo (Text.trimStart cur.rest)).skip else cur
  match Text.readWord 10 32 digits with
  | .ok n => some (n, cur)
  | .error _ => none

/-- The bounds of a counted repetition after the opening brace. -/
def readBounds (cur : Cursor) : Option (Nat × Option Nat × Cursor) := do
  let cur <- cur.advance? cur.rest
  let (least, cur) <- readCount cur
  let (most, cur) <-
    match cur.rest with
    | ',' :: rest => do
      let cur <- cur.advance? rest
      match cur.rest with
      | '\x7d' :: _ => pure (none, cur)
      | _ => do
        let (most, cur) <- readCount cur
        pure (some most, cur)
    | _ => pure (some least, cur)
  match cur.rest with
  | '\x7d' :: rest =>
    if most.all (least <= ·) then return (least, most, (cur.goTo rest).skip) else none
  | _ => none

/-! ## Groups, rows and branches -/

/-- What an opening parenthesis begins. -/
inductive Opening where
  | setFlags (g : FlagGroup)
  | group (flags : Option FlagGroup)
deriving Repr

/-- Reads on after an opening parenthesis.  Looking around is not supported,
and a flag group has to name a flag. -/
def readGroupOpening (cur : Cursor) : Option (Opening × Cursor) :=
  let cur := cur.skip
  let named := fun rest =>
    match readName [] rest with
    | some (name, rest) =>
      if cur.names.contains name then none
      else some (Opening.group none, { cur with rest := rest, names := name :: cur.names })
    | none => none
  match cur.rest with
  | '?' :: '=' :: _ => none
  | '?' :: '!' :: _ => none
  | '?' :: '<' :: '=' :: _ => none
  | '?' :: '<' :: '!' :: _ => none
  | '?' :: 'P' :: '<' :: rest => named rest
  | '?' :: '<' :: rest => named rest
  | '?' :: rest =>
    match readFlags false ⟨[], []⟩ rest with
    | some (g, ')' :: rest) =>
      if g.on.isEmpty && g.off.isEmpty then none else some (.setFlags g, cur.goTo rest)
    | some (g, ':' :: rest) => some (.group (some g), cur.goTo rest)
    | _ => none
  | _ => some (.group none, cur)

mutual

/-- Branches up to the end of the group or of the text. -/
def readBranches : Nat -> Cursor -> Option (List Pattern × Cursor)
  | 0, _ => none
  | fuel + 1, cur =>
    match readItems fuel [] cur with
    | none => none
    | some (items, cur) =>
      let branch := Pattern.ofItems items.reverse
      match cur.rest with
      | '|' :: rest => (readBranches fuel (cur.goTo rest)).map (fun r => (branch :: r.1, r.2))
      | _ => some ([branch], cur)

/-- A row of items, kept in reverse, up to the end of its branch. -/
def readItems : Nat -> List Pattern -> Cursor -> Option (List Pattern × Cursor)
  | 0, _, _ => none
  | fuel + 1, done, cur =>
    let cur := cur.skip
    let again := fun (least : Nat) (most : Option Nat) (cur : Cursor) =>
      match done with
      | last :: before =>
        if isRepeatable last then readItems fuel (.repeated last least most :: before) cur else none
      | [] => none
    match cur.rest with
    | [] => some (done, cur)
    | ')' :: _ => some (done, cur)
    | '|' :: _ => some (done, cur)
    | '(' :: rest =>
      match readGroupOpening (cur.goTo rest) with
      | none => none
      | some (.setFlags g, after) =>
        readItems fuel (.flags g :: done)
          { after with spaced := (g.setting? .spaced).getD cur.spaced }
      | some (.group flags, after) =>
        let spaced := ((flags.bind (·.setting? .spaced))).getD cur.spaced
        match readBranches fuel { after with spaced := spaced } with
        | some (branches, after) =>
          match after.rest with
          | ')' :: rest =>
            readItems fuel (.group flags (Pattern.ofBranches branches) :: done)
              { after with rest := rest, spaced := cur.spaced }
          | _ => none
        | none => none
    | '[' :: rest =>
      match readClass fuel (cur.goTo rest) with
      | some (.bracketed negated inner, cur) => readItems fuel (.bracketed negated inner :: done) cur
      | _ => none
    | '?' :: rest => again 0 (some 1) (skipLazy (cur.goTo rest))
    | '*' :: rest => again 0 none (skipLazy (cur.goTo rest))
    | '+' :: rest => again 1 none (skipLazy (cur.goTo rest))
    | '\x7b' :: rest =>
      match readBounds (cur.goTo rest) with
      | some (least, most, cur) => again least most (skipLazy cur)
      | none => none
    | '.' :: rest => readItems fuel (.dot :: done) (cur.goTo rest)
    | '^' :: rest => readItems fuel (.anchor .lineStart :: done) (cur.goTo rest)
    | '$' :: rest => readItems fuel (.anchor .lineEnd :: done) (cur.goTo rest)
    | '\\' :: rest =>
      match readEscape (cur.goTo rest) with
      | some (primitive, cur) => readItems fuel (primitive.toPattern :: done) cur
      | none => none
    | c :: rest => readItems fuel (.literal c false :: done) (cur.goTo rest)

end

/-- The deepest nesting of a pattern that is accepted. -/
def nestingLimit : Nat := 250

/-- The pattern that a text is. -/
def parse (text : List Char) : Option Pattern :=
  match readBranches (2 * text.length + 2) ⟨text, false, []⟩ with
  | some (branches, ⟨[], _, _⟩) =>
    let pattern := Pattern.ofBranches branches
    if pattern.depth <= nestingLimit then some pattern else none
  | _ => none

end Regex
end MemoryAtlas

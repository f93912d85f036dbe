import MemoryAtlas.Regex.Engine
import MemoryAtlas.Regex.Property
import MemoryAtlas.Regex.Reader

namespace MemoryAtlas
namespace Regex

/-!
Patterns with their flags resolved, and the places that they reach in a text.

A resolved pattern consumes single characters that pass a test, insists on
anchors, and combines such parts by sequence, choice and repetition.  Matching
asks for sets of positions: which positions of the text can be reached from a
given set by matching the pattern once.  Since a text has finitely many
positions, a repetition without upper bound stops growing after as many rounds
as there are positions.
-/

/-- The conditions on a position that consume nothing. -/
inductive Look where
  | start
  | finish
  | lineStart
  | lineEnd
  | lineStartReturn
  | lineEndReturn
  | boundary (unicode : Bool)
  | notBoundary (unicode : Bool)
  | wordStart (unicode : Bool)
  | wordEnd (unicode : Bool)
  | wordStartHalf (unicode : Bool)
  | wordEndHalf (unicode : Bool)
deriving Repr, DecidableEq

/-- A resolved pattern.  `weight` of a test estimates how much room a compiled
form of it takes. -/
inductive Node where
  | empty
  | one (weight : Nat) (test : Char -> Bool)
  | look (l : Look)
  | sequence (first second : Node)
  | choice (first second : Node)
  | repeated (inner : Node) (least : Nat) (most : Option Nat)

namespace Node

/-- An estimate of the room that the compiled pattern takes, in bytes. -/
def weight : Node -> Nat
  | .empty => 32
  | .one w _ => w
  | .look _ => 32
  | .sequence a b => a.weight + b.weight
  | .choice a b => a.weight + b.weight + 32
  | .repeated inner least most => inner.weight * max 1 (most.getD (least + 1)) + 32

end Node

/-- The switches in force at a place of a pattern. -/
structure Setting where
  ignoreCase : Bool
  multiLine : Bool
  dotAll : Bool
  unicode : Bool
  carriageReturn : Bool
deriving Repr, DecidableEq

/-- The switches at the start of every pattern. -/
def Setting.standing : Setting := ⟨false, false, false, true, false⟩

/-- The switches after a flag group. -/
def Setting.apply (s : Setting) (g : FlagGroup) : Setting where
  ignoreCase := (g.setting? .ignoreCase).getD s.ignoreCase
  multiLine := (g.setting? .multiLine).getD s.multiLine
  dotAll := (g.setting? .dotAll).getD s.dotAll
  unicode := (g.setting? .unicode).getD s.unicode
  carriageReturn := (g.setting? .carriageReturn).getD s.carriageReturn

/-! ## Character tests -/

/-- A test closed under letter case. -/
def foldTest (unicode : Bool) (test : Char -> Bool) : Char -> Bool :=
  fun c =>
    if unicode then
      test c || (caseVariants c.toNat).any (fun n => test (Char.ofNat n))
    else test c || test c.toLower || test c.toUpper

/-- Whether a test outside Unicode mode accepts something that is no seven-bit
character.  Such a test could split a character and is refused. -/
def reachesPastSevenBits (test : Char -> Bool) : Bool :=
  (List.range 128).any (fun n => test (Char.ofNat (128 + n)))

/-- A test with letter case and negation applied, in this order. -/
def finishTest? (s : Setting) (negated : Bool) (test : Char -> Bool) : Option (Char -> Bool) :=
  let folded := if s.ignoreCase then foldTest s.unicode test else test
  let done := if negated then (fun c => !folded c) else folded
  if !s.unicode && reachesPastSevenBits done then none else some done

/-- The seven-bit classes. -/
def classTest (name : String) (c : Char) : Bool :=
  let n := c.toNat
  let alpha := ('a' <= c && c <= 'z') || ('A' <= c && c <= 'Z')
  let digit := '0' <= c && c <= '9'
  match name with
  | "alnum" => alpha || digit
  | "alpha" => alpha
  | "ascii" => n < 128
  | "blank" => c == ' ' || c == '\t'
  | "cntrl" => n < 32 || n == 127
  | "digit" => digit
  | "graph" => 33 <= n && n <= 126
  | "lower" => 'a' <= c && c <= 'z'
  | "print" => 32 <= n && n <= 126
  | "punct" => 33 <= n && n <= 126 && !alpha && !digit
  | "space" => (9 <= n && n <= 13) || n == 32
  | "upper" => 'A' <= c && c <= 'Z'
  | "word" => alpha || digit || c == '_'
  | "xdigit" => digit || ('a' <= c && c <= 'f') || ('A' <= c && c <= 'F')
  | _ => false

/-- The classes with a one-letter escape. -/
def shortTest (unicode : Bool) (k : ShortClass) : Char -> Bool :=
  match k, unicode with
  | .digit, true => fun c => Text.category c == .nd
  | .space, true => Text.isBlank
  | .word, true => Text.isWordCharacter
  | .digit, false => classTest "digit"
  | .space, false => classTest "space"
  | .word, false => classTest "word"

def shortTest? (s : Setting) (k : ShortClass) (negated : Bool) : Option (Char -> Bool) :=
  finishTest? { s with ignoreCase := false } negated (shortTest s.unicode k)

def propertyTestIn? (s : Setting) (q : PropertyQuery) (negated : Bool) : Option (Char -> Bool) :=
  if s.unicode then (propertyTest? q).bind (finishTest? s negated) else none

/-- The character that a literal in a class stands for.  Outside Unicode mode
it has to be a seven-bit character or a single byte. -/
def classLiteral? (s : Setting) (c : Char) (byte : Bool) : Option Char :=
  if s.unicode || c.toNat < 128 || byte then some c else none

mutual

/-- The test of what stands between brackets. -/
def setTest? (s : Setting) : CharacterSet -> Option (Char -> Bool)
  | .empty => some (fun _ => false)
  | .literal c byte => (classLiteral? s c byte).map (fun c => fun d => d == c)
  | .range a aByte b bByte => do
    let a <- classLiteral? s a aByte
    let b <- classLiteral? s b bByte
    return (fun d => a <= d && d <= b)
  | .named name negated => finishTest? s negated (classTest (String.ofList name))
  | .short k negated => shortTest? s k negated
  | .property q negated => propertyTestIn? s q negated
  | .bracketed negated inner => (setTest? s inner).bind (finishTest? s negated)
  | .union parts => unionTest? s parts
  | .combined op left right => do
    let left <- setTest? s left
    let right <- setTest? s right
    let left := if s.ignoreCase then foldTest s.unicode left else left
    let right := if s.ignoreCase then foldTest s.unicode right else right
    match op with
    | .intersection => return (fun c => left c && right c)
    | .difference => return (fun c => left c && !right c)
    | .symmetricDifference => return (fun c => left c != right c)

def unionTest? (s : Setting) : List CharacterSet -> Option (Char -> Bool)
  | [] => some (fun _ => false)
  | part :: rest => do
    let first <- setTest? s part
    let others <- unionTest? s rest
    return (fun c => first c || others c)

end

/-! ## Resolving a pattern -/

/-- The room that the compiled form of a character takes. -/
def characterWeight (c : Char) : Nat := 32 * c.utf8Size

/-- The room that the compiled form of a small class takes. -/
def classWeight : Nat := 64

/-- The room that the compiled form of a class spread over all of Unicode
takes. -/
def wideClassWeight : Nat := 48000

/-- A literal with the switches in force. -/
def literalNode? (s : Setting) (c : Char) (byte : Bool) : Option Node :=
  if !s.unicode && byte && 128 <= c.toNat then none
  else if s.ignoreCase && (s.unicode || c.toNat < 128) then
    some (.one (2 * characterWeight c) (foldTest s.unicode (fun d => d == c)))
  else some (.one (characterWeight c) (fun d => d == c))

def dotNode? (s : Setting) : Option Node :=
  if !s.unicode then none
  else if s.dotAll then some (.one 320 (fun _ => true))
  else if s.carriageReturn then some (.one 320 (fun c => c != '\n' && c != '\r'))
  else some (.one 320 (fun c => c != '\n'))

def anchorLook (s : Setting) : Anchor -> Look
  | .lineStart =>
    if !s.multiLine then .start else if s.carriageReturn then .lineStartReturn else .lineStart
  | .lineEnd =>
    if !s.multiLine then .finish else if s.carriageReturn then .lineEndReturn else .lineEnd
  | .textStart => .start
  | .textEnd => .finish
  | .wordBoundary => .boundary s.unicode
  | .notWordBoundary => .notBoundary s.unicode
  | .wordStart => .wordStart s.unicode
  | .wordEnd => .wordEnd s.unicode
  | .wordStartHalf => .wordStartHalf s.unicode
  | .wordEndHalf => .wordEndHalf s.unicode

mutual

/-- Resolves a pattern under the switches in force at its start, and gives the
switches in force after it. -/
def resolve? (s : Setting) : Pattern -> Option (Node × Setting)
  | .empty => some (.empty, s)
  | .flags g => some (.empty, s.apply g)
  | .literal c byte => (literalNode? s c byte).map (fun n => (n, s))
  | .dot => (dotNode? s).map (fun n => (n, s))
  | .anchor a => some (.look (anchorLook s a), s)
  | .short k negated =>
    (shortTest? s k negated).map
      (fun test => (.one (if s.unicode then wideClassWeight else classWeight) test, s))
  | .property q negated => (propertyTestIn? s q negated).map (fun test => (.one wideClassWeight test, s))
  | .bracketed negated inner =>
    ((setTest? s inner).bind (finishTest? s negated)).map (fun test => (.one classWeight test, s))
  | .repeated inner least most =>
    (resolve? s inner).map (fun r => (.repeated r.1 least most, r.2))
  | .group flags inner =>
    (resolve? ((flags.map s.apply).getD s) inner).map (fun r => (r.1, s))
  | .alternation branches => resolveBranches? s branches
  | .sequence items => resolveItems? s items

def resolveItems? (s : Setting) : List Pattern -> Option (Node × Setting)
  | [] => some (.empty, s)
  | item :: rest => do
    let (first, s) <- resolve? s item
    let (others, s) <- resolveItems? s rest
    return (.sequence first others, s)

def resolveBranches? (s : Setting) : List Pattern -> Option (Node × Setting)
  | [] => some (.one classWeight (fun _ => false), s)
  | branch :: rest => do
    let (first, s) <- resolve? s branch
    let (others, s) <- resolveBranches? s rest
    return (.choice first others, s)

end

/-! ## Matching -/

/-- Whether the character at a position belongs to a word. -/
def isWordAt (unicode : Bool) (text : Array Char) (i : Nat) : Bool :=
  match text[i]? with
  | some c => shortTest unicode .word c
  | none => false

/-- Whether a condition holds at a position of the text. -/
def Look.holds (l : Look) (text : Array Char) (i : Nat) : Bool :=
  let before := if i = 0 then none else text[i - 1]?
  let after := text[i]?
  let wordBefore := fun unicode => i != 0 && isWordAt unicode text (i - 1)
  let wordAfter := fun unicode => isWordAt unicode text i
  match l with
  | .start => i == 0
  | .finish => i == text.size
  | .lineStart => i == 0 || before == some '\n'
  | .lineEnd => i == text.size || after == some '\n'
  | .lineStartReturn =>
    i == 0 || before == some '\n' || (before == some '\r' && after != some '\n')
  | .lineEndReturn =>
    i == text.size || after == some '\r' || (after == some '\n' && before != some '\r')
  | .boundary unicode => wordBefore unicode != wordAfter unicode
  | .notBoundary unicode => wordBefore unicode == wordAfter unicode
  | .wordStart unicode => !wordBefore unicode && wordAfter unicode
  | .wordEnd unicode => wordBefore unicode && !wordAfter unicode
  | .wordStartHalf unicode => !wordBefore unicode
  | .wordEndHalf unicode => !wordAfter unicode

/-- A function applied a number of times. -/
def iterate (f : List Nat -> List Nat) : Nat -> List Nat -> List Nat
  | 0, starts => starts
  | n + 1, starts => iterate f n (f starts)

/-- The positions reached by applying a step at most `n` times. -/
def reachWithin (f : List Nat -> List Nat) : Nat -> List Nat -> List Nat
  | 0, reached => reached
  | n + 1, reached =>
    let next := (f reached).filter (fun i => !reached.contains i)
    if next.isEmpty then reached else reachWithin f n (reached ++ next)

/-- The positions of the text that the pattern can reach from given ones, each
once. -/
def Node.reach (text : Array Char) : Node -> List Nat -> List Nat
  | .empty, starts => starts
  | .one _ test, starts =>
    starts.filterMap (fun i => (text[i]?.filter test).map (fun _ => i + 1))
  | .look l, starts => starts.filter (fun i => l.holds text i)
  | .sequence a b, starts => b.reach text (a.reach text starts)
  | .choice a b, starts =>
    let first := a.reach text starts
    first ++ (b.reach text starts).filter (fun i => !first.contains i)
  | .repeated inner least most, starts =>
    let rounds := min (text.size + 1) ((most.map (· - least)).getD (text.size + 1))
    reachWithin (inner.reach text) rounds (iterate (inner.reach text) least starts)

/-- A compiled pattern. -/
structure Matcher where
  node : Node

/-- The room that a compiled pattern may take. -/
def weightLimit : Nat := 10 * 1024 * 1024

/-- Compiles a pattern.  There is nothing to compile if the text is no
pattern, a property is unknown or the compiled form would be too large. -/
def compile (text : List Char) : Option Matcher := do
  let pattern <- parse text
  let (node, _) <- resolve? .standing pattern
  if node.weight <= weightLimit then some ⟨node⟩ else none

/-- Whether the pattern occurs somewhere in the text. -/
def Matcher.occursIn (m : Matcher) (text : String) : Bool :=
  let chars := text.toList.toArray
  !(m.node.reach chars (List.range (chars.size + 1))).isEmpty

/-- The engine that the program is run with, one of several.  Others know more
properties by name, such as `Emoji`, `Math` and `Age`, and count the room of a
pattern differently: `\d` two hundred and nineteen times over is refused here,
and `[\w]` a hundred thousand times over is not.  What is proved of rules holds of
every engine that follows its language. -/
def engine : Engine where
  compile text := (compile text.toList).map Matcher.occursIn

end Regex
end MemoryAtlas

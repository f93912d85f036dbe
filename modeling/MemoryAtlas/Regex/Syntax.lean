namespace MemoryAtlas
namespace Regex

/-!
Regular expressions as written.

The tree keeps the flag groups at the places where they stand, because a flag
holds from there to the end of the group around it.  What a class or a
property name denotes is decided only when the flags at its place are known.
-/

/-- The switches that a pattern can turn on and off. -/
inductive Flag where
  | ignoreCase
  | multiLine
  | dotAll
  | swapGreed
  | unicode
  | carriageReturn
  | spaced
deriving Repr, DecidableEq

/-- A flag group: flags turned on, then flags turned off. -/
structure FlagGroup where
  on : List Flag
  off : List Flag
deriving Repr, DecidableEq

/-- The setting of a flag that a group asks for, if it mentions the flag. -/
def FlagGroup.setting? (g : FlagGroup) (f : Flag) : Option Bool :=
  if g.on.contains f then some true else if g.off.contains f then some false else none

/-- The classes with a one-letter escape. -/
inductive ShortClass where
  | digit
  | space
  | word
deriving Repr, DecidableEq

/-- The question a property escape asks. -/
inductive PropertyQuery where
  | letter (c : Char)
  | named (name : List Char)
  | valued (equal : Bool) (name value : List Char)
deriving Repr, DecidableEq

/-- How two character sets are combined. -/
inductive SetOperation where
  | intersection
  | difference
  | symmetricDifference
deriving Repr, DecidableEq

/-- What stands between the brackets of a class. -/
inductive CharacterSet where
  | empty
  /-- One character; `byte` if it was written as a two-digit escape. -/
  | literal (c : Char) (byte : Bool)
  | range (first : Char) (firstByte : Bool) (last : Char) (lastByte : Bool)
  | named (name : List Char) (negated : Bool)
  | short (k : ShortClass) (negated : Bool)
  | property (q : PropertyQuery) (negated : Bool)
  | bracketed (negated : Bool) (inner : CharacterSet)
  | union (parts : List CharacterSet)
  | combined (op : SetOperation) (left right : CharacterSet)
deriving Repr

/-- The places that a pattern can insist on without consuming anything. -/
inductive Anchor where
  | lineStart
  | lineEnd
  | textStart
  | textEnd
  | wordBoundary
  | notWordBoundary
  | wordStart
  | wordEnd
  | wordStartHalf
  | wordEndHalf
deriving Repr, DecidableEq

/-- A pattern. -/
inductive Pattern where
  | empty
  | flags (g : FlagGroup)
  | literal (c : Char) (byte : Bool)
  | dot
  | anchor (a : Anchor)
  | short (k : ShortClass) (negated : Bool)
  | property (q : PropertyQuery) (negated : Bool)
  | bracketed (negated : Bool) (inner : CharacterSet)
  | repeated (inner : Pattern) (least : Nat) (most : Option Nat)
  | group (flags : Option FlagGroup) (inner : Pattern)
  | alternation (branches : List Pattern)
  | sequence (items : List Pattern)
deriving Repr

namespace CharacterSet

mutual

/-- How deeply brackets, unions and operations are nested. -/
def depth : CharacterSet -> Nat
  | .bracketed _ inner => 1 + inner.depth
  | .union parts => 1 + depthOfParts parts
  | .combined _ left right => 1 + max left.depth right.depth
  | _ => 0

def depthOfParts : List CharacterSet -> Nat
  | [] => 0
  | part :: rest => max part.depth (depthOfParts rest)

end

/-- The set of a row of parts. -/
def ofParts : List CharacterSet -> CharacterSet
  | [] => .empty
  | [part] => part
  | parts => .union parts

end CharacterSet

namespace Pattern

mutual

/-- How deeply the composite parts of a pattern are nested. -/
def depth : Pattern -> Nat
  | .bracketed _ inner => 1 + inner.depth
  | .repeated inner _ _ => 1 + inner.depth
  | .group _ inner => 1 + inner.depth
  | .alternation branches => 1 + depthOfParts branches
  | .sequence items => 1 + depthOfParts items
  | _ => 0

def depthOfParts : List Pattern -> Nat
  | [] => 0
  | part :: rest => max part.depth (depthOfParts rest)

end

/-- The pattern of a row of items. -/
def ofItems : List Pattern -> Pattern
  | [] => .empty
  | [item] => item
  | items => .sequence items

/-- The pattern of a list of branches. -/
def ofBranches : List Pattern -> Pattern
  | [branch] => branch
  | branches => .alternation branches

end Pattern
end Regex
end MemoryAtlas

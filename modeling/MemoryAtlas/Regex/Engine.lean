namespace MemoryAtlas
namespace Regex

/-!
Engines for regular expressions, and what the documentation of their language
promises.

The library works with any engine.  Of the language only those forms are
spelled out that are put around a pattern: the two anchors, groups, and one
expression followed by another.  Everything else that an expression can be is
left to the language, with the flags that hold at its place.
-/

/-- An engine compiles a text to a test that tells whether the expression
occurs somewhere in a name.  It may refuse a text because it is no expression,
or because the compiled form would be too large. -/
structure Engine where
  compile : String -> Option (String -> Bool)

/-- An expression.  An atom is anything without a form of its own here. -/
inductive Expr (Atom : Type) where
  | atom (a : Atom)
  | start
  | stop
  | group (inner : Expr Atom)
  | followedBy (first others : Expr Atom)

/-- Whether the expression matches the text between two positions, given what
the atoms match. -/
def Expr.Spans {Atom : Type} (atoms : Atom -> List Char -> Nat -> Nat -> Prop) (text : List Char) :
    Expr Atom -> Nat -> Nat -> Prop
  | .atom a, i, j => atoms a text i j
  | .start, i, j => i = j ∧ i = 0
  | .stop, i, j => i = j ∧ i = text.length
  | .group inner, i, j => inner.Spans atoms text i j
  | .followedBy first others, i, k => ∃ j, first.Spans atoms text i j ∧ others.Spans atoms text j k

/-- A language of expressions: which texts are expressions, and what its atoms
match. -/
structure Language (Atom : Type) where
  Reads : List Char -> Expr Atom -> Prop
  spans : Atom -> List Char -> Nat -> Nat -> Prop

/-- The expression matches the whole of a name. -/
def Language.MatchesWhole {Atom : Type} (language : Language Atom) (e : Expr Atom) (name : String) :
    Prop :=
  e.Spans language.spans name.toList 0 name.toList.length

/-- What is documented of an engine and its language. -/
structure Engine.Follows {Atom : Type} (engine : Engine) (language : Language Atom) : Prop where
  /-- What compiles is an expression, and the test looks for it everywhere in a
  name. -/
  search : forall text occursIn, engine.compile text = some occursIn ->
    ∃ e, language.Reads text.toList e ∧ forall name, occursIn name = true <->
      ∃ i j, i <= name.toList.length ∧ e.Spans language.spans name.toList i j
  /-- A caret is the start of the text.  In front of a group it belongs to the
  first branch, so it is followed by all that comes if there are no others. -/
  caret : forall rest whole, language.Reads ('^' :: '(' :: rest) whole ->
    ∃ e, language.Reads ('(' :: rest) e ∧
      forall first others, e = .followedBy first others -> whole = .followedBy .start e
  /-- Around an expression `(?:` and `)` are a group, which no flag set in it
  outlasts, and a dollar sign behind it is the end of the text. -/
  group : forall inner e whole, language.Reads inner e ->
    language.Reads ("(?:".toList ++ inner ++ ")$".toList) whole ->
      whole = .followedBy (.group e) .stop

end Regex
end MemoryAtlas

import Mathlib.Data.List.Basic
import MemoryAtlas.Text.Blank

namespace MemoryAtlas
namespace Text

/-!
# Words and blanks

A text is cut into its words at blanks, and blanks around it are taken off.  Both are
known here from the way in which a text is put together: a word in front of a blank is
the first word, blanks in front change nothing, and blanks around a solid text come
off again.
-/

/-- The text has no blank in it. -/
def Solid (text : List Char) : Prop :=
  forall c, c ∈ text -> isBlank c = false

/-- The text has nothing but blanks in it. -/
def Blank (text : List Char) : Prop :=
  forall c, c ∈ text -> isBlank c = true

-- Only the characters of the text are tried, not all that there are.
instance (text : List Char) : Decidable (Solid text) :=
  List.decidableBAll (fun c => isBlank c = false) text

instance (text : List Char) : Decidable (Blank text) :=
  List.decidableBAll (fun c => isBlank c = true) text

theorem Solid.append {first second : List Char} (one : Solid first) (other : Solid second) :
    Solid (first ++ second) := by
  intro c member
  rcases List.mem_append.mp member with early | late
  · exact one c early
  · exact other c late

/-! ## Cutting -/

section Pieces

variable {cut : Char -> Bool} {piece : List Char} (whole : forall c, c ∈ piece -> cut c = false)
include whole

theorem pieces_of_whole : pieces cut piece = [piece] := by
  induction piece with
  | nil => rfl
  | cons c rest inductionHypothesis =>
      rw [pieces, inductionHypothesis fun d member => whole d (List.mem_cons_of_mem c member)]
      simp [whole c List.mem_cons_self]

/-- What stands in front of a cut is a piece. -/
theorem pieces_append_cons {c : Char} (cuts : cut c = true) (rest : List Char) :
    pieces cut (piece ++ c :: rest) = piece :: pieces cut rest := by
  induction piece with
  | nil =>
      rcases List.exists_cons_of_ne_nil (pieces_ne_nil cut rest) with ⟨first, later, split⟩
      rw [List.nil_append, pieces, split]
      simp [cuts]
  | cons d piece inductionHypothesis =>
      rw [List.cons_append, pieces,
        inductionHypothesis fun e member => whole e (List.mem_cons_of_mem d member)]
      simp [whole d List.mem_cons_self]

end Pieces

/-! ## Words -/

/-- A blank in front is passed over. -/
theorem words_cons_of_blank {c : Char} (blank : isBlank c = true) (rest : List Char) :
    words (c :: rest) = words rest := by
  have cut : pieces isBlank ([] ++ c :: rest) = [] :: pieces isBlank rest :=
    pieces_append_cons (by simp) blank rest
  rw [List.nil_append] at cut
  rw [words, cut]
  rfl

theorem words_append_of_blank {lead : List Char} (blank : Blank lead) (rest : List Char) :
    words (lead ++ rest) = words rest := by
  induction lead with
  | nil => rfl
  | cons c lead inductionHypothesis =>
      rw [List.cons_append, words_cons_of_blank (blank c List.mem_cons_self)]
      exact inductionHypothesis fun d member => blank d (List.mem_cons_of_mem c member)

section Word

variable {word : List Char} (solid : Solid word) (nonempty : word ≠ [])
include solid nonempty

theorem words_of_solid : words word = [word] := by
  rw [words, pieces_of_whole solid]
  simp [nonempty]

/-- What stands in front of a blank is a word. -/
theorem words_append_cons {c : Char} (blank : isBlank c = true) (rest : List Char) :
    words (word ++ c :: rest) = word :: words rest := by
  rw [words, pieces_append_cons solid blank]
  simp [nonempty, words]

end Word

/-- Words with single spaces between them are found again. -/
theorem words_intercalate {tokens : List (List Char)}
    (solid : forall token, token ∈ tokens -> Solid token ∧ token ≠ []) :
    words ([' '].intercalate tokens) = tokens := by
  induction tokens with
  | nil => rfl
  | cons token rest inductionHypothesis =>
      rcases solid token List.mem_cons_self with ⟨whole, nonempty⟩
      have later := inductionHypothesis fun other member => solid other (List.mem_cons_of_mem token member)
      cases rest with
      | nil =>
          rw [List.intercalate_singleton]
          exact words_of_solid whole nonempty
      | cons next rest =>
          rw [List.intercalate_cons_cons, List.append_assoc, List.singleton_append,
            words_append_cons whole nonempty (by decide), later]

/-! ## Trimming -/

section Trim

variable {text : List Char} (solid : Solid text)
include solid

theorem dropWhile_isBlank_append (nonempty : text ≠ []) (rest : List Char) :
    (text ++ rest).dropWhile isBlank = text ++ rest := by
  rcases List.exists_cons_of_ne_nil nonempty with ⟨c, later, rfl⟩
  rw [List.cons_append, List.dropWhile_cons, solid c List.mem_cons_self]
  simp

/-- Blanks around a text without blanks come off. -/
theorem trim_append (nonempty : text ≠ []) {before after : List Char} (blankBefore : Blank before)
    (blankAfter : Blank after) : trim (before ++ text ++ after) = text := by
  have start : trimStart (before ++ text ++ after) = text ++ after := by
    rw [trimStart, List.append_assoc, List.dropWhile_append_of_pos blankBefore,
      dropWhile_isBlank_append solid nonempty]
  have reversed : Solid text.reverse := fun c member => solid c (List.mem_reverse.mp member)
  have blank : forall c, c ∈ after.reverse -> isBlank c = true :=
    fun c member => blankAfter c (List.mem_reverse.mp member)
  have finish := dropWhile_isBlank_append reversed (by simpa using nonempty) []
  rw [List.append_nil] at finish
  rw [trim, start, trimEnd, List.reverse_append, List.dropWhile_append_of_pos blank, finish,
    List.reverse_reverse]

end Trim

end Text
end MemoryAtlas

import MemoryAtlas.Proofs.Image.Occurrences
import MemoryAtlas.Proofs.Text.Numerals

namespace MemoryAtlas
namespace Pattern

/-!
# Patterns as text

A pattern is written with two digits for a fixed byte and two question marks for an open
place.  It is read more freely: words can be apart by any blanks, a byte can be written
in either case and with zeros in front, and one question mark is enough.  Whatever way a
pattern was written in, its own written form is read as the same pattern.

A pattern without a fixed byte is refused, be it empty or all open.  Its written form is
the one form that cannot be read back.
-/

/-! ## Words -/

/-- The words that stand for an open place. -/
def IsWildcard (word : List Char) : Prop :=
  word = ['?', '?'] ∨ word = ['?']

theorem readToken_eq_none_iff {word : List Char} : readToken word = .ok none <-> IsWildcard word := by
  simp only [readToken, Bool.or_eq_true, decide_eq_true_eq]
  split
  · rename_i wildcard
    exact iff_of_true rfl wildcard
  · rename_i other
    refine iff_of_false ?_ other
    split <;> simp

/-- The written form of a byte is no wildcard and stands for the byte. -/
theorem readToken_byteHex (b : UInt8) : readToken (Text.byteHex b).toList = .ok (some b) := by
  have spells := Text.spells_byteHex b
  have mark : '?' ∉ (Text.byteHex b).toList :=
    spells.not_mem (by decide) (by decide) (Text.digitValue?_eq 16 '?')
  have fixed : ¬ ((Text.byteHex b).toList = ['?', '?'] ∨ (Text.byteHex b).toList = ['?']) := by
    rintro (same | same) <;> rw [same] at mark <;> exact mark List.mem_cons_self
  simp only [readToken, Bool.or_eq_true, decide_eq_true_eq]
  rw [if_neg fixed, Text.readWord_byteHex]
  simp

theorem readToken_placeText (place : Option UInt8) : readToken (placeText place).toList = .ok place := by
  cases place with
  | none => rfl
  | some b => exact readToken_byteHex b

theorem placeText_solid (place : Option UInt8) :
    Text.Solid (placeText place).toList ∧ (placeText place).toList ≠ [] := by
  cases place with
  | none =>
      have marks : (placeText none).toList = ['?', '?'] := rfl
      rw [marks]
      decide
  | some b =>
      have spells := Text.spells_byteHex b
      exact ⟨spells.solid (by decide) (by decide), spells.ne_nil⟩

/-! ## Patterns -/

/-- The words of a written pattern are its places. -/
theorem words_text (p : Pattern) :
    Text.words p.text.toList = p.map fun place => (placeText place).toList := by
  rw [text, String.toList_intercalate, List.map_map]
  refine Text.words_intercalate ?_
  intro token member
  rcases List.mem_map.mp member with ⟨place, -, rfl⟩
  exact placeText_solid place

theorem mapM_readToken_text (p : Pattern) : (Text.words p.text.toList).mapM readToken = .ok p := by
  have read : p.mapM (readToken ∘ fun place => (placeText place).toList) = .ok (p.map id) :=
    Except.mapM_eq_ok fun place _ => readToken_placeText place
  rw [words_text, List.mapM_map, read, List.map_id]

/-! ## Reading -/

section Parse

variable {text : List Char} {p : Pattern}

/-- What is left to be decided once every word has been read. -/
theorem parse_of_mapM (read : (Text.words text).mapM readToken = .ok p) :
    parse text = if p.isEmpty then .error .empty else if p.all Option.isNone then .error .onlyWildcards
      else .ok p := by
  rw [parse, read]
  rfl

/-- A pattern with a fixed byte is read back from its written form. -/
theorem parse_text (fixed : ∃ b, some b ∈ p) : parse p.text.toList = .ok p := by
  rcases fixed with ⟨b, listed⟩
  have nonempty : p.isEmpty = false := List.isEmpty_eq_false_iff.mpr (List.ne_nil_of_mem listed)
  have notAll : p.all Option.isNone = false := List.all_eq_false.mpr ⟨some b, listed, by simp⟩
  rw [parse_of_mapM (mapM_readToken_text p), nonempty, notAll]
  rfl

theorem all_isNone_iff {words : List (List Char)}
    (aligned : List.Forall₂ (fun word place => readToken word = .ok place) words p) :
    p.all Option.isNone = true <-> forall word, word ∈ words -> IsWildcard word := by
  induction aligned with
  | nil => simp
  | @cons word place words places read _ inductionHypothesis =>
      have first : place.isNone = true <-> IsWildcard word := by
        rw [← readToken_eq_none_iff, read, Except.ok.injEq, Option.isNone_iff_eq_none]
      rw [List.all_cons, Bool.and_eq_true, first, inductionHypothesis, List.forall_mem_cons]

/-- Where a word cannot be read this is the fault. -/
theorem exists_badToken {fault : PatternFault} (failed : (Text.words text).mapM readToken = .error fault) :
    (∃ token cause, parse text = .error (.badToken token cause)) ∧
      ∃ word, word ∈ Text.words text ∧ ¬ IsWildcard word := by
  rcases Except.mapM_fails failed with ⟨word, listed, fails⟩
  have other : ¬ IsWildcard word := by
    rw [← readToken_eq_none_iff, fails]
    simp
  refine ⟨?_, word, listed, other⟩
  have bad : ∃ token cause, fault = .badToken token cause := by
    unfold readToken at fails
    split at fails
    · cases fails
    · split at fails <;> cases fails
      exact ⟨_, _, rfl⟩
  rcases bad with ⟨token, cause, rfl⟩
  refine ⟨token, cause, ?_⟩
  rw [parse, failed]
  rfl

theorem parse_eq_empty_iff : parse text = .error .empty <-> Text.words text = [] := by
  cases read : (Text.words text).mapM readToken with
  | error fault =>
      rcases exists_badToken read with ⟨⟨token, cause, failed⟩, word, listed, -⟩
      rw [failed]
      exact iff_of_false (by simp) (List.ne_nil_of_mem listed)
  | ok p =>
      have aligned := Except.mapM_forall₂ read
      rw [parse_of_mapM read, ← List.length_eq_zero_iff, aligned.length_eq, List.length_eq_zero_iff]
      cases p with
      | nil => simp
      | cons place p =>
          refine iff_of_false ?_ (by simp)
          simp only [List.isEmpty_cons, Bool.false_eq_true, if_false]
          split <;> simp

theorem parse_eq_onlyWildcards_iff : parse text = .error .onlyWildcards <->
    Text.words text ≠ [] ∧ forall word, word ∈ Text.words text -> IsWildcard word := by
  cases read : (Text.words text).mapM readToken with
  | error fault =>
      rcases exists_badToken read with ⟨⟨token, cause, failed⟩, word, listed, other⟩
      rw [failed]
      exact iff_of_false (by simp) fun wildcards => other (wildcards.2 word listed)
  | ok p =>
      have aligned := Except.mapM_forall₂ read
      rw [parse_of_mapM read, ne_eq, ← List.length_eq_zero_iff, aligned.length_eq, List.length_eq_zero_iff,
        ← all_isNone_iff aligned, ← List.isEmpty_iff]
      cases p.isEmpty <;> cases p.all Option.isNone <;> simp

end Parse

/-- A pattern with a fixed byte is read back from its written form.  A text that is read
as a pattern may be written differently, but the written form of the pattern is read as
the same one.  A text without words is refused as empty, and one whose words are all
wildcards as such; these reasons are given for no other text. -/
theorem parse_inverts_text :
    (forall p : Pattern, (∃ b, some b ∈ p) -> parse p.text.toList = .ok p) ∧
    (forall text p, parse text = .ok p -> parse p.text.toList = .ok p) ∧
    (forall text, parse text = .error .empty <-> Text.words text = []) ∧
    forall text, parse text = .error .onlyWildcards <->
      Text.words text ≠ [] ∧ forall word, word ∈ Text.words text -> IsWildcard word :=
  ⟨fun _ => parse_text, fun _ _ parsed => parse_text (exists_fixed_of_parse parsed),
    fun _ => parse_eq_empty_iff, fun _ => parse_eq_onlyWildcards_iff⟩

/-- A pattern written freely: blanks of several kinds, zeros in front, both cases and both
wildcards. -/
theorem parse_inverts_text_at_loose_spelling :
    let p : Pattern := [none, some 0x4B, none, some 0x0D]
    (∃ b, some b ∈ p) ∧ parse p.text.toList = .ok p ∧
      parse "\t? 04b\u3000??\n d ".toList = .ok p ∧ p.text = "?? 4B ?? 0D" := by
  intro p
  have fixed : ∃ b, some b ∈ p := ⟨0x4B, by decide⟩
  have parsed : parse "\t? 04b\u3000??\n d ".toList = .ok p := by decide +kernel
  exact ⟨fixed, parse_inverts_text.1 p fixed, parsed, by decide +kernel⟩

end Pattern
end MemoryAtlas

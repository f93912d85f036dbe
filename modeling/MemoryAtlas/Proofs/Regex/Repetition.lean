import MemoryAtlas.Proofs.Regex.Passage
import MemoryAtlas.Regex.Reader

namespace MemoryAtlas
namespace Regex

open Cursor (Passage)

/-!
# Counted repetitions in front of a closing

The bounds in braces are read in front of a closing as they are without it.  Blanks
are skipped in two ways here, those around a count in every pattern and the others in
spaced ones only; neither kind of skipping takes the closing away and goes on.

Bounds that begin with the closing are none.
-/

variable {cur after : Cursor}

theorem skipLazy_passage (cur : Cursor) :
    Passage cur (skipLazy cur) (fun cur' after' => skipLazy cur' = after') := by
  unfold skipLazy
  split
  · rename_i rest start
    refine (Passage.past ['?'] start).imp ?_
    rintro cur' _ ⟨rest', start', rfl⟩
    simp only [start', List.cons_append, List.nil_append]
  · rename_i greedy
    refine Passage.here ?_
    rintro cur' rfl
    split
    · rename_i start
      exact absurd (congrArg (· ++ closing) start) (greedy _)
    · rfl

theorem readDigits_passage {fuel : Nat} {done digits : List Char} (enough : cur.rest.length <= fuel)
    (read : readDigits fuel done cur = (digits, after)) :
    Passage cur after (fun cur' after' =>
      forall fuel', cur'.rest.length <= fuel' -> readDigits fuel' done cur' = (digits, after')) := by
  have closes : forall {cur' : Cursor}, cur'.closed.rest ≠ [] := by
    simp [closing]
  induction fuel generalizing done cur with
  | zero =>
      cases read
      refine Passage.here ?_
      rintro cur' rfl
      exact absurd (List.length_eq_zero_iff.mp (Nat.le_zero.mp enough)) closes
  | succ fuel inductionHypothesis =>
      rw [readDigits] at read
      split at read
      · rename_i c rest start
        split at read
        · rename_i isDigit
          have shorter := Cursor.length_skip_le (cur.goTo rest)
          rw [start] at enough
          have fueled := Nat.le_trans shorter (Nat.le_of_succ_le_succ enough)
          refine (Passage.overSkip start).trans (inductionHypothesis fueled read) ?_
          rintro cur' _ after' - - - ⟨rest', start', rfl⟩ again fuel' enough'
          rw [start'] at enough'
          rcases Nat.exists_eq_add_of_lt (Nat.lt_of_succ_le enough') with ⟨more, rfl⟩
          simp only [readDigits, start', if_pos isDigit]
          have shorter' := Cursor.length_skip_le (cur'.goTo rest')
          exact again _ (Nat.le_trans shorter' (Nat.le_add_right _ _))
        · rename_i isDigit
          cases read
          refine Passage.here ?_
          rintro cur' rfl fuel' -
          cases fuel' with
          | zero => rfl
          | succ fuel' =>
              rw [readDigits]
              split
              · rename_i c' rest' start'
                rw [Cursor.closed_rest, start'] at start
                rw [(List.cons.inj start).1, if_neg isDigit]
              · rfl
      · rename_i nothing
        cases read
        refine Passage.here ?_
        rintro cur' rfl
        exact absurd nothing closes

theorem trimStart_append_closing (text : List Char) :
    Text.trimStart (text ++ closing) = Text.trimStart text ++ closing := by
  unfold Text.trimStart
  rw [List.dropWhile_append]
  split
  · rename_i blank
    rw [List.isEmpty_iff.mp blank]
    rfl
  · rfl

theorem trimStart_passage (cur : Cursor) : Passage cur (cur.goTo (Text.trimStart cur.rest))
    (fun cur' after' => cur'.goTo (Text.trimStart cur'.rest) = after') := by
  refine ⟨List.dropWhile_suffix _, ?_⟩
  rintro cur' after' rfl finish
  rw [Cursor.closed_rest, trimStart_append_closing] at finish
  exact Cursor.closed_inj finish

/-- The blanks behind the digits of a count are stepped over. -/
def settle (cur : Cursor) : Cursor :=
  if (cur.rest.head?.map Text.isBlank) == some true then (cur.goTo (Text.trimStart cur.rest)).skip else cur

theorem settle_passage (cur : Cursor) : Passage cur (settle cur) (fun cur' after' => settle cur' = after') := by
  have sees : forall cur' : Cursor, ((cur'.closed.rest.head?.map Text.isBlank) == some true) =
      ((cur'.rest.head?.map Text.isBlank) == some true) := by
    intro cur'
    rw [Cursor.closed_rest]
    cases cur'.rest with
    | nil => decide
    | cons c rest => rfl
  unfold settle
  split
  · rename_i blank
    refine (trimStart_passage cur).trans (Passage.skip _) ?_
    rintro cur' _ after' rfl - - rfl rfl
    exact if_pos (sees cur' ▸ blank)
  · rename_i settled
    refine Passage.here ?_
    rintro cur' rfl
    exact if_neg (sees cur' ▸ settled)

theorem readCount_eq (cur : Cursor) :
    readCount cur =
      let trimmed := cur.goTo (Text.trimStart cur.rest)
      let digits := readDigits trimmed.rest.length [] trimmed
      match Text.readWord 10 32 digits.1 with
      | .ok n => some (n, settle digits.2)
      | .error _ => none := rfl

theorem readCount_passage {n : Nat} (read : readCount cur = some (n, after)) :
    Passage cur after (fun cur' after' => readCount cur' = some (n, after')) := by
  rw [readCount_eq] at read
  rcases counted : readDigits (cur.goTo (Text.trimStart cur.rest)).rest.length []
    (cur.goTo (Text.trimStart cur.rest)) with ⟨digits, mid⟩
  simp only [counted] at read
  split at read
  · rename_i m numbered
    cases read
    have digitsRead := readDigits_passage (Nat.le_refl _) counted
    refine ((trimStart_passage cur).comp digitsRead).trans (settle_passage mid) ?_
    rintro cur' mid' _ - - - ⟨_, -, rfl, again⟩ rfl
    simp only [readCount_eq, again _ (Nat.le_refl _), numbered]
  · cases read

/-- The upper bound of a counted repetition behind its comma, which may be missing. -/
def readLimit (cur : Cursor) : Option (Option Nat × Cursor) :=
  match cur.rest with
  | '\x7d' :: _ => some (none, cur)
  | _ => (readCount cur).map (fun count => (some count.1, count.2))

/-- The upper bound of a counted repetition behind the lower one. -/
def readMost (least : Nat) (cur : Cursor) : Option (Option Nat × Cursor) :=
  match cur.rest with
  | ',' :: rest => (cur.advance? rest).bind readLimit
  | _ => some (some least, cur)

/-- The brace that ends a counted repetition. -/
def readBrace (least : Nat) (most : Option Nat) (cur : Cursor) : Option (Nat × Option Nat × Cursor) :=
  match cur.rest with
  | '\x7d' :: rest =>
    if most.all (least <= ·) then some (least, most, (cur.goTo rest).skip) else none
  | _ => none

theorem readLimit_of_count (counted : forall rest, cur.rest ≠ '\x7d' :: rest) :
    readLimit cur = (readCount cur).map (fun count => (some count.1, count.2)) := by
  unfold readLimit
  split
  · rename_i brace
    exact absurd brace (counted _)
  · rfl

theorem readMost_of_single (least : Nat) (single : forall rest, cur.rest ≠ ',' :: rest) :
    readMost least cur = some (some least, cur) := by
  unfold readMost
  split
  · rename_i comma
    exact absurd comma (single _)
  · rfl

theorem readBounds_eq (cur : Cursor) :
    readBounds cur = (cur.advance? cur.rest).bind (fun cur =>
      (readCount cur).bind (fun least =>
        (readMost least.1 least.2).bind (fun most => readBrace least.1 most.1 most.2))) := by
  rw [readBounds, Option.bind_eq_bind]
  congr 1
  funext cur
  rw [Option.bind_eq_bind]
  congr 1
  funext least
  dsimp only
  split
  · rename_i rest comma
    have most : readMost least.1 least.2 = (least.2.advance? rest).bind readLimit := by
      simp only [readMost, comma]
    rw [most, Option.bind_assoc, Option.bind_eq_bind]
    congr 1
    funext cur
    split
    · rename_i brace
      simp only [readLimit, brace]
      rfl
    · rename_i counted
      rw [readLimit_of_count counted]
      cases readCount cur <;> rfl
  · rename_i single
    rw [readMost_of_single least.1 single]
    rfl

theorem readLimit_passage {most : Option Nat} (read : readLimit cur = some (most, after)) :
    Passage cur after (fun cur' after' => after'.rest ≠ [] -> readLimit cur' = some (most, after')) := by
  rw [readLimit] at read
  split at read
  · rename_i rest brace
    cases read
    refine Passage.here ?_
    rintro cur' rfl something
    rcases Cursor.closed_cons brace (by decide) with ⟨rest', brace', -⟩
    simp only [readLimit, brace']
  · rename_i counted
    rcases Option.map_eq_some_iff.mp read with ⟨⟨n, _⟩, count, made⟩
    cases made
    have passage := readCount_passage count
    refine ⟨passage.suffix, ?_⟩
    rintro cur' after' rfl finish -
    rw [readLimit_of_count fun rest brace => counted _ (congrArg (· ++ closing) brace),
      passage.without cur' after' rfl finish]
    rfl

theorem readMost_passage {least : Nat} {most : Option Nat} (read : readMost least cur = some (most, after)) :
    Passage cur after (fun cur' after' => after'.rest ≠ [] -> readMost least cur' = some (most, after')) := by
  rw [readMost] at read
  split at read
  · rename_i rest comma
    rcases Option.bind_eq_some_iff.mp read with ⟨mid, advanced, read⟩
    have limit := readLimit_passage read
    refine (Passage.overAdvance comma advanced).trans limit ?_
    rintro cur' mid' after' - between finish ⟨rest', comma', -, step⟩ again something
    simp only [readMost, comma']
    rw [step (limit.ne_nil between finish something)]
    exact again something
  · rename_i single
    cases read
    refine Passage.here ?_
    rintro cur' rfl -
    exact readMost_of_single least fun rest comma => single _ (congrArg (· ++ closing) comma)

theorem readBrace_passage {least least' : Nat} {most most' : Option Nat}
    (read : readBrace least most cur = some (least', most', after)) :
    Passage cur after (fun cur' after' => cur'.rest ≠ [] ∧
      readBrace least most cur' = some (least', most', after')) := by
  rw [readBrace] at read
  split at read
  · rename_i rest brace
    split at read
    · rename_i ordered
      cases read
      refine (Passage.overSkip brace).imp ?_
      rintro cur' _ ⟨rest', brace', rfl⟩
      refine ⟨by simp [brace'], ?_⟩
      simp only [readBrace, brace']
      exact if_pos ordered
    · cases read
  · cases read

theorem readBounds_passage {least : Nat} {most : Option Nat} (read : readBounds cur = some (least, most, after)) :
    Passage cur after (fun cur' after' => readBounds cur' = some (least, most, after')) := by
  rw [readBounds_eq] at read
  rcases Option.bind_eq_some_iff.mp read with ⟨start, advanced, read⟩
  rcases Option.bind_eq_some_iff.mp read with ⟨⟨lower, counted⟩, count, read⟩
  rcases Option.bind_eq_some_iff.mp read with ⟨⟨upper, bounded⟩, limit, brace⟩
  have first := readCount_passage count
  have second := readMost_passage limit
  refine ((Passage.advance advanced).comp (first.comp (second.comp (readBrace_passage brace)))).imp ?_
  rintro cur' after' ⟨start', begins, step, counted', counts, count', bounded', bounds, limit', something, brace'⟩
  have upperFollows := second.ne_nil counts bounds something
  rw [readBounds_eq, step (first.ne_nil begins counts upperFollows), Option.bind_some, count', Option.bind_some,
    limit' something, Option.bind_some]
  exact brace'

/-- Bounds do not begin with the closing. -/
theorem readBounds_closing (nothing : cur.skip.rest = []) : readBounds cur.closed = none := by
  rcases Cursor.closed_skip cur with kept | ⟨swallowed, -⟩
  · have advanced : cur.closed.advance? cur.closed.rest = some cur.skip.closed := by
      rw [Cursor.advance?, Cursor.goTo_self, kept]
      exact if_neg (by simp [closing])
    have uncounted : readCount cur.skip.closed = none := by
      rw [readCount_eq, Cursor.closed_rest, nothing]
      rfl
    rw [readBounds_eq, advanced, Option.bind_some, uncounted]
    rfl
  · have stuck : cur.closed.advance? cur.closed.rest = none := by
      rw [Cursor.advance?, Cursor.goTo_self]
      exact if_pos (List.isEmpty_iff.mpr swallowed)
    rw [readBounds_eq, stuck]
    rfl

end Regex
end MemoryAtlas

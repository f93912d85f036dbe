import MemoryAtlas.Regex.Reader

namespace MemoryAtlas
namespace Regex

/-!
# Reading in front of a closing

A pattern that is to match whole names is read with a closing parenthesis and an
anchor behind it.  The question is what it is by itself, and the answer is that each
reader is local: what it reads in front of the closing, and leaves the closing alone,
it reads just so without the closing.

For one reader this is called a passage.  It says that the text after it is the end
of the text before it, and what can be said of the two cursors when the closing
is taken off both.  Passages are put together, since a cursor between one that keeps
the closing and an earlier one keeps it as well.  That a reader might stop
because it runs into the closing, or takes a part of it, needs no case of its
own: then the closing is not left alone.
-/

/-- Fuel that exceeds a number lasts for a step. -/
theorem exists_fuel {needed fuel : Nat} (enough : needed < fuel) : ∃ left, fuel = left + 1 :=
  Nat.exists_eq_succ_of_ne_zero (Nat.ne_zero_of_lt enough)

/-- What is put behind a pattern. -/
def closing : List Char := [')', '$']

namespace Cursor

/-- The cursor with the closing behind its text. -/
def closed (cur : Cursor) : Cursor := cur.goTo (cur.rest ++ closing)

@[simp] theorem goTo_rest (cur : Cursor) (text : List Char) : (cur.goTo text).rest = text := rfl

@[simp] theorem goTo_spaced (cur : Cursor) (text : List Char) : (cur.goTo text).spaced = cur.spaced := rfl

@[simp] theorem goTo_goTo (cur : Cursor) (text more : List Char) : (cur.goTo text).goTo more = cur.goTo more := rfl

@[simp] theorem goTo_self (cur : Cursor) : cur.goTo cur.rest = cur := rfl

@[simp] theorem closed_rest (cur : Cursor) : cur.closed.rest = cur.rest ++ closing := rfl

@[simp] theorem closed_spaced (cur : Cursor) : cur.closed.spaced = cur.spaced := rfl

@[simp] theorem closed_goTo (cur : Cursor) (text : List Char) : cur.closed.goTo text = cur.goTo text := rfl

theorem closed_inj {cur other : Cursor} (same : cur.closed = other.closed) : cur = other := by
  rcases cur with ⟨text, spaced, names⟩
  rcases other with ⟨text', spaced', names'⟩
  simp only [closed, goTo, mk.injEq] at same ⊢
  exact ⟨List.append_cancel_right same.1, same.2⟩

/-- A character that does not belong to the closing stands in front of it. -/
theorem closed_cons {cur : Cursor} {c : Char} {rest : List Char} (start : cur.closed.rest = c :: rest)
    (open' : c ≠ ')') : ∃ rest', cur.rest = c :: rest' ∧ rest = rest' ++ closing := by
  rcases List.append_eq_cons_iff.mp start with ⟨-, front⟩ | ⟨rest', start', split⟩
  · exact absurd (List.cons.inj front).1.symm open'
  · exact ⟨rest', start', split⟩

/-! ## Passages -/

/-- How a reader gets from one cursor to another, and what holds of the two once
the closing is taken off both. -/
structure Passage (cur after : Cursor) (again : Cursor -> Cursor -> Prop) : Prop where
  suffix : after.rest <:+ cur.rest
  without : forall cur' after', cur = cur'.closed -> after = after'.closed -> again cur' after'

namespace Passage

variable {cur mid after : Cursor} {again later both : Cursor -> Cursor -> Prop}

theorem imp (passage : Passage cur after again) (weaker : forall cur' after', again cur' after' -> later cur' after') :
    Passage cur after later :=
  ⟨passage.suffix, fun cur' after' start finish => weaker cur' after' (passage.without cur' after' start finish)⟩

/-- A cursor with the end of another text keeps the closing only if that text does. -/
theorem exists_closed {after' : Cursor} (suffix : after.rest <:+ cur.rest) (finish : after = after'.closed) :
    ∃ cur' : Cursor, cur = cur'.closed := by
  rcases suffix with ⟨taken, split⟩
  rw [finish, closed_rest, ← List.append_assoc] at split
  refine ⟨cur.goTo (taken ++ after'.rest), ?_⟩
  rw [closed, goTo_goTo, goTo_rest, split, goTo_self]

theorem length_le (passage : Passage cur after again) {cur' after' : Cursor} (start : cur = cur'.closed)
    (finish : after = after'.closed) : after'.rest.length <= cur'.rest.length := by
  have shorter := passage.suffix.length_le
  rw [start, finish, closed_rest, closed_rest, List.length_append, List.length_append] at shorter
  exact Nat.le_of_add_le_add_right shorter

theorem ne_nil (passage : Passage cur after again) {cur' after' : Cursor} (start : cur = cur'.closed)
    (finish : after = after'.closed) (something : after'.rest ≠ []) : cur'.rest ≠ [] :=
  List.ne_nil_of_length_pos
    (Nat.lt_of_lt_of_le (List.length_pos_iff.mpr something) (passage.length_le start finish))

theorem trans (first : Passage cur mid again) (second : Passage mid after later)
    (joined : forall cur' mid' after', cur = cur'.closed -> mid = mid'.closed -> after = after'.closed ->
      again cur' mid' -> later mid' after' -> both cur' after') : Passage cur after both := by
  refine ⟨second.suffix.trans first.suffix, fun cur' after' start finish => ?_⟩
  rcases exists_closed second.suffix finish with ⟨mid', between⟩
  exact joined cur' mid' after' start between finish (first.without cur' mid' start between)
    (second.without mid' after' between finish)

/-- Two passages one after the other, with the cursor between them. -/
theorem comp (first : Passage cur mid again) (second : Passage mid after later) :
    Passage cur after (fun cur' after' => ∃ mid', mid = mid'.closed ∧ again cur' mid' ∧ later mid' after') :=
  first.trans second fun _ mid' _ _ between _ before behind => ⟨mid', between, before, behind⟩

/-- Reading on behind a reader that needs something to follow. -/
theorem bind {α β : Type} {read : Cursor -> Option (α × Cursor)} {next : α -> Cursor -> Option β} {x : α}
    {result : Cursor -> β}
    (first : Passage cur mid (fun cur' mid' => mid'.rest ≠ [] -> read cur' = some (x, mid')))
    (second : Passage mid after (fun mid' after' => after'.rest ≠ [] -> next x mid' = some (result after'))) :
    Passage cur after (fun cur' after' => after'.rest ≠ [] ->
      (read cur').bind (fun r => next r.1 r.2) = some (result after')) := by
  refine first.trans second ?_
  intro cur' mid' after' _ between finish before behind something
  rw [before (second.ne_nil between finish something)]
  exact behind something

/-- Reading nothing. -/
theorem here (holds : forall cur', cur = cur'.closed -> again cur' cur') : Passage cur cur again := by
  refine ⟨List.suffix_rfl, ?_⟩
  intro cur' after' start finish
  cases closed_inj (start.symm.trans finish)
  exact holds cur' start

theorem stay (cur : Cursor) : Passage cur cur (fun cur' after' => cur' = after') :=
  here fun _ _ => rfl

/-- Taking other names into use. -/
theorem renamed (cur : Cursor) (names : List (List Char)) :
    Passage cur { cur with names := names } (fun cur' after' => { cur' with names := names } = after') := by
  refine ⟨List.suffix_rfl, ?_⟩
  rintro cur' after' rfl finish
  exact closed_inj finish

/-- Skipping blanks and remarks from now on, or no more. -/
theorem respaced (cur : Cursor) (spaced : Bool) :
    Passage cur { cur with spaced := spaced } (fun cur' after' => { cur' with spaced := spaced } = after') := by
  refine ⟨List.suffix_rfl, ?_⟩
  rintro cur' after' rfl finish
  exact closed_inj finish

/-- Stepping over the start of the text. -/
theorem past (taken : List Char) {rest : List Char} (split : cur.rest = taken ++ rest) :
    Passage cur (cur.goTo rest) (fun cur' after' =>
      ∃ rest', cur'.rest = taken ++ rest' ∧ cur'.goTo rest' = after') := by
  refine ⟨⟨taken, split.symm⟩, ?_⟩
  rintro cur' after' rfl finish
  have kept : rest = after'.rest ++ closing := congrArg Cursor.rest finish
  rw [closed_rest, kept, ← List.append_assoc] at split
  refine ⟨after'.rest, List.append_cancel_right split, closed_inj ?_⟩
  rw [← finish, kept]
  rfl

end Passage

/-! ## Blanks and remarks -/

theorem skipRemarks_suffix (inRemark : Bool) (text : List Char) : skipRemarks inRemark text <:+ text := by
  induction text generalizing inRemark with
  | nil => exact List.suffix_rfl
  | cons c rest inductionHypothesis =>
      rw [skipRemarks]
      split
      · exact (inductionHypothesis _).trans (List.suffix_cons c rest)
      split
      · exact (inductionHypothesis _).trans (List.suffix_cons c rest)
      split
      · exact (inductionHypothesis _).trans (List.suffix_cons c rest)
      · exact List.suffix_rfl

/-- The closing is no blank and ends no remark: either it stays, or a remark swallows
it with the rest of the text. -/
theorem skipRemarks_append_closing (inRemark : Bool) (text : List Char) :
    skipRemarks inRemark (text ++ closing) = skipRemarks inRemark text ++ closing ∨
      skipRemarks inRemark (text ++ closing) = [] ∧ skipRemarks inRemark text = [] := by
  induction text generalizing inRemark with
  | nil =>
      cases inRemark with
      | true => exact .inr (by decide)
      | false => exact .inl (by decide)
  | cons c rest inductionHypothesis =>
      simp only [List.cons_append, skipRemarks]
      split
      · exact inductionHypothesis _
      split
      · exact inductionHypothesis _
      split
      · exact inductionHypothesis _
      · exact .inl rfl

@[simp] theorem skip_goTo (cur : Cursor) (text : List Char) : cur.skip.goTo text = cur.goTo text := by
  unfold skip
  split <;> rfl

@[simp] theorem skip_spaced (cur : Cursor) : cur.skip.spaced = cur.spaced := by
  unfold skip
  split <;> rfl

theorem skip_suffix (cur : Cursor) : cur.skip.rest <:+ cur.rest := by
  unfold skip
  split
  · exact skipRemarks_suffix false cur.rest
  · exact List.suffix_rfl

theorem length_skip_le (cur : Cursor) : cur.skip.rest.length <= cur.rest.length :=
  (skip_suffix cur).length_le

theorem closed_skip (cur : Cursor) :
    cur.closed.skip = cur.skip.closed ∨ cur.closed.skip.rest = [] ∧ cur.skip.rest = [] := by
  rcases cur with ⟨text, spaced, names⟩
  cases spaced with
  | false => exact .inl rfl
  | true =>
      rcases skipRemarks_append_closing false text with kept | swallowed
      · refine .inl ?_
        simp only [skip, closed, goTo, kept, if_true]
      · exact .inr swallowed

theorem closed_skip_cons {cur : Cursor} {c : Char} {rest : List Char} (start : cur.skip.rest = c :: rest) :
    cur.closed.skip.rest = c :: (rest ++ closing) := by
  rcases closed_skip cur with kept | ⟨-, swallowed⟩
  · rw [kept, closed_rest, start]
    rfl
  · rw [swallowed] at start
    cases start

namespace Passage

variable {cur after : Cursor}

theorem skip (cur : Cursor) : Passage cur cur.skip (fun cur' after' => cur'.skip = after') := by
  refine ⟨skip_suffix cur, ?_⟩
  rintro cur' after' rfl finish
  rcases closed_skip cur' with kept | ⟨swallowed, -⟩
  · exact closed_inj (kept.symm.trans finish)
  · rw [finish, closed_rest] at swallowed
    exact absurd swallowed (by simp [closing])

/-- Stepping over a character and blanks behind it. -/
theorem overSkip {c : Char} {rest : List Char} (start : cur.rest = c :: rest) :
    Passage cur (cur.goTo rest).skip (fun cur' after' =>
      ∃ rest', cur'.rest = c :: rest' ∧ (cur'.goTo rest').skip = after') := by
  refine (past [c] start).trans (skip _) ?_
  rintro cur' _ after' - - - ⟨rest', start', rfl⟩ skipped
  exact ⟨rest', start', skipped⟩

/-- Stepping over blanks and the text behind them. -/
theorem skipPast (taken : List Char) {rest : List Char} (start : cur.skip.rest = taken ++ rest) :
    Passage cur (cur.goTo rest) (fun cur' after' => ∃ rest', cur'.skip.rest = taken ++ rest' ∧
      cur'.goTo rest' = after' ∧ taken.length + rest'.length <= cur'.rest.length) := by
  rw [← skip_goTo]
  refine (skip cur).trans (past taken start) ?_
  rintro cur' mid' after' - - - rfl ⟨rest', start', same⟩
  rw [skip_goTo] at same
  have shorter := length_skip_le cur'
  rw [start', List.length_append] at shorter
  exact ⟨rest', start', same, shorter⟩

/-- Stepping over blanks and the character behind them. -/
theorem skipOver {c : Char} {rest : List Char} (start : cur.skip.rest = c :: rest) :
    Passage cur (cur.goTo rest) (fun cur' after' =>
      ∃ rest', cur'.skip.rest = c :: rest' ∧ cur'.goTo rest' = after' ∧ rest'.length < cur'.rest.length) := by
  refine (skipPast [c] start).imp ?_
  rintro cur' after' ⟨rest', start', same, shorter⟩
  rw [List.length_singleton, Nat.add_comm] at shorter
  exact ⟨rest', start', same, shorter⟩

/-- Moving on to something that has to follow. -/
theorem advance {rest : List Char} (advanced : cur.advance? rest = some after) :
    Passage (cur.goTo rest) after (fun cur' after' => after'.rest ≠ [] -> cur'.advance? cur'.rest = some after') := by
  unfold advance? at advanced
  dsimp only at advanced
  split at advanced
  · cases advanced
  · cases advanced
    refine (skip (cur.goTo rest)).imp ?_
    rintro cur' after' rfl something
    rw [advance?, goTo_self, if_neg]
    rw [List.isEmpty_iff]
    exact something

/-- Moving on over a character to something that has to follow. -/
theorem overAdvance {c : Char} {rest : List Char} (start : cur.rest = c :: rest)
    (advanced : cur.advance? rest = some after) : Passage cur after (fun cur' after' =>
      ∃ rest', cur'.rest = c :: rest' ∧ after'.rest.length <= rest'.length ∧
        (after'.rest ≠ [] -> cur'.advance? rest' = some after')) := by
  refine (past [c] start).trans (advance advanced) ?_
  rintro cur' _ after' - between finish ⟨rest', start', rfl⟩ again
  exact ⟨rest', start', (advance advanced).length_le between finish, again⟩

end Passage
end Cursor
end Regex
end MemoryAtlas

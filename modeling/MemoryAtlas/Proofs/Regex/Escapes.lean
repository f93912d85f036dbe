import MemoryAtlas.Proofs.Regex.Passage

namespace MemoryAtlas
namespace Regex

open Cursor (Passage)

/-!
# Escapes in front of a closing

An escape is local with one exception.  A word boundary looks past an open brace, to
tell the name of a special boundary from a repetition.  Where nothing but blanks comes
behind that brace, it is the closing that makes the brace the start of a repetition,
and without the closing there is no escape at all.  Such a brace is no repetition
either, so that whoever reads on finds an error; here the case is only kept apart.
-/

variable {cur after : Cursor}

/-! ## Codes -/

theorem readBraced_passage {fuel : Nat} {done digits : List Char}
    (read : readBraced fuel done cur = some (digits, after)) :
    Passage cur after (fun cur' after' =>
      forall fuel', cur'.rest.length < fuel' -> readBraced fuel' done cur' = some (digits, after')) := by
  induction fuel generalizing done cur with
  | zero => cases read
  | succ fuel inductionHypothesis =>
      rw [readBraced] at read
      split at read
      · cases read
      rename_i c rest start
      have step := Passage.skipOver start
      split at read
      · rename_i isBrace
        cases read
        refine step.trans (Passage.skip _) ?_
        rintro cur' _ after' - - - ⟨rest', start', rfl, shorter⟩ rfl fuel' enough
        rcases exists_fuel enough with ⟨fuel', rfl⟩
        rw [readBraced, start']
        dsimp only
        rw [if_pos isBrace]
      split at read
      · rename_i isBrace isDigit
        refine step.trans (inductionHypothesis read) ?_
        rintro cur' _ after' - - - ⟨rest', start', rfl, shorter⟩ onward fuel' enough
        rcases exists_fuel enough with ⟨fuel', rfl⟩
        rw [readBraced, start']
        dsimp only
        rw [if_neg isBrace, if_pos isDigit]
        exact onward fuel' (Nat.lt_of_lt_of_le shorter (Nat.le_of_lt_succ enough))
      · cases read

theorem readFixed_passage {more : Nat} {done digits : List Char}
    (read : readFixed more done cur = some (digits, after)) :
    Passage cur after (fun cur' after' => readFixed more done cur' = some (digits, after')) := by
  induction more generalizing done cur with
  | zero =>
      cases read
      refine (Passage.skip cur).imp ?_
      rintro cur' after' rfl
      rfl
  | succ more inductionHypothesis =>
      rw [readFixed] at read
      split at read
      · cases read
      rename_i c rest start
      split at read
      · rename_i isDigit
        refine (Passage.skipOver start).trans (inductionHypothesis read) ?_
        rintro cur' _ after' - - - ⟨rest', start', rfl, -⟩ onward
        rw [readFixed, start']
        dsimp only
        rw [if_pos isDigit, onward]
      · cases read

theorem readCode_passage {count : Nat} {primitive : Primitive}
    (read : readCode count cur = some (primitive, after)) :
    Passage cur after (fun cur' after' => readCode count cur' = some (primitive, after')) := by
  rw [readCode] at read
  split at read
  · rename_i rest start
    rcases Option.bind_eq_some_iff.mp read with ⟨⟨digits, _⟩, braced, read⟩
    rcases Option.bind_eq_some_iff.mp read with ⟨c, valid, made⟩
    cases made
    refine (Passage.skipOver start).trans (readBraced_passage braced) ?_
    rintro cur' _ after' - - - ⟨rest', start', rfl, -⟩ onward
    rw [readCode, start']
    simp [onward (rest'.length + 1) (Nat.lt_succ_self _), valid]
  · rename_i unbraced
    rcases Option.bind_eq_some_iff.mp read with ⟨⟨digits, _⟩, fixed, read⟩
    rcases Option.bind_eq_some_iff.mp read with ⟨c, valid, made⟩
    cases made
    have passage := readFixed_passage fixed
    refine ⟨passage.suffix, ?_⟩
    rintro cur' after' rfl finish
    rw [readCode]
    split
    · rename_i rest start
      exact absurd (Cursor.closed_skip_cons start) (unbraced _)
    · simp [passage.without cur' after' rfl finish, valid]

/-! ## Properties -/

theorem readPropertyName_passage {fuel : Nat} {done name : List Char}
    (read : readPropertyName fuel done cur = some (name, after)) :
    Passage cur after (fun cur' after' =>
      forall fuel', cur'.rest.length < fuel' -> readPropertyName fuel' done cur' = some (name, after')) := by
  induction fuel generalizing done cur with
  | zero => cases read
  | succ fuel inductionHypothesis =>
      rw [readPropertyName] at read
      split at read
      · cases read
      rename_i c rest start
      have step := Passage.skipOver start
      split at read
      · rename_i isBrace
        cases read
        refine step.imp ?_
        rintro cur' _ ⟨rest', start', rfl, -⟩ fuel' enough
        rcases exists_fuel enough with ⟨fuel', rfl⟩
        rw [readPropertyName, start']
        dsimp only
        rw [if_pos isBrace]
      · rename_i isBrace
        refine step.trans (inductionHypothesis read) ?_
        rintro cur' _ after' - - - ⟨rest', start', rfl, shorter⟩ onward fuel' enough
        rcases exists_fuel enough with ⟨fuel', rfl⟩
        rw [readPropertyName, start']
        dsimp only
        rw [if_neg isBrace]
        exact onward fuel' (Nat.lt_of_lt_of_le shorter (Nat.le_of_lt_succ enough))

theorem readProperty_passage {negated : Bool} {primitive : Primitive}
    (read : readProperty negated cur = some (primitive, after)) :
    Passage cur after (fun cur' after' => readProperty negated cur' = some (primitive, after')) := by
  rw [readProperty] at read
  split at read
  · cases read
  · rename_i rest start
    rcases Option.bind_eq_some_iff.mp read with ⟨⟨name, _⟩, named, made⟩
    cases made
    refine (Passage.skipOver start).trans (readPropertyName_passage named) ?_
    rintro cur' _ after' - - - ⟨rest', start', rfl, -⟩ onward
    rw [readProperty, start']
    simp [onward (rest'.length + 1) (Nat.lt_succ_self _)]
  · rename_i c rest unbraced start
    split at read
    · cases read
    · rename_i isPlain
      cases read
      refine (Passage.skipOver start).trans (Passage.skip _) ?_
      rintro cur' _ after' - - - ⟨rest', start', rfl, -⟩ rfl
      rw [readProperty, start']
      split
      · rename_i empty
        cases empty
      · rename_i braced
        cases braced
        exact (unbraced rfl).elim
      · rename_i split
        cases split
        rw [if_neg isPlain]

/-! ## Boundaries -/

/-- A brace that nothing follows. -/
def Cursor.Dangles (cur : Cursor) : Prop :=
  ∃ rest, cur.rest = '\x7b' :: rest ∧ (cur.goTo rest).skip.rest = []

/-- A word boundary in front of such a brace. -/
def Primitive.Dangles (primitive : Primitive) (after : Cursor) : Prop :=
  primitive = .anchor .wordBoundary ∧ after.Dangles

theorem readBoundaryName_passage {fuel : Nat} {done name : List Char}
    (read : readBoundaryName fuel done cur = some (name, after)) :
    Passage cur after (fun cur' after' => cur'.rest ≠ [] ∧
      forall fuel', cur'.rest.length < fuel' -> readBoundaryName fuel' done cur' = some (name, after')) := by
  induction fuel generalizing done cur with
  | zero => cases read
  | succ fuel inductionHypothesis =>
      rw [readBoundaryName] at read
      split at read
      · cases read
      rename_i c rest start
      have step := Passage.past [c] start
      split at read
      · rename_i isBrace
        cases read
        refine step.imp ?_
        rintro cur' _ ⟨rest', start', rfl⟩
        refine ⟨by simp [start'], fun fuel' enough => ?_⟩
        rcases exists_fuel enough with ⟨fuel', rfl⟩
        rw [readBoundaryName, start']
        dsimp only [List.cons_append, List.nil_append]
        rw [if_pos isBrace]
      split at read
      · rename_i isBrace isLetter
        refine (Passage.overSkip start).trans (inductionHypothesis read) ?_
        rintro cur' mid' after' - - - ⟨rest', start', rfl⟩ ⟨-, onward⟩
        refine ⟨by simp [start'], fun fuel' enough => ?_⟩
        rcases exists_fuel enough with ⟨fuel', rfl⟩
        have shorter := Cursor.length_skip_le (cur'.goTo rest')
        rw [start'] at enough
        rw [readBoundaryName, start']
        dsimp only
        rw [if_neg isBrace, if_pos isLetter]
        exact onward fuel' (Nat.lt_of_le_of_lt shorter (Nat.lt_of_succ_lt_succ enough))
      · cases read

theorem readBoundary_passage {primitive : Primitive} (read : readBoundary cur = some (primitive, after)) :
    Passage cur after (fun cur' after' =>
      primitive.Dangles after' ∨ readBoundary cur' = some (primitive, after')) := by
  rw [readBoundary] at read
  split at read
  · rename_i rest start
    split at read
    · cases read
    rename_i c _ looked
    split at read
    · rename_i isLetter
      rcases Option.bind_eq_some_iff.mp read with ⟨⟨name, mid⟩, named, read⟩
      dsimp only at read
      have finish : after = mid := by
        split at read <;> cases read <;> rfl
      subst finish
      refine (Passage.overSkip start).trans (readBoundaryName_passage named) ?_
      rintro cur' mid' after' - between - ⟨rest', start', rfl⟩ ⟨something, onward⟩
      refine .inr ?_
      rcases List.exists_cons_of_ne_nil something with ⟨c', more, looked'⟩
      have first : c' = c := by
        rw [between, Cursor.closed_rest, looked'] at looked
        exact (List.cons.inj looked).1
      have named' := onward (rest'.length + 1) (Nat.lt_succ_of_le (Cursor.length_skip_le (cur'.goTo rest')))
      rw [← first] at isLetter
      simp only [readBoundary, start', looked', if_pos isLetter, named', Option.bind_eq_bind, Option.bind_some]
      split at read <;> cases read <;> rfl
    · rename_i isLetter
      cases read
      refine Passage.here ?_
      rintro cur' rfl
      rcases Cursor.closed_cons start (by decide) with ⟨rest', start', rfl⟩
      cases looked' : (cur'.goTo rest').skip.rest with
      | nil =>
          -- What has been looked at behind the brace is the closing itself.
          exact .inl ⟨rfl, rest', start', looked'⟩
      | cons c' more =>
          have first := (Cursor.closed_skip_cons looked').symm.trans looked
          rw [← (List.cons.inj first).1] at isLetter
          refine .inr ?_
          simp only [readBoundary, start', looked', if_neg isLetter]
  · rename_i unbraced
    cases read
    refine Passage.here ?_
    rintro cur' rfl
    refine .inr ?_
    rw [readBoundary]
    split
    · rename_i rest start
      exact absurd (congrArg (· ++ closing) start) (unbraced _)
    · rfl

/-! ## Escapes -/

/-- A reader of primitive parts is local, unless it leaves a brace dangling. -/
def IsLocal (read : Cursor -> Option (Primitive × Cursor)) : Prop :=
  forall cur primitive after, read cur = some (primitive, after) ->
    Passage cur after (fun cur' after' => primitive.Dangles after' ∨ read cur' = some (primitive, after'))

namespace IsLocal

variable {first second : Cursor -> Option (Primitive × Cursor)}

theorem done (primitive : Primitive) : IsLocal (fun cur => some (primitive, cur)) := by
  intro cur made after read
  cases read
  exact (Passage.stay cur).imp fun cur' after' same => .inr (same ▸ rfl)

theorem ite {condition : Prop} [Decidable condition] (first_local : IsLocal first)
    (second_local : IsLocal second) : IsLocal (fun cur => if condition then first cur else second cur) := by
  by_cases holds : condition
  · simpa only [if_pos holds] using first_local
  · simpa only [if_neg holds] using second_local

theorem code (count : Nat) : IsLocal (readCode count) :=
  fun _ _ _ read => (readCode_passage read).imp fun _ _ again => .inr again

theorem property (negated : Bool) : IsLocal (readProperty negated) :=
  fun _ _ _ read => (readProperty_passage read).imp fun _ _ again => .inr again

end IsLocal

/-- An escape behind its letter. -/
def escapeOf (c : Char) (cur : Cursor) : Option (Primitive × Cursor) :=
  readEscape ⟨c :: cur.rest, cur.spaced, cur.names⟩

theorem escapeOf_isLocal (c : Char) : IsLocal (escapeOf c) := by
  have control : IsLocal (fun cur => (controlOf? c).map (fun c => (Primitive.literal c false, cur))) := by
    cases controlOf? c with
    | none => exact fun _ _ _ read => by cases read
    | some control => exact .done (.literal control false)
  exact .ite (.code 2) <| .ite (.code 4) <| .ite (.code 8) <|
    .ite (.property false) <| .ite (.property true) <|
    .ite (.done _) <| .ite (.done _) <| .ite (.done _) <| .ite (.done _) <| .ite (.done _) <| .ite (.done _) <|
    .ite (.done _) <| .ite (.done _) <| .ite (.done _) <|
    .ite (fun _ _ _ read => readBoundary_passage read) <|
    .ite (.done _) <| .ite (.done _) <| .ite (.done _) control

theorem readEscape_passage {primitive : Primitive} (read : readEscape cur = some (primitive, after)) :
    Passage cur after (fun cur' after' =>
      primitive.Dangles after' ∨ readEscape cur' = some (primitive, after')) := by
  cases start : cur.rest with
  | nil =>
      rw [readEscape, start] at read
      cases read
  | cons c rest =>
      have behind : escapeOf c (cur.goTo rest) = some (primitive, after) := by
        rw [← read]
        exact congrArg (fun text => readEscape ⟨text, cur.spaced, cur.names⟩) start.symm
      refine (Passage.past [c] start).trans (escapeOf_isLocal c _ _ _ behind) ?_
      rintro cur' _ after' - - - ⟨rest', start', rfl⟩ again
      refine again.imp id fun again => ?_
      rw [← again, escapeOf, Cursor.goTo_rest]
      exact congrArg (fun text => readEscape ⟨text, cur'.spaced, cur'.names⟩) start'

end Regex
end MemoryAtlas

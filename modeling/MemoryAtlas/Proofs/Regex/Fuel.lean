import MemoryAtlas.Proofs.Regex.Rows

namespace MemoryAtlas
namespace Regex

/-!
# More fuel changes no answer

The reader descends with fuel and fails when that runs out.  For the language it
recognises the fuel should not matter, and it does not: an answer that is given with some
fuel is given with any more.  Two amounts can therefore only differ in that one of them
gives no answer, and a text has at most one reading.

The answers of the four readers that share their fuel are carried over together, one
unit at a time, since each of them calls the others with one unit less.
-/

/-- What is read with this fuel is read with one more unit. -/
structure Lasts (fuel : Nat) : Prop where
  class' : forall {cur result}, readClass fuel cur = some result -> readClass (fuel + 1) cur = some result
  members : forall {waiting done cur result}, readMembers fuel waiting done cur = some result ->
    readMembers (fuel + 1) waiting done cur = some result
  items : forall {done cur result}, readItems fuel done cur = some result ->
    readItems (fuel + 1) done cur = some result
  branches : forall {cur result}, readBranches fuel cur = some result ->
    readBranches (fuel + 1) cur = some result

namespace Lasts

variable {fuel : Nat} (lasts : Lasts fuel)
include lasts

theorem class_succ {cur : Cursor} {result : CharacterSet × Cursor}
    (read : readClass (fuel + 1) cur = some result) : readClass (fuel + 2) cur = some result := by
  rw [readClass] at read ⊢
  rcases Option.bind_eq_some_iff.mp read with ⟨⟨negated, first, mid⟩, opening, read⟩
  rcases Option.bind_eq_some_iff.mp read with ⟨inner, members, made⟩
  refine Option.bind_eq_some_iff.mpr ⟨_, opening, ?_⟩
  exact Option.bind_eq_some_iff.mpr ⟨inner, lasts.members members, made⟩

theorem members_succ {waiting : Option (SetOperation × CharacterSet)} {done : List CharacterSet}
    {cur : Cursor} {result : CharacterSet × Cursor}
    (read : readMembers (fuel + 1) waiting done cur = some result) :
    readMembers (fuel + 2) waiting done cur = some result := by
  rw [readMembers] at read ⊢
  revert read
  split
  · exact id
  · split
    · exact lasts.members
    · intro read
      split at read
      · rename_i inner
        rw [lasts.class' inner]
        exact lasts.members read
      · cases read
  · exact id
  · exact lasts.members
  · exact lasts.members
  · exact lasts.members
  · split
    · exact lasts.members
    · exact id

theorem bracket_succ {done : List Pattern} {cur : Cursor} {item : List Pattern × Cursor}
    (read : readBracket done fuel cur = some item) : readBracket done (fuel + 1) cur = some item := by
  unfold readBracket at read ⊢
  split at read
  · rename_i inner
    rw [lasts.class' inner]
    exact read
  · cases read

theorem group_succ {done : List Pattern} {cur : Cursor} {item : List Pattern × Cursor}
    (read : readGroup done fuel cur = some item) : readGroup done (fuel + 1) cur = some item := by
  unfold readGroup at read ⊢
  revert read
  split
  · exact id
  · exact id
  · intro read
    split at read
    · rename_i inner
      rw [lasts.branches inner]
      exact read
    · cases read

theorem item_succ {done : List Pattern} {c : Char} {cur : Cursor} {item : List Pattern × Cursor}
    (read : readItem done c fuel cur = some item) : readItem done c (fuel + 1) cur = some item := by
  unfold readItem at read ⊢
  revert read
  split
  · exact lasts.group_succ
  · split
    · exact lasts.bracket_succ
    · exact id

theorem items_succ {done : List Pattern} {cur : Cursor} {result : List Pattern × Cursor}
    (read : readItems (fuel + 1) done cur = some result) : readItems (fuel + 2) done cur = some result := by
  rcases goesOn_or_ends cur with ⟨c, rest, start, goes⟩ | ends
  · rw [readItems_eq done _ start goes] at read ⊢
    rcases Option.bind_eq_some_iff.mp read with ⟨item, first, later⟩
    exact Option.bind_eq_some_iff.mpr ⟨item, lasts.item_succ first, lasts.items later⟩
  · rw [readItems_ends _ done ends] at read ⊢
    exact read

theorem branches_succ {cur : Cursor} {result : List Pattern × Cursor}
    (read : readBranches (fuel + 1) cur = some result) : readBranches (fuel + 2) cur = some result := by
  rw [readBranches] at read ⊢
  split at read
  · cases read
  rename_i row
  rw [lasts.items row]
  dsimp only at read ⊢
  revert read
  split
  · intro read
    rcases Option.map_eq_some_iff.mp read with ⟨later, others, made⟩
    exact Option.map_eq_some_iff.mpr ⟨later, lasts.branches others, made⟩
  · exact id

end Lasts

theorem lasts (fuel : Nat) : Lasts fuel := by
  induction fuel with
  | zero =>
      refine ⟨?_, ?_, ?_, ?_⟩
      · rintro cur result ⟨⟩
      · rintro waiting done cur result ⟨⟩
      · rintro done cur result ⟨⟩
      · rintro cur result ⟨⟩
  | succ fuel inductionHypothesis =>
      exact ⟨inductionHypothesis.class_succ, inductionHypothesis.members_succ, inductionHypothesis.items_succ,
        inductionHypothesis.branches_succ⟩

theorem readBranches_of_le {fuel more : Nat} (le : fuel <= more) {cur : Cursor} {result : List Pattern × Cursor}
    (read : readBranches fuel cur = some result) : readBranches more cur = some result := by
  induction le with
  | refl => exact read
  | step _ inductionHypothesis => exact (lasts _).branches inductionHypothesis

/-- Whatever the fuel, there is at most one reading. -/
theorem readBranches_unique {fuel fuel' : Nat} {cur : Cursor} {result result' : List Pattern × Cursor}
    (read : readBranches fuel cur = some result) (read' : readBranches fuel' cur = some result') :
    result = result' := by
  rcases Nat.le_total fuel fuel' with le | le
  · exact Option.some.inj ((readBranches_of_le le read).symm.trans read')
  · exact Option.some.inj (read.symm.trans (readBranches_of_le le read'))

end Regex
end MemoryAtlas

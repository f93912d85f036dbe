import Mathlib.Data.Finset.Card
import Mathlib.Data.Finset.Range
import MemoryAtlas.Regex.Automaton

namespace MemoryAtlas
namespace Regex

/-!
# The texts that a pattern spans

Matching works on whole sets of positions: it asks which positions a pattern
reaches from given ones.  Here it is said of two positions at a time what the
pattern makes of the text between them, by the parts of the pattern and without
any list: a sequence spans what its parts span one after the other, and a
repetition what so many rounds span.

The two agree.  What needs an argument is the repetition.  Its rounds are stopped
when nothing new is reached, and in any case after as many rounds as the text has
positions; by then everything has been reached that any number of rounds can reach,
because each round that goes on brings in a new position.
-/

/-- A number of steps, one after the other. -/
def Times (step : Nat -> Nat -> Prop) : Nat -> Nat -> Nat -> Prop
  | 0, i, j => i = j
  | n + 1, i, k => ∃ j, step i j ∧ Times step n j k

/-- A pattern spans the text from one position to another.  Of two bounds on a
repetition the larger one limits it, so that the least number is always allowed. -/
def Node.Spans (text : Array Char) : Node -> Nat -> Nat -> Prop
  | .empty, i, j => i = j
  | .one _ test, i, j => j = i + 1 ∧ ∃ c, text[i]? = some c ∧ test c = true
  | .look l, i, j => i = j ∧ l.holds text i = true
  | .sequence first second, i, k => ∃ j, first.Spans text i j ∧ second.Spans text j k
  | .choice first second, i, j => first.Spans text i j ∨ second.Spans text i j
  | .repeated inner least most, i, j => ∃ rounds, least <= rounds ∧
      (forall bound, most = some bound -> rounds <= max least bound) ∧ Times (inner.Spans text) rounds i j

theorem times_add {step : Nat -> Nat -> Prop} {m n i k : Nat} :
    Times step (m + n) i k <-> ∃ j, Times step m i j ∧ Times step n j k := by
  induction m generalizing i with
  | zero =>
      rw [Nat.zero_add]
      constructor
      · exact fun steps => ⟨i, rfl, steps⟩
      · rintro ⟨j, rfl, steps⟩
        exact steps
  | succ m inductionHypothesis =>
      rw [Nat.succ_add]
      constructor
      · rintro ⟨next, step, later⟩
        rcases inductionHypothesis.mp later with ⟨j, first, second⟩
        exact ⟨j, ⟨next, step, first⟩, second⟩
      · rintro ⟨j, ⟨next, step, first⟩, second⟩
        exact ⟨next, step, inductionHypothesis.mpr ⟨j, first, second⟩⟩

/-- A function on lists of positions takes each of them as far as a relation
says, and none of them past the limit. -/
structure Moves (limit : Nat) (f : List Nat -> List Nat) (step : Nat -> Nat -> Prop) : Prop where
  within : forall i j, i <= limit -> step i j -> j <= limit
  mem_iff : forall starts : List Nat, (forall i, i ∈ starts -> i <= limit) ->
    forall j, j ∈ f starts <-> ∃ i, i ∈ starts ∧ step i j

namespace Moves

variable {limit : Nat} {f : List Nat -> List Nat} {step : Nat -> Nat -> Prop} (moves : Moves limit f step)
include moves

theorem within_of_mem {starts : List Nat} (bounded : forall i, i ∈ starts -> i <= limit) :
    forall j, j ∈ f starts -> j <= limit := by
  intro j member
  rcases (moves.mem_iff starts bounded j).mp member with ⟨i, started, taken⟩
  exact moves.within i j (bounded i started) taken

theorem times_within {n i j : Nat} (bounded : i <= limit) (steps : Times step n i j) : j <= limit := by
  induction n generalizing i with
  | zero => exact steps ▸ bounded
  | succ n inductionHypothesis =>
      rcases steps with ⟨next, taken, later⟩
      exact inductionHypothesis (moves.within i next bounded taken) later

theorem iterated (n : Nat) : Moves limit (iterate f n) (Times step n) := by
  refine ⟨fun i j bounded steps => moves.times_within bounded steps, ?_⟩
  induction n with
  | zero =>
      intro starts _ j
      exact ⟨fun member => ⟨j, member, rfl⟩, fun ⟨i, member, same⟩ => same ▸ member⟩
  | succ n inductionHypothesis =>
      intro starts bounded j
      rw [iterate, inductionHypothesis (f starts) (moves.within_of_mem bounded)]
      constructor
      · rintro ⟨next, reached, later⟩
        rcases (moves.mem_iff starts bounded next).mp reached with ⟨i, started, taken⟩
        exact ⟨i, started, next, taken, later⟩
      · rintro ⟨i, started, next, taken, later⟩
        exact ⟨next, (moves.mem_iff starts bounded next).mpr ⟨i, started, taken⟩, later⟩

/-- The positions that a round brings in lie within the limit as well. -/
theorem within_of_mem_next {starts : List Nat} (bounded : forall i, i ∈ starts -> i <= limit) :
    forall j, j ∈ starts ++ (f starts).filter (fun i => !starts.contains i) -> j <= limit := by
  intro j member
  rcases List.mem_append.mp member with started | reached
  · exact bounded j started
  · exact moves.within_of_mem bounded j (List.mem_filter.mp reached).1

/-- Where a round brings in nothing, every step stays among the positions. -/
theorem mem_of_no_next {starts : List Nat} (bounded : forall i, i ∈ starts -> i <= limit)
    (nothing : ((f starts).filter (fun i => !starts.contains i)).isEmpty = true) {i j : Nat} (started : i ∈ starts)
    (taken : step i j) : j ∈ starts := by
  have reached := (moves.mem_iff starts bounded j).mpr ⟨i, started, taken⟩
  have known := List.filter_eq_nil_iff.mp (List.isEmpty_iff.mp nothing) j reached
  simpa using known

theorem mem_reachWithin {n : Nat} {starts : List Nat} (bounded : forall i, i ∈ starts -> i <= limit) {j : Nat} :
    j ∈ reachWithin f n starts <-> ∃ i, i ∈ starts ∧ ∃ rounds, rounds <= n ∧ Times step rounds i j := by
  induction n generalizing starts with
  | zero =>
      constructor
      · exact fun member => ⟨j, member, 0, Nat.le_refl 0, rfl⟩
      · rintro ⟨i, member, rounds, few, steps⟩
        cases Nat.le_zero.mp few
        exact steps ▸ member
  | succ n inductionHypothesis =>
      rw [reachWithin]
      split
      · rename_i nothing
        constructor
        · exact fun member => ⟨j, member, 0, Nat.zero_le _, rfl⟩
        · rintro ⟨i, member, rounds, -, steps⟩
          clear inductionHypothesis
          induction rounds generalizing i with
          | zero => exact steps ▸ member
          | succ rounds further =>
              rcases steps with ⟨next, taken, later⟩
              exact further next (moves.mem_of_no_next bounded nothing member taken) later
      · rw [inductionHypothesis (moves.within_of_mem_next bounded)]
        constructor
        · rintro ⟨next, member, rounds, few, steps⟩
          rcases List.mem_append.mp member with started | reached
          · exact ⟨next, started, rounds, Nat.le_succ_of_le few, steps⟩
          · rcases (moves.mem_iff starts bounded next).mp (List.mem_filter.mp reached).1 with ⟨i, started, taken⟩
            exact ⟨i, started, rounds + 1, Nat.succ_le_succ few, next, taken, steps⟩
        · rintro ⟨i, started, rounds, few, steps⟩
          cases rounds with
          | zero => exact ⟨i, List.mem_append_left _ started, 0, Nat.zero_le n, steps⟩
          | succ rounds =>
              rcases steps with ⟨next, taken, later⟩
              have reached := (moves.mem_iff starts bounded next).mpr ⟨i, started, taken⟩
              refine ⟨next, ?_, rounds, Nat.le_of_succ_le_succ few, later⟩
              by_cases known : next ∈ starts
              · exact List.mem_append_left _ known
              · exact List.mem_append_right _ (List.mem_filter.mpr ⟨reached, by simpa using known⟩)

/-- With as many rounds to go as positions are still missing, the positions reached
in the end are closed under further steps. -/
theorem closed_reachWithin {n : Nat} {starts : List Nat} (bounded : forall i, i ∈ starts -> i <= limit)
    (enough : limit + 1 <= n + starts.toFinset.card) {i j : Nat} (member : i ∈ reachWithin f n starts)
    (taken : step i j) : j ∈ reachWithin f n starts := by
  induction n generalizing starts with
  | zero =>
      have inside : starts.toFinset ⊆ Finset.range (limit + 1) := by
        intro k started
        exact Finset.mem_range.mpr (Nat.lt_succ_of_le (bounded k (List.mem_toFinset.mp started)))
      have all : starts.toFinset = Finset.range (limit + 1) := by
        refine Finset.eq_of_subset_of_card_le inside ?_
        rw [Finset.card_range]
        omega
      have bound : j <= limit := moves.within i j (bounded i member) taken
      have known : j ∈ starts.toFinset := by
        rw [all]
        exact Finset.mem_range.mpr (Nat.lt_succ_of_le bound)
      exact List.mem_toFinset.mp known
  | succ n inductionHypothesis =>
      rw [reachWithin] at member ⊢
      split at member
      · rename_i nothing
        rw [if_pos nothing]
        exact moves.mem_of_no_next bounded nothing member taken
      · rename_i something
        rw [if_neg something]
        refine inductionHypothesis (moves.within_of_mem_next bounded) ?_ member
        rcases List.exists_mem_of_ne_nil _ (fun empty => something (List.isEmpty_iff.mpr empty)) with ⟨fresh, new⟩
        have unknown : fresh ∉ starts.toFinset := by
          simpa using (List.mem_filter.mp new).2
        have larger : insert fresh starts.toFinset ⊆
            (starts ++ (f starts).filter (fun i => !starts.contains i)).toFinset := by
          intro k inserted
          rcases Finset.mem_insert.mp inserted with rfl | started
          · exact List.mem_toFinset.mpr (List.mem_append_right _ new)
          · exact List.mem_toFinset.mpr (List.mem_append_left _ (List.mem_toFinset.mp started))
        have counted := Finset.card_le_card larger
        rw [Finset.card_insert_of_notMem unknown] at counted
        omega

/-- Enough rounds reach whatever any number of rounds reaches. -/
theorem mem_reachWithin_of_times {n : Nat} {starts : List Nat} (bounded : forall i, i ∈ starts -> i <= limit)
    (enough : limit + 1 <= n) {i j rounds : Nat} (member : i ∈ reachWithin f n starts)
    (steps : Times step rounds i j) : j ∈ reachWithin f n starts := by
  induction rounds generalizing i with
  | zero => exact steps ▸ member
  | succ rounds inductionHypothesis =>
      rcases steps with ⟨next, taken, later⟩
      exact inductionHypothesis (moves.closed_reachWithin bounded (Nat.le_add_right_of_le enough) member taken) later

theorem repeated (least : Nat) (most : Option Nat) :
    Moves limit
      (fun starts => reachWithin f (min (limit + 1) ((most.map (· - least)).getD (limit + 1)))
        (iterate f least starts))
      (fun i j => ∃ rounds, least <= rounds ∧
        (forall bound, most = some bound -> rounds <= max least bound) ∧ Times step rounds i j) := by
  constructor
  · rintro i j bounded ⟨rounds, -, -, steps⟩
    exact moves.times_within bounded steps
  · intro starts bounded j
    have first := (moves.iterated least).mem_iff starts bounded
    have firstBounded := (moves.iterated least).within_of_mem bounded
    constructor
    · intro member
      rcases (moves.mem_reachWithin firstBounded).mp member with ⟨next, reached, more, few, later⟩
      rcases (first next).mp reached with ⟨i, started, steps⟩
      refine ⟨i, started, least + more, Nat.le_add_right least more, ?_, times_add.mpr ⟨next, steps, later⟩⟩
      rintro bound rfl
      have limited : more <= bound - least := Nat.le_trans few (Nat.min_le_right _ _)
      omega
    · rintro ⟨i, started, rounds, least_le, few, steps⟩
      rw [← Nat.add_sub_cancel' least_le] at steps
      rcases times_add.mp steps with ⟨next, steps, later⟩
      have reached := (first next).mpr ⟨i, started, steps⟩
      by_cases allowed : rounds - least <= min (limit + 1) ((most.map (· - least)).getD (limit + 1))
      · exact (moves.mem_reachWithin firstBounded).mpr ⟨next, reached, rounds - least, allowed, later⟩
      · -- Only the number of positions can have stopped the rounds.
        have enough : limit + 1 <= min (limit + 1) ((most.map (· - least)).getD (limit + 1)) := by
          cases most with
          | none => exact Nat.le_of_eq (Nat.min_self _).symm
          | some bound =>
              have limited := few bound rfl
              rw [Option.map_some, Option.getD_some] at allowed ⊢
              omega
        refine moves.mem_reachWithin_of_times firstBounded enough ?_ later
        exact (moves.mem_reachWithin firstBounded).mpr ⟨next, reached, 0, Nat.zero_le _, rfl⟩

end Moves

/-- Matching reaches what the pattern spans. -/
theorem Node.moves (text : Array Char) (node : Node) : Moves text.size (node.reach text) (node.Spans text) := by
  induction node with
  | empty =>
      refine ⟨fun i j bounded same => same ▸ bounded, fun starts _ j => ?_⟩
      exact ⟨fun member => ⟨j, member, rfl⟩, fun ⟨i, member, same⟩ => same ▸ member⟩
  | one weight test =>
      constructor
      · rintro i j - ⟨rfl, c, found, -⟩
        exact (Array.getElem?_eq_some_iff.mp found).1
      · intro starts _ j
        simp only [Node.reach, Node.Spans, List.mem_filterMap, Option.map_eq_some_iff, Option.filter_eq_some_iff]
        constructor
        · rintro ⟨i, started, c, ⟨found, passes⟩, rfl⟩
          exact ⟨i, started, rfl, c, found, passes⟩
        · rintro ⟨i, started, rfl, c, found, passes⟩
          exact ⟨i, started, c, ⟨found, passes⟩, rfl⟩
  | look l =>
      constructor
      · rintro i j bounded ⟨rfl, -⟩
        exact bounded
      · intro starts _ j
        rw [Node.reach, List.mem_filter]
        constructor
        · rintro ⟨started, holds⟩
          exact ⟨j, started, rfl, holds⟩
        · rintro ⟨i, started, rfl, holds⟩
          exact ⟨started, holds⟩
  | sequence first second firstMoves secondMoves =>
      constructor
      · rintro i k bounded ⟨j, spanned, spanned'⟩
        exact secondMoves.within j k (firstMoves.within i j bounded spanned) spanned'
      · intro starts bounded k
        rw [Node.reach, secondMoves.mem_iff _ (firstMoves.within_of_mem bounded)]
        constructor
        · rintro ⟨j, reached, later⟩
          rcases (firstMoves.mem_iff starts bounded j).mp reached with ⟨i, started, earlier⟩
          exact ⟨i, started, j, earlier, later⟩
        · rintro ⟨i, started, j, earlier, later⟩
          exact ⟨j, (firstMoves.mem_iff starts bounded j).mpr ⟨i, started, earlier⟩, later⟩
  | choice first second firstMoves secondMoves =>
      constructor
      · rintro i j bounded (spanned | spanned)
        · exact firstMoves.within i j bounded spanned
        · exact secondMoves.within i j bounded spanned
      · intro starts bounded j
        have either : j ∈ (Node.choice first second).reach text starts <->
            j ∈ first.reach text starts ∨ j ∈ second.reach text starts := by
          simp only [Node.reach, List.mem_append, List.mem_filter, List.contains_eq_mem, Bool.not_eq_true',
            decide_eq_false_iff_not]
          tauto
        rw [either, firstMoves.mem_iff starts bounded, secondMoves.mem_iff starts bounded]
        simp only [Node.Spans, and_or_left, exists_or]
  | repeated inner least most innerMoves => exact innerMoves.repeated least most

/-- A pattern occurs in a text that has a place from which it spans something. -/
theorem Matcher.occursIn_iff {m : Matcher} {text : String} :
    m.occursIn text = true <->
      ∃ i j, i <= text.toList.toArray.size ∧ m.node.Spans text.toList.toArray i j := by
  have bounded : forall i, i ∈ List.range (text.toList.toArray.size + 1) -> i <= text.toList.toArray.size :=
    fun i member => Nat.le_of_lt_succ (List.mem_range.mp member)
  have reached := (m.node.moves text.toList.toArray).mem_iff _ bounded
  rw [Matcher.occursIn, Bool.not_eq_true', List.isEmpty_eq_false_iff_exists_mem]
  constructor
  · rintro ⟨j, member⟩
    rcases (reached j).mp member with ⟨i, started, spanned⟩
    exact ⟨i, j, bounded i started, spanned⟩
  · rintro ⟨i, j, inside, spanned⟩
    exact ⟨j, (reached j).mpr ⟨i, List.mem_range.mpr (Nat.lt_succ_of_le inside), spanned⟩⟩

end Regex
end MemoryAtlas

import Mathlib.Data.List.Nodup
import Mathlib.Data.List.Perm.Subperm
import Mathlib.Order.WellFounded
import MemoryAtlas.Proofs.Sequence
import MemoryAtlas.Schema.Embedding

namespace MemoryAtlas
namespace Schema

/-!
# The search for structures that contain themselves

The search goes down the names that each name embeds.  A search that finds
nothing proves that going down ends everywhere.

Two facts carry the proof.  A name is only finished after everything that it
embeds, so finished names are accessible.  And the way down never repeats a
name, so it is never longer than the list of names allows and the bound on its
length is never what stops it.
-/

/-- `outer` embeds `inner` by value. -/
def Embeds (fieldsOf : String -> List Field) (inner outer : String) : Prop :=
  inner ∈ embeddedNames (fieldsOf outer)

/-- A way down that the search may be on.  Every name before the last embeds
the next, so it is one of the known names, and none is passed twice; the depth
that is left covers all the names that are still free. -/
structure Way (names : List String) (fuel : Nat) (before : List String) (name : String) : Prop where
  nodup : (before ++ [name]).Nodup
  listed : forall other, other ∈ before -> other ∈ names
  enough : names.length + 3 <= fuel + (before ++ [name]).length

theorem Way.start {names : List String} (name : String) : Way names (names.length + 2) [] name where
  nodup := List.nodup_singleton name
  listed := fun _ member => absurd member List.not_mem_nil
  enough := Nat.le_refl _

/-- A way is shorter than the depth allows. -/
theorem Way.not_exhausted {names before : List String} {name : String} : ¬ Way names 0 before name := by
  intro way
  have short := ((List.nodup_append.mp way.nodup).1.subperm way.listed).length_le
  have enough := way.enough
  rw [List.length_append, List.length_singleton] at enough
  omega

/-- A way goes on to a name that it has not passed. -/
theorem Way.onward {names before : List String} {fuel : Nat} {name inner : String}
    (way : Way names (fuel + 1) before name) (known : name ∈ names) (fresh : inner ∉ before ++ [name]) :
    Way names fuel (before ++ [name]) inner where
  nodup := by
    refine List.nodup_append.mpr ⟨way.nodup, List.nodup_singleton inner, fun other present same last => ?_⟩
    rw [List.mem_singleton.mp last]
    exact fun equal => fresh (equal ▸ present)
  listed := by
    intro other present
    rcases List.mem_append.mp present with old | last
    · exact way.listed other old
    · rw [List.mem_singleton.mp last]
      exact known
  enough := by
    have enough := way.enough
    rw [List.length_append, List.length_singleton]
    omega

/-- Whatever the search has finished is accessible, and it finishes the name
that it was started from. -/
theorem visitEmbedded_ok {fieldsOf : String -> List Field} {names : List String}
    (complete : forall inner outer, Embeds fieldsOf inner outer -> outer ∈ names)
    {fuel : Nat} {name : String} {before done after : List String} (way : Way names fuel before name)
    (finished : forall other, other ∈ done -> Acc (Embeds fieldsOf) other)
    (visited : visitEmbedded fieldsOf fuel name (before ++ [name]) done = .ok after) :
    (forall other, other ∈ after -> Acc (Embeds fieldsOf) other) ∧ name ∈ after ∧
      forall other, other ∈ done -> other ∈ after := by
  induction fuel generalizing name before done after with
  | zero => exact absurd way Way.not_exhausted
  | succ fuel inductionHypothesis =>
      rw [visitEmbedded] at visited
      split at visited
      · rename_i known
        cases visited
        exact ⟨finished, List.contains_iff_mem.mp known, fun _ member => member⟩
      · rcases Except.bind_eq_ok_iff.mp visited with ⟨middle, inside, made⟩
        cases made
        have innerFinished : (forall other, other ∈ middle -> Acc (Embeds fieldsOf) other) ∧
            (forall inner, inner ∈ embeddedNames (fieldsOf name) -> inner ∈ middle) ∧
            forall other, other ∈ done -> other ∈ middle := by
          refine Except.foldlM_establishes
            (fun state => forall other, other ∈ state -> Acc (Embeds fieldsOf) other)
            (fun inner state => inner ∈ state) finished ?_ inside
          intro state inner later member invariant step
          split at step
          · cases step
          · rename_i fresh
            have onward := way.onward (complete inner name member) (mt List.contains_iff_mem.mpr fresh)
            exact inductionHypothesis onward invariant step
        rcases innerFinished with ⟨accessible, embedded, lasting⟩
        refine ⟨?_, List.mem_cons_self, fun other member => List.mem_cons_of_mem name (lasting other member)⟩
        intro other member
        rcases List.mem_cons.mp member with rfl | old
        · exact Acc.intro other (fun inner embeds => accessible inner (embedded inner embeds))
        · exact accessible other old

/-- A search that finds nothing leaves no infinite way down. -/
theorem checkEmbedding_wellFounded {fieldsOf : String -> List Field} {names : List String}
    (complete : forall inner outer, Embeds fieldsOf inner outer -> outer ∈ names)
    (checked : checkEmbedding fieldsOf names = .ok ()) : WellFounded (Embeds fieldsOf) := by
  rcases Except.bind_eq_ok_iff.mp checked with ⟨final, run, -⟩
  have allFinished : (forall other, other ∈ final -> Acc (Embeds fieldsOf) other) ∧
      (forall name, name ∈ names -> name ∈ final) ∧ forall other, other ∈ [] -> other ∈ final := by
    refine Except.foldlM_establishes
      (fun state => forall other, other ∈ state -> Acc (Embeds fieldsOf) other)
      (fun name state => name ∈ state) (fun other member => absurd member List.not_mem_nil) ?_ run
    intro state name later member invariant step
    exact visitEmbedded_ok complete (Way.start name) invariant step
  refine ⟨fun name => Acc.intro name fun inner embeds => ?_⟩
  have listed := complete inner name embeds
  exact (allFinished.1 name (allFinished.2.1 name listed)).inv embeds

end Schema
end MemoryAtlas

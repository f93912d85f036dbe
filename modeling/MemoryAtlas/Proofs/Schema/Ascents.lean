import Mathlib.Data.List.Chain
import Mathlib.Data.List.Nodup
import MemoryAtlas.Schema.Hierarchy

namespace MemoryAtlas
namespace Schema

/-!
# Following parents

The parents of a class are followed upward until the root is reached, or a
class that has none.  An ascent lists the classes on the way.  It is a matter of
the parents alone and knows of no limit.

Two recursions with a limit follow parents: one checks a chain and one lists it.
Both are measured by the ascent.  The check is passed exactly if there is an
ascent that repeats no class and is no longer than the limit; the list is the
ascent itself, as soon as the limit is long enough.
-/

/-- The classes on the way from a class up to the root, the root left out, or up
to a class without a parent. -/
inductive Ascent (parents : Table String) : String -> List String -> Prop where
  | root : Ascent parents rootClass []
  | orphan {name : String} (notRoot : name ≠ rootClass) (alone : parents.find? name = none) :
      Ascent parents name [name]
  | onward {name parent : String} {passed : List String} (notRoot : name ≠ rootClass)
      (above : parents.find? name = some parent) (rest : Ascent parents parent passed) :
      Ascent parents name (name :: passed)

namespace Ascent

variable {parents : Table String} {name : String} {passed : List String}

/-- A class other than the root is on its own way. -/
theorem self_mem (ascent : Ascent parents name passed) (notRoot : name ≠ rootClass) : name ∈ passed := by
  cases ascent with
  | root => exact absurd rfl notRoot
  | orphan => exact List.mem_cons_self
  | onward => exact List.mem_cons_self

/-- The root is on no way to itself. -/
theorem ne_root (ascent : Ascent parents name passed) : forall other, other ∈ passed -> other ≠ rootClass := by
  induction ascent with
  | root => exact fun other member => absurd member List.not_mem_nil
  | orphan notRoot _ =>
      intro other member
      rw [List.mem_singleton.mp member]
      exact notRoot
  | onward notRoot _ _ inductionHypothesis =>
      intro other member
      rcases List.mem_cons.mp member with rfl | higher
      · exact notRoot
      · exact inductionHypothesis other higher

/-- Read downward from the root, an ascent ends with its class. -/
theorem getLast?_chain (ascent : Ascent parents name passed) :
    (rootClass :: passed.reverse).getLast? = some name := by
  cases ascent with
  | root => rfl
  | orphan => rfl
  | onward =>
      rw [List.reverse_cons, ← List.cons_append]
      exact List.getLast?_concat

/-- Read downward from the root, each class of an ascent follows its parent;
only right below the root there may be a class that has none. -/
theorem isChain (ascent : Ascent parents name passed) :
    (rootClass :: passed.reverse).IsChain (fun upper lower =>
      parents.find? lower = some upper ∨ upper = rootClass ∧ parents.find? lower = none) := by
  induction ascent with
  | root => exact .singleton _
  | orphan _ alone => exact .cons_cons (.inr ⟨rfl, alone⟩) (.singleton _)
  | onward _ above rest inductionHypothesis =>
      rw [List.reverse_cons, ← List.cons_append]
      refine List.isChain_append.mpr ⟨inductionHypothesis, .singleton _, ?_⟩
      intro upper last lower first
      rw [rest.getLast?_chain] at last
      cases last
      cases first
      exact .inl above

/-- A list of parents that may be long enough is the ascent. -/
theorem climb_eq (ascent : Ascent parents name passed) {fuel : Nat} (enough : passed.length ≤ fuel) :
    climb parents fuel name = passed := by
  induction ascent generalizing fuel with
  | root => cases fuel <;> simp [climb]
  | orphan notRoot alone =>
      cases fuel with
      | zero => cases enough
      | succ fuel => rw [climb, if_neg notRoot, alone]
  | onward notRoot above rest inductionHypothesis =>
      cases fuel with
      | zero => cases enough
      | succ fuel =>
          rw [climb, if_neg notRoot, above]
          exact congrArg _ (inductionHypothesis (Nat.le_of_succ_le_succ enough))

end Ascent

/-- The check of a chain is passed exactly if the chain can be followed to its
end within the limit, without passing a class twice. -/
theorem checkChain_ok_iff {parents : Table String} {className : String} {left : Nat} {seen : List String}
    {current : String} : checkChain parents className left seen current = .ok () <->
      ∃ passed, Ascent parents current passed ∧ passed.Nodup ∧ passed.length ≤ left ∧
        forall name, name ∈ passed -> name ∉ seen := by
  -- The cases are the ends of the check; only in the last one does it go on, and
  -- there the class has joined those that may not come again.
  fun_induction checkChain parents className left seen current with
  | case1 left seen =>
      exact iff_of_true rfl
        ⟨[], .root, List.nodup_nil, Nat.zero_le left, fun name member => absurd member List.not_mem_nil⟩
  | case2 left seen current notRoot again =>
      refine iff_of_false nofun ?_
      rintro ⟨passed, ascent, -, -, fresh⟩
      exact fresh current (ascent.self_mem notRoot) (List.contains_iff_mem.mp again)
  | case3 seen current notRoot _ =>
      refine iff_of_false nofun ?_
      rintro ⟨passed, ascent, -, none, -⟩
      have member := ascent.self_mem notRoot
      rw [List.length_eq_zero_iff.mp (Nat.le_zero.mp none)] at member
      cases member
  | case4 seen current notRoot once left alone =>
      refine iff_of_true rfl ⟨[current], .orphan notRoot alone, List.nodup_singleton current, ?_, ?_⟩
      · exact Nat.succ_le_succ (Nat.zero_le left)
      · intro name member
        rw [List.mem_singleton.mp member]
        exact mt List.contains_iff_mem.mpr once
  | case5 seen current notRoot once left parent above inductionHypothesis =>
      rw [inductionHypothesis]
      constructor
      · rintro ⟨passed, ascent, nodup, short, fresh⟩
        refine ⟨current :: passed, .onward notRoot above ascent, ?_, Nat.succ_le_succ short, ?_⟩
        · exact List.nodup_cons.mpr ⟨fun again => fresh current again List.mem_cons_self, nodup⟩
        · intro name member
          rcases List.mem_cons.mp member with rfl | higher
          · exact mt List.contains_iff_mem.mpr once
          · exact fun listed => fresh name higher (List.mem_cons_of_mem current listed)
      · rintro ⟨_, ascent, nodup, short, fresh⟩
        cases ascent with
        | root => exact absurd rfl notRoot
        | orphan _ alone =>
            rw [above] at alone
            cases alone
        | @onward _ other passed _ above' rest =>
            cases above.symm.trans above'
            rcases List.nodup_cons.mp nodup with ⟨once, nodup⟩
            refine ⟨passed, rest, nodup, Nat.le_of_succ_le_succ short, fun name member listed => ?_⟩
            rcases List.mem_cons.mp listed with rfl | earlier
            · exact once member
            · exact fresh name (List.mem_cons_of_mem current member) earlier

end Schema
end MemoryAtlas

import MemoryAtlas.Proofs.Schema.Ascents
import MemoryAtlas.Proofs.Schema.Loaded

namespace MemoryAtlas

open Schema

/-!
# Class chains

A chain goes from a class up through its parents and is cut off after a fixed
number of steps.  Loading has followed every chain before, with the same number
of steps, and refused any that passes a class twice or leads to a class that
nobody declares.  So the classes of a chain are pairwise different, and each of
them has an entry of its own.
-/

namespace Schema

theorem climb_root (parents : Table String) (fuel : Nat) : climb parents fuel rootClass = [] := by
  cases fuel <;> simp [climb]

/-- Above the class that a chain begins with there are only parents. -/
theorem mem_climb {parents : Table String} {fuel : Nat} {current name : String}
    (member : name ∈ climb parents fuel current) :
    name ≠ rootClass ∧ (name = current ∨ ∃ child, parents.find? child = some name) := by
  induction fuel generalizing current with
  | zero => cases member
  | succ fuel inductionHypothesis =>
      by_cases root : current = rootClass
      · rw [root, climb_root] at member
        cases member
      rw [climb, if_neg root] at member
      rcases List.mem_cons.mp member with rfl | higher
      · exact ⟨root, .inl rfl⟩
      cases above : parents.find? current with
      | none => rw [above] at higher; cases higher
      | some parent =>
          rw [above] at higher
          rcases inductionHypothesis higher with ⟨notRoot, rfl | parentOfSome⟩
          · exact ⟨notRoot, .inr ⟨current, above⟩⟩
          · exact ⟨notRoot, .inr parentOfSome⟩

/-- A parent is the root or a class of the hierarchy. -/
theorem parent_known {hierarchy : Table String} (noStray : strayEntry? hierarchy = none)
    {child parent : String} (above : (parentsOf hierarchy).find? child = some parent) :
    parent = rootClass ∨ parent ∈ hierarchy.names := by
  have known := List.find?_eq_none.mp noStray _ (Table.mem_of_find? above)
  by_cases root : parent = rootClass
  · exact .inl root
  · right
    apply Table.contains_iff.mp
    simpa [root] using known

/-- The root, or a class with a parent other than itself. -/
def Document.Parented (document : Document) (name : String) : Prop :=
  name = rootClass ∨ ∃ parent, (name, parent) ∈ document.hierarchy ∧ parent ≠ name

end Schema

namespace Catalog

theorem ancestors_of_isClass {c : Catalog} {name : String} (isClass : c.isClass name = true) :
    c.ancestors name = rootClass :: (climb c.parents chainLimit name).reverse := by
  rw [ancestors, if_pos isClass]

theorem ancestors_of_not_isClass {c : Catalog} {name : String} (stranger : c.isClass name = false) :
    c.ancestors name = [rootClass] := by
  rw [ancestors, stranger]
  rfl

theorem isClass_root (c : Catalog) : c.isClass rootClass = true := by
  rw [isClass, beq_self_eq_true]
  rfl

theorem ancestors_root (c : Catalog) : c.ancestors rootClass = [rootClass] := by
  rw [ancestors_of_isClass c.isClass_root, climb_root]
  rfl

end Catalog

namespace Schema.Stages

variable {host : Host} {document : Document} {c : Catalog} (stages : Stages host document c)
include stages

/-- Every class has been followed up to the root, or to a class without a
parent, and its chain is what was found on the way. -/
theorem exists_ascent {name : String} (isClass : c.isClass name = true) :
    ∃ passed, Ascent c.parents name passed ∧ passed.Nodup ∧ passed.length ≤ chainLimit ∧
      c.ancestors name = rootClass :: passed.reverse := by
  have followed : ∃ passed, Ascent c.parents name passed ∧ passed.Nodup ∧ passed.length ≤ chainLimit := by
    rcases Bool.or_eq_true_iff.mp isClass with root | child
    · rw [beq_iff_eq.mp root]
      exact ⟨[], .root, List.nodup_nil, Nat.zero_le _⟩
    · have checked := (checkHierarchy_ok stages.ranked).2.2 name (Table.contains_iff.mp child)
      rcases checkChain_ok_iff.mp checked with ⟨passed, ascent, nodup, short, -⟩
      exact ⟨passed, ascent, nodup, short⟩
  rcases followed with ⟨passed, ascent, nodup, short⟩
  refine ⟨passed, ascent, nodup, short, ?_⟩
  rw [Catalog.ancestors_of_isClass isClass, ascent.climb_eq short]

/-- No class is its own ancestor. -/
theorem nodup_ancestors (name : String) : (c.ancestors name).Nodup := by
  cases isClass : c.isClass name with
  | false =>
      rw [Catalog.ancestors_of_not_isClass isClass]
      exact List.nodup_singleton _
  | true =>
      rcases stages.exists_ascent isClass with ⟨passed, ascent, nodup, -, chain⟩
      rw [chain]
      refine List.nodup_cons.mpr ⟨fun root => ?_, List.nodup_reverse.mpr nodup⟩
      exact ascent.ne_root rootClass (List.mem_reverse.mp root) rfl

/-- The chain of a class ends with the class, which stands nowhere else in it. -/
theorem ancestors_split {name : String} (isClass : c.isClass name = true) :
    ∃ upper, c.ancestors name = upper ++ [name] ∧ name ∉ upper := by
  rcases stages.exists_ascent isClass with ⟨passed, ascent, -, -, chain⟩
  have last := ascent.getLast?_chain
  rw [← chain] at last
  rcases List.getLast?_eq_some_iff.mp last with ⟨upper, split⟩
  have nodup := stages.nodup_ancestors name
  rw [split] at nodup
  exact ⟨upper, split, fun again => (List.nodup_append.mp nodup).2.2 name again name List.mem_cons_self rfl⟩

/-- Only the root and what has a parent other than itself has a chain of its own. -/
theorem isClass_iff {name : String} : c.isClass name = true <-> document.Parented name := by
  rw [Catalog.isClass, Bool.or_eq_true, beq_iff_eq, Table.contains_iff, (checkHierarchy_ok stages.ranked).1]
  refine or_congr_right ?_
  constructor
  · intro child
    rcases List.mem_map.mp child with ⟨⟨_, parent⟩, kept, rfl⟩
    rcases List.mem_filter.mp kept with ⟨written, differs⟩
    exact ⟨parent, written, (bne_iff_ne.mp differs).symm⟩
  · rintro ⟨parent, written, differs⟩
    have kept : (name, parent) ∈ parentsOf document.hierarchy :=
      List.mem_filter.mpr ⟨written, bne_iff_ne.mpr differs.symm⟩
    exact List.mem_map.mpr ⟨(name, parent), kept, rfl⟩

/-- Every ancestor of a class is a class that the document names. -/
theorem mem_hierarchy_of_mem_ancestors {name ancestor : String} (above : ancestor ∈ c.ancestors name) :
    ancestor = rootClass ∨ ancestor ∈ document.hierarchy.names := by
  have ranked := checkHierarchy_ok stages.ranked
  cases isClass : c.isClass name with
  | false =>
      rw [Catalog.ancestors_of_not_isClass isClass] at above
      exact .inl (List.mem_singleton.mp above)
  | true =>
      rw [Catalog.ancestors_of_isClass isClass] at above
      rcases List.mem_cons.mp above with root | climbed
      · exact .inl root
      rcases mem_climb (List.mem_reverse.mp climbed) with ⟨notRoot, rfl | ⟨child, parentOf⟩⟩
      · rcases Bool.or_eq_true_iff.mp isClass with root | child
        · exact .inl (beq_iff_eq.mp root)
        · have listed := Table.contains_iff.mp child
          rw [ranked.1] at listed
          exact .inr (mem_hierarchy_of_mem_parentsOf listed)
      · rw [ranked.1] at parentOf
        exact parent_known ranked.2.1 parentOf

/-- Classes are the root and what the hierarchy names, and each has an entry. -/
theorem mem_entities_iff {name : String} :
    name ∈ c.entities.names <-> name = rootClass ∨ name ∈ document.hierarchy.names := by
  have names := (collectNames_ok stages.collected).2.1
  have filed := (loadAll_ok (fun _ => True) (fun _ _ _ _ _ _ => trivial) stages.entitiesLoaded).1
  have inserted : name ∈ Table.names (Table.insert rootClass rootClass document.hierarchy) <->
      name = rootClass ∨ name ∈ document.hierarchy.names := Table.mem_names_insert
  rw [filed, ← inserted, ← names.mem_iff]
  simp [Table.names, Function.comp_def]

theorem mem_entities_of_mem_ancestors {name ancestor : String} (above : ancestor ∈ c.ancestors name) :
    ancestor ∈ c.entities.names :=
  stages.mem_entities_iff.mpr (stages.mem_hierarchy_of_mem_ancestors above)

end Schema.Stages
end MemoryAtlas

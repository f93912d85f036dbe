import Mathlib.Data.List.Chain
import MemoryAtlas.Proofs.Layout.Nesting

namespace MemoryAtlas
namespace Schema

/-!
# What the search for cycles reports

The structures and classes of a catalog are the nodes of a graph, in which each
leads to what its own fields hold by value.  The search goes down this graph from
every name in turn, skips what it has finished before, and stops at the first name
that it meets again on its way.

It stops if and only if there is a cycle, whatever the graph is like; nothing is
asked of the tables here, not even that a loader has made them.  A skipped name
hides no cycle, because everything below it has been finished.  And where the
search stops, the way that it has come is itself the proof: the way is a walk in
the graph that passes no name twice until its last step comes back to one of them.
-/

/-- Among the fields that are found for `outer` is one that holds `inner` by
value, alone or as the elements of arrays. -/
def Embedding (tables : List (Table (List Field))) (outer inner : String) : Prop :=
  ∃ field, field ∈ fieldsIn tables outer ∧
    (field.kind.core = .inlineStruct inner ∨ field.kind.core = .composite inner ∨
      field.kind.core = .entity inner)

theorem embedding_eq (tables : List (Table (List Field))) :
    Embedding tables = Function.swap (Embeds (fieldsIn tables)) := by
  funext outer inner
  show Embedding tables outer inner = Embeds (fieldsIn tables) inner outer
  rw [Embeds, embeddedNames, List.mem_filterMap]
  refine propext (exists_congr fun field => and_congr_right fun _ => ?_)
  rw [Kind.embeddedName?_eq]
  cases field.kind.core <;> simp [Kind.structName?]

/-! ## Where the search stops -/

/-- A way down that passes no name twice, and from whose end one step leads back
to a name on it. -/
structure ComesBack (fieldsOf : String -> List Field) (way : List String) (name : String) : Prop where
  walked : (way ++ [name]).IsChain (Function.swap (Embeds fieldsOf))
  nodup : way.Nodup
  passed : name ∈ way

/-- The search stops only where it has come back, and it reports the way on which
it did. -/
theorem visitEmbedded_error {fieldsOf : String -> List Field} {fuel : Nat} {name : String}
    {path done : List String} {fault : Fault} (arrived : path.getLast? = some name)
    (walked : path.IsChain (Function.swap (Embeds fieldsOf))) (nodup : path.Nodup)
    (failed : visitEmbedded fieldsOf fuel name path done = .error fault) :
    ∃ way last, fault = .recursiveEmbedding last (way ++ [last]) ∧ path <+: way ∧
      ComesBack fieldsOf way last := by
  induction fuel generalizing name path done with
  | zero => cases failed
  | succ fuel inductionHypothesis =>
      rw [visitEmbedded] at failed
      split at failed
      · cases failed
      rcases Except.bind_eq_error_iff.mp failed with inside | ⟨_, -, made⟩
      · rcases Except.foldlM_fails inside with ⟨inner, member, middle, stopped⟩
        have onward : (path ++ [inner]).IsChain (Function.swap (Embeds fieldsOf)) := by
          refine List.isChain_append.mpr ⟨walked, List.isChain_singleton inner, ?_⟩
          intro outer last next first
          rw [arrived, Option.mem_some_iff] at last
          rw [List.head?_singleton, Option.mem_some_iff] at first
          exact last ▸ first ▸ member
        split at stopped
        · rename_i met
          cases stopped
          exact ⟨path, inner, rfl, List.prefix_rfl, onward, nodup, List.contains_iff_mem.mp met⟩
        · rename_i unmet
          have fresh : inner ∉ path := fun passed => unmet (List.contains_iff_mem.mpr passed)
          have nodupOnward : (path ++ [inner]).Nodup :=
            List.nodup_append.mpr ⟨nodup, List.nodup_singleton inner, fun other passed _ last same =>
              fresh (List.mem_singleton.mp last ▸ same ▸ passed)⟩
          rcases inductionHypothesis List.getLast?_concat onward nodupOnward stopped with
            ⟨way, last, same, longer, back⟩
          exact ⟨way, last, same, (List.prefix_append path [inner]).trans longer, back⟩
      · cases made

/-- A search from several names stops below one of them. -/
theorem checkEmbedding_error {fieldsOf : String -> List Field} {names : List String} {fault : Fault}
    (failed : checkEmbedding fieldsOf names = .error fault) :
    ∃ way last, fault = .recursiveEmbedding last (way ++ [last]) ∧
      (∃ name, name ∈ names ∧ way.head? = some name) ∧ ComesBack fieldsOf way last := by
  rcases Except.bind_eq_error_iff.mp failed with inside | ⟨_, -, made⟩
  · rcases Except.foldlM_fails inside with ⟨name, listed, done, stopped⟩
    rcases visitEmbedded_error rfl (List.isChain_singleton name) (List.nodup_singleton name) stopped with
      ⟨way, last, same, ⟨further, rfl⟩, back⟩
    exact ⟨_, last, same, ⟨name, listed, rfl⟩, back⟩
  · cases made

/-- Coming back closes a cycle. -/
theorem ComesBack.cycle {fieldsOf : String -> List Field} {way : List String} {name : String}
    (back : ComesBack fieldsOf way name) :
    Relation.TransGen (Function.swap (Embeds fieldsOf)) name name := by
  rcases List.append_of_mem back.passed with ⟨before, between, split⟩
  have walked := back.walked
  rw [split, List.append_assoc, List.cons_append] at walked
  -- From a place in a walk there is a path to every later place.
  have reaches := (List.isChain_append.mp (walked.imp fun _ _ => Relation.TransGen.single)).2.1
  exact (List.pairwise_cons.mp (List.isChain_iff_pairwise.mp reaches)).1 name (by simp)

/-! ## Exactness -/

/-- What the report of a cycle shows: a walk from one of the names in the tables
that ends at the reported name and has passed it exactly once before. -/
structure Reports (tables : List (Table (List Field))) (name : String) (path : List String) : Prop where
  starts : ∃ first, path.head? = some first ∧ first ∈ tables.flatMap Table.names
  walks : path.IsChain (Embedding tables)
  ends : path.getLast? = some name
  once : path.dropLast.count name = 1

theorem ComesBack.reports {tables : List (Table (List Field))} {way : List String} {first name : String}
    (back : ComesBack (fieldsIn tables) way name) (starts : way.head? = some first)
    (listed : first ∈ tables.flatMap Table.names) : Reports tables name (way ++ [name]) where
  starts := ⟨first, by rw [List.head?_append, starts, Option.some_or], listed⟩
  walks := embedding_eq tables ▸ back.walked
  ends := List.getLast?_concat
  once := by
    rw [List.dropLast_concat]
    exact List.count_eq_one_of_mem back.nodup back.passed

/-- Whatever four tables of fields there are, the search through them passes if
and only if nothing in them embeds itself, at whatever depth.  Otherwise it reports
a cycle, together with a walk into the cycle and once around it. -/
theorem checkEmbedding_exact (composites pointers inlines entities : Table (List Field)) :
    let tables := [composites, pointers, inlines, entities]
    let searched := checkEmbedding (fieldsIn tables)
      ((tables.flatMap Table.names).mergeSort (fun a b => a <= b))
    (searched = .ok () <-> forall name, ¬ Relation.TransGen (Embedding tables) name name) ∧
    forall fault, searched = .error fault ->
      ∃ name path, fault = .recursiveEmbedding name path ∧ Reports tables name path := by
  intro tables searched
  have passes (passed : searched = .ok ()) (name : String) :
      ¬ Relation.TransGen (Embedding tables) name name := by
    intro cycle
    have wellFounded := checkEmbedding_wellFounded (fun _ _ => listed_of_embeds) passed
    rw [embedding_eq] at cycle
    exact not_transGen_self_of_acc (wellFounded.apply name) (Relation.transGen_swap.mp cycle)
  have reported (fault : Fault) (failed : searched = .error fault) :
      ∃ name path, fault = .recursiveEmbedding name path ∧ Reports tables name path ∧
        Relation.TransGen (Embedding tables) name name := by
    rcases checkEmbedding_error failed with ⟨way, name, same, ⟨first, listed, starts⟩, back⟩
    exact ⟨name, way ++ [name], same, back.reports starts (List.mem_mergeSort.mp listed),
      embedding_eq tables ▸ back.cycle⟩
  refine ⟨⟨passes, fun acyclic => ?_⟩, fun fault failed => ?_⟩
  · cases outcome : searched with
    | ok => rfl
    | error fault =>
        rcases reported fault outcome with ⟨name, -, -, -, cycle⟩
        exact absurd cycle (acyclic name)
  · rcases reported fault failed with ⟨name, path, same, shown, -⟩
    exact ⟨name, path, same, shown⟩

/-- Arrays count as what they are made of. -/
example : checkEmbedding (fieldsIn [[("A", [⟨"b", .composite "B", "B", none, none⟩]),
      ("B", [⟨"a", .fixedArray (.composite "A") 2, "A", none, none⟩])]]) ["A", "B"] =
    .error (.recursiveEmbedding "A" ["A", "B", "A"]) :=
  rfl

end Schema
end MemoryAtlas

import MemoryAtlas.Proofs.Foreign.Traversal
import MemoryAtlas.Report.Containers

namespace MemoryAtlas

/-!
# Walks that are cut off

Of a tree in a damaged memory, or in one that is captured only in part, a walk gives
the nodes as far as their successors can be found.

A node is given only together with its successor.  Where the successor cannot be
found the reason takes the place of the node, although the node itself has been
reached, and even if nothing behind it was asked for: the successor of the last node
that is wanted is looked for as well.  Every node before that one is given, and no
reason stands in the place of any other.
-/

namespace Memory

/-- From a node the walk comes through the nodes `before` to `last`, each the
successor of the one before and none of them the head. -/
inductive Leads (m : Memory) (head : Address) : Address -> List Address -> Address -> Prop
  | here {node : Address} (inner : node ≠ head) : m.Leads head node [] node
  | onward {node next last : Address} {before : List Address} (inner : node ≠ head)
      (step : m.successor node = .ok next) (later : m.Leads head next before last) :
      m.Leads head node (node :: before) last

end Memory

namespace OrderedTree

variable {t : OrderedTree} {m : Memory} {head first last : Address} {before : List Address}

/-! ## From node to node -/

theorem walk_onward {node next : Address} (inner : node ≠ head) (step : m.successor node = .ok next)
    (fuel : Nat) : walk m head (fuel + 1) node = .ok node :: walk m head fuel next := by
  rw [walk, if_neg inner, step]

theorem walk_of_failure {node : Address} {fault : MemoryFault} (inner : node ≠ head)
    (failed : m.successor node = .error fault) (fuel : Nat) :
    walk m head (fuel + 1) node = [.error fault] := by
  rw [walk, if_neg inner, failed]

theorem length_walk_le (fuel : Nat) (node : Address) : (walk m head fuel node).length <= fuel := by
  induction fuel generalizing node with
  | zero => exact Nat.le_refl 0
  | succ fuel inductionHypothesis =>
      by_cases inner : node = head
      · rw [walk, if_pos inner]
        exact Nat.zero_le _
      cases found : m.successor node with
      | error fault =>
          rw [walk_of_failure inner found fuel]
          exact Nat.succ_le_succ fuel.zero_le
      | ok next =>
          rw [walk_onward inner found fuel]
          exact Nat.succ_le_succ (inductionHypothesis next)

/-- All nodes that a walk comes through are given.  At the place of the one it has come
to stands the node if its successor is found, and the reason if it is not. -/
theorem walk_take (leads : m.Leads head first before last) {fuel : Nat} (asked : before.length < fuel) :
    (walk m head fuel first).take (before.length + 1) =
      before.map Except.ok ++ [(m.successor last).map fun _ => last] := by
  induction leads generalizing fuel with
  | @here node inner =>
      rcases Nat.exists_eq_add_one.mpr asked with ⟨rest, rfl⟩
      rw [walk, if_neg inner]
      cases m.successor node <;> rfl
  | onward inner step later inductionHypothesis =>
      rcases Nat.exists_eq_add_one.mpr (Nat.zero_lt_of_lt asked) with ⟨rest, rfl⟩
      rw [walk_onward inner step, List.length_cons, List.take_succ_cons,
        inductionHypothesis (Nat.lt_of_succ_lt_succ asked)]
      rfl

/-- A reason stands behind the nodes that were reached before, at the place of the
node whose successor is missing. -/
theorem walk_fails {node : Address} {fault : MemoryFault} {fuel : Nat}
    (failed : Except.error fault ∈ walk m head fuel node) :
    ∃ before last, m.Leads head node before last ∧ before.length < fuel ∧
      m.successor last = .error fault ∧
      walk m head fuel node = before.map Except.ok ++ [.error fault] := by
  induction fuel generalizing node with
  | zero => cases failed
  | succ fuel inductionHypothesis =>
      by_cases inner : node = head
      · rw [walk, if_pos inner] at failed
        cases failed
      cases found : m.successor node with
      | error other =>
          rw [walk_of_failure inner found fuel, List.mem_singleton] at failed
          cases failed
          exact ⟨[], node, .here inner, fuel.succ_pos, found, walk_of_failure inner found fuel⟩
      | ok next =>
          rw [walk_onward inner found fuel, List.mem_cons] at failed
          rcases failed with impossible | later
          · cases impossible
          rcases inductionHypothesis later with ⟨before, last, leads, short, missed, same⟩
          refine ⟨node :: before, last, .onward inner found leads, Nat.succ_lt_succ short, missed, ?_⟩
          rw [walk_onward inner found fuel, same]
          rfl

/-! ## From the control block -/

/-- The nodes `before` and then `last` can be reached from the control block, and the
tree claims to have that many. -/
structure Reaches (t : OrderedTree) (m : Memory) (head : Address) (before : List Address)
    (last : Address) : Prop where
  finish : t.finish m = .ok head
  begins : ∃ first, m.leftOf head = .ok first ∧ m.Leads head first before last
  counted : ∃ size, t.size m = .ok size ∧ before.length < size

theorem nodes_eq_ok_iff {limit : Nat} {items : List (Except MemoryFault Address)} :
    t.nodes m limit = .ok items <-> ∃ head first size, t.finish m = .ok head ∧
      m.leftOf head = .ok first ∧ t.size m = .ok size ∧ walk m head (min size limit) first = items := by
  simp only [nodes, Except.bind_eq_ok_iff, pure, Except.pure, Except.ok.injEq, exists_and_left]

theorem Reaches.nodes_take (reached : t.Reaches m head before last) {limit : Nat}
    (asked : before.length < limit) : ∃ items, t.nodes m limit = .ok items ∧
      items.take (before.length + 1) = before.map Except.ok ++ [(m.successor last).map fun _ => last] := by
  rcases reached with ⟨finish, ⟨first, begins, leads⟩, ⟨size, counted, enough⟩⟩
  exact ⟨_, nodes_eq_ok_iff.mpr ⟨head, first, size, finish, begins, counted, rfl⟩,
    walk_take leads (Nat.lt_min.mpr ⟨enough, asked⟩)⟩

/-- Nothing is given behind what was asked for. -/
theorem length_nodes_le {limit : Nat} {items : List (Except MemoryFault Address)}
    (listed : t.nodes m limit = .ok items) : items.length <= limit := by
  rcases nodes_eq_ok_iff.mp listed with ⟨head, first, size, -, -, -, rfl⟩
  exact (length_walk_le _ first).trans (Nat.min_le_right size limit)

theorem exists_reaches_of_error {limit : Nat} {items : List (Except MemoryFault Address)}
    {fault : MemoryFault} (listed : t.nodes m limit = .ok items) (failed : .error fault ∈ items) :
    ∃ head before last, t.Reaches m head before last ∧ m.successor last = .error fault ∧
      items = before.map Except.ok ++ [.error fault] := by
  rcases nodes_eq_ok_iff.mp listed with ⟨head, first, size, finish, begins, counted, rfl⟩
  rcases walk_fails failed with ⟨before, last, leads, short, missed, same⟩
  exact ⟨head, before, last,
    ⟨finish, ⟨first, begins, leads⟩, ⟨size, counted, (Nat.lt_min.mp short).1⟩⟩, missed, same⟩

/-! ## On the command line -/

/-- The lines of the nodes that were reached, if the successor of the last of them is
found, and otherwise no line at all. -/
theorem Reaches.nodeLines_eq (reached : t.Reaches m head before last) (c : Catalog)
    (value : Option String) {key : Address -> Int}
    (readable : forall node, node ∈ before ++ [last] -> t.layout.readKey m node = .ok (key node)) :
    Report.nodeLines c m t value (before.length + 1) =
      (liftMemory (m.successor last)).map fun _ =>
        (before ++ [last]).map fun node => Report.nodeLine c m t.layout value (key node) node := by
  rcases reached.nodes_take (Nat.lt_succ_self _) with ⟨items, listed, same⟩
  rw [List.take_of_length_le (length_nodes_le listed)] at same
  subst same
  have given (nodes : List Address) (among : nodes ⊆ before ++ [last]) :
      (nodes.map Except.ok).mapM (fun node => do
        let node <- liftMemory node
        let key <- liftMemory (t.layout.readKey m node)
        return Report.nodeLine c m t.layout value key node) =
      .ok (nodes.map fun node => Report.nodeLine c m t.layout value (key node) node) := by
    rw [List.mapM_map]
    refine Except.mapM_eq_ok fun node member => ?_
    show (liftMemory (t.layout.readKey m node) >>= _) = _
    rw [readable node (among member)]
    rfl
  rw [Report.nodeLines, listed]
  show List.mapM _ _ = _
  cases found : m.successor last with
  | ok next =>
      have whole : (before ++ [last]).map Except.ok =
          before.map Except.ok ++ [(Except.ok next : Except MemoryFault Address).map fun _ => last] := by
        rw [List.map_append]
        rfl
      rw [← whole, given _ fun _ member => member]
      rfl
  | error fault =>
      rw [List.mapM_append, given before (List.subset_append_left before [last])]
      rfl

/-! ## What is given and what is lost -/

/-- Of the nodes that can be reached all but the last are given, and the last one if its
successor is found; otherwise the reason takes its place, and no line is shown even
where the nodes that were reached are all that was asked for.  A reason is never given
for anything else, and nothing follows it. -/
theorem reached_given_until_failure (t : OrderedTree) (m : Memory) :
    (forall head before last, t.Reaches m head before last ->
      (forall limit, before.length < limit -> ∃ items, t.nodes m limit = .ok items ∧
        items.take (before.length + 1) =
          before.map Except.ok ++ [(m.successor last).map fun _ => last]) ∧
      forall (c : Catalog) (value : Option String) (key : Address -> Int),
        (forall node, node ∈ before ++ [last] -> t.layout.readKey m node = .ok (key node)) ->
        Report.nodeLines c m t value (before.length + 1) =
          (liftMemory (m.successor last)).map fun _ =>
            (before ++ [last]).map fun node => Report.nodeLine c m t.layout value (key node) node) ∧
      forall limit items fault, t.nodes m limit = .ok items -> .error fault ∈ items ->
        ∃ head before last, t.Reaches m head before last ∧ m.successor last = .error fault ∧
          items = before.map Except.ok ++ [.error fault] :=
  ⟨fun _ _ _ reached => ⟨fun _ asked => reached.nodes_take asked,
      fun c value _ readable => reached.nodeLines_eq c value readable⟩,
    fun _ _ _ listed failed => exists_reaches_of_error listed failed⟩

/-- The three nodes with the right link of the root led to a place that was not
captured. -/
def tornNodes : Memory :=
  (Snapshot.ofRegion 0x1000 (List.toArray (toLittleEndian 8 0x1010 ++ toLittleEndian 8 3 ++
    nodeBytes 0x1060 0x1038 0x1038 1 0 0 ++
    nodeBytes 0x1060 0x1010 0x2000 0 5 50 ++
    nodeBytes 0x1010 0x1038 0x1088 0 0xFFFFFFFF 10 ++
    nodeBytes 0x1010 0x1060 0x1010 0 2 20))).memory

theorem tornNodes_reached : threeNodesMap.Reaches tornNodes 0x1010 [0x1060, 0x1088] 0x1038 := by
  have second : tornNodes.successor 0x1060 = .ok 0x1088 := by decide +kernel
  have third : tornNodes.successor 0x1088 = .ok 0x1038 := by decide +kernel
  have leads : tornNodes.Leads 0x1010 0x1060 [0x1060, 0x1088] 0x1038 :=
    .onward (by decide) second (.onward (by decide) third (.here (by decide)))
  exact ⟨by decide +kernel, ⟨0x1060, by decide +kernel, leads⟩, ⟨3, by decide +kernel, by decide⟩⟩

theorem tornNodes_successor :
    tornNodes.successor 0x1038 = .error (.unreadable 0x2019 (.notCaptured 1)) := by
  decide +kernel

/-- The third of three nodes is lost, and with it, where three are asked for, all lines. -/
theorem reached_given_until_failure_at_tornNodes :
    (∃ items, threeNodesMap.nodes tornNodes 3 = .ok items ∧
      items.take 3 = [.ok 0x1060, .ok 0x1088, .error (.unreadable 0x2019 (.notCaptured 1))]) ∧
    Report.nodeLines .empty tornNodes threeNodesMap (some "Dword") 3 =
      .error (.ofFault (.memory (.unreadable 0x2019 (.notCaptured 1)))) := by
  have given := (reached_given_until_failure threeNodesMap tornNodes).1 _ _ _ tornNodes_reached
  rw [tornNodes_successor] at given
  -- One node at a time, since to decide it as it stands could mean to try all addresses.
  have readable : forall node, node ∈ [0x1060, 0x1088] ++ [0x1038] ->
      threeNodesMap.layout.readKey tornNodes node =
        .ok (if node = 0x1060 then -1 else if node = 0x1088 then 2 else 5) :=
    List.forall_mem_cons.mpr ⟨by decide +kernel, List.forall_mem_cons.mpr ⟨by decide +kernel,
      List.forall_mem_singleton.mpr (by decide +kernel)⟩⟩
  exact ⟨given.1 3 (by decide), given.2 .empty (some "Dword") _ readable⟩

/-- That a node can be reached does not mean that it is given. -/
theorem walk_loses_reached_node :
    ¬ forall (t : OrderedTree) (m : Memory) head before last, t.Reaches m head before last ->
      forall limit, before.length < limit -> ∃ items, t.nodes m limit = .ok items ∧
        items.take (before.length + 1) = (before ++ [last]).map Except.ok := by
  intro allGiven
  have asked : [(0x1060 : Address), 0x1088].length < 3 := by decide
  rcases allGiven _ _ _ _ _ tornNodes_reached 3 asked with ⟨items, listed, same⟩
  rcases tornNodes_reached.nodes_take asked with ⟨others, listed', same'⟩
  rw [listed] at listed'
  cases listed'
  rw [same, tornNodes_successor] at same'
  exact absurd same' (by decide)

end OrderedTree
end MemoryAtlas

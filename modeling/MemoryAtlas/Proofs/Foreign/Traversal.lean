import Mathlib.Data.List.Chain
import MemoryAtlas.Proofs.Foreign.AddressTree

namespace MemoryAtlas

/-!
# Walking a tree in order

The successor of a node is the first node of its right subtree, or the first
node above it that is not reached from the right.  A subtree knows the former
by itself.  The latter depends only on where the climb from the subtree's root
leads and on how many steps it takes, and that is all that a proof about a
subtree assumes of the tree around it.

Each step further down to the right makes the climb one step longer.  The climb
that a subtree needs and the subtree's own height therefore never add up to
more than the height of the whole tree and one, which is why a tree as high as
the limit on descents is still walked to its end.
-/

namespace Memory

variable {m : Memory} {head : Address}

/-! ## Single steps -/

theorem leftmost_at {node current left : Address} {fuel : Nat} (here : m.leftOf current = .ok left)
    (ends : m.isHead left = .ok true) : m.leftmost node (fuel + 1) current = .ok current := by
  rw [leftmost, here, Except.ok_bind, ends, Except.ok_bind, if_pos rfl]
  rfl

theorem leftmost_onward {node current left : Address} {fuel : Nat}
    (here : m.leftOf current = .ok left) (onward : m.isHead left = .ok false) :
    m.leftmost node (fuel + 1) current = m.leftmost node fuel left := by
  rw [leftmost, here, Except.ok_bind, onward, Except.ok_bind, if_neg Bool.false_ne_true]

theorem firstAbove_turn {node child parent right : Address} {fuel : Nat} (inner : parent ≠ head)
    (turned : m.rightOf parent = .ok right) (different : right ≠ child) :
    m.firstAbove node head (fuel + 1) child parent = .ok parent := by
  rw [firstAbove, if_neg inner, turned, Except.ok_bind, if_pos (bne_iff_ne.mpr different)]
  rfl

theorem firstAbove_onward {node child parent above : Address} {fuel : Nat} (inner : parent ≠ head)
    (fromRight : m.rightOf parent = .ok child) (upward : m.parentOf parent = .ok above) :
    m.firstAbove node head (fuel + 1) child parent = m.firstAbove node head fuel parent above := by
  rw [firstAbove, if_neg inner, fromRight, Except.ok_bind, bne_self_eq_false,
    if_neg Bool.false_ne_true, upward, Except.ok_bind]

theorem successor_head (marked : m.isHead head = .ok true) : m.successor head = .ok head := by
  rw [successor, marked, Except.ok_bind, if_pos rfl]
  rfl

theorem successor_below {node right : Address} (inner : m.isHead node = .ok false)
    (below : m.rightOf node = .ok right) (present : m.isHead right = .ok false) :
    m.successor node = m.leftmost node descentLimit right := by
  rw [successor, inner, Except.ok_bind, if_neg Bool.false_ne_true, below, Except.ok_bind, present,
    Except.ok_bind, if_neg Bool.false_ne_true]

theorem successor_above {node parent : Address} (inner : m.isHead node = .ok false)
    (nothing : m.rightOf node = .ok head) (marked : m.isHead head = .ok true)
    (above : m.parentOf node = .ok parent) :
    m.successor node = m.firstAbove node head descentLimit node parent := by
  rw [successor, inner, Except.ok_bind, if_neg Bool.false_ne_true, nothing, Except.ok_bind, marked,
    Except.ok_bind, if_pos rfl, above, Except.ok_bind]

/-! ## Climbing -/

/-- A climb from `child` below `parent` leads to `next`, for any walk that has
at least the given number of steps left. -/
def Ascends (m : Memory) (head child parent next : Address) (steps : Nat) : Prop :=
  forall node fuel, steps <= fuel -> m.firstAbove node head fuel child parent = .ok next

/-- Above the root there is only the head. -/
theorem ascends_head (child : Address) : m.Ascends head child head head 1 := by
  intro node fuel enough
  rcases Nat.exists_eq_add_of_le' enough with ⟨rest, rfl⟩
  rw [firstAbove, if_pos rfl]

/-- A climb from the left ends at the parent. -/
theorem ascends_left {child parent right : Address} (inner : parent ≠ head)
    (turned : m.rightOf parent = .ok right) (different : right ≠ child) :
    m.Ascends head child parent parent 1 := by
  intro node fuel enough
  rcases Nat.exists_eq_add_of_le' enough with ⟨rest, rfl⟩
  exact firstAbove_turn inner turned different

/-- A climb from the right goes on above the parent. -/
theorem Ascends.right {child parent above next : Address} {steps : Nat} (inner : parent ≠ head)
    (fromRight : m.rightOf parent = .ok child) (upward : m.parentOf parent = .ok above)
    (ascends : m.Ascends head parent above next steps) :
    m.Ascends head child parent next (steps + 1) := by
  intro node fuel enough
  rcases Nat.exists_eq_add_of_le' (Nat.le_of_add_left_le enough) with ⟨rest, rfl⟩
  rw [firstAbove_onward inner fromRight upward]
  exact ascends node rest (Nat.le_of_succ_le_succ enough)

end Memory

/-! ## Trees -/

namespace AddressTree

variable {m : Memory} {head : Address}

/-- A link to a subtree that is there leads to a node without a mark. -/
theorem Linked.isHead_link {tree : AddressTree} {parent : Address}
    (linked : tree.Linked m head parent) (present : tree ≠ missing) :
    m.isHead (tree.link head) = .ok false := by
  cases tree with
  | missing => exact absurd rfl present
  | node left address right => exact linked.1.marked

/-- Going down to the left from the root of a tree ends at its first node. -/
theorem Linked.leftmost_eq {tree : AddressTree} {parent origin : Address} {fuel : Nat}
    (marked : m.isHead head = .ok true) (linked : tree.Linked m head parent)
    (present : tree ≠ missing) (low : tree.height <= fuel) :
    m.leftmost origin fuel (tree.link head) = .ok (tree.first head) := by
  induction tree generalizing parent fuel with
  | missing => exact absurd rfl present
  | node left address right leftHypothesis _ =>
      rcases linked with ⟨here, leftLinked, _⟩
      have deep : left.height + 1 <= fuel := by
        rw [height] at low
        omega
      rcases Nat.exists_eq_add_of_le' (Nat.le_of_add_left_le deep) with ⟨rest, rfl⟩
      rw [first_node]
      by_cases absent : left = missing
      · subst absent
        exact Memory.leftmost_at here.left marked
      · rw [link, Memory.leftmost_onward here.left (leftLinked.isHead_link absent),
          leftHypothesis leftLinked absent (Nat.le_of_succ_le_succ deep), first_eq absent head address]

/-- In a subtree every node is followed by the next one in order, and the last
one by the node that a climb from the subtree leads to.  The climb may take
only as many steps as the height of the subtree leaves. -/
theorem Linked.isChain_successor {tree : AddressTree} {parent next : Address} {steps : Nat}
    (marked : m.isHead head = .ok true) (linked : tree.Linked m head parent)
    (distinct : (head :: tree.addresses).Nodup)
    (ascends : tree ≠ missing -> m.Ascends head (tree.link head) parent next steps)
    (low : tree.height + steps <= descentLimit + 1) :
    List.IsChain (fun node after => m.successor node = .ok after) (tree.addresses ++ [next]) := by
  induction tree generalizing parent next steps with
  | missing => exact List.isChain_singleton next
  | node left address right leftHypothesis rightHypothesis =>
      rcases linked with ⟨here, leftLinked, rightLinked⟩
      rcases nodup_node distinct with ⟨inner, leftDistinct, rightDistinct, apart⟩
      have leftLow : left.height + 1 + steps <= descentLimit + 1 := by
        rw [height] at low
        omega
      have rightLow : right.height + 1 + steps <= descentLimit + 1 := by
        rw [height] at low
        omega
      have upward : m.Ascends head address parent next steps := ascends (by nofun)
      show List.IsChain _ ((left.addresses ++ address :: right.addresses) ++ [next])
      rw [List.append_assoc, List.cons_append, List.isChain_split]
      constructor
      -- A climb from the left ends here, however long the climb above is.
      · exact leftHypothesis leftLinked leftDistinct
          (fun present => Memory.ascends_left inner here.right (apart present)) (by omega)
      -- Without a right subtree the climb starts at this node; otherwise it passes it.
      · by_cases absent : right = missing
        · subst absent
          refine List.isChain_pair.mpr ?_
          rw [Memory.successor_above here.marked here.right marked here.parent]
          exact upward address descentLimit (by omega)
        · refine (rightHypothesis rightLinked rightDistinct
            (fun _ => upward.right inner here.right here.parent) (by omega)).cons ?_
          intro after follows
          rw [List.head?_append, head?_addresses absent head, Option.some_or, Option.mem_some] at follows
          rw [Memory.successor_below here.marked here.right (rightLinked.isHead_link absent),
            rightLinked.leftmost_eq marked absent (by omega), follows]

end AddressTree

/-! ## Whole walks -/

/-- A chain that runs up to an end begins with a step to its second place. -/
theorem isChain_cons_append {α : Type} {Step : α -> α -> Prop} {start final : α} {rest : List α} :
    List.IsChain Step (start :: rest ++ [final]) <->
      Step start (rest.head?.getD final) ∧ List.IsChain Step (rest ++ [final]) := by
  cases rest with
  | nil => exact List.isChain_pair.trans (and_iff_left (List.isChain_singleton final)).symm
  | cons second later => exact List.isChain_cons_cons

namespace Memory

variable {m : Memory} {head : Address}

/-- The node that follows a node by a number of places. -/
def after (m : Memory) : Nat -> Address -> Except MemoryFault Address
  | 0, node => .ok node
  | count + 1, node => do m.after count (<- m.successor node)

theorem after_head (marked : m.isHead head = .ok true) (count : Nat) :
    m.after count head = .ok head := by
  induction count with
  | zero => rfl
  | succ count inductionHypothesis =>
      rw [after, successor_head marked, Except.ok_bind, inductionHypothesis]

/-- Repeated successors run through a chain and stay at the head. -/
theorem after_eq (marked : m.isHead head = .ok true) {nodes : List Address}
    (chain : List.IsChain (fun node after => m.successor node = .ok after) (nodes ++ [head]))
    (count : Nat) : m.after count (nodes.head?.getD head) = .ok (nodes[count]?.getD head) := by
  induction nodes generalizing count with
  | nil => exact after_head marked count
  | cons node rest inductionHypothesis =>
      rcases isChain_cons_append.mp chain with ⟨step, later⟩
      cases count with
      | zero => rfl
      | succ count =>
          show (m.successor node >>= m.after count) = .ok (rest[count]?.getD head)
          rw [step, Except.ok_bind, inductionHypothesis later count]

end Memory

namespace OrderedTree

variable {t : OrderedTree} {m : Memory} {head : Address} {tree : AddressTree}

theorem walk_head (fuel : Nat) : walk m head fuel head = [] := by
  cases fuel with
  | zero => rfl
  | succ fuel => rw [walk, if_pos rfl]

/-- A walk runs through a chain until its fuel is used up or the head is met. -/
theorem walk_eq {nodes : List Address} (inner : head ∉ nodes)
    (chain : List.IsChain (fun node after => m.successor node = .ok after) (nodes ++ [head]))
    (fuel : Nat) : walk m head fuel (nodes.head?.getD head) = (nodes.take fuel).map Except.ok := by
  induction nodes generalizing fuel with
  | nil =>
      rw [List.take_nil]
      exact walk_head fuel
  | cons node rest inductionHypothesis =>
      rcases isChain_cons_append.mp chain with ⟨step, later⟩
      cases fuel with
      | zero => rfl
      | succ fuel =>
          show walk m head (fuel + 1) node = .ok node :: (rest.take fuel).map Except.ok
          have onward : node ≠ head := by
            rintro rfl
            exact inner List.mem_cons_self
          rw [walk, if_neg onward, step]
          exact congrArg _ (inductionHypothesis (List.not_mem_of_not_mem_cons inner) later fuel)

namespace Stores

/-- In a tree that is low enough every node leads to the next, and the last one
to the head. -/
theorem isChain_successor (stored : t.Stores m head tree) (low : tree.height <= descentLimit) :
    List.IsChain (fun node after => m.successor node = .ok after) (tree.addresses ++ [head]) :=
  stored.linked.isChain_successor stored.ends.marked stored.distinct
    (fun _ => Memory.ascends_head _) (Nat.succ_le_succ low)

/-- The traversal of a stored tree finds each of its nodes once and in order,
up to the limit that is asked for, and then ends.  Going from successor to
successor passes the same nodes, reaches the head behind the last of them and
stays there. -/
theorem traversal_complete (stored : t.Stores m head tree)
    (counted : t.size m = .ok tree.addresses.length) (low : tree.height <= 128) :
    (forall limit, t.nodes m limit = .ok ((tree.addresses.take limit).map Except.ok)) ∧
      forall count, (t.first m >>= m.after count) = .ok (tree.addresses[count]?.getD head) := by
  have chain := stored.isChain_successor low
  constructor
  · intro limit
    rw [nodes, stored.finish, Except.ok_bind, stored.ends.left, Except.ok_bind, counted, Except.ok_bind,
      AddressTree.first, walk_eq stored.head_not_mem chain, Nat.min_comm,
      ← List.take_eq_take_min]
    rfl
  · intro count
    rw [stored.first_eq, Except.ok_bind, AddressTree.first]
    exact Memory.after_eq stored.ends.marked chain count

/-- The stored map is walked by its keys, not by the places of its nodes. -/
theorem traversal_complete_at_threeNodes :
    threeNodesMap.nodes threeNodes 2 = .ok [.ok 0x1060, .ok 0x1088] ∧
      (threeNodesMap.first threeNodes >>= threeNodes.after 3) = .ok 0x1010 :=
  have complete := traversal_complete threeNodes_stored (by decide +kernel) (by decide)
  ⟨complete.1 2, complete.2 3⟩

end Stores

end OrderedTree

end MemoryAtlas

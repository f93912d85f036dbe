import Mathlib.Data.List.Nodup
import Mathlib.Tactic.MkIffOfInductiveProp
import MemoryAtlas.Foreign.OrderedTree
import MemoryAtlas.Image.Snapshot
import MemoryAtlas.Proofs.Sequence

namespace MemoryAtlas

/-!
# Trees as memory stores them

A tree in memory is a control block, a head and nodes that point at one
another.  Here such an image is read as a tree of addresses: an inductive value
whose nodes are the addresses of the nodes in memory.  Whatever a walk through
memory does can then be proved by induction on that value, and the links in
memory are mentioned only where one step of the walk reads them.

The height of the tree is counted in nodes.  It bounds how far a walk goes down
and, from any node, how far it has to go up again.
-/

/-- A binary tree of addresses. -/
inductive AddressTree where
  | missing
  | node (left : AddressTree) (address : Address) (right : AddressTree)
deriving Repr, DecidableEq

namespace AddressTree

/-- The addresses in order: the left subtree, the node, the right subtree. -/
def addresses : AddressTree -> List Address
  | missing => []
  | node left address right => left.addresses ++ address :: right.addresses

/-- The number of nodes on the longest way down. -/
def height : AddressTree -> Nat
  | missing => 0
  | node left _ right => max left.height right.height + 1

/-- What a link to the tree holds.  A missing tree is linked to by the head. -/
def link (head : Address) : AddressTree -> Address
  | missing => head
  | node _ address _ => address

/-- The first node in order, or the head. -/
def first (head : Address) (tree : AddressTree) : Address :=
  tree.addresses.head?.getD head

/-- The last node in order, or the head. -/
def last (head : Address) (tree : AddressTree) : Address :=
  tree.addresses.getLast?.getD head

theorem link_mem_addresses (head : Address) {tree : AddressTree} (present : tree ≠ missing) :
    tree.link head ∈ tree.addresses := by
  cases tree with
  | missing => exact absurd rfl present
  | node left address right => exact List.mem_append_right _ List.mem_cons_self

/-- Only a missing tree has no first address. -/
theorem head?_addresses {tree : AddressTree} (present : tree ≠ missing) (head : Address) :
    tree.addresses.head? = some (tree.first head) := by
  unfold first
  cases listed : tree.addresses with
  | nil => exact absurd (listed ▸ link_mem_addresses head present) List.not_mem_nil
  | cons earlier rest => rfl

/-- Only a missing tree has the head for its first node. -/
theorem first_eq {tree : AddressTree} (present : tree ≠ missing) (head other : Address) :
    tree.first head = tree.first other := by
  have same := head?_addresses present head
  rw [head?_addresses present other] at same
  exact (Option.some.inj same).symm

/-- A node's first address is that of its left subtree, if it has one. -/
theorem first_node (head : Address) (left right : AddressTree) (address : Address) :
    (node left address right).first head = left.first address := by
  show (left.addresses ++ address :: right.addresses).head?.getD head = left.addresses.head?.getD address
  cases left.addresses with
  | nil => rfl
  | cons earlier rest => rfl

/-- The addresses of a node and of its subtrees all differ.  In particular the
links to two subtrees differ, unless both are missing. -/
theorem nodup_node {head address : Address} {left right : AddressTree}
    (distinct : (head :: (node left address right).addresses).Nodup) :
    address ≠ head ∧ (head :: left.addresses).Nodup ∧ (head :: right.addresses).Nodup ∧
      (left ≠ missing -> right.link head ≠ left.link head) := by
  rcases List.nodup_cons.mp distinct with ⟨headFree, listed⟩
  rcases List.nodup_append.mp listed with ⟨leftListed, rest, disjoint⟩
  rcases List.nodup_cons.mp rest with ⟨_, rightListed⟩
  refine ⟨?_, List.nodup_cons.mpr ⟨?_, leftListed⟩, List.nodup_cons.mpr ⟨?_, rightListed⟩, ?_⟩
  · rintro rfl
    exact headFree (List.mem_append_right _ List.mem_cons_self)
  · intro member
    exact headFree (List.mem_append_left _ member)
  · intro member
    exact headFree (List.mem_append_right _ (List.mem_cons_of_mem _ member))
  · intro leftPresent same
    have member := link_mem_addresses head leftPresent
    by_cases rightPresent : right = missing
    · subst rightPresent
      rw [← same] at member
      exact headFree (List.mem_append_left _ member)
    · exact disjoint _ member _ (List.mem_cons_of_mem _ (link_mem_addresses head rightPresent)) same.symm

end AddressTree

/-- What memory says about the node at an address. -/
@[mk_iff]
structure NodeAt (m : Memory) (address : Address) (marked : Bool) (left parent right : Address) :
    Prop where
  marked : m.isHead address = .ok marked
  left : m.leftOf address = .ok left
  parent : m.parentOf address = .ok parent
  right : m.rightOf address = .ok right

instance (m : Memory) (address : Address) (marked : Bool) (left parent right : Address) :
    Decidable (NodeAt m address marked left parent right) :=
  decidable_of_iff' _ (nodeAt_iff m address marked left parent right)

/-- Memory holds every node of the tree, each with the links that its place in
the tree asks for.  The node above the tree is `parent`. -/
def AddressTree.Linked (m : Memory) (head : Address) : Address -> AddressTree -> Prop
  | _, missing => True
  | parent, node left address right =>
      NodeAt m address false (left.link head) parent (right.link head) ∧
        left.Linked m head address ∧ right.Linked m head address

instance AddressTree.decidableLinked (m : Memory) (head : Address) :
    (parent : Address) -> (tree : AddressTree) -> Decidable (tree.Linked m head parent)
  | _, missing => isTrue trivial
  | _, node left address right =>
      have := decidableLinked m head address left
      have := decidableLinked m head address right
      inferInstanceAs (Decidable (_ ∧ _ ∧ _))

/-- Memory holds a tree below a control block.  The head has the first node,
the root and the last node for its links, and no node of the tree stands at the
place of another or of the head. -/
@[mk_iff]
structure OrderedTree.Stores (t : OrderedTree) (m : Memory) (head : Address) (tree : AddressTree) :
    Prop where
  finish : t.finish m = .ok head
  ends : NodeAt m head true (tree.first head) (tree.link head) (tree.last head)
  linked : tree.Linked m head head
  distinct : (head :: tree.addresses).Nodup

instance (t : OrderedTree) (m : Memory) (head : Address) (tree : AddressTree) :
    Decidable (t.Stores m head tree) :=
  decidable_of_iff' _ (OrderedTree.stores_iff t m head tree)

namespace OrderedTree.Stores

variable {t : OrderedTree} {m : Memory} {head : Address} {tree : AddressTree}

theorem head_not_mem (stored : t.Stores m head tree) : head ∉ tree.addresses :=
  (List.nodup_cons.mp stored.distinct).1

theorem first_eq (stored : t.Stores m head tree) : t.first m = .ok (tree.first head) := by
  rw [OrderedTree.first, stored.finish, Except.ok_bind]
  exact stored.ends.left

theorem root_eq (stored : t.Stores m head tree) : t.root m = .ok (tree.link head) := by
  rw [OrderedTree.root, stored.finish, Except.ok_bind]
  exact stored.ends.parent

end OrderedTree.Stores

/-! ## A stored map -/

/-- The bytes of one node of a map whose keys and values have four bytes. -/
def nodeBytes (left parent right mark key value : Nat) : List UInt8 :=
  toLittleEndian 8 left ++ toLittleEndian 8 parent ++ toLittleEndian 8 right ++
    toLittleEndian 4 (256 * mark) ++ toLittleEndian 4 key ++ toLittleEndian 8 value

/-- A memory with a control block, a head and three nodes.  The middle key in
order stands below the right link of the smallest, so that its successor is
found by climbing twice. -/
def threeNodes : Memory :=
  (Snapshot.ofRegion 0x1000 (List.toArray (toLittleEndian 8 0x1010 ++ toLittleEndian 8 3 ++
    nodeBytes 0x1060 0x1038 0x1038 1 0 0 ++
    nodeBytes 0x1060 0x1010 0x1010 0 5 50 ++
    nodeBytes 0x1010 0x1038 0x1088 0 0xFFFFFFFF 10 ++
    nodeBytes 0x1010 0x1060 0x1010 0 2 20))).memory

/-- The map in that memory, from signed keys to numbers. -/
def threeNodesMap : OrderedTree where
  base := 0x1000
  layout := .ofScalars ⟨4, .signed⟩ (some ⟨4, .unsigned⟩)

def threeNodesTree : AddressTree :=
  .node (.node .missing 0x1060 (.node .missing 0x1088 .missing)) 0x1038 .missing

theorem threeNodes_stored : threeNodesMap.Stores threeNodes 0x1010 threeNodesTree := by
  decide +kernel

end MemoryAtlas

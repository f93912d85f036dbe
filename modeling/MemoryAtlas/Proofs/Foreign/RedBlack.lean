import Mathlib.Algebra.Group.Nat.Defs
import Mathlib.Data.Fintype.Card
import MemoryAtlas.Proofs.Foreign.Search
import MemoryAtlas.Proofs.Foreign.Traversal

namespace MemoryAtlas

/-!
# Why no walk is cut off

Walks through a tree end after a fixed number of steps, and nothing in the code
counts nodes to see whether that is enough.  What makes it enough are the rules
by which the observed program colours its nodes, and that its addresses are
words of sixty-four bits.

Every way from the root down to a missing child has the same number of black
nodes.  Half of the nodes on the longest way are black, so a tree that is high
has many of them on every way, and a tree with many of them on every way has a
great many nodes.  Each node takes an address of its own and so does the head,
which leaves room for no more than sixty-four black nodes on a way.  The limit
on walks is twice that.
-/

/-- Whether memory gives a node the black colour. -/
def Memory.isBlack (m : Memory) (node : Address) : Bool :=
  m.colorOf node = .ok 1

namespace AddressTree

/-- The node at the top of a tree, if it has one. -/
def root? : AddressTree -> Option Address
  | missing => none
  | node _ address _ => some address

/-- The ways down: for each missing child the nodes from the root to it. -/
def ways : AddressTree -> List (List Address)
  | missing => [[]]
  | node left address right => (left.ways ++ right.ways).map (List.cons address)

/-- No red node has a red child. -/
def RedApart (m : Memory) : AddressTree -> Prop
  | missing => True
  | node left address right =>
      (m.colorOf address = .ok 0 -> forall child, child ∈ left.root?.toList ++ right.root?.toList ->
        m.colorOf child ≠ .ok 0) ∧
      left.RedApart m ∧ right.RedApart m

-- Only the listed nodes are looked at, here and below; the instance for finite
-- types would try every address there is.
instance decidableRedApart (m : Memory) : (tree : AddressTree) -> Decidable (tree.RedApart m)
  | missing => isTrue trivial
  | node left _ right =>
      have := List.decidableBAll (fun child => m.colorOf child ≠ .ok 0) (left.root?.toList ++ right.root?.toList)
      have := decidableRedApart m left
      have := decidableRedApart m right
      inferInstanceAs (Decidable (_ ∧ _ ∧ _))

/-- All ways down pass the same number of black nodes. -/
def EvenlyBlack (m : Memory) (tree : AddressTree) (count : Nat) : Prop :=
  forall way, way ∈ tree.ways -> way.countP m.isBlack = count

instance (m : Memory) (tree : AddressTree) (count : Nat) : Decidable (tree.EvenlyBlack m count) :=
  inferInstanceAs (Decidable (forall way, way ∈ tree.ways -> way.countP m.isBlack = count))

/-- Every node is red or black. -/
def Colored (m : Memory) (tree : AddressTree) : Prop :=
  forall node, node ∈ tree.addresses -> m.colorOf node = .ok 0 ∨ m.colorOf node = .ok 1

instance (m : Memory) (tree : AddressTree) : Decidable (tree.Colored m) :=
  List.decidableBAll (fun node => m.colorOf node = .ok 0 ∨ m.colorOf node = .ok 1) tree.addresses

/-- The colours that memory gives to the nodes of a tree follow the rules of
red-black trees. -/
structure RedBlack (m : Memory) (tree : AddressTree) : Prop where
  colored : tree.Colored m
  root_black : forall node, tree.root? = some node -> m.colorOf node = .ok 1
  red_apart : tree.RedApart m
  even : ∃ count, tree.EvenlyBlack m count

/-! ## Counting -/

theorem exists_way (tree : AddressTree) : ∃ way, way ∈ tree.ways := by
  induction tree with
  | missing => exact ⟨[], List.mem_singleton.mpr rfl⟩
  | node left address right leftHypothesis _ =>
      rcases leftHypothesis with ⟨way, listed⟩
      exact ⟨address :: way, List.mem_map.mpr ⟨way, List.mem_append_left _ listed, rfl⟩⟩

namespace EvenlyBlack

variable {m : Memory} {left right : AddressTree} {address : Address} {count : Nat}

/-- Below a black node there is one black node less on every way. -/
theorem of_black (black : m.isBlack address = true)
    (even : (node left address right).EvenlyBlack m count) :
    ∃ fewer, count = fewer + 1 ∧ left.EvenlyBlack m fewer ∧ right.EvenlyBlack m fewer := by
  have below : forall way, way ∈ left.ways ++ right.ways -> way.countP m.isBlack + 1 = count := by
    intro way listed
    rw [← even (address :: way) (List.mem_map.mpr ⟨way, listed, rfl⟩), List.countP_cons_of_pos black]
  rcases exists_way left with ⟨way, listed⟩
  refine ⟨way.countP m.isBlack, (below way (List.mem_append_left _ listed)).symm, ?_, ?_⟩
  · intro other member
    have here := below way (List.mem_append_left _ listed)
    have there := below other (List.mem_append_left _ member)
    omega
  · intro other member
    have here := below way (List.mem_append_left _ listed)
    have there := below other (List.mem_append_right _ member)
    omega

/-- Below any other node there are as many as before. -/
theorem of_not_black (other : m.isBlack address = false)
    (even : (node left address right).EvenlyBlack m count) :
    left.EvenlyBlack m count ∧ right.EvenlyBlack m count := by
  have below : forall way, way ∈ left.ways ++ right.ways -> way.countP m.isBlack = count := by
    intro way listed
    rw [← even (address :: way) (List.mem_map.mpr ⟨way, listed, rfl⟩),
      List.countP_cons_of_neg (Bool.eq_false_iff.mp other)]
  exact ⟨fun way listed => below way (List.mem_append_left _ listed),
    fun way listed => below way (List.mem_append_right _ listed)⟩

/-- Each black node on the ways doubles the number of missing children, of which
there is one more than there are nodes. -/
theorem two_pow_le {tree : AddressTree} (even : tree.EvenlyBlack m count) :
    2 ^ count <= tree.addresses.length + 1 := by
  induction tree generalizing count with
  | missing =>
      have none : 0 = count := even [] (List.mem_singleton.mpr rfl)
      rw [← none]
      exact Nat.le_refl 1
  | node left address right leftHypothesis rightHypothesis =>
      rw [addresses, List.length_append, List.length_cons]
      cases black : m.isBlack address with
      | true =>
          rcases even.of_black black with ⟨fewer, rfl, leftEven, rightEven⟩
          have onLeft := leftHypothesis leftEven
          have onRight := rightHypothesis rightEven
          rw [Nat.pow_succ]
          omega
      | false =>
          have onLeft := leftHypothesis (even.of_not_black black).1
          omega

/-- Red nodes stand apart, so at most every other node of a way is red, the
first one perhaps among them. -/
theorem height_le {tree : AddressTree} (even : tree.EvenlyBlack m count) (apart : tree.RedApart m)
    (colored : tree.Colored m) :
    tree.height <= 2 * count + 1 ∧
      ((forall node, tree.root? = some node -> m.colorOf node ≠ .ok 0) -> tree.height <= 2 * count) := by
  induction tree generalizing count with
  | missing => exact ⟨Nat.zero_le _, fun _ => Nat.zero_le _⟩
  | node left address right leftHypothesis rightHypothesis =>
      rcases apart with ⟨below, leftApart, rightApart⟩
      have leftColored := fun node member => colored node (List.mem_append_left _ member)
      have rightColored := fun node member =>
        colored node (List.mem_append_right _ (List.mem_cons_of_mem address member))
      rw [height]
      rcases colored address (List.mem_append_right _ List.mem_cons_self) with red | black
      · have notBlack : m.isBlack address = false := by
          rw [Memory.isBlack, red]
          rfl
        rcases even.of_not_black notBlack with ⟨leftEven, rightEven⟩
        have leftLow := (leftHypothesis leftEven leftApart leftColored).2
          (fun node top => below red node (List.mem_append_left _ (by simp [top])))
        have rightLow := (rightHypothesis rightEven rightApart rightColored).2
          (fun node top => below red node (List.mem_append_right _ (by simp [top])))
        exact ⟨by omega, fun other => absurd red (other address rfl)⟩
      · have isBlack : m.isBlack address = true := by
          rw [Memory.isBlack, black]
          rfl
        rcases even.of_black isBlack with ⟨fewer, rfl, leftEven, rightEven⟩
        have leftLow := (leftHypothesis leftEven leftApart leftColored).1
        have rightLow := (rightHypothesis rightEven rightApart rightColored).1
        exact ⟨by omega, fun _ => by omega⟩

end EvenlyBlack

/-- There are no more different addresses than words. -/
theorem length_le_of_nodup {addresses : List Address} (distinct : addresses.Nodup) :
    addresses.length <= 2 ^ 64 := by
  have finite := (distinct.map (fun _ _ => UInt64.toFin_inj.mp)).length_le_card
  rw [List.length_map, Fintype.card_fin] at finite
  exact finite

/-- A red-black tree beside a head is never higher than the limit on walks. -/
theorem RedBlack.height_le {m : Memory} {head : Address} {tree : AddressTree}
    (rules : tree.RedBlack m) (distinct : (head :: tree.addresses).Nodup) :
    tree.height <= descentLimit := by
  rcases rules.even with ⟨count, even⟩
  have few : count <= 64 := by
    have many := even.two_pow_le
    have room := length_le_of_nodup distinct
    rw [List.length_cons] at room
    exact (Nat.pow_le_pow_iff_right (by decide)).mp (Nat.le_trans many room)
  have low := (even.height_le rules.red_apart rules.colored).2 (fun node top red => by
    rw [rules.root_black node top] at red
    cases red)
  rw [descentLimit]
  omega

end AddressTree

namespace OrderedTree.Stores

variable {t : OrderedTree} {m : Memory} {head : Address} {tree : AddressTree}

/-- The limits on walks never show in a red-black tree: it is no higher than
they allow, every node has its successor, the traversal names nodes only, and
every key that is stored is found. -/
theorem redBlack_unlimited (stored : t.Stores m head tree) (rules : tree.RedBlack m) :
    tree.height <= 128 ∧
    m.successor head = .ok head ∧
    (forall place (within : place < tree.addresses.length),
      m.successor tree.addresses[place] = .ok (tree.addresses[place + 1]?.getD head)) ∧
    (forall size, t.size m = .ok size -> forall limit,
      t.nodes m limit = .ok ((tree.addresses.take (min size limit)).map Except.ok)) ∧
    forall keyOf, tree.Keyed t.layout m keyOf -> forall node, node ∈ tree.addresses ->
      t.find m (keyOf node) = .ok node := by
  have low := rules.height_le stored.distinct
  have chain := stored.isChain_successor low
  refine ⟨low, Memory.successor_head stored.ends.marked, ?_, ?_, ?_⟩
  · intro place within
    have step := List.isChain_iff_getElem.mp chain place (by simpa using within)
    rw [List.getElem_append_left within] at step
    rw [step, List.getElem_append]
    split
    · rename_i next
      rw [List.getElem?_eq_getElem next, Option.getD_some]
    · rename_i last
      rw [List.getElem?_eq_none (Nat.le_of_not_lt last), Option.getD_none, List.getElem_singleton]
  · intro size counted limit
    rw [nodes, stored.finish, Except.ok_bind, stored.ends.left, Except.ok_bind, counted, Except.ok_bind,
      AddressTree.first, walk_eq stored.head_not_mem chain]
    rfl
  · intro keyOf keyed node member
    rw [stored.find_eq low keyed, keyed.find?_eq member, Option.getD_some]

/-- The bytes of one node of a map whose keys and values have four bytes, its
colour given. -/
def coloredBytes (left parent right color mark key value : Nat) : List UInt8 :=
  toLittleEndian 8 left ++ toLittleEndian 8 parent ++ toLittleEndian 8 right ++
    toLittleEndian 4 (color + 256 * mark) ++ toLittleEndian 4 key ++ toLittleEndian 8 value

/-- A memory with a control block, a head, three black nodes and a red one below
the smaller child of the root. -/
def coloredNodes : Memory :=
  (Snapshot.ofRegion 0x1000 (List.toArray (toLittleEndian 8 0x1010 ++ toLittleEndian 8 4 ++
    coloredBytes 0x10B0 0x1038 0x1088 1 1 0 0 ++
    coloredBytes 0x1060 0x1010 0x1088 1 0 5 50 ++
    coloredBytes 0x10B0 0x1038 0x1010 1 0 2 20 ++
    coloredBytes 0x1010 0x1038 0x1010 1 0 9 90 ++
    coloredBytes 0x1010 0x1060 0x1010 0 0 1 10))).memory

def coloredTree : AddressTree :=
  .node (.node (.node .missing 0x10B0 .missing) 0x1060 .missing) 0x1038 (.node .missing 0x1088 .missing)

/-- Both ways past the red node, and the three others, pass two black nodes. -/
theorem redBlack_unlimited_at_coloredNodes :
    coloredTree.RedBlack coloredNodes ∧ coloredNodes.successor 0x10B0 = .ok 0x1060 ∧
      threeNodesMap.nodes coloredNodes 3 = .ok [.ok 0x10B0, .ok 0x1060, .ok 0x1038] := by
  have stored : threeNodesMap.Stores coloredNodes 0x1010 coloredTree := by decide +kernel
  have rules : coloredTree.RedBlack coloredNodes :=
    { colored := by decide +kernel
      root_black := by
        rintro _ ⟨⟩
        decide +kernel
      red_apart := by decide +kernel
      even := ⟨2, by decide +kernel⟩ }
  rcases redBlack_unlimited stored rules with ⟨-, -, next, listed, -⟩
  exact ⟨rules, next 0 (by decide), listed 4 (by decide +kernel) 3⟩

end OrderedTree.Stores

end MemoryAtlas

import MemoryAtlas.Proofs.Foreign.AddressTree

namespace MemoryAtlas

/-!
# Searching a tree for a key

A search needs less of a tree than a walk does: the links downwards, and keys
that increase in order.  At a node the keys on one side are all smaller and
those on the other side all larger than the node's own, so the side that the
search leaves out cannot hold the key.

A search that is cut off answers like one that misses.  In a tree that is no
higher than the limit on descents this does no harm: by the time the steps are
used up, the search has left the tree.
-/

/-- The keys of all nodes can be read, and they increase in order. -/
@[mk_iff]
structure AddressTree.Keyed (layout : NodeLayout) (m : Memory) (keyOf : Address -> Int)
    (tree : AddressTree) : Prop where
  readable : forall node, node ∈ tree.addresses -> layout.readKey m node = .ok (keyOf node)
  increasing : tree.addresses.Pairwise (fun node later => keyOf node < keyOf later)

-- Only the listed nodes are looked at; the instance for finite types would try
-- every address there is.
instance (layout : NodeLayout) (m : Memory) (keyOf : Address -> Int) (tree : AddressTree) :
    Decidable (tree.Keyed layout m keyOf) :=
  have := List.decidableBAll (fun node => layout.readKey m node = .ok (keyOf node)) tree.addresses
  decidable_of_iff' _ (AddressTree.keyed_iff layout m keyOf tree)

namespace AddressTree.Keyed

variable {layout : NodeLayout} {m : Memory} {keyOf : Address -> Int} {lower upper tree : AddressTree}
  {address : Address}

theorem readKey (keyed : (node lower address upper).Keyed layout m keyOf) :
    layout.readKey m address = .ok (keyOf address) :=
  keyed.readable address (List.mem_append_right _ List.mem_cons_self)

theorem left (keyed : (node lower address upper).Keyed layout m keyOf) :
    lower.Keyed layout m keyOf where
  readable := fun earlier member => keyed.readable earlier (List.mem_append_left _ member)
  increasing := (List.pairwise_append.mp keyed.increasing).1

theorem right (keyed : (node lower address upper).Keyed layout m keyOf) :
    upper.Keyed layout m keyOf where
  readable := fun later member =>
    keyed.readable later (List.mem_append_right _ (List.mem_cons_of_mem _ member))
  increasing := (List.pairwise_cons.mp (List.pairwise_append.mp keyed.increasing).2.1).2

theorem lt_of_mem_left (keyed : (node lower address upper).Keyed layout m keyOf) {earlier : Address}
    (member : earlier ∈ lower.addresses) : keyOf earlier < keyOf address :=
  (List.pairwise_append.mp keyed.increasing).2.2 earlier member address List.mem_cons_self

theorem lt_of_mem_right (keyed : (node lower address upper).Keyed layout m keyOf) {later : Address}
    (member : later ∈ upper.addresses) : keyOf address < keyOf later :=
  (List.pairwise_cons.mp (List.pairwise_append.mp keyed.increasing).2.1).1 later member

/-- A key belongs to one node at most. -/
theorem unique (keyed : tree.Keyed layout m keyOf) {one other : Address}
    (oneMember : one ∈ tree.addresses) (otherMember : other ∈ tree.addresses)
    (same : keyOf one = keyOf other) : one = other := by
  have distinct : (tree.addresses.map keyOf).Nodup :=
    List.pairwise_map.mpr (keyed.increasing.imp Int.ne_of_lt)
  exact List.inj_on_of_nodup_map distinct oneMember otherMember same

/-- Looking for the key of a node finds that node. -/
theorem find?_eq (keyed : tree.Keyed layout m keyOf) {address : Address}
    (member : address ∈ tree.addresses) :
    tree.addresses.find? (fun node => keyOf node = keyOf address) = some address := by
  cases found : tree.addresses.find? (fun node => keyOf node = keyOf address) with
  | none => exact absurd (decide_eq_true rfl) (List.find?_eq_none.mp found address member)
  | some other =>
      have same : keyOf other = keyOf address := by
        simpa using List.find?_some found
      rw [keyed.unique (List.mem_of_find?_eq_some found) member same]

end AddressTree.Keyed

namespace OrderedTree

variable {t : OrderedTree} {m : Memory} {head : Address} {tree : AddressTree} {key : Int}

/-! ## Single steps -/

theorem search_head (fuel : Nat) : t.search m key head fuel head = .ok head := by
  cases fuel with
  | zero => rfl
  | succ fuel => rw [search, if_pos rfl]

theorem search_found {node : Address} {fuel : Nat} (inner : node ≠ head)
    (found : t.layout.readKey m node = .ok key) :
    t.search m key head (fuel + 1) node = .ok node := by
  rw [search, if_neg inner, found, Except.ok_bind, if_pos rfl]
  rfl

theorem search_left {node left : Address} {found : Int} {fuel : Nat} (inner : node ≠ head)
    (read : t.layout.readKey m node = .ok found) (smaller : key < found)
    (below : m.leftOf node = .ok left) :
    t.search m key head (fuel + 1) node = t.search m key head fuel left := by
  rw [search, if_neg inner, read, Except.ok_bind, if_neg (Int.ne_of_gt smaller), if_pos smaller,
    below, Except.ok_bind]

theorem search_right {node right : Address} {found : Int} {fuel : Nat} (inner : node ≠ head)
    (read : t.layout.readKey m node = .ok found) (larger : found < key)
    (below : m.rightOf node = .ok right) :
    t.search m key head (fuel + 1) node = t.search m key head fuel right := by
  rw [search, if_neg inner, read, Except.ok_bind, if_neg (Int.ne_of_lt larger),
    if_neg (Int.lt_asymm larger), below, Except.ok_bind]

/-! ## Trees -/

/-- No key is found among nodes that all have other keys. -/
theorem find?_key_eq_none {nodes : List Address} {keyOf : Address -> Int}
    (others : forall node, node ∈ nodes -> keyOf node ≠ key) :
    nodes.find? (fun node => keyOf node = key) = none := by
  rw [List.find?_eq_none]
  intro node member
  rw [decide_eq_true_iff]
  exact others node member

/-- A search in a tree finds the first node in order that has the key. -/
theorem search_eq {parent : Address} {keyOf : Address -> Int} {fuel : Nat}
    (linked : tree.Linked m head parent) (distinct : (head :: tree.addresses).Nodup)
    (keyed : tree.Keyed t.layout m keyOf) (low : tree.height <= fuel) :
    t.search m key head fuel (tree.link head) =
      .ok ((tree.addresses.find? (fun node => keyOf node = key)).getD head) := by
  induction tree generalizing parent fuel with
  | missing => exact search_head fuel
  | node left address right leftHypothesis rightHypothesis =>
      rcases linked with ⟨here, leftLinked, rightLinked⟩
      rcases AddressTree.nodup_node distinct with ⟨inner, leftDistinct, rightDistinct, _⟩
      rw [AddressTree.height] at low
      rcases Nat.exists_eq_add_of_le' (Nat.le_of_add_left_le low) with ⟨steps, rfl⟩
      -- Up to the node's own key nothing stands to the left.
      have leftNothing : keyOf address <= key ->
          left.addresses.find? (fun node => keyOf node = key) = none := by
        intro reached
        apply find?_key_eq_none
        intro earlier member
        have := keyed.lt_of_mem_left member
        omega
      rw [AddressTree.link, AddressTree.addresses, List.find?_append]
      rcases Int.lt_trichotomy key (keyOf address) with smaller | same | larger
      · have nothing : (address :: right.addresses).find? (fun node => keyOf node = key) = none := by
          apply find?_key_eq_none
          intro later member
          rcases List.mem_cons.mp member with rfl | member
          · omega
          · have := keyed.lt_of_mem_right member
            omega
        rw [search_left inner keyed.readKey smaller here.left, nothing, Option.or_none]
        exact leftHypothesis leftLinked leftDistinct keyed.left (by omega)
      · have found : decide (keyOf address = key) = true := decide_eq_true same.symm
        rw [search_found inner (same ▸ keyed.readKey), leftNothing (by omega), Option.none_or,
          List.find?_cons, found]
        rfl
      · have different : decide (keyOf address = key) = false := decide_eq_false (by omega)
        rw [search_right inner keyed.readKey larger here.right, leftNothing (by omega), Option.none_or,
          List.find?_cons, different]
        exact rightHypothesis rightLinked rightDistinct keyed.right (by omega)

namespace Stores

variable {keyOf : Address -> Int}

theorem find_eq (stored : t.Stores m head tree) (low : tree.height <= descentLimit)
    (keyed : tree.Keyed t.layout m keyOf) (key : Int) :
    t.find m key = .ok ((tree.addresses.find? (fun node => keyOf node = key)).getD head) := by
  rw [find, stored.finish, Except.ok_bind, stored.root_eq, Except.ok_bind]
  exact search_eq stored.linked stored.distinct keyed low

theorem contains_eq (stored : t.Stores m head tree) {found : Address} (result : t.find m key = .ok found) :
    t.contains m key = .ok (found != head) := by
  rw [contains, result, Except.ok_bind, stored.finish]
  rfl

theorem valueAddressOf_eq (stored : t.Stores m head tree) {found : Address}
    (result : t.find m key = .ok found) :
    t.valueAddressOf m key = .ok (if found = head then none else t.layout.valueAddress found) := by
  rw [valueAddressOf, result, Except.ok_bind, stored.finish, Except.ok_bind]
  split <;> rfl

/-- Searching a stored tree answers for any key whatever.  If a node has the
key, it is the only one, and the search finds it; if none has, the search ends
at the head. -/
theorem search_complete (stored : t.Stores m head tree) (low : tree.height <= 128)
    (keyed : tree.Keyed t.layout m keyOf) (key : Int) :
    (forall node, node ∈ tree.addresses -> keyOf node = key ->
      (forall other, other ∈ tree.addresses -> keyOf other = key -> other = node) ∧
        t.find m key = .ok node ∧ t.contains m key = .ok true ∧
        t.valueAddressOf m key = .ok (t.layout.valueOffset.map node.shift)) ∧
      ((forall node, node ∈ tree.addresses -> keyOf node ≠ key) ->
        t.find m key = .ok head ∧ t.contains m key = .ok false ∧ t.valueAddressOf m key = .ok none) := by
  have answer := stored.find_eq low keyed key
  constructor
  · rintro node member rfl
    rw [keyed.find?_eq member, Option.getD_some] at answer
    have inner : node ≠ head := by
      rintro rfl
      exact stored.head_not_mem member
    refine ⟨fun other listed same => keyed.unique listed member same, answer, ?_, ?_⟩
    · rw [stored.contains_eq answer, bne_iff_ne.mpr inner]
    · rw [stored.valueAddressOf_eq answer, if_neg inner]
      rfl
  · intro others
    rw [find?_key_eq_none others, Option.getD_none] at answer
    refine ⟨answer, ?_, ?_⟩
    · rw [stored.contains_eq answer, bne_self_eq_false]
    · rw [stored.valueAddressOf_eq answer, if_pos rfl]

/-- The keys of the stored map. -/
def threeNodesKey (node : Address) : Int :=
  if node = 0x1060 then -1 else if node = 0x1088 then 2 else 5

/-- The smallest key of the stored map is read as a negative number. -/
theorem search_complete_at_threeNodes :
    threeNodesMap.find threeNodes (-1) = .ok 0x1060 ∧
      threeNodesMap.valueAddressOf threeNodes (-1) = .ok (some 0x1080) ∧
      threeNodesMap.contains threeNodes 3 = .ok false := by
  have keyed : threeNodesTree.Keyed threeNodesMap.layout threeNodes threeNodesKey := by decide +kernel
  have complete := search_complete threeNodes_stored (by decide) keyed
  have others : forall node, node ∈ threeNodesTree.addresses -> threeNodesKey node ≠ 3 := by
    simp [threeNodesTree, AddressTree.addresses, threeNodesKey]
  rcases (complete (-1)).1 0x1060 (by decide) (by decide) with ⟨_, found, _, value⟩
  rcases (complete 3).2 others with ⟨_, missed, _⟩
  exact ⟨found, value, missed⟩

end Stores

end OrderedTree

end MemoryAtlas

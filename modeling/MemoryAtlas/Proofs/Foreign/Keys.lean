import MemoryAtlas.Proofs.Foreign.Search
import MemoryAtlas.Proofs.Types.Integers

namespace MemoryAtlas

/-!
# Keys as numbers

The nodes of a tree store their keys as bytes, and a search compares numbers.  That the
search keeps to the order in which the observed program has put the keys rests on
decoding alone: every integer that a scalar has room for is decoded from its stored
form, no two strings of bytes stand for the same integer, and no string stands for one
out of range.  So a search goes left of a node exactly for the keys that are smaller
than the integer that the node stores, and right exactly for the larger ones.
-/

namespace NodeLayout

/-- The node stores an integer as its key. -/
structure StoresKey (layout : NodeLayout) (m : Memory) (node : Address) (key : Int) : Prop where
  inRange : layout.key.Represents key
  stored : m.read (layout.keyAddress node) layout.key.width = .ok (twosComplement layout.key.width key)

variable {layout : NodeLayout} {m : Memory} {node : Address} {key : Int}

/-- The key that is read is the integer that is stored. -/
theorem readKey_eq_ok_iff (positive : 0 < layout.key.width) (narrow : layout.key.width ≤ 8) :
    layout.readKey m node = .ok key <-> layout.StoresKey m node key := by
  rw [readKey]
  constructor
  · intro read
    cases answered : m.read (layout.keyAddress node) layout.key.width with
    | error fault =>
        rw [answered] at read
        cases read
    | ok bytes =>
        rw [answered] at read
        have decoded := (Scalar.decode_eq_iff positive narrow (m.length_read answered)).mp (Except.ok.inj read)
        exact ⟨decoded.1, decoded.2 ▸ answered⟩
  · rintro ⟨inRange, stored⟩
    rw [stored]
    have decoded := (Scalar.decode_eq_iff positive narrow (length_twosComplement _ key)).mpr ⟨inRange, rfl⟩
    exact congrArg Except.ok decoded

end NodeLayout

namespace OrderedTree

variable {t : OrderedTree} {m : Memory} {node : Address} {stored : Int}

/-- Where a search goes at a node depends on the order of the integers. -/
theorem search_at_stored (positive : 0 < t.layout.key.width) (narrow : t.layout.key.width ≤ 8)
    (stores : t.layout.StoresKey m node stored) (key : Int) {head : Address} (inner : node ≠ head)
    (fuel : Nat) :
    t.search m key head (fuel + 1) node =
      if key < stored then m.leftOf node >>= t.search m key head fuel
      else if stored < key then m.rightOf node >>= t.search m key head fuel
      else .ok node := by
  have read := (NodeLayout.readKey_eq_ok_iff positive narrow).mpr stores
  rw [search, if_neg inner, read, Except.ok_bind]
  rcases Int.lt_trichotomy key stored with smaller | same | larger
  · rw [if_neg (Int.ne_of_gt smaller), if_pos smaller, if_pos smaller]
  · subst same
    rw [if_pos rfl, if_neg (Int.lt_irrefl key), if_neg (Int.lt_irrefl key)]
    rfl
  · rw [if_neg (Int.ne_of_lt larger), if_neg (Int.lt_asymm larger), if_neg (Int.lt_asymm larger),
      if_pos larger]

end OrderedTree

namespace Scalar

/-- Decoding inverts storing.  For a scalar of at most a word, every integer that it has
room for is decoded from its stored form, and every string of its width is the stored
form of what it is decoded to, which the scalar has room for.  No two strings stand for
the same integer.  Signed ones are decoded as if they were moved to the top of a word
and back.  In a tree with keys of this scalar the key that is read of a node is the
integer that the node stores, and a search goes by the order of these integers. -/
theorem decode_inverts_storing {s : Scalar} (positive : 1 ≤ s.width) (narrow : s.width ≤ 8) :
    (forall value, s.Represents value -> s.decode (twosComplement s.width value) = value) ∧
    (forall bytes, bytes.length = s.width ->
      s.Represents (s.decode bytes) ∧ twosComplement s.width (s.decode bytes) = bytes) ∧
    (forall bytes others, bytes.length = s.width -> others.length = s.width ->
      s.decode bytes = s.decode others -> bytes = others) ∧
    (s.isSigned = true -> forall bytes, bytes.length = s.width ->
      s.decode bytes = widened s.width (littleEndian bytes)) ∧
    (forall (t : OrderedTree) (m : Memory) (node : Address) (stored : Int), t.layout.key = s ->
      (t.layout.readKey m node = .ok stored <-> t.layout.StoresKey m node stored) ∧
      (t.layout.StoresKey m node stored -> forall key head fuel, node ≠ head ->
        t.search m key head (fuel + 1) node =
          if key < stored then m.leftOf node >>= t.search m key head fuel
          else if stored < key then m.rightOf node >>= t.search m key head fuel
          else .ok node)) := by
  have back : forall bytes, bytes.length = s.width ->
      s.Represents (s.decode bytes) ∧ twosComplement s.width (s.decode bytes) = bytes :=
    fun bytes length => (decode_eq_iff positive narrow length).mp rfl
  refine ⟨fun value inRange => ?_, back, fun bytes others length length' same => ?_,
    fun signed bytes length => ?_, fun t m node stored keys => ?_⟩
  · exact (decode_eq_iff positive narrow (length_twosComplement _ value)).mpr ⟨inRange, rfl⟩
  · rw [← (back bytes length).2, same, (back others length').2]
  · have fits := littleEndian_lt bytes
    rw [length] at fits
    rw [decode_of_length positive narrow length, if_pos signed, widened_eq_asSigned positive narrow fits]
  · subst keys
    exact ⟨NodeLayout.readKey_eq_ok_iff positive narrow,
      fun stores key head fuel inner => OrderedTree.search_at_stored positive narrow stores key inner fuel⟩

/-- The least integer of three bytes, and a search that passes a node with a negative
key. -/
theorem decode_inverts_storing_at_threeNodes :
    (⟨3, .signed⟩ : Scalar).Represents (-0x800000) ∧
    (⟨3, .signed⟩ : Scalar).decode (twosComplement 3 (-0x800000)) = -0x800000 ∧
    threeNodesMap.layout.StoresKey threeNodes 0x1060 (-1) ∧
    threeNodesMap.search threeNodes 2 0x1010 5 0x1060 =
      threeNodes.rightOf 0x1060 >>= threeNodesMap.search threeNodes 2 0x1010 4 := by
  have inRange : (⟨3, .signed⟩ : Scalar).Represents (-0x800000) := by decide
  have stores : threeNodesMap.layout.StoresKey threeNodes 0x1060 (-1) := ⟨by decide, by decide +kernel⟩
  have narrowest := decode_inverts_storing (s := ⟨3, .signed⟩) (by decide) (by decide)
  have keys := decode_inverts_storing (s := ⟨4, .signed⟩) (by decide) (by decide)
  refine ⟨inRange, narrowest.1 _ inRange, stores, ?_⟩
  exact ((keys.2.2.2.2 threeNodesMap threeNodes 0x1060 (-1) rfl).2 stores 2 0x1010 4 (by decide))

end Scalar
end MemoryAtlas

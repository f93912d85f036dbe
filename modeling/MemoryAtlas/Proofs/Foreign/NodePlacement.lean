import Mathlib.Data.Nat.Log
import Mathlib.Order.Bounds.Basic
import MemoryAtlas.Foreign.OrderedTree
import MemoryAtlas.Proofs.Layout.Runs

namespace MemoryAtlas

/-!
# Where key and value of a node stand

A node has a head, and behind it the key and the value as one pair.  The pair begins
where the stricter of the two alignments allows it, and the value follows the key at
the next place that its own alignment allows.  An alignment counts as the least power
of two that is not below it.

The layout of a node says the same in other terms.  It looks the place of the key up
in a table, and it rounds the end of the key as counted from the start of the node,
where the rule counts from the start of the pair.  Both agree because the pair begins
at a multiple of the value's alignment: of two powers of two the lower one divides the
higher.

Only alignments of at most eight bytes are in the tables.  A catalog has no others,
neither for the types that are known without a declaration nor for declared ones.

Sizes and offsets are exact integers here, so the sums never wrap.  The statements
are therefore about keys whose end, rounded up, is a word: with a larger key the
program adds and rounds modulo `2^64` and places the value elsewhere.
-/

/-- The least power of two that is not below a number. -/
def leastPower (n : Nat) : Nat :=
  2 ^ Nat.clog 2 n

theorem leastPower_isLeast (n : Nat) : IsLeast {power | (∃ k, power = 2 ^ k) ∧ n ≤ power} (leastPower n) := by
  refine ⟨⟨⟨_, rfl⟩, Nat.le_pow_clog (by decide) n⟩, ?_⟩
  rintro power ⟨⟨k, rfl⟩, above⟩
  exact Nat.pow_le_pow_right (by decide) (Nat.clog_le_of_le_pow above)

theorem leastPower_pos (n : Nat) : 0 < leastPower n :=
  Nat.two_pow_pos _

/-- The stricter alignment is a multiple of the other. -/
theorem leastPower_dvd {n m : Nat} (le : n ≤ m) : leastPower n ∣ leastPower m :=
  Nat.pow_dvd_pow 2 (Nat.clog_mono_right 2 le)

/-! ## Rounding up -/

section RoundUp

variable {unit : Nat} (positive : 0 < unit) (n : Nat)
include positive

theorem le_roundUp : n ≤ roundUp n unit := by
  have split := Nat.div_add_mod (n + unit - 1) unit
  have below := Nat.mod_lt (n + unit - 1) positive
  rw [roundUp, Nat.mul_comm]
  omega

theorem roundUp_lt : roundUp n unit < n + unit := by
  have fits := Nat.div_mul_le_self (n + unit - 1) unit
  rw [roundUp]
  omega

theorem roundUp_isLeast : IsLeast {m | unit ∣ m ∧ n ≤ m} (roundUp n unit) := by
  refine ⟨⟨Nat.dvd_mul_left unit _, le_roundUp positive n⟩, ?_⟩
  rintro m ⟨⟨k, rfl⟩, above⟩
  -- Two multiples of the unit that are less than one unit apart are in order.
  have near : roundUp n unit < unit * (k + 1) := by
    have := roundUp_lt positive n
    rw [Nat.mul_succ]
    omega
  rw [roundUp, Nat.mul_comm] at near ⊢
  exact Nat.mul_le_mul_left unit (Nat.le_of_lt_succ (Nat.lt_of_mul_lt_mul_left near))

/-- Behind a multiple of the unit rounding starts anew. -/
theorem roundUp_add {start : Nat} (aligned : unit ∣ start) :
    roundUp (start + n) unit = start + roundUp n unit := by
  rcases aligned with ⟨k, rfl⟩
  have room : unit * k + n + unit - 1 = n + unit - 1 + unit * k := by omega
  rw [roundUp, roundUp, room, Nat.add_mul_div_left _ _ positive, Nat.add_mul, Nat.mul_comm k, Nat.add_comm]

end RoundUp

/-! ## The tables -/

/-- The part of a node before its key: three pointers, the colour and the mark. -/
def nodeHeadSize : Nat := 0x1A

theorem valueAlignment_eq_leastPower : forall alignment, alignment ≤ 8 ->
    valueAlignment alignment = leastPower alignment := by
  decide

theorem keyOffset_eq_roundUp : forall alignment, alignment ≤ 8 ->
    keyOffset alignment = roundUp nodeHeadSize (leastPower alignment) := by
  decide

/-! ## Pairs -/

namespace NodeLayout

/-- The alignment of a pair is the stricter one.  Without a value it is that of the key. -/
def pairAlignment (keyAlignment : Nat) : Option (Nat × Nat) -> Nat
  | none => keyAlignment
  | some (_, alignment) => max keyAlignment alignment

/-- A value stands at an offset as the second part of a pair. -/
structure PlacesValue (layout : NodeLayout) (alignment offset : Nat) : Prop where
  placed : layout.valueOffset = some offset
  /-- Counted from the start of the pair. -/
  behindKey : ∃ room, IsLeast {room | leastPower alignment ∣ room ∧ layout.keySize ≤ room} room ∧
    offset = layout.keyOffset + room
  outsideHead : nodeHeadSize ≤ offset
  outsideKey : layout.keyOffset + layout.keySize ≤ offset
  aligned : leastPower alignment ∣ offset
  near : offset < layout.keyOffset + layout.keySize + leastPower alignment

/-- A key and perhaps a value stand as one pair behind the head of a node.  The value is
given by its size and alignment. -/
structure PlacesPair (layout : NodeLayout) (keySize keyAlignment : Nat) (value : Option (Nat × Nat)) :
    Prop where
  keySize_eq : layout.keySize = keySize
  key : IsLeast {offset | leastPower (pairAlignment keyAlignment value) ∣ offset ∧ nodeHeadSize ≤ offset}
    layout.keyOffset
  noValue : value = none -> layout.valueOffset = none ∧ layout.valueSize = 0
  value : forall size alignment, value = some (size, alignment) ->
    layout.valueSize = size ∧ ∃ offset, layout.PlacesValue alignment offset

section Pair

variable (key : Scalar) (keySize : Nat) {keyAlignment : Nat} {value : Option (Nat × Nat)}

theorem keyOffset_of : (of key keySize keyAlignment value).keyOffset =
    MemoryAtlas.keyOffset (pairAlignment keyAlignment value) := by
  cases value with
  | none => simp [of, pairAlignment, MemoryAtlas.keyOffset, alignmentRow]
  | some v => rfl

theorem pairAlignment_le (keyAligned : keyAlignment ≤ 8) (valueAligned : forall v, value = some v -> v.2 ≤ 8) :
    pairAlignment keyAlignment value ≤ 8 := by
  cases value with
  | none => exact keyAligned
  | some v => exact Nat.max_le.mpr ⟨keyAligned, valueAligned v rfl⟩

theorem keyOffset_of_isLeast (aligned : pairAlignment keyAlignment value ≤ 8) :
    IsLeast {offset | leastPower (pairAlignment keyAlignment value) ∣ offset ∧ nodeHeadSize ≤ offset}
      (of key keySize keyAlignment value).keyOffset := by
  rw [keyOffset_of, keyOffset_eq_roundUp _ aligned]
  exact roundUp_isLeast (leastPower_pos _) _

/-- The end of the key, rounded up, is where the value stands in the pair. -/
theorem of_placesValue {size alignment : Nat} (aligned : max keyAlignment alignment ≤ 8) :
    (of key keySize keyAlignment (some (size, alignment))).PlacesValue alignment
      ((of key keySize keyAlignment (some (size, alignment))).keyOffset +
        roundUp keySize (leastPower alignment)) := by
  have ⟨⟨pairAligned, outsideHead⟩, _⟩ :=
    @keyOffset_of_isLeast key keySize keyAlignment (some (size, alignment)) aligned
  have begins : leastPower alignment ∣ (of key keySize keyAlignment (some (size, alignment))).keyOffset :=
    Nat.dvd_trans (leastPower_dvd (Nat.le_max_right keyAlignment alignment)) pairAligned
  have least := roundUp_isLeast (leastPower_pos alignment) keySize
  have near := roundUp_lt (leastPower_pos alignment) keySize
  refine ⟨?_, ⟨_, least, rfl⟩, ?_, ?_, Nat.dvd_add begins least.1.1, ?_⟩
  · show some (roundUp (_ + keySize) (valueAlignment alignment)) = _
    rw [valueAlignment_eq_leastPower _ ((Nat.le_max_right _ _).trans aligned)]
    exact congrArg some (roundUp_add (leastPower_pos alignment) keySize begins)
  · exact Nat.le_add_right_of_le outsideHead
  · exact Nat.add_le_add_left least.1.2 _
  · rw [Nat.add_assoc]
    exact Nat.add_lt_add_left near _

theorem of_placesPair (keyAligned : keyAlignment ≤ 8) (valueAligned : forall v, value = some v -> v.2 ≤ 8) :
    (of key keySize keyAlignment value).PlacesPair keySize keyAlignment value := by
  have aligned := pairAlignment_le keyAligned valueAligned
  refine ⟨rfl, keyOffset_of_isLeast key keySize aligned, ?_, ?_⟩
  · rintro rfl
    exact ⟨rfl, rfl⟩
  · rintro size alignment rfl
    exact ⟨rfl, _, of_placesValue key keySize aligned⟩

end Pair

end NodeLayout

/-! ## Types of an accepted schema -/

/-- The scalars among the types are the standard ones. -/
theorem TypeNames.ofName?_of_resolve {names : TypeNames} {name : String} {s : Scalar}
    (resolved : names.resolve name = some (.scalar s)) : StandardType.ofName? name = some (.scalar s) := by
  unfold resolve at resolved
  split at resolved
  · rename_i other standard
    cases resolved
    exact standard
  · cases resolved
  · cases resolved
  · cases resolved
  · repeat' split at resolved
    all_goals cases resolved

namespace Schema

theorem checkAlignments_ok {alignments checked : Table Nat} (accepted : checkAlignments alignments = .ok checked) :
    forall entry, entry ∈ checked -> 1 ≤ entry.2 ∧ entry.2 ≤ 8 := by
  unfold checkAlignments at accepted
  split at accepted
  · cases accepted
  · rename_i none
    cases accepted
    intro entry member
    have bounds := List.find?_eq_none.mp none entry member
    simp only [Bool.or_eq_true, decide_eq_true_eq] at bounds
    omega

/-- Every type of an accepted schema has an alignment that the tables know. -/
theorem alignmentOf_bounds {host : Host} {document : Document} {c : Catalog}
    (loaded : load host document = .ok c) (name : String) :
    1 ≤ c.alignmentOf name ∧ c.alignmentOf name ≤ 8 := by
  rcases load_stages loaded with ⟨stages⟩
  have declared : 1 ≤ (c.alignments.find? name).getD Catalog.standingAlignment ∧
      (c.alignments.find? name).getD Catalog.standingAlignment ≤ 8 := by
    cases found : c.alignments.find? name with
    | none => decide
    | some alignment => exact checkAlignments_ok stages.aligned _ (Table.mem_of_find? found)
  unfold Catalog.alignmentOf
  split
  · rename_i s resolved
    exact StandardType.width_of_ofName? (TypeNames.ofName?_of_resolve resolved)
  · decide
  · decide
  · exact declared

end Schema

namespace NodeLayout

/-- A layout for named types is the layout for their sizes and alignments. -/
theorem ofTypes_eq_some_iff {c : Catalog} {keyType : String} {valueType : Option String} {layout : NodeLayout} :
    ofTypes c keyType valueType = some layout <->
      ∃ (key : Catalog.ValueShape) (value : Option Catalog.ValueShape),
        c.valueShape keyType = some key ∧ valueType.map c.valueShape = value.map some ∧
        of (key.kind.scalar?.getD ⟨min (max key.size 1) 8, .unsigned⟩) key.size key.alignment
          (value.map fun v => (v.size, v.alignment)) = layout := by
  unfold ofTypes
  cases keyShape : c.valueShape keyType with
  | none => simp
  | some key =>
      cases valueType with
      | none => simp [eq_comm]
      | some name =>
          cases valueShape : c.valueShape name with
          | none => simp [valueShape, eq_comm]
          | some shape => simp [valueShape, eq_comm]

/-- There is a layout unless a type is unknown. -/
theorem ofTypes_eq_none_iff {c : Catalog} {keyType : String} {valueType : Option String} :
    ofTypes c keyType valueType = none <->
      c.resolve keyType = none ∨ ∃ name, valueType = some name ∧ c.resolve name = none := by
  unfold ofTypes Catalog.valueShape
  cases c.resolve keyType with
  | none => simp
  | some kind =>
      cases valueType with
      | none => simp
      | some name => cases resolved : c.resolve name <;> simp [resolved]

theorem alignment_of_valueShape {c : Catalog} {name : String} {shape : Catalog.ValueShape}
    (known : c.valueShape name = some shape) : shape.alignment = c.alignmentOf name := by
  rcases Option.map_eq_some_iff.mp known with ⟨kind, -, rfl⟩
  rfl

/-- Key and value of a node stand as one pair behind its head: for all sizes and all
alignments in the tables, and for all types of an accepted schema.  A layout fails to be
found only for an unknown type. -/
theorem placed_as_pair :
    (forall key keySize keyAlignment value, keyAlignment ≤ 8 -> (forall v, value = some v -> v.2 ≤ 8) ->
      (of key keySize keyAlignment value).PlacesPair keySize keyAlignment value) ∧
    forall host document c, Schema.load host document = .ok c -> forall keyType valueType,
      (ofTypes c keyType valueType = none <->
        c.resolve keyType = none ∨ ∃ name, valueType = some name ∧ c.resolve name = none) ∧
      forall layout, ofTypes c keyType valueType = some layout ->
        ∃ (key : Catalog.ValueShape) (value : Option Catalog.ValueShape),
          c.valueShape keyType = some key ∧ valueType.map c.valueShape = value.map some ∧
          layout.PlacesPair key.size key.alignment (value.map fun v => (v.size, v.alignment)) := by
  refine ⟨fun key keySize _ _ => of_placesPair key keySize, ?_⟩
  intro host document c loaded keyType valueType
  refine ⟨ofTypes_eq_none_iff, ?_⟩
  intro layout found
  rcases ofTypes_eq_some_iff.mp found with ⟨key, value, keyKnown, valueKnown, rfl⟩
  refine ⟨key, value, keyKnown, valueKnown, of_placesPair _ _ ?_ ?_⟩
  · rw [alignment_of_valueShape keyKnown]
    exact (Schema.alignmentOf_bounds loaded keyType).2
  · rintro v placed
    rcases Option.map_eq_some_iff.mp placed with ⟨shape, rfl, rfl⟩
    rcases Option.map_eq_some_iff.mp valueKnown with ⟨name, -, known⟩
    show shape.alignment ≤ 8
    rw [alignment_of_valueShape known]
    exact (Schema.alignmentOf_bounds loaded name).2

/-- A structure of three bytes with an odd alignment. -/
def colors : Schema.Document :=
  { Schema.Document.empty with
    alignments := [("Color", 3)]
    structs := [("Color", ["red", "green", "blue"].map (Catalog.plainField · "Byte"))] }

theorem placed_as_pair_at_colors :
    (of ⟨2, .unsigned⟩ 5 2 (some (3, 6))).PlacesPair 5 2 (some (3, 6)) ∧
    ∃ c layout, Schema.load .standing colors = .ok c ∧ ofTypes c "Color" (some "Word") = some layout ∧
      layout.keyOffset = 0x1C ∧ layout.valueOffset = some 0x20 ∧
      ∃ (key : Catalog.ValueShape) (value : Option Catalog.ValueShape),
        c.valueShape "Color" = some key ∧ (some "Word").map c.valueShape = value.map some ∧
        layout.PlacesPair key.size key.alignment (value.map fun v => (v.size, v.alignment)) := by
  refine ⟨placed_as_pair.1 _ _ _ _ (by decide) (by rintro v ⟨⟩; decide), ?_⟩
  have laid : (Schema.load .standing colors).toOption.bind (fun c => ofTypes c "Color" (some "Word")) =
      some ⟨0x1C, 3, ⟨3, .unsigned⟩, some 0x20, 2⟩ := by cbv
  cases loaded : Schema.load .standing colors with
  | error fault =>
      rw [loaded] at laid
      cases laid
  | ok c =>
      rw [loaded] at laid
      have found : ofTypes c "Color" (some "Word") = some ⟨0x1C, 3, ⟨3, .unsigned⟩, some 0x20, 2⟩ := laid
      exact ⟨c, _, rfl, found, rfl, rfl, (placed_as_pair.2 .standing colors c loaded _ _).2 _ found⟩

end NodeLayout
end MemoryAtlas

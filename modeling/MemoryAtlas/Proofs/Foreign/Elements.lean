import Mathlib.Algebra.Group.Nat.Defs
import MemoryAtlas.Foreign.Vector
import MemoryAtlas.Image.Snapshot
import MemoryAtlas.Proofs.Sequence

namespace MemoryAtlas
namespace ForeignVector

/-!
# Elements of a vector

Whatever is in the head of a vector is two addresses out of a memory that nobody
vouches for.  The addresses of the elements are counted on from the first of them
and never compared with the second one again, so all that keeps them in bounds is
the test of the span, and the division that leaves out what does not make a whole
element.

The test is enough.  Elements stand one after the other from the beginning of the
span on, and each of them ends within it.  As the end of the span is an address,
no sum or product on the way is too large for a word.  A head that does not pass
the test has no elements at all.
-/

/-- How many elements a span tells of.  Elements without size are not counted, and
of others there are as many as there is room for between the two limits. -/
inductive Counts (v : ForeignVector) (first last : Address) : Nat -> Prop where
  | unsized (none : v.elementSize = 0) : Counts v first last 0
  | sized (some : v.elementSize ≠ 0) (ordered : first ≤ last) (short : last.toNat - first.toNat ≤ readLimit) :
      Counts v first last ((last.toNat - first.toNat) / v.elementSize)

/-- Element `i` of a span is at an address.  The sums and the product are exact
numbers, and words all the same. -/
structure ElementAt (v : ForeignVector) (first last : Address) (i : Nat) (a : Address) : Prop where
  address : a.toNat = first.toNat + i * v.elementSize
  begins : first.toNat ≤ a.toNat
  ends : a.toNat + v.elementSize ≤ last.toNat
  product : i * v.elementSize < 2 ^ 64
  sum : first.toNat + i * v.elementSize < 2 ^ 64
  past : first.toNat + i * v.elementSize + v.elementSize < 2 ^ 64

variable {v : ForeignVector} {m : Memory} {first last : Address} {offset n i : Nat}

/-- Each counted element stands behind the ones before it and within the span. -/
theorem Counts.elementAt (counts : v.Counts first last n) (below : i < n) :
    v.ElementAt first last i (first.shift (i * v.elementSize)) := by
  cases counts with
  | unsized none => exact absurd below (Nat.not_lt_zero i)
  | sized some ordered short =>
      have whole : (i + 1) * v.elementSize ≤ last.toNat - first.toNat :=
        (Nat.le_div_iff_mul_le (Nat.pos_of_ne_zero some)).mp below
      have forward : first.toNat ≤ last.toNat := ordered
      have word : last.toNat < 2 ^ 64 := last.toNat_lt
      rw [Nat.succ_mul] at whole
      have address : (first.shift (i * v.elementSize)).toNat = first.toNat + i * v.elementSize :=
        Address.toNat_shift (show _ < 2 ^ 64 by omega)
      exact ⟨address, by omega, by omega, by omega, by omega, by omega⟩

/-! ## The head -/

theorem spanLength_of_counts (begins : v.begin m = .ok first)
    (ends : m.readPointer (v.base.shift offset) = .ok last) (counts : v.Counts first last n) :
    v.spanLength m offset = .ok n := by
  rw [spanLength]
  cases counts with
  | unsized none => rw [if_pos none]
  | sized some ordered short =>
      have believed : ¬ (decide (last < first) || decide (readLimit < last.toNat - first.toNat)) = true := by
        simp only [Bool.or_eq_true, decide_eq_true_eq, not_or, UInt64.not_lt, Nat.not_lt]
        exact ⟨ordered, short⟩
      rw [if_neg some, begins, Except.ok_bind, ends, Except.ok_bind, if_neg believed]
      rfl

/-- A span that is reversed or too long is refused for elements of any size. -/
theorem spanLength_of_disbelieved (begins : v.begin m = .ok first)
    (ends : m.readPointer (v.base.shift offset) = .ok last) (some : v.elementSize ≠ 0)
    (disbelieved : last < first ∨ readLimit < last.toNat - first.toNat) :
    v.spanLength m offset = .error (.unreadable v.base (.implausibleSpan first last)) := by
  have refused : (decide (last < first) || decide (readLimit < last.toNat - first.toNat)) = true := by
    simpa using disbelieved
  rw [spanLength, if_neg some, begins, Except.ok_bind, ends, Except.ok_bind, if_pos refused]
  rfl

/-- A readable head has a length exactly if its span tells of one. -/
theorem spanLength_eq_ok_iff (begins : v.begin m = .ok first)
    (ends : m.readPointer (v.base.shift offset) = .ok last) :
    v.spanLength m offset = .ok n <-> v.Counts first last n := by
  refine ⟨fun counted => ?_, spanLength_of_counts begins ends⟩
  have known : forall n', v.Counts first last n' -> v.Counts first last n := by
    intro n' counts
    cases counted.symm.trans (spanLength_of_counts begins ends counts)
    exact counts
  by_cases none : v.elementSize = 0
  · exact known 0 (.unsized none)
  · by_cases disbelieved : last < first ∨ readLimit < last.toNat - first.toNat
    · cases counted.symm.trans (spanLength_of_disbelieved begins ends none disbelieved)
    · rw [not_or, UInt64.not_lt, Nat.not_lt] at disbelieved
      exact known _ (.sized none disbelieved.1 disbelieved.2)

/-! ## The elements -/

theorem elementAddress_of_length (begins : v.begin m = .ok first) (counted : v.length m = .ok n) (i : Nat) :
    v.elementAddress m i = .ok (if n ≤ i then none else some (first.shift (i * v.elementSize))) := by
  rw [elementAddress, counted, Except.ok_bind]
  split
  · rfl
  · rw [begins]
    rfl

/-- The addresses of elements are those of all elements, up to the limit. -/
theorem elements_of_length (begins : v.begin m = .ok first) (counted : v.length m = .ok n) (limit : Nat) :
    v.elements m limit =
      .ok (((List.range n).map (fun i => first.shift (i * v.elementSize))).take limit) := by
  rw [elements, begins, Except.ok_bind, counted, Except.ok_bind, ← List.map_take, List.take_range,
    Nat.min_comm]
  rfl

/-- Vectors with a readable head.  There is a length exactly if the span tells of
one; then there are that many elements, each has its place within the span, they are
listed in their order and found by their numbers, and there is none behind them.
Where the span is reversed or too long, elements of any size have neither a number
nor addresses. -/
theorem elements_within_span (begins : v.begin m = .ok first) (ends : v.finish m = .ok last) :
    (forall n, v.length m = .ok n <-> v.Counts first last n) ∧
    (forall n, v.length m = .ok n -> ∃ addresses : List Address, addresses.length = n ∧
      (forall limit, v.elements m limit = .ok (addresses.take limit)) ∧
      (forall (i : Nat) (a : Address), addresses[i]? = some a ->
        v.ElementAt first last i a ∧ v.elementAddress m i = .ok (some a)) ∧
      forall i, n ≤ i -> v.elementAddress m i = .ok none) ∧
    (v.elementSize ≠ 0 -> last < first ∨ 0x100000 < last.toNat - first.toNat ->
      v.length m = .error (.unreadable v.base (.implausibleSpan first last)) ∧
      (forall limit, v.elements m limit = .error (.unreadable v.base (.implausibleSpan first last))) ∧
      forall i, v.elementAddress m i = .error (.unreadable v.base (.implausibleSpan first last))) := by
  refine ⟨fun n => spanLength_eq_ok_iff begins ends, fun n counted => ?_, fun some disbelieved => ?_⟩
  · have counts := (spanLength_eq_ok_iff begins ends).mp counted
    refine ⟨(List.range n).map (fun i => first.shift (i * v.elementSize)), by simp,
      elements_of_length begins counted, fun i a listed => ?_, fun i behind => ?_⟩
    · rw [List.getElem?_map, Option.map_eq_some_iff] at listed
      rcases listed with ⟨place, within, rfl⟩
      rcases List.getElem?_eq_some_iff.mp within with ⟨below, same⟩
      rw [List.length_range] at below
      rw [List.getElem_range] at same
      subst same
      refine ⟨counts.elementAt below, ?_⟩
      rw [elementAddress_of_length begins counted, if_neg (Nat.not_le.mpr below)]
    · rw [elementAddress_of_length begins counted, if_pos behind]
  · have refused : v.length m = .error (.unreadable v.base (.implausibleSpan first last)) :=
      spanLength_of_disbelieved begins ends some disbelieved
    refine ⟨refused, fun limit => ?_, fun i => ?_⟩
    · rw [elements, begins, Except.ok_bind, refused]
      rfl
    · rw [elementAddress, refused]
      rfl

/-- Three addresses, the first and the last of which are thirteen bytes apart.  The
first two are the limits of one vector and the last two, which are reversed, those
of another. -/
def threeLimits : Memory :=
  (Snapshot.ofRegion 0x1000 #[0x18, 0x10, 0, 0, 0, 0, 0, 0, 0x25, 0x10, 0, 0, 0, 0, 0, 0,
    0x20, 0x10, 0, 0, 0, 0, 0, 0]).memory

/-- Thirteen bytes have room for three elements of four bytes. -/
theorem elements_within_span_at_threeLimits :
    ForeignVector.begin ⟨0x1000, 4⟩ threeLimits = .ok 0x1018 ∧
    ForeignVector.finish ⟨0x1000, 4⟩ threeLimits = .ok 0x1025 ∧
    (∃ addresses : List Address, addresses.length = 3 ∧
      (forall limit, ForeignVector.elements ⟨0x1000, 4⟩ threeLimits limit = .ok (addresses.take limit)) ∧
      forall (i : Nat) (a : Address), addresses[i]? = some a ->
        ForeignVector.ElementAt ⟨0x1000, 4⟩ 0x1018 0x1025 i a) ∧
    ForeignVector.finish ⟨0x1008, 4⟩ threeLimits = .ok 0x1020 ∧
    forall i, ForeignVector.elementAddress ⟨0x1008, 4⟩ threeLimits i =
      .error (.unreadable 0x1008 (.implausibleSpan 0x1025 0x1020)) := by
  have begins : ForeignVector.begin ⟨0x1000, 4⟩ threeLimits = .ok 0x1018 := by decide
  have ends : ForeignVector.finish ⟨0x1000, 4⟩ threeLimits = .ok 0x1025 := by decide
  have counted : ForeignVector.length ⟨0x1000, 4⟩ threeLimits = .ok 3 := by decide
  have begins' : ForeignVector.begin ⟨0x1008, 4⟩ threeLimits = .ok 0x1025 := by decide
  have ends' : ForeignVector.finish ⟨0x1008, 4⟩ threeLimits = .ok 0x1020 := by decide
  rcases (elements_within_span begins ends).2.1 3 counted with ⟨addresses, length, listed, within, -⟩
  refine ⟨begins, ends, ⟨addresses, length, listed, fun i a element => (within i a element).1⟩, ends', ?_⟩
  exact ((elements_within_span begins' ends').2.2 (by decide) (.inl (by decide))).2.2

end ForeignVector
end MemoryAtlas

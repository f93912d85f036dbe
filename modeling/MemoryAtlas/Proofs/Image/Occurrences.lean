import Mathlib.Order.Bounds.Basic
import MemoryAtlas.Image.Pattern
import MemoryAtlas.Image.Snapshot
import MemoryAtlas.Proofs.Sequence

namespace MemoryAtlas

/-!
# Where a pattern is found

A pattern is looked for by its anchor, the first of its fixed bytes.  The search
jumps from one occurrence of the anchor to the next, counts its positions from
there, and compares the whole pattern only where the anchor stands.

It finds what one finds by trying every position: the least at which the pattern
lies wholly inside the bytes and agrees with them in every fixed byte.  What is
jumped over cannot match, since a match has its anchor in the right place; and the
window in which anchors are looked for leaves out exactly those around which the
pattern would not lie inside.
-/

namespace Pattern

/-- The pattern lies wholly inside the bytes and agrees with them in every fixed
byte. -/
def OccursAt (p : Pattern) (bytes : List UInt8) (i : Nat) : Prop :=
  i + p.length <= bytes.length ∧ forall j b, p[j]? = some (some b) -> bytes[i + j]? = some b

/-! ## The leaves of the search -/

theorem occursAt_cons {place : Option UInt8} {p : Pattern} {b : UInt8} {rest : List UInt8} :
    OccursAt (place :: p) (b :: rest) 0 <-> (forall fixed, place = some fixed -> fixed = b) ∧
      p.OccursAt rest 0 := by
  constructor
  · rintro ⟨inside, agrees⟩
    refine ⟨fun fixed same => ?_, by simpa using inside, fun j fixed there => ?_⟩
    · have first := agrees 0 fixed (congrArg some same)
      exact (Option.some.inj first).symm
    · have later := agrees (j + 1) fixed there
      rwa [Nat.zero_add] at later ⊢
  · rintro ⟨first, inside, later⟩
    refine ⟨by simpa using inside, fun j fixed there => ?_⟩
    cases j with
    | zero => exact congrArg some (first fixed (Option.some.inj there)).symm
    | succ j =>
        have agrees := later j fixed there
        rwa [Nat.zero_add] at agrees ⊢

/-- A match at the beginning. -/
theorem fits_iff {p : Pattern} {bytes : List UInt8} : fits p bytes = true <-> p.OccursAt bytes 0 := by
  induction p generalizing bytes with
  | nil => simp [fits, OccursAt]
  | cons place p inductionHypothesis =>
      cases bytes with
      | nil => simp [fits, OccursAt]
      | cons b rest =>
          rw [fits, Bool.and_eq_true_iff, inductionHypothesis, occursAt_cons]
          cases place <;> simp

/-- Positions behind a cut are counted from the cut. -/
theorem occursAt_drop {p : Pattern} (nonempty : p ≠ []) {bytes : List UInt8} {i j : Nat} :
    p.OccursAt (bytes.drop i) j <-> p.OccursAt bytes (i + j) := by
  have room := List.length_pos_of_ne_nil nonempty
  simp only [OccursAt, List.length_drop, List.getElem?_drop, Nat.add_assoc]
  exact and_congr_left fun _ => by omega

theorem fixed_of_anchor? {p : Pattern} {index : Nat} {anchor : UInt8}
    (found : anchor? p = some (index, anchor)) : p[index]? = some (some anchor) := by
  induction p generalizing index with
  | nil => cases found
  | cons place p inductionHypothesis =>
      cases place with
      | some b =>
          cases found
          rfl
      | none =>
          rcases Option.map_eq_some_iff.mp found with ⟨⟨before, b⟩, later, same⟩
          cases same
          exact inductionHypothesis later

theorem exists_anchor? {p : Pattern} {b : UInt8} (fixed : some b ∈ p) :
    ∃ index anchor, anchor? p = some (index, anchor) := by
  induction p with
  | nil => cases fixed
  | cons place p inductionHypothesis =>
      cases place with
      | some other => exact ⟨0, other, rfl⟩
      | none =>
          rcases List.mem_cons.mp fixed with impossible | later
          · cases impossible
          · rcases inductionHypothesis later with ⟨index, anchor, found⟩
            exact ⟨index + 1, anchor, by rw [anchor?, found]; rfl⟩

/-- A written pattern is only read if one of its bytes is fixed. -/
theorem exists_fixed_of_parse {text : List Char} {p : Pattern} (parsed : parse text = .ok p) :
    ∃ b, some b ∈ p := by
  rcases Except.bind_eq_ok_iff.mp parsed with ⟨places, -, kept⟩
  split at kept
  · cases kept
  split at kept
  · cases kept
  · rename_i someFixed
    cases kept
    by_contra none
    refine someFixed (List.all_eq_true.mpr fun place listed => ?_)
    cases place with
    | none => rfl
    | some b => exact absurd ⟨b, listed⟩ none

/-! ## The search from one anchor to the next -/

/-- What a search from `start` on has to give: the least place from there on, if
there is one. -/
def Finds (Found : Nat -> Prop) (start : Nat) : Option Nat -> Prop
  | none => forall i, start <= i -> ¬ Found i
  | some i => IsLeast {i | start <= i ∧ Found i} i

/-- A search may begin later if nothing is passed over. -/
theorem Finds.of_later {Found : Nat -> Prop} {start later : Nat} {result : Option Nat}
    (finds : Finds Found later result) (onward : start <= later)
    (nothing : forall i, start <= i -> i < later -> ¬ Found i) : Finds Found start result := by
  have behind (i : Nat) (reached : start <= i) (found : Found i) : later <= i :=
    Nat.le_of_not_lt fun before => nothing i reached before found
  cases result with
  | none => exact fun i reached found => finds i (behind i reached found) found
  | some first =>
      rcases finds with ⟨⟨reached, found⟩, least⟩
      exact ⟨⟨onward.trans reached, found⟩, fun i place => least ⟨behind i place.1 place.2, place.2⟩⟩

/-- The bytes at which the anchor of a match can stand, from a position on. -/
def anchorsFrom (p : Pattern) (index : Nat) (bytes : List UInt8) (next : Nat) : List UInt8 :=
  (bytes.take (bytes.length - p.length + index + 1)).drop next

section Scan

variable {p : Pattern} {index : Nat} {anchor : UInt8} {bytes : List UInt8}
  (fixed : p[index]? = some (some anchor))
include fixed

/-- A match has its anchor in the window. -/
theorem OccursAt.anchor_ahead {i next : Nat} (occurs : p.OccursAt bytes i) (reached : next <= i + index) :
    (p.anchorsFrom index bytes next)[i + index - next]? = some anchor := by
  have inside := occurs.1
  rw [anchorsFrom, List.getElem?_drop, Nat.add_sub_cancel' reached, List.getElem?_take,
    if_pos (by omega)]
  exact occurs.2 index anchor fixed

/-- Where the anchor is found first there is the only candidate so far. -/
theorem le_of_idxOf?_anchorsFrom {next skipped i : Nat}
    (found : (p.anchorsFrom index bytes next).idxOf? anchor = some skipped)
    (occurs : p.OccursAt bytes i) (reached : next <= i + index) : next + skipped <= i + index := by
  rcases List.findIdx?_eq_some_iff_getElem.mp found with ⟨_, -, earlier⟩
  rcases List.getElem?_eq_some_iff.mp (occurs.anchor_ahead fixed reached) with ⟨within, same⟩
  by_contra before
  exact earlier (i + index - next) (by omega) (beq_iff_eq.mpr same)

theorem scan_finds {next : Nat} (far : index <= next) :
    Finds (p.OccursAt bytes) (next - index)
      (scan p index anchor next (p.anchorsFrom index bytes next) (bytes.drop (next - index))) := by
  have nonempty : p ≠ [] := by
    rintro rfl
    cases fixed
  generalize window : p.anchorsFrom index bytes next = ahead
  generalize here : bytes.drop (next - index) = rest
  fun_induction scan p index anchor next ahead rest with
  | case1 next ahead rest missed =>
      subst window
      intro i reached occurs
      have present := List.mem_of_getElem? (occurs.anchor_ahead fixed (by omega : next <= i + index))
      exact List.idxOf?_eq_none_iff.mp missed present
  | case2 next ahead rest skipped found fitting =>
      subst window here
      rw [List.drop_drop, fits_iff, occursAt_drop nonempty] at fitting
      refine ⟨⟨by omega, ?_⟩, fun i place => ?_⟩
      · rwa [show next + skipped - index = next - index + skipped + 0 by omega]
      · have least := le_of_idxOf?_anchorsFrom fixed found place.2 (by have := place.1; omega)
        omega
  | case3 next ahead rest skipped found misfit inductionHypothesis =>
      subst window here
      rw [List.drop_drop, fits_iff, occursAt_drop nonempty] at misfit
      have later := inductionHypothesis (by omega)
        (by rw [anchorsFrom, anchorsFrom, List.drop_drop, Nat.add_assoc])
        (by rw [List.drop_drop]; congr 1; omega)
      refine later.of_later (by omega) fun i reached before occurs => misfit ?_
      -- Before the next search there is no place for a match but the one that has failed.
      have least := le_of_idxOf?_anchorsFrom fixed found occurs (by omega)
      rwa [show next - index + skipped + 0 = i by omega]

end Scan

/-- The search finds the least match. -/
theorem find_finds {p : Pattern} {b : UInt8} (fixed : some b ∈ p) (bytes : List UInt8) :
    Finds (p.OccursAt bytes) 0 (p.find bytes) := by
  rw [find]
  split
  · rename_i short
    intro i _ occurs
    have inside := occurs.1
    have nonempty : p.isEmpty = false := List.isEmpty_eq_false_iff.mpr (List.ne_nil_of_mem fixed)
    rw [nonempty, Bool.false_or, decide_eq_true_eq] at short
    omega
  · rcases exists_anchor? fixed with ⟨index, anchor, found⟩
    have finds : Finds (p.OccursAt bytes) (index - index) _ :=
      scan_finds (fixed_of_anchor? found) (Nat.le_refl index)
    rw [Nat.sub_self, List.drop_zero] at finds
    rw [found]
    exact finds

theorem find_eq_some_iff {p : Pattern} {b : UInt8} (fixed : some b ∈ p) {bytes : List UInt8} {i : Nat} :
    p.find bytes = some i <-> IsLeast {i | p.OccursAt bytes i} i := by
  have finds := find_finds fixed bytes
  constructor
  · intro found
    rw [found] at finds
    exact ⟨finds.1.2, fun j occurs => finds.2 ⟨j.zero_le, occurs⟩⟩
  · rintro ⟨occurs, least⟩
    cases found : p.find bytes with
    | none =>
        rw [found] at finds
        exact absurd occurs (finds i i.zero_le)
    | some first =>
        rw [found] at finds
        have below := finds.2 ⟨i.zero_le, occurs⟩
        rw [Nat.le_antisymm below (least finds.1.2)]

theorem find_eq_none_iff {p : Pattern} {b : UInt8} (fixed : some b ∈ p) {bytes : List UInt8} :
    p.find bytes = none <-> forall i, ¬ p.OccursAt bytes i := by
  have finds := find_finds fixed bytes
  constructor
  · intro found
    rw [found] at finds
    exact fun i => finds i i.zero_le
  · intro nowhere
    cases found : p.find bytes with
    | none => rfl
    | some first =>
        rw [found] at finds
        exact absurd finds.1.2 (nowhere first)

/-! ## The search in memory -/

theorem findPattern_of_read {m : Memory} {start : Address} {size : Nat} {p : Pattern}
    {bytes : List UInt8} (read : m.read start size = .ok bytes) :
    m.findPattern start size p = .ok ((p.find bytes).map start.shift) := by
  rw [Memory.findPattern, read]
  rfl

/-- The pattern occurs at an address, wholly inside bytes that lie in memory from
`start` on. -/
def OccursFrom (p : Pattern) (start : Address) (bytes : List UInt8) (a : Address) : Prop :=
  start ≤ a ∧ p.OccursAt bytes (a.toNat - start.toNat)

section InMemory

variable {p : Pattern} {b : UInt8} {start : Address} {bytes : List UInt8} (fixed : some b ∈ p)
  (within : start.toNat + bytes.length ≤ wordCount 64)
include fixed within

/-- No match stands where addresses wrap around. -/
theorem OccursAt.toNat_shift {i : Nat} (occurs : p.OccursAt bytes i) :
    (start.shift i).toNat = start.toNat + i := by
  have inside := occurs.1
  have room := List.length_pos_of_mem fixed
  exact Address.toNat_shift (by omega)

theorem occursFrom_iff {a : Address} :
    p.OccursFrom start bytes a <-> ∃ i, p.OccursAt bytes i ∧ start.shift i = a := by
  constructor
  · rintro ⟨reached, occurs⟩
    have shifted := occurs.toNat_shift fixed within
    have onward := UInt64.le_iff_toNat_le.mp reached
    exact ⟨_, occurs, UInt64.toNat_inj.mp (by omega)⟩
  · rintro ⟨i, occurs, rfl⟩
    have shifted := occurs.toNat_shift fixed within
    refine ⟨UInt64.le_iff_toNat_le.mpr (by omega), ?_⟩
    rwa [shifted, Nat.add_sub_cancel_left]

/-- The least position is at the lowest address. -/
theorem map_shift_find_eq_some_iff {a : Address} :
    (p.find bytes).map start.shift = some a <-> IsLeast {a | p.OccursFrom start bytes a} a := by
  rw [Option.map_eq_some_iff]
  constructor
  · rintro ⟨i, found, rfl⟩
    rcases (find_eq_some_iff fixed).mp found with ⟨occurs, least⟩
    refine ⟨(occursFrom_iff fixed within).mpr ⟨i, occurs, rfl⟩, fun other place => ?_⟩
    rcases (occursFrom_iff fixed within).mp place with ⟨j, later, rfl⟩
    have order := least later
    rw [UInt64.le_iff_toNat_le, occurs.toNat_shift fixed within, later.toNat_shift fixed within]
    omega
  · rintro ⟨place, lowest⟩
    rcases (occursFrom_iff fixed within).mp place with ⟨i, occurs, rfl⟩
    refine ⟨i, (find_eq_some_iff fixed).mpr ⟨occurs, fun j later => ?_⟩, rfl⟩
    have order := UInt64.le_iff_toNat_le.mp (lowest ((occursFrom_iff fixed within).mpr ⟨j, later, rfl⟩))
    rw [occurs.toNat_shift fixed within, later.toNat_shift fixed within] at order
    omega

end InMemory

/-- The position that is found is the least at which the pattern matches wholly inside
the bytes, and none is found only if there is none.  In memory this is the lowest
address wholly inside the range that was asked for. -/
theorem find_least {p : Pattern} (fixed : ∃ b, some b ∈ p) :
    (forall bytes i, p.find bytes = some i <-> IsLeast {i | p.OccursAt bytes i} i) ∧
      (forall bytes, p.find bytes = none <-> forall i, ¬ p.OccursAt bytes i) ∧
      forall (m : Memory) (start : Address) (size : Nat),
        (forall fault, m.read start size = .error fault -> m.findPattern start size p = .error fault) ∧
        forall bytes, m.read start size = .ok bytes ->
          m.findPattern start size p = .ok ((p.find bytes).map start.shift) ∧
          (start.toNat + size ≤ wordCount 64 -> forall a,
            m.findPattern start size p = .ok (some a) <-> IsLeast {a | p.OccursFrom start bytes a} a) := by
  rcases fixed with ⟨b, fixed⟩
  refine ⟨fun _ _ => find_eq_some_iff fixed, fun _ => find_eq_none_iff fixed,
    fun m start size => ⟨fun fault refused => ?_, fun bytes answered => ?_⟩⟩
  · rw [Memory.findPattern, refused]
    rfl
  · have searched : m.findPattern start size p = .ok ((p.find bytes).map start.shift) := by
      rw [Memory.findPattern, answered]
      rfl
    refine ⟨searched, fun within a => ?_⟩
    rw [searched, Except.ok.injEq]
    exact map_shift_find_eq_some_iff fixed (by rwa [m.length_read answered])

/-- A match that begins with an open place, where the first anchor has no room before
it. -/
theorem find_least_at_leading_wildcard :
    let p : Pattern := [none, some 0x8D, some 0x0D]
    let bytes : List UInt8 := [0x8D, 0x0D, 0x8B, 0x05, 0x48, 0x8D, 0x0D, 0x10]
    let m := (Snapshot.ofRegion 0x1000 bytes.toArray).memory
    p.find bytes = some 4 ∧ IsLeast {i | p.OccursAt bytes i} 4 ∧
      m.findPattern 0x1000 8 p = .ok (some 0x1004) ∧
      IsLeast {a | p.OccursFrom 0x1000 bytes a} 0x1004 := by
  intro p bytes m
  have found : p.find bytes = some 4 := by decide +kernel
  have read : m.read 0x1000 8 = .ok bytes := rfl
  rcases find_least (p := p) ⟨0x8D, by decide⟩ with ⟨first, -, inMemory⟩
  rcases (inMemory m 0x1000 8).2 bytes read with ⟨searched, lowest⟩
  rw [found] at searched
  exact ⟨found, (first bytes 4).mp found, searched, (lowest (by decide) 0x1004).mp searched⟩

end Pattern
end MemoryAtlas

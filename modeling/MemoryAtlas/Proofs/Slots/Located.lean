import MemoryAtlas.Proofs.Image.Occurrences
import MemoryAtlas.Proofs.Image.Seams
import MemoryAtlas.Proofs.Types.Integers
import MemoryAtlas.Slots.Signature

namespace MemoryAtlas

/-!
# Tables that code refers to

An instruction refers to the slot table by a distance, which it stores in four bytes of
two's complement and which counts from the instruction behind it.  Whoever has written
the instruction has subtracted; whoever locates the table adds, and both go around the
ends of the address space.  Locating is therefore the inverse of referring: a table is
located at an address exactly if the first match of the signature refers to this
address.

The stored distance can have either sign, and the way to the target can lead around
either end of the address space.  All that is asked for is that the range to be scanned
lies in a region.
-/

/-- A signed step behind an unsigned one, around the ends of the address space. -/
theorem Address.toNat_displace_shift (a : Address) (n : Nat) (distance : Int) :
    (((a.shift n).displace distance).toNat : Int) = (a.toNat + n + distance) % wordCount 64 := by
  have words : wordCount 64 = 2 ^ 64 := rfl
  rw [displace, shift, UInt64.toNat_ofNat', UInt64.toNat_add, UInt64.toNat_ofNat', words]
  omega

namespace Signature

/-- The match of a signature at an address refers to a target.  The distance is stored
where the signature says, and it leads to the target from behind the instruction. -/
structure RefersTo (s : Signature) (m : Memory) (found target : Address) (distance : Int) : Prop where
  low : -wordCount 31 ≤ distance
  high : distance < wordCount 31
  stored : m.read (found.shift (s.instruction + s.displacement)) 4 = .ok (twosComplement 4 distance)
  target : (target.toNat : Int) = (found.toNat + s.instruction + s.length + distance) % wordCount 64

variable {s : Signature} {m : Memory} {start found target : Address} {size : Nat} {p : Pattern}

theorem locate_of_missing (accepted : Pattern.parse s.pattern.toList = .ok p)
    (missing : m.findPattern start size p = .ok none) :
    s.locate m start size = .error (.slots (.signatureNotFound s.pattern)) := by
  rw [locate, accepted]
  simp only [Except.mapError, Except.ok_bind, missing]
  rfl

theorem locate_of_found (accepted : Pattern.parse s.pattern.toList = .ok p)
    (searched : m.findPattern start size p = .ok (some found)) :
    s.locate m start size =
      ((m.readInt (found.shift (s.instruction + s.displacement)) 4).map
        (found.shift (s.instruction + s.length)).displace).mapError .memory := by
  rw [locate, accepted]
  simp only [Except.mapError, Except.ok_bind, searched, Address.shift_shift]
  cases m.readInt (found.shift (s.instruction + s.displacement)) 4 <;> rfl

/-- The distance that is read is the one that is stored, and adding it leads to where
the match refers to. -/
theorem refersTo_iff {distance : Int} :
    s.RefersTo m found target distance <->
      m.readInt (found.shift (s.instruction + s.displacement)) 4 = .ok distance ∧
        (found.shift (s.instruction + s.length)).displace distance = target := by
  rw [Memory.readInt_eq_ok_iff (by decide), ← UInt64.toNat_inj, ← Int.ofNat_inj,
    Address.toNat_displace_shift, Int.natCast_add, ← Int.add_assoc]
  constructor
  · rintro ⟨low, high, stored, target⟩
    exact ⟨⟨⟨low, high⟩, stored⟩, target.symm⟩
  · rintro ⟨⟨⟨low, high⟩, stored⟩, target⟩
    exact ⟨low, high, stored, target.symm⟩

/-- Behind a match, a table is located exactly at what the match refers to. -/
theorem locate_eq_ok_iff_of_found (accepted : Pattern.parse s.pattern.toList = .ok p)
    (searched : m.findPattern start size p = .ok (some found)) :
    s.locate m start size = .ok target <-> ∃ distance, s.RefersTo m found target distance := by
  rw [locate_of_found accepted searched]
  simp only [refersTo_iff]
  cases m.readInt (found.shift (s.instruction + s.displacement)) 4 with
  | error fault => simp [Except.map, Except.mapError]
  | ok distance => simp [Except.map, Except.mapError]

/-- Behind a match nothing fails but reading the distance. -/
theorem locate_ne_slots_of_found (accepted : Pattern.parse s.pattern.toList = .ok p)
    (searched : m.findPattern start size p = .ok (some found)) (fault : SlotFault) :
    s.locate m start size ≠ .error (.slots fault) := by
  rw [locate_of_found accepted searched]
  cases m.readInt (found.shift (s.instruction + s.displacement)) 4 with
  | error fault => simp [Except.map, Except.mapError]
  | ok distance => simp [Except.map, Except.mapError]

/-- Locating inverts referring.  In a range inside a region a table is located at a
target exactly if the first match of the signature refers to it, with whatever distance
there is room for in four bytes.  That the signature is not found is the answer exactly
if it matches nowhere in the range. -/
theorem locate_inverts_reference {snapshot : Snapshot} (opened : snapshot.Opened) {r : Region}
    (member : r ∈ snapshot.regions) {start : Address} {size : Nat} (inside : r.Holds start size)
    {s : Signature} {p : Pattern} (accepted : Pattern.parse s.pattern.toList = .ok p) :
    ∃ bytes, snapshot.read start size = .ok bytes ∧
      (forall target, s.locate snapshot.memory start size = .ok target <->
        ∃ found distance, IsLeast {a | p.OccursFrom start bytes a} found ∧
          s.RefersTo snapshot.memory found target distance) ∧
      (s.locate snapshot.memory start size = .error (.slots (.signatureNotFound s.pattern)) <->
        forall a, ¬ p.OccursFrom start bytes a) := by
  rcases opened.fitted.exists_read member inside with ⟨bytes, read⟩
  rcases Pattern.exists_fixed_of_parse accepted with ⟨b, fixed⟩
  have within : start.toNat + bytes.length ≤ wordCount 64 := by
    rw [Snapshot.length_read read]
    exact Nat.le_of_lt inside.short
  have searched := Pattern.findPattern_of_read (p := p) (m := snapshot.memory) read
  refine ⟨bytes, read, ?_⟩
  cases first : (p.find bytes).map start.shift with
  | none =>
      rw [first] at searched
      have nowhere : forall a, ¬ p.OccursFrom start bytes a := by
        rintro a place
        rcases (Pattern.occursFrom_iff fixed within).mp place with ⟨i, occurs, -⟩
        exact (Pattern.find_eq_none_iff fixed).mp (Option.map_eq_none_iff.mp first) i occurs
      rw [locate_of_missing accepted searched]
      refine ⟨fun target => iff_of_false (fun located => by cases located) ?_, iff_of_true rfl nowhere⟩
      rintro ⟨found, -, ⟨place, -⟩, -⟩
      exact nowhere found place
  | some found =>
      rw [first] at searched
      have least := (Pattern.map_shift_find_eq_some_iff fixed within).mp first
      refine ⟨fun target => ?_, iff_of_false (locate_ne_slots_of_found accepted searched _) ?_⟩
      · rw [locate_eq_ok_iff_of_found accepted searched]
        constructor
        · rintro ⟨distance, refers⟩
          exact ⟨found, distance, least, refers⟩
        · rintro ⟨other, distance, least', refers⟩
          cases first.symm.trans ((Pattern.map_shift_find_eq_some_iff fixed within).mpr least')
          exact ⟨distance, refers⟩
      · exact fun nowhere => nowhere found least.1

/-- Code that refers to a table far below it, beyond address 0.  The beginning of the
referring instruction stands in front of it once more. -/
def codeBytes : List UInt8 :=
  [0x48, 0x8D, 0x90, 0x48, 0x8D, 0x0D, 0x00, 0xE0, 0xFF, 0xFF, 0xC3]

/-- The code as it was captured. -/
def code : Snapshot :=
  .ofRegion 0x1000 codeBytes.toArray

/-- An instruction of seven bytes that stores its distance in the last four of them.  The
pattern begins one byte before it. -/
def loadTable : Signature :=
  ⟨"?? 48 8D 0D ?? ?? ?? ??", 1, 3, 7⟩

theorem locate_inverts_reference_at_code :
    code.Opened ∧ (∃ r, r ∈ code.regions ∧ r.Holds 0x1000 11) ∧
    (∃ p, Pattern.parse loadTable.pattern.toList = .ok p) ∧
    loadTable.RefersTo code.memory 0x1002 0xfffffffffffff00a (-0x2000) ∧
    loadTable.locate code.memory 0x1000 11 = .ok 0xfffffffffffff00a := by
  let p : Pattern := [none, some 0x48, some 0x8D, some 0x0D, none, none, none, none]
  have opened : code.Opened := .region (by decide)
  have inside : (⟨0x1000, 0x100b, 0⟩ : Region).Holds 0x1000 11 := by decide
  have accepted : Pattern.parse loadTable.pattern.toList = .ok p := by decide +kernel
  have refers : loadTable.RefersTo code.memory 0x1002 0xfffffffffffff00a (-0x2000) :=
    ⟨by decide, by decide, by decide +kernel, by decide⟩
  have least : IsLeast {a | p.OccursFrom 0x1000 codeBytes a} 0x1002 := by
    have fixed : some 0x48 ∈ p := by decide
    exact (Pattern.map_shift_find_eq_some_iff fixed (by decide)).mp (by decide +kernel)
  rcases locate_inverts_reference opened List.mem_cons_self inside accepted with ⟨bytes, read, located, -⟩
  have content : code.read 0x1000 11 = .ok codeBytes := rfl
  cases read.symm.trans content
  exact ⟨opened, ⟨_, List.mem_cons_self, inside⟩, ⟨_, accepted⟩, refers,
    (located _).mpr ⟨_, _, least, refers⟩⟩

end Signature
end MemoryAtlas

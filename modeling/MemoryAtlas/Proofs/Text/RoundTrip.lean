import Mathlib.Tactic.Common
import MemoryAtlas.Image.Address
import MemoryAtlas.Text.Unicode

namespace MemoryAtlas
namespace Text

/-!
# Texts survive being encoded

Decoding replaces what is not well formed and keeps everything else.  What a text is
encoded as is always well formed, so that it decodes to the text itself: in bytes,
where a character takes one to four of them, and in sixteen-bit units, where it takes
one or a lead and a trail.

Both decoders are followed through the code of one character.  Whatever comes after
it is then decoded as if it stood alone, which makes the round trip an induction on
the characters.  Nothing is special about the first of them, a byte order mark
included.
-/

theorem charOf_toNat (c : Char) : charOf c.toNat = c := by
  have valid : c.toNat.isValidChar := c.valid
  rw [charOf, dif_pos valid]
  rfl

/-- The bounds of a character, and the gap between them. -/
theorem toNat_bounds (c : Char) : c.toNat < 0xD800 ∨ 0xDFFF < c.toNat ∧ c.toNat < 0x110000 :=
  c.valid

/-! ## Bytes -/

theorem toNat_byte {n : Nat} (small : n < 256) : (UInt8.ofNat n).toNat = n :=
  UInt8.toNat_ofNat_of_lt' small

theorem decodeUtf8From_cons (state : Utf8State) (b : UInt8) (rest : List UInt8) :
    decodeUtf8From state (b :: rest) =
      (state.next b.toNat).1 ++ decodeUtf8From (state.next b.toNat).2 rest := by
  cases state <;> rfl

/-- The first byte of a longer character. -/
theorem decodeUtf8From_first {value missing low high n : Nat} (small : n < 256)
    (begins : Utf8State.start n = ([], .inside value missing low high)) (rest : List UInt8) :
    decodeUtf8From .between (UInt8.ofNat n :: rest) =
      decodeUtf8From (.inside value missing low high) rest := by
  rw [decodeUtf8From_cons, toNat_byte small, Utf8State.next, begins]
  rfl

/-- A byte before the last one adds its six bits. -/
theorem decodeUtf8From_middle {value missing low high n : Nat} (more : 1 < missing) (above : low ≤ n)
    (below : n ≤ high) (small : n < 256) (rest : List UInt8) :
    decodeUtf8From (.inside value missing low high) (UInt8.ofNat n :: rest) =
      decodeUtf8From (.inside (value * 64 + (n - 0x80)) (missing - 1) 0x80 0xBF) rest := by
  rw [decodeUtf8From_cons, toNat_byte small]
  simp [Utf8State.next, above, below, Nat.not_le.mpr more]

/-- The last byte completes the character. -/
theorem decodeUtf8From_last {value low high n : Nat} (above : low ≤ n) (below : n ≤ high) (small : n < 256)
    (rest : List UInt8) : decodeUtf8From (.inside value 1 low high) (UInt8.ofNat n :: rest) =
      charOf (value * 64 + (n - 0x80)) :: decodeUtf8From .between rest := by
  rw [decodeUtf8From_cons, toNat_byte small]
  simp [Utf8State.next, above, below]

theorem start_of_two {n : Nat} (above : 0xC2 ≤ n) (below : n ≤ 0xDF) :
    Utf8State.start n = ([], .inside (n - 0xC0) 1 0x80 0xBF) := by
  rw [Utf8State.start, if_neg (by omega), if_pos (by simp [above, below])]

theorem start_of_three {n : Nat} (above : 0xE0 ≤ n) (below : n ≤ 0xEF) :
    Utf8State.start n = ([], .inside (n - 0xE0) 2 (if n = 0xE0 then 0xA0 else 0x80)
      (if n = 0xED then 0x9F else 0xBF)) := by
  rw [Utf8State.start, if_neg (by omega), if_neg (by simp; omega), if_pos (by simp [above, below])]
  simp

theorem start_of_four {n : Nat} (above : 0xF0 ≤ n) (below : n ≤ 0xF4) :
    Utf8State.start n = ([], .inside (n - 0xF0) 3 (if n = 0xF0 then 0x90 else 0x80)
      (if n = 0xF4 then 0x8F else 0xBF)) := by
  rw [Utf8State.start, if_neg (by omega), if_neg (by simp; omega), if_neg (by simp; omega),
    if_pos (by simp [above, below])]
  simp

/-- The bytes of a character decode to it, whatever comes after them.  The bounds of
the second byte are those that keep out what has a shorter code, the gap between the
characters and what lies behind the last of them. -/
theorem decodeUtf8From_utf8EncodeChar (c : Char) (rest : List UInt8) :
    decodeUtf8From .between (String.utf8EncodeChar c ++ rest) = c :: decodeUtf8From .between rest := by
  have bounds := toNat_bounds c
  have complete : forall n, n = c.toNat -> charOf n = c := by
    rintro n rfl
    exact charOf_toNat c
  by_cases one : c.toNat ≤ 0x7F
  · have code : String.utf8EncodeChar c = [UInt8.ofNat c.toNat] := if_pos one
    have begins : Utf8State.start c.toNat = ([c], .between) := by
      rw [Utf8State.start, if_pos (by omega), charOf_toNat]
    rw [code, List.singleton_append, decodeUtf8From_cons, toNat_byte (by omega), Utf8State.next, begins]
    rfl
  by_cases two : c.toNat ≤ 0x7FF
  · have code : String.utf8EncodeChar c =
        [UInt8.ofNat (c.toNat / 64 % 32 + 192), UInt8.ofNat (c.toNat % 64 + 128)] :=
      (if_neg one).trans (if_pos two)
    rw [code, List.cons_append, List.singleton_append,
      decodeUtf8From_first (by omega) (start_of_two (by omega) (by omega)),
      decodeUtf8From_last (by omega) (by omega) (by omega), complete _ (by omega)]
  by_cases three : c.toNat ≤ 0xFFFF
  · have code : String.utf8EncodeChar c = [UInt8.ofNat (c.toNat / 4096 % 16 + 224),
        UInt8.ofNat (c.toNat / 64 % 64 + 128), UInt8.ofNat (c.toNat % 64 + 128)] :=
      (if_neg one).trans ((if_neg two).trans (if_pos three))
    rw [code, List.cons_append, List.cons_append, List.singleton_append,
      decodeUtf8From_first (by omega) (start_of_three (by omega) (by omega)),
      decodeUtf8From_middle (by omega) (by split <;> omega) (by split <;> omega) (by omega),
      decodeUtf8From_last (by omega) (by omega) (by omega), complete _ (by omega)]
  · have code : String.utf8EncodeChar c = [UInt8.ofNat (c.toNat / 262144 % 8 + 240),
        UInt8.ofNat (c.toNat / 4096 % 64 + 128), UInt8.ofNat (c.toNat / 64 % 64 + 128),
        UInt8.ofNat (c.toNat % 64 + 128)] :=
      (if_neg one).trans ((if_neg two).trans (if_neg three))
    rw [code, List.cons_append, List.cons_append, List.cons_append, List.singleton_append,
      decodeUtf8From_first (by omega) (start_of_four (by omega) (by omega)),
      decodeUtf8From_middle (by omega) (by split <;> omega) (by split <;> omega) (by omega),
      decodeUtf8From_middle (by omega) (by omega) (by omega) (by omega),
      decodeUtf8From_last (by omega) (by omega) (by omega), complete _ (by omega)]

/-- What a text is encoded as decodes to the text. -/
theorem decodeUtf8_encodeUtf8 (text : String) : decodeUtf8 (encodeUtf8 text) = text := by
  suffices forall chars : List Char,
      decodeUtf8From .between (chars.flatMap String.utf8EncodeChar) = chars by
    rw [decodeUtf8, encodeUtf8, this, String.ofList_toList]
  intro chars
  induction chars with
  | nil => rfl
  | cons c rest inductionHypothesis =>
      rw [List.flatMap_cons, decodeUtf8From_utf8EncodeChar, inductionHypothesis]

/-! ## Sixteen-bit units -/

/-- The units of a character: its number, or a lead and a trail for a number of more
than sixteen bits. -/
def unitsOf (c : Char) : List Nat :=
  if c.toNat < 0x10000 then [c.toNat]
  else [0xD800 + (c.toNat - 0x10000) / 0x400, 0xDC00 + (c.toNat - 0x10000) % 0x400]

/-- The units of a text. -/
def utf16Units (text : String) : List Nat :=
  text.toList.flatMap unitsOf

/-- The bytes of the units of a text, low byte first. -/
def encodeUtf16 (text : String) : List UInt8 :=
  (utf16Units text).flatMap (toLittleEndian 2)

theorem unitsOf_lt (c : Char) : forall u, u ∈ unitsOf c -> u < 0x10000 := by
  have bounds := toNat_bounds c
  intro u member
  unfold unitsOf at member
  split at member
  · rw [List.mem_singleton.mp member]
    assumption
  · simp only [List.mem_cons, List.not_mem_nil, or_false] at member
    omega

/-- The units of a character decode to it, whatever comes after them. -/
theorem decodeUnitsFrom_unitsOf (c : Char) (rest : List Nat) :
    decodeUnitsFrom none (unitsOf c ++ rest) =
      (c :: (decodeUnitsFrom none rest).1, (decodeUnitsFrom none rest).2) := by
  have bounds := toNat_bounds c
  unfold unitsOf
  split
  · have alone : isLeadUnit c.toNat = false := by
      simp only [isLeadUnit, Bool.and_eq_false_iff, decide_eq_false_iff_not]
      omega
    simp [decodeUnitsFrom, alone, charOf_toNat]
  · have lead : isLeadUnit (0xD800 + (c.toNat - 0x10000) / 0x400) = true := by
      simp only [isLeadUnit, Bool.and_eq_true, decide_eq_true_eq]
      omega
    have trail : isTrailUnit (0xDC00 + (c.toNat - 0x10000) % 0x400) = true := by
      simp only [isTrailUnit, Bool.and_eq_true, decide_eq_true_eq]
      omega
    have joined : joinUnits (0xD800 + (c.toNat - 0x10000) / 0x400) (0xDC00 + (c.toNat - 0x10000) % 0x400) = c := by
      refine (congrArg charOf ?_).trans (charOf_toNat c)
      omega
    simp [decodeUnitsFrom, lead, trail, joined]

/-- Units of sixteen bits are found again in their bytes. -/
theorem units_flatMap {codes : List Nat} (small : forall u, u ∈ codes -> u < 0x10000) :
    units (codes.flatMap (toLittleEndian 2)) = (codes, false) := by
  induction codes with
  | nil => rfl
  | cons u rest inductionHypothesis =>
      have same : littleEndian (toLittleEndian 2 u) = u := by
        have words : wordCount (8 * 2) = 0x10000 := rfl
        rw [littleEndian_toLittleEndian, words, Nat.mod_eq_of_lt (small u List.mem_cons_self)]
      have later := inductionHypothesis fun v member => small v (List.mem_cons_of_mem u member)
      rw [List.flatMap_cons]
      show units (UInt8.ofNat u :: UInt8.ofNat (u / 256) :: rest.flatMap (toLittleEndian 2)) = _
      rw [units, later]
      exact congrArg (fun v => (v :: rest, false)) same

/-- What a text is encoded as decodes to the text. -/
theorem decodeUtf16_encodeUtf16 (text : String) : decodeUtf16 (encodeUtf16 text) = text := by
  have small : forall u, u ∈ utf16Units text -> u < 0x10000 := by
    intro u member
    rcases List.mem_flatMap.mp member with ⟨c, -, among⟩
    exact unitsOf_lt c u among
  have decoded : forall chars : List Char, decodeUnitsFrom none (chars.flatMap unitsOf) = (chars, false) := by
    intro chars
    induction chars with
    | nil => rfl
    | cons c rest inductionHypothesis =>
        rw [List.flatMap_cons, decodeUnitsFrom_unitsOf, inductionHypothesis]
  rw [decodeUtf16, encodeUtf16, units_flatMap small, utf16Units]
  simp only [decoded]
  exact String.ofList_toList

end Text
end MemoryAtlas

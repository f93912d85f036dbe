import Mathlib.Data.List.Basic
import Mathlib.Tactic.IntervalCases
import MemoryAtlas.Proofs.Text.Words
import MemoryAtlas.Text.Numeral

namespace MemoryAtlas
namespace Text

/-!
# Written numbers are read back

A number is written with digits, the most significant first.  The same number has many
written forms, since zeros can stand in front and a digit that is a letter can be
written in either case.  All of them are read as the number, as long as the number is
in the range that is read.

The reader checks the range at every digit.  It refuses nothing too early: the numbers
that the first digits stand for lie between zero and the whole number.  With a minus
sign in front the same is true on the other side of zero.
-/

/-! ## Digits -/

theorem digitValue?_digitChar {radix d : Nat} (few : radix ≤ 16) (below : d < radix) :
    digitValue? radix (Nat.digitChar d) = some d := by
  have small : d < 16 := Nat.lt_of_lt_of_le below few
  interval_cases d <;> simp [digitValue?, Nat.digitChar, below]

theorem toNat_toLower (c : Char) :
    c.toLower.toNat = if 65 ≤ c.toNat ∧ c.toNat ≤ 90 then c.toNat + 32 else c.toNat := by
  unfold Char.toLower
  split
  · rename_i upper
    have bounds : 65 ≤ c.toNat ∧ c.toNat ≤ 90 :=
      ⟨UInt32.le_iff_toNat_le.mp upper.1, UInt32.le_iff_toNat_le.mp upper.2⟩
    rw [if_pos bounds]
    show (c.val + 32).toNat = c.val.toNat + 32
    rw [UInt32.toNat_add]
    exact Nat.mod_eq_of_lt (Nat.lt_of_le_of_lt (Nat.add_le_add_right bounds.2 32) (by decide))
  · rename_i other
    rw [if_neg fun bounds => other
      ⟨UInt32.le_iff_toNat_le.mpr bounds.1, UInt32.le_iff_toNat_le.mpr bounds.2⟩]

/-- The value of a digit by its code point. -/
theorem digitValue?_eq (radix : Nat) (c : Char) : digitValue? radix c =
    (if 48 ≤ c.toNat ∧ c.toNat ≤ 57 then some (c.toNat - 48)
      else if 97 ≤ c.toNat ∧ c.toNat ≤ 122 then some (c.toNat - 97 + 10)
      else if 65 ≤ c.toNat ∧ c.toNat ≤ 90 then some (c.toNat - 65 + 10)
      else none).filter (· < radix) := by
  have order (a b : Char) : a ≤ b <-> a.toNat ≤ b.toNat := UInt32.le_iff_toNat_le
  simp only [digitValue?, order, Bool.and_eq_true, decide_eq_true_eq]
  rfl

/-- The case of a letter does not change its value. -/
theorem digitValue?_toLower (radix : Nat) (c : Char) : digitValue? radix c.toLower = digitValue? radix c := by
  rw [digitValue?_eq, digitValue?_eq, toNat_toLower]
  by_cases upper : 65 ≤ c.toNat ∧ c.toNat ≤ 90
  · rw [if_pos upper, if_neg (by omega), if_pos (by omega), if_neg (by omega), if_neg (by omega), if_pos upper,
      show c.toNat + 32 - 97 = c.toNat - 65 by omega]
  · rw [if_neg upper]

/-- The places of the digits of a radix among the characters. -/
theorem toNat_of_digitValue? {radix d : Nat} {c : Char} (few : radix ≤ 16) (digit : digitValue? radix c = some d) :
    (48 ≤ c.toNat ∧ c.toNat ≤ 57) ∨ (65 ≤ c.toNat ∧ c.toNat ≤ 70) ∨ (97 ≤ c.toNat ∧ c.toNat ≤ 102) := by
  rw [digitValue?_eq, Option.filter_eq_some_iff] at digit
  rcases digit with ⟨value, below⟩
  have small : d < radix := of_decide_eq_true below
  split at value
  · omega
  split at value
  · cases value
    omega
  split at value
  · cases value
    omega
  · cases value

theorem isBlank_of_digit {radix d : Nat} {c : Char} (few : radix ≤ 16) (digit : digitValue? radix c = some d) :
    isBlank c = false := by
  have place := toNat_of_digitValue? few digit
  simp only [isBlank, Bool.or_eq_false_iff, Bool.and_eq_false_iff, decide_eq_false_iff_not, beq_eq_false_iff_ne]
  omega

/-! ## Appending digits -/

/-- A number on one side of zero. -/
def withSign (negative : Bool) (n : Nat) : Int :=
  if negative then -n else n

theorem withSign_step (negative : Bool) (n radix d : Nat) :
    withSign negative (n * radix + d) =
      if negative then withSign negative n * radix - d else withSign negative n * radix + d := by
  cases negative with
  | false => simp [withSign]
  | true =>
      simp only [withSign, if_true, Int.natCast_add, Int.natCast_mul]
      rw [Int.neg_add, Int.neg_mul, Int.sub_eq_add_neg]

def Range.Holds (range : Range) (value : Int) : Prop :=
  range.low ≤ value ∧ value ≤ range.high

instance (range : Range) (value : Int) : Decidable (range.Holds value) :=
  inferInstanceAs (Decidable (_ ∧ _))

/-- What lies between zero and a number of the range is in the range. -/
theorem Range.Holds.of_le {range : Range} {negative : Bool} {m n : Nat} (zero : range.Holds 0)
    (holds : range.Holds (withSign negative n)) (le : m ≤ n) : range.Holds (withSign negative m) := by
  cases negative <;> simp only [Holds, withSign, if_true, Bool.false_eq_true, if_false] at * <;> omega

section Append

variable {radix : Nat} {range : Range} {negative : Bool}

/-- One more digit, as long as the range is not left. -/
theorem appendDigits_cons {n d : Nat} {c : Char} {rest : List Char} (digit : digitValue? radix c = some d)
    (holds : range.Holds (withSign negative (n * radix + d))) :
    appendDigits radix range negative (withSign negative n) (c :: rest) =
      appendDigits radix range negative (withSign negative (n * radix + d)) rest := by
  rw [appendDigits, digit]
  dsimp only
  rw [withSign_step] at holds ⊢
  cases negative with
  | false =>
      simp only [Bool.false_eq_true, if_false] at holds ⊢
      rw [if_neg (Int.not_lt.mpr holds.2)]
  | true =>
      simp only [if_true] at holds ⊢
      rw [if_neg (Int.not_lt.mpr holds.1)]

theorem appendDigits_append (value : Int) (digits rest : List Char) :
    appendDigits radix range negative value (digits ++ rest) =
      (appendDigits radix range negative value digits).bind
        fun next => appendDigits radix range negative next rest := by
  induction digits generalizing value with
  | nil => rfl
  | cons c digits inductionHypothesis =>
      rw [List.cons_append, appendDigits, appendDigits]
      split
      · rfl
      · dsimp only
        repeat' split
        all_goals first | rfl | exact inductionHypothesis _

theorem appendDigits_map_toLower (value : Int) (digits : List Char) :
    appendDigits radix range negative value (digits.map Char.toLower) =
      appendDigits radix range negative value digits := by
  induction digits generalizing value with
  | nil => rfl
  | cons c digits inductionHypothesis =>
      rw [List.map_cons, appendDigits, appendDigits, digitValue?_toLower]
      simp only [inductionHypothesis]

/-- Zeros in front add nothing. -/
theorem appendDigits_zeros (base : 1 < radix) (zero : range.Holds 0) (zeros : Nat) (digits : List Char) :
    appendDigits radix range negative 0 (List.replicate zeros '0' ++ digits) =
      appendDigits radix range negative 0 digits := by
  have start : withSign negative 0 = 0 := by cases negative <;> rfl
  have digit : digitValue? radix '0' = some 0 := by
    rw [digitValue?_eq]
    simpa using Nat.zero_lt_of_lt base
  induction zeros with
  | zero => rfl
  | succ zeros inductionHypothesis =>
      have step : appendDigits radix range negative (withSign negative 0)
            ('0' :: (List.replicate zeros '0' ++ digits)) =
          appendDigits radix range negative (withSign negative (0 * radix + 0))
            (List.replicate zeros '0' ++ digits) :=
        appendDigits_cons digit (by rwa [Nat.zero_mul, start])
      rw [Nat.zero_mul, start] at step
      rw [List.replicate_succ, List.cons_append, step, inductionHypothesis]

/-- The digits of a number of the range are read as the number. -/
theorem appendDigits_toDigits (base : 1 < radix) (few : radix ≤ 16) (zero : range.Holds 0) {n : Nat}
    (holds : range.Holds (withSign negative n)) :
    appendDigits radix range negative 0 (Nat.toDigits radix n) = .ok (withSign negative n) := by
  have start : withSign negative 0 = 0 := by cases negative <;> rfl
  induction n using Nat.strongRecOn with
  | ind n inductionHypothesis =>
      -- The last digit is appended to the number that the others stand for.
      have last : n / radix * radix + n % radix = n := Nat.div_add_mod' n radix
      have below := Nat.mod_lt n (Nat.zero_lt_of_lt base)
      have step : appendDigits radix range negative (withSign negative (n / radix)) [Nat.digitChar (n % radix)] =
          .ok (withSign negative n) := by
        rw [appendDigits_cons (digitValue?_digitChar few below) (by rwa [last]), last]
        rfl
      rw [Nat.toDigits_eq_if base]
      split
      · rename_i small
        rwa [Nat.div_eq_of_lt small, start, Nat.mod_eq_of_lt small] at step
      · rename_i large
        have less : n / radix < n := Nat.div_lt_self (by omega) base
        rw [appendDigits_append, inductionHypothesis _ less (zero.of_le holds (Nat.le_of_lt less))]
        exact step

end Append

/-! ## Written forms -/

/-- The digits are a written form of a number: its own digits, their letters in either
case, behind any number of zeros. -/
def Spells (radix : Nat) (digits : List Char) (n : Nat) : Prop :=
  ∃ zeros, digits.map Char.toLower = List.replicate zeros '0' ++ Nat.toDigits radix n

theorem exists_digit_of_mem_toDigits {radix n : Nat} (base : 1 < radix) {c : Char}
    (member : c ∈ Nat.toDigits radix n) : ∃ d, d < radix ∧ c = Nat.digitChar d := by
  induction n using Nat.strongRecOn with
  | ind n inductionHypothesis =>
      rw [Nat.toDigits_eq_if base] at member
      split at member
      · rename_i small
        exact ⟨n, small, List.mem_singleton.mp member⟩
      · rcases List.mem_append.mp member with earlier | last
        · exact inductionHypothesis _ (Nat.div_lt_self (by omega) base) earlier
        · exact ⟨_, Nat.mod_lt n (Nat.zero_lt_of_lt base), List.mem_singleton.mp last⟩

namespace Spells

variable {radix n : Nat} {digits : List Char} (spells : Spells radix digits n)
include spells

theorem ne_nil : digits ≠ [] := by
  rintro rfl
  rcases spells with ⟨zeros, same⟩
  exact Nat.toDigits_ne_nil (List.append_eq_nil_iff.mp same.symm).2

section Digits

variable (base : 1 < radix) (few : radix ≤ 16)
include base few

theorem digit {c : Char} (member : c ∈ digits) : ∃ d, digitValue? radix c = some d := by
  rcases spells with ⟨zeros, same⟩
  have lower : c.toLower ∈ List.replicate zeros '0' ++ Nat.toDigits radix n := by
    rw [← same]
    exact List.mem_map_of_mem member
  rw [← digitValue?_toLower]
  rcases List.mem_append.mp lower with zero | own
  · rw [List.eq_of_mem_replicate zero]
    exact ⟨0, digitValue?_digitChar few (Nat.zero_lt_of_lt base)⟩
  · rcases exists_digit_of_mem_toDigits base own with ⟨d, below, same⟩
    exact ⟨d, same ▸ digitValue?_digitChar few below⟩

/-- Only digits are in a written form, and nothing that stands elsewhere among the
characters. -/
theorem not_mem {c : Char} (none : digitValue? radix c = none) : c ∉ digits := by
  intro member
  rcases spells.digit base few member with ⟨d, digit⟩
  rw [none] at digit
  cases digit

theorem solid : Solid digits := by
  intro c member
  rcases spells.digit base few member with ⟨d, digit⟩
  exact isBlank_of_digit few digit

variable {range : Range} (zero : range.Holds 0)
include zero

theorem appendDigits_eq {negative : Bool} (holds : range.Holds (withSign negative n)) :
    appendDigits radix range negative 0 digits = .ok (withSign negative n) := by
  rcases spells with ⟨zeros, same⟩
  rw [← appendDigits_map_toLower, same, appendDigits_zeros base zero,
    appendDigits_toDigits base few zero holds]

/-- All written forms of a number of the range are read as the number. -/
theorem readNumeral_eq (holds : range.Holds n) : readNumeral radix range digits = .ok (n : Int) := by
  have read : appendDigits radix range false 0 digits = .ok (n : Int) :=
    spells.appendDigits_eq base few zero holds
  have plus : '+' ∉ digits := spells.not_mem base few (digitValue?_eq radix '+')
  have minus : '-' ∉ digits := spells.not_mem base few (digitValue?_eq radix '-')
  unfold readNumeral
  split
  · exact absurd rfl spells.ne_nil
  · exact absurd List.mem_cons_self plus
  · exact absurd List.mem_cons_self minus
  · exact absurd List.mem_cons_self plus
  · exact absurd List.mem_cons_self minus
  · exact read

/-- Behind a minus sign they are read as its opposite. -/
theorem readNumeral_minus (negative : range.low < 0) (holds : range.Holds (-n)) :
    readNumeral radix range ('-' :: digits) = .ok (-n : Int) := by
  have read : appendDigits radix range true 0 digits = .ok (-n : Int) :=
    spells.appendDigits_eq base few zero holds
  rcases List.exists_cons_of_ne_nil spells.ne_nil with ⟨c, rest, rfl⟩
  rw [readNumeral, if_pos negative]
  · exact read
  · simp

end Digits

/-- A word is read from all its written forms. -/
theorem readWord_eq (base : 1 < radix) (few : radix ≤ 16) {bits : Nat} (fits : n < wordCount bits) :
    readWord radix bits digits = .ok n := by
  have zero : (Range.unsigned bits).Holds 0 := by
    simp only [Range.Holds, Range.unsigned]
    omega
  have holds : (Range.unsigned bits).Holds n := by
    simp only [Range.Holds, Range.unsigned]
    omega
  rw [readWord, spells.readNumeral_eq base few zero holds]
  rfl

/-- Zeros in front make another written form. -/
theorem zeros_append (count : Nat) : Spells radix (List.replicate count '0' ++ digits) n := by
  rcases spells with ⟨zeros, same⟩
  refine ⟨count + zeros, ?_⟩
  rw [List.map_append, same, List.map_replicate, ← List.append_assoc, show '0'.toLower = '0' from rfl,
    List.replicate_append_replicate]

end Spells

theorem Spells.padZeros {radix n : Nat} {text : String} (spells : Spells radix text.toList n) (width : Nat) :
    Spells radix (Text.padZeros width text).toList n := by
  rw [Text.padZeros, String.toList_append, String.toList_ofList]
  exact spells.zeros_append _

theorem toLower_of_mem_toDigits {radix n : Nat} (base : 1 < radix) (few : radix ≤ 16) {c : Char}
    (member : c ∈ Nat.toDigits radix n) : c.toLower = c ∧ c.toUpper.toLower = c := by
  have lower : forall d, d < 16 ->
      (Nat.digitChar d).toLower = Nat.digitChar d ∧ (Nat.digitChar d).toUpper.toLower = Nat.digitChar d := by
    decide
  rcases exists_digit_of_mem_toDigits base member with ⟨d, below, rfl⟩
  exact lower d (Nat.lt_of_lt_of_le below few)

theorem spells_toDigits {radix : Nat} (base : 1 < radix) (few : radix ≤ 16) (n : Nat) :
    Spells radix (Nat.toDigits radix n) n := by
  refine ⟨0, (List.map_congr_left fun c member => ?_).trans (List.map_id _)⟩
  exact (toLower_of_mem_toDigits base few member).1

theorem spells_hexDigits (n : Nat) : Spells 16 (hexDigits n).toList n := by
  rw [hexDigits, String.toList_ofList]
  exact spells_toDigits (by decide) (by decide) n

theorem spells_upperHexDigits (n : Nat) : Spells 16 (upperHexDigits n).toList n := by
  rw [upperHexDigits, String.toList_ofList]
  refine ⟨0, ?_⟩
  rw [List.map_map]
  refine (List.map_congr_left fun c member => ?_).trans (List.map_id _)
  exact (toLower_of_mem_toDigits (by decide) (by decide) member).2

/-! ## Bytes -/

theorem spells_byteHex (b : UInt8) : Spells 16 (byteHex b).toList b.toNat :=
  (spells_upperHexDigits b.toNat).padZeros 2

theorem length_byteHex (b : UInt8) : (byteHex b).toList.length = 2 := by
  have short : (Nat.toDigits 16 b.toNat).length ≤ 2 :=
    (Nat.length_toDigits_le_iff (by decide) (by decide)).mpr b.toNat_lt
  rw [byteHex, padZeros, upperHexDigits]
  simp
  omega

/-- A byte is read back from its two digits. -/
theorem readWord_byteHex (b : UInt8) : readWord 16 8 (byteHex b).toList = .ok b.toNat :=
  (spells_byteHex b).readWord_eq (by decide) (by decide) b.toNat_lt

end Text
end MemoryAtlas

import MemoryAtlas.Proofs.Text.Numerals
import MemoryAtlas.Report.Input

namespace MemoryAtlas

/-!
# How addresses and keys can be written

An address is written in hexadecimal digits, with a mark in front or without one.  Blanks
around it, zeros in front of it and separators between its digits do not count, and every
letter can be in either case.  A key is written in decimal, with a minus sign if it is
negative, or in hexadecimal digits behind a mark.

All of these spellings are read as what they spell.  The mark is taken off however often
it is repeated, which takes no digit along, because its letter is none.
-/

namespace Text

theorem dropPairs_of_not_mem {first second : Char} {text : List Char} (absent : second ∉ text) :
    dropPairs first second text = text := by
  unfold dropPairs
  split
  · rename_i a b rest
    have other : b ≠ second := by
      rintro rfl
      exact absent (List.mem_cons_of_mem a List.mem_cons_self)
    simp [other]
  · rfl

theorem dropPairs_pair (first second : Char) (text : List Char) :
    dropPairs first second (first :: second :: text) = dropPairs first second text := by
  rw [dropPairs]
  simp

end Text

namespace Report

/-! ## Addresses -/

/-- The character that can stand anywhere among the digits of an address. -/
def separator : Char := Char.ofNat 0x60

/-- What can stand in front of the digits of an address. -/
def marks : List (List Char) :=
  [[], ['0', 'x'], ['0', 'X']]

/-- The usual spellings of an address. -/
inductive SpellsAddress : String -> Address -> Prop where
  | spelled {before mark body after : List Char} {a : Address} (blankBefore : Text.Blank before)
      (marked : mark ∈ marks) (digits : Text.Spells 16 (body.filter fun c => c != separator) a.toNat)
      (blankAfter : Text.Blank after) : SpellsAddress (String.ofList (before ++ (mark ++ body) ++ after)) a

section Body

variable {body : List Char} {n : Nat} (digits : Text.Spells 16 (body.filter fun c => c != separator) n)
include digits

/-- Digits and separators are all there is. -/
theorem not_mem_body {c : Char} (noDigit : Text.digitValue? 16 c = none) (other : c ≠ separator) : c ∉ body := by
  intro member
  refine digits.not_mem (by decide) (by decide) noDigit (List.mem_filter.mpr ⟨member, ?_⟩)
  exact bne_iff_ne.mpr other

theorem solid_body : Text.Solid body := by
  intro c member
  by_cases same : c = separator
  · rw [same]
    decide
  · exact digits.solid (by decide) (by decide) c (List.mem_filter.mpr ⟨member, bne_iff_ne.mpr same⟩)

theorem body_ne_nil : body ≠ [] := by
  rintro rfl
  exact digits.ne_nil rfl

/-- The mark comes off, and nothing else. -/
theorem dropPairs_mark {mark : List Char} (marked : mark ∈ marks) :
    Text.dropPairs '0' 'X' (Text.dropPairs '0' 'x' (mark ++ body)) = body := by
  have small : 'x' ∉ body := not_mem_body digits (Text.digitValue?_eq 16 'x') (by decide)
  have large : 'X' ∉ body := not_mem_body digits (Text.digitValue?_eq 16 'X') (by decide)
  simp only [marks, List.mem_cons, List.not_mem_nil, or_false] at marked
  rcases marked with rfl | rfl | rfl
  · rw [List.nil_append, Text.dropPairs_of_not_mem small, Text.dropPairs_of_not_mem large]
  · rw [List.cons_append, List.cons_append, List.nil_append, Text.dropPairs_pair,
      Text.dropPairs_of_not_mem small, Text.dropPairs_of_not_mem large]
  · have absent : 'x' ∉ '0' :: 'X' :: body := by simp [small]
    rw [List.cons_append, List.cons_append, List.nil_append, Text.dropPairs_of_not_mem absent,
      Text.dropPairs_pair, Text.dropPairs_of_not_mem large]

end Body

theorem solid_mark {mark : List Char} (marked : mark ∈ marks) : Text.Solid mark := by
  have listed : forall mark, mark ∈ marks -> Text.Solid mark := by decide
  exact listed mark marked

/-- Every usual spelling of an address is read as the address. -/
theorem SpellsAddress.readAddress_eq {text : String} {a : Address} (spells : SpellsAddress text a) :
    readAddress text = .ok a := by
  cases spells with
  | @spelled before mark body after _ blankBefore marked digits blankAfter =>
      have solid := (solid_mark marked).append (solid_body digits)
      have nonempty : mark ++ body ≠ [] := fun nil => body_ne_nil digits (List.append_eq_nil_iff.mp nil).2
      have read : addressDigits (String.ofList (before ++ (mark ++ body) ++ after)) =
          body.filter fun c => c != separator := by
        rw [addressDigits, String.toList_ofList, Text.trim_append solid nonempty blankBefore blankAfter]
        exact congrArg _ (dropPairs_mark digits marked)
      have some : (body.filter fun c => c != separator).isEmpty = false :=
        List.isEmpty_eq_false_iff.mpr digits.ne_nil
      have word : Text.readWord 16 64 (body.filter fun c => c != separator) = .ok a.toNat :=
        digits.readWord_eq (by decide) (by decide) a.toNat_lt
      rw [readAddress, read]
      simp [some, word]

/-- Digits without separators behind the mark are one of them. -/
theorem SpellsAddress.of_digits {digits : List Char} {a : Address} (spells : Text.Spells 16 digits a.toNat) :
    SpellsAddress (String.ofList ('0' :: 'x' :: digits)) a := by
  have absent : separator ∉ digits :=
    spells.not_mem (by decide) (by decide) (Text.digitValue?_eq 16 separator)
  have kept : digits.filter (fun c => c != separator) = digits :=
    List.filter_eq_self.mpr fun c member => bne_iff_ne.mpr fun same => absent (same ▸ member)
  have blank : Text.Blank [] := fun _ member => nomatch member
  have spelled := SpellsAddress.spelled blank (show ['0', 'x'] ∈ marks by decide) (kept.symm ▸ spells) blank
  rwa [List.nil_append, List.append_nil] at spelled

/-! ## Keys -/

/-- The usual spellings of a key. -/
inductive SpellsKey : String -> Int -> Prop where
  | decimal {before after : List Char} (k : Int) (blankBefore : Text.Blank before)
      (blankAfter : Text.Blank after) : SpellsKey (String.ofList (before ++ (toString k).toList ++ after)) k
  | hexadecimal {before mark body after : List Char} {n : Nat} (blankBefore : Text.Blank before)
      (marked : mark = ['0', 'x'] ∨ mark = ['0', 'X']) (digits : Text.Spells 16 body n)
      (blankAfter : Text.Blank after) : SpellsKey (String.ofList (before ++ (mark ++ body) ++ after)) n

/-- The decimal text of a number: its digits, behind a minus sign if it is negative. -/
theorem toList_toString (k : Int) : (toString k).toList =
    if 0 ≤ k then Nat.toDigits 10 k.toNat else '-' :: Nat.toDigits 10 (-k).toNat := by
  rw [show toString k = k.repr from rfl, Int.repr_eq_if]
  split
  · rw [Nat.repr_eq_ofList_toDigits, String.toList_ofList]
  · simp only [Nat.repr_eq_ofList_toDigits, String.toList_append, String.toList_ofList]
    rfl

/-- A decimal text has neither blanks nor the letter of a mark in it. -/
theorem toString_solid (k : Int) : Text.Solid (toString k).toList ∧ (toString k).toList ≠ [] ∧
    'x' ∉ (toString k).toList ∧ 'X' ∉ (toString k).toList := by
  have spells (n : Nat) : Text.Spells 10 (Nat.toDigits 10 n) n :=
    Text.spells_toDigits (by decide) (by decide) n
  have small (n : Nat) : 'x' ∉ Nat.toDigits 10 n := (spells n).not_mem (by decide) (by decide) (by decide)
  have large (n : Nat) : 'X' ∉ Nat.toDigits 10 n := (spells n).not_mem (by decide) (by decide) (by decide)
  have solid (n : Nat) := (spells n).solid (by decide) (by decide)
  rw [toList_toString]
  split
  · exact ⟨solid _, (spells _).ne_nil, small _, large _⟩
  · have minus : Text.Solid ['-'] := by decide
    exact ⟨minus.append (solid _), by simp, by simp [small], by simp [large]⟩

theorem zero_holds : keyRange.Holds 0 := by
  decide

/-- The decimal text of a number of the range is read as the number. -/
theorem readNumeral_toString {k : Int} (holds : keyRange.Holds k) :
    Text.readNumeral 10 keyRange (toString k).toList = .ok k := by
  have spells (n : Nat) : Text.Spells 10 (Nat.toDigits 10 n) n :=
    Text.spells_toDigits (by decide) (by decide) n
  rw [toList_toString]
  split
  · rename_i nonneg
    have same : (k.toNat : Int) = k := Int.toNat_of_nonneg nonneg
    rw [(spells k.toNat).readNumeral_eq (by decide) (by decide) zero_holds (by rwa [same]), same]
  · rename_i negative
    have same : -((-k).toNat : Int) = k := by omega
    rw [(spells (-k).toNat).readNumeral_minus (by decide) (by decide) zero_holds (by decide) (by rwa [same]), same]

/-- Every usual spelling of a key of the range is read as the key. -/
theorem SpellsKey.readKey_eq {text : String} {k : Int} (holds : keyRange.Holds k) (spells : SpellsKey text k) :
    readKey text = .ok k := by
  cases spells with
  | @decimal before after _ blankBefore blankAfter =>
      rcases toString_solid k with ⟨solid, nonempty, small, large⟩
      rw [readKey, String.toList_ofList, Text.trim_append solid nonempty blankBefore blankAfter]
      split
      · rename_i same
        rw [same] at small
        simp at small
      · rename_i same
        rw [same] at large
        simp at large
      · rw [readNumeral_toString holds]
        rfl
  | @hexadecimal before mark body after n blankBefore marked digits blankAfter =>
      have read := digits.readNumeral_eq (by decide) (by decide) zero_holds holds
      have solid : Text.Solid (mark ++ body) := by
        refine (solid_mark ?_).append (digits.solid (by decide) (by decide))
        rcases marked with rfl | rfl <;> decide
      have nonempty : mark ++ body ≠ [] := fun nil => digits.ne_nil (List.append_eq_nil_iff.mp nil).2
      rw [readKey, String.toList_ofList, Text.trim_append solid nonempty blankBefore blankAfter]
      rcases marked with rfl | rfl
      · show (Text.readNumeral 16 keyRange body).mapError _ = _
        rw [read]
        rfl
      · show (Text.readNumeral 16 keyRange body).mapError _ = _
        rw [read]
        rfl

/-- Every usual spelling is read as what it spells: those of all addresses, and those of
all keys that a word of 128 bits has room for, with either sign. -/
theorem spellings_read_back :
    (forall a text, SpellsAddress text a -> readAddress text = .ok a) ∧
    forall k text, -(wordCount 127 : Int) ≤ k -> k < wordCount 127 -> SpellsKey text k ->
      readKey text = .ok k := by
  refine ⟨fun _ _ spells => spells.readAddress_eq, ?_⟩
  intro k text low high spells
  refine spells.readKey_eq ⟨low, ?_⟩
  show k ≤ wordCount 127 - 1
  omega

/-- The highest address with every freedom taken, and the lowest key between blanks. -/
theorem spellings_read_back_at_extremes :
    let address : String := "\t0X00\x60ffffFFFF\x60ffffFFFF "
    let key : String := " -170141183460469231731687303715884105728\n"
    SpellsAddress address 0xFFFFFFFFFFFFFFFF ∧ readAddress address = .ok 0xFFFFFFFFFFFFFFFF ∧
      SpellsKey key (-170141183460469231731687303715884105728) ∧
      readKey key = .ok (-170141183460469231731687303715884105728) := by
  intro address key
  have written : SpellsAddress address 0xFFFFFFFFFFFFFFFF := by
    let body := "00\x60ffffFFFF\x60ffffFFFF".toList
    have shape : address = String.ofList (['\t'] ++ (['0', 'X'] ++ body) ++ [' ']) := by decide +kernel
    rw [shape]
    refine .spelled (by decide) (by decide) ⟨2, by decide +kernel⟩ (by decide)
  have decimal : SpellsKey key (-170141183460469231731687303715884105728) := by
    let k : Int := -170141183460469231731687303715884105728
    have shape : key = String.ofList ([' '] ++ (toString k).toList ++ ['\n']) := by decide +kernel
    rw [shape]
    exact .decimal k (by decide) (by decide)
  exact ⟨written, spellings_read_back.1 _ _ written, decimal,
    spellings_read_back.2 _ _ (by decide) (by decide) decimal⟩

end Report
end MemoryAtlas

import MemoryAtlas.Proofs.Regex.Escapes

namespace MemoryAtlas
namespace Regex

open Cursor (Passage)

/-!
# Classes in front of a closing

A class ends with a bracket of its own, and it is that bracket which makes its
readers local.  They look ahead in several places, for a minus sign, for a second
character of an operation or for the name of a seven-bit class, but whatever they
see beyond the text in front of the closing is a parenthesis, which is none of
these.  Something has to follow most members; it does, as the bracket is still to
come.
-/

variable {cur mid after : Cursor}

/-! ## Members -/

theorem readMember_passage {primitive : Primitive} (read : readMember cur = some (primitive, after)) :
    Passage cur after (fun cur' after' => after'.rest.length < cur'.rest.length ∧
      (primitive.Dangles after' ∨ readMember cur' = some (primitive, after'))) := by
  rw [readMember] at read
  split at read
  · cases read
  · rename_i rest start
    have escape := readEscape_passage read
    refine (Passage.past ['\\'] start).trans escape ?_
    rintro cur' _ after' - between finish ⟨rest', start', rfl⟩ again
    constructor
    · rw [start']
      exact Nat.lt_succ_of_le (escape.length_le between finish)
    · refine again.imp id fun again => ?_
      simp only [readMember, start', List.cons_append, List.nil_append, again]
  · rename_i c rest unescaped start
    cases read
    refine (Passage.past [c] start).imp ?_
    rintro cur' _ ⟨rest', start', rfl⟩
    constructor
    · rw [start']
      exact Nat.lt_succ_self _
    · refine .inr ?_
      rw [readMember, start']
      dsimp only [List.cons_append, List.nil_append]
      split
      · rename_i impossible
        cases impossible
      · rename_i escaped
        cases escaped
        exact (unescaped rfl).elim
      · rename_i split
        cases split
        rfl

/-- A member that may stand in a class, with the blanks behind it. -/
theorem readMember_skip_passage {primitive : Primitive} (read : readMember cur = some (primitive, after))
    (plain : primitive ≠ .anchor .wordBoundary) :
    Passage cur after.skip (fun cur' after' => after'.rest.length < cur'.rest.length ∧
      ∃ mid', readMember cur' = some (primitive, mid') ∧ mid'.skip = after') := by
  refine (readMember_passage read).trans (Passage.skip after) ?_
  rintro cur' mid' after' - - - ⟨shorter, dangles | again⟩ rfl
  · exact absurd dangles.1 plain
  · exact ⟨Nat.lt_of_le_of_lt (Cursor.length_skip_le mid') shorter, mid', again, rfl⟩

theorem peek?_closed (c : Char) (something : cur.rest ≠ []) (open' : c ≠ ')') :
    (peek? cur.closed == some c) = (peek? cur == some c) := by
  rcases List.exists_cons_of_ne_nil something with ⟨first, rest, start⟩
  have inside : peek? cur = (cur.goTo rest).skip.rest.head? := by
    rw [peek?, start]
  have outside : peek? cur.closed = (cur.goTo rest).closed.skip.rest.head? := by
    rw [peek?, Cursor.closed_rest, start]
    rfl
  rw [inside, outside]
  rcases Cursor.closed_skip (cur.goTo rest) with kept | ⟨swallowed, nothing⟩
  · rw [kept, Cursor.closed_rest]
    cases (cur.goTo rest).skip.rest with
    | nil => simp [closing, open'.symm]
    | cons first rest => rfl
  · rw [swallowed, nothing]

/-- What follows the first member of a possible range. -/
def readRangeEnd (first : Primitive) (cur : Cursor) : Option (CharacterSet × Cursor) :=
  match cur.rest with
  | [] => none
  | '-' :: rest =>
    if peek? cur == some ']' || peek? cur == some '-' then do return (<- first.toSet?, cur)
    else do
      let cur <- cur.advance? rest
      let (last, cur) <- readMember cur
      match first, last with
      | .literal a aByte, .literal b bByte =>
        if a <= b then return (.range a aByte b bByte, cur) else none
      | _, _ => none
  | _ => do return (<- first.toSet?, cur)

theorem readRange_eq (cur : Cursor) :
    readRange cur = (readMember cur).bind (fun member => readRangeEnd member.1 member.2.skip) := rfl

theorem readRangeEnd_passage {first : Primitive} {set : CharacterSet}
    (read : readRangeEnd first cur = some (set, after)) :
    first ≠ .anchor .wordBoundary ∧ Passage cur after (fun cur' after' =>
      after'.rest ≠ [] -> readRangeEnd first cur' = some (set, after')) := by
  rw [readRangeEnd] at read
  split at read
  · cases read
  · rename_i rest start
    split at read
    · rename_i single
      rcases Option.bind_eq_some_iff.mp read with ⟨_, isSet, made⟩
      cases made
      refine ⟨(by rintro rfl; cases isSet), Passage.here ?_⟩
      rintro cur' rfl something
      rcases Cursor.closed_cons start (by decide) with ⟨rest', start', -⟩
      rw [peek?_closed _ something (by decide), peek?_closed _ something (by decide)] at single
      simp only [readRangeEnd, start']
      rw [if_pos single, isSet]
      rfl
    · rename_i ranged
      rcases Option.bind_eq_some_iff.mp read with ⟨mid, advanced, read⟩
      rcases Option.bind_eq_some_iff.mp read with ⟨⟨last, _⟩, member, read⟩
      dsimp only at read
      split at read
      · split at read
        · rename_i ordered
          cases read
          refine ⟨Primitive.noConfusion, ?_⟩
          refine (Passage.overAdvance start advanced).trans (readMember_passage member) ?_
          rintro cur' mid' after' begins - - ⟨rest', start', -, again⟩ ⟨shorter, dangles | member'⟩ something
          · cases dangles.1
          · have follows : mid'.rest ≠ [] := List.ne_nil_of_length_pos (Nat.zero_lt_of_lt shorter)
            have nonempty : cur'.rest ≠ [] := by simp [start']
            rw [begins, peek?_closed _ nonempty (by decide), peek?_closed _ nonempty (by decide)] at ranged
            simp only [readRangeEnd, start']
            rw [if_neg ranged, again follows, Option.bind_eq_bind, Option.bind_some, member', Option.bind_eq_bind,
              Option.bind_some]
            exact if_pos ordered
        · cases read
      · cases read
  · rename_i something' unranged
    rcases Option.bind_eq_some_iff.mp read with ⟨_, isSet, made⟩
    cases made
    refine ⟨(by rintro rfl; cases isSet), Passage.here ?_⟩
    rintro cur' rfl something
    rw [readRangeEnd]
    split
    · rename_i nothing
      exact absurd nothing something
    · rename_i rest start
      exact absurd (congrArg (· ++ closing) start) (unranged _)
    · simp [isSet]

theorem readRange_passage {set : CharacterSet} (read : readRange cur = some (set, after)) :
    Passage cur after (fun cur' after' => after'.rest.length < cur'.rest.length ∧
      (after'.rest ≠ [] -> readRange cur' = some (set, after'))) := by
  rw [readRange_eq] at read
  rcases Option.bind_eq_some_iff.mp read with ⟨⟨first, mid⟩, member, behind⟩
  rcases readRangeEnd_passage behind with ⟨plain, passage⟩
  refine (readMember_skip_passage member plain).trans passage ?_
  rintro cur' mid' after' - between finish ⟨shorter, last', member', rfl⟩ again
  refine ⟨Nat.lt_of_le_of_lt (passage.length_le between finish) shorter, fun something => ?_⟩
  rw [readRange_eq, member']
  exact again something

/-! ## Named classes -/

/-- What is cut off in front of the first character that fails a test does not depend
on what comes behind that character. -/
theorem cut_again (test : Char -> Bool) {c : Char} (fails : test c = false) (text more : List Char) :
    (text.takeWhile test ++ c :: more).takeWhile test = text.takeWhile test ∧
      (text.takeWhile test ++ c :: more).dropWhile test = c :: more := by
  have passes : forall d, d ∈ text.takeWhile test -> test d = true := List.all_eq_true.mp List.all_takeWhile
  constructor
  · rw [List.takeWhile_append_of_pos passes, List.takeWhile_cons, fails]
    exact List.append_nil _
  · rw [List.dropWhile_append_of_pos passes, List.dropWhile_cons, fails]
    rfl

/-- A seven-bit class behind its colon and its sign. -/
def readClassName? (negated : Bool) (text : List Char) : Option (CharacterSet × List Char) :=
  match text.dropWhile (· != ':') with
  | ':' :: ']' :: rest =>
    if classNames.contains (String.ofList (text.takeWhile (· != ':'))) then
      some (.named (text.takeWhile (· != ':')) negated, rest)
    else none
  | _ => none

/-- A possible sign of negation, and the text behind it. -/
def readSign (text : List Char) : Bool × List Char :=
  match text with
  | '^' :: rest => (true, rest)
  | rest => (false, rest)

theorem readNamedClass?_eq (text : List Char) :
    readNamedClass? (':' :: text) = readClassName? (readSign text).1 (readSign text).2 := rfl

theorem readNamedClass?_negated (text : List Char) :
    readNamedClass? (':' :: '^' :: text) = readClassName? true text := rfl

theorem readNamedClass?_plain {text : List Char} (plain : forall rest, text ≠ '^' :: rest) :
    readNamedClass? (':' :: text) = readClassName? false text := by
  rw [readNamedClass?_eq]
  unfold readSign
  split
  · rename_i rest
    exact absurd rfl (plain rest)
  · rfl

theorem readClassName?_taken {negated : Bool} {text rest : List Char} {set : CharacterSet}
    (read : readClassName? negated text = some (set, rest)) :
    ∃ name, text = name ++ ':' :: ']' :: rest ∧
      forall more, readClassName? negated (name ++ ':' :: ']' :: more) = some (set, more) := by
  unfold readClassName? at read
  split at read
  · rename_i behind cut
    split at read
    · rename_i known
      cases read
      refine ⟨text.takeWhile (· != ':'), ?_, fun more => ?_⟩
      · rw [← cut, List.takeWhile_append_dropWhile]
      · have again := cut_again (· != ':') (show (':' != ':') = false by rfl) text (']' :: more)
        rw [readClassName?, again.1, again.2]
        exact if_pos known
    · cases read
  · cases read

/-- A named class is told by its own text, whatever comes behind it. -/
theorem readNamedClass?_taken {text rest : List Char} {set : CharacterSet}
    (read : readNamedClass? text = some (set, rest)) :
    ∃ taken, text = taken ++ rest ∧ forall more, readNamedClass? (taken ++ more) = some (set, more) := by
  rcases text with _ | ⟨first, body⟩
  · cases read
  by_cases colon : first = ':'
  · subst colon
    by_cases caret : ∃ inner, body = '^' :: inner
    · rcases caret with ⟨inner, rfl⟩
      rw [readNamedClass?_negated] at read
      rcases readClassName?_taken read with ⟨name, split, again⟩
      refine ⟨':' :: '^' :: name ++ [':', ']'], by simp [split], fun more => ?_⟩
      rw [List.append_assoc]
      exact again more
    · have plain : forall inner, body ≠ '^' :: inner := fun inner same => caret ⟨inner, same⟩
      rw [readNamedClass?_plain plain] at read
      rcases readClassName?_taken read with ⟨name, split, again⟩
      refine ⟨':' :: name ++ [':', ']'], by simp [split], fun more => ?_⟩
      rw [← again more, List.append_assoc]
      refine readNamedClass?_plain fun inner same => ?_
      cases name with
      | nil => cases same
      | cons c name =>
          rw [(List.cons.inj same).1] at split
          exact plain _ split
  · unfold readNamedClass? at read
    split at read
    · rename_i split
      exact absurd (List.cons.inj split).1 colon
    · cases read

/-! ## The start of a class -/

theorem readLeadingDashes_passage {fuel : Nat} {done members : List CharacterSet}
    (read : readLeadingDashes fuel done cur = some (members, after)) :
    Passage cur after (fun cur' after' => after'.rest ≠ [] ->
      forall fuel', cur'.rest.length < fuel' -> readLeadingDashes fuel' done cur' = some (members, after')) := by
  induction fuel generalizing done cur with
  | zero => cases read
  | succ fuel inductionHypothesis =>
      rw [readLeadingDashes] at read
      split at read
      · rename_i rest start
        rcases Option.bind_eq_some_iff.mp read with ⟨mid, advanced, read⟩
        have onward := inductionHypothesis read
        refine (Passage.overAdvance start advanced).trans onward ?_
        rintro cur' mid' after' - between finish ⟨rest', start', shorter, step⟩ again something fuel' enough
        rcases exists_fuel enough with ⟨fuel', rfl⟩
        rw [start'] at enough
        simp only [readLeadingDashes, start']
        rw [step (onward.ne_nil between finish something), Option.bind_eq_bind, Option.bind_some]
        exact again something fuel' (Nat.lt_of_le_of_lt shorter (Nat.lt_of_succ_lt_succ enough))
      · rename_i undashed
        cases read
        refine Passage.here ?_
        rintro cur' rfl - fuel' enough
        rcases exists_fuel enough with ⟨fuel', rfl⟩
        rw [readLeadingDashes]
        split
        · rename_i start
          exact absurd (congrArg (· ++ closing) start) (undashed _)
        · rfl

/-- The sign of negation at the start of a class. -/
def readCaret (cur : Cursor) : Option (Bool × Cursor) :=
  match cur.rest with
  | '^' :: rest => do pure (true, <- cur.advance? rest)
  | _ => pure (false, cur)

/-- A bracket that stands first in a class. -/
def readFirstBracket (negated : Bool) (members : List CharacterSet) (cur : Cursor) :
    Option (Bool × List CharacterSet × Cursor) :=
  match members, cur.rest with
  | [], ']' :: rest => do return (negated, [.literal ']' false], <- cur.advance? rest)
  | _, _ => some (negated, members, cur)

/-- The members that are characters only because they stand first in a class. -/
def readFirstMembers (negated : Bool) (cur : Cursor) : Option (Bool × List CharacterSet × Cursor) :=
  (readLeadingDashes (cur.rest.length + 1) [] cur).bind (fun dashes => readFirstBracket negated dashes.1 dashes.2)

theorem readOpening_eq (cur : Cursor) :
    readOpening cur = (cur.advance? cur.rest).bind (fun cur =>
      (readCaret cur).bind (fun sign => readFirstMembers sign.1 sign.2)) := by
  rw [readOpening, Option.bind_eq_bind]
  congr 1
  funext cur
  dsimp only
  split
  · rename_i rest start
    have signed : readCaret cur = (cur.advance? rest).map (fun after => (true, after)) := by
      simp only [readCaret, start]
      cases cur.advance? rest <;> rfl
    rw [signed]
    cases cur.advance? rest <;> rfl
  · rename_i unsigned
    have plain : readCaret cur = some (false, cur) := by
      unfold readCaret
      split
      · exact absurd (by assumption) (unsigned _)
      · rfl
    rw [plain]
    rfl

theorem readCaret_passage {negated : Bool} (read : readCaret cur = some (negated, after)) :
    Passage cur after (fun cur' after' => after'.rest ≠ [] -> readCaret cur' = some (negated, after')) := by
  rw [readCaret] at read
  split at read
  · rename_i rest start
    rcases Option.bind_eq_some_iff.mp read with ⟨_, advanced, made⟩
    cases made
    refine (Passage.overAdvance start advanced).imp ?_
    rintro cur' after' ⟨rest', start', -, step⟩ something
    simp only [readCaret, start']
    rw [step something]
    rfl
  · rename_i unsigned
    cases read
    refine Passage.here ?_
    rintro cur' rfl -
    rw [readCaret]
    split
    · rename_i start
      exact absurd (congrArg (· ++ closing) start) (unsigned _)
    · rfl

theorem readFirstBracket_passage {negated negated' : Bool} {members members' : List CharacterSet}
    (read : readFirstBracket negated members cur = some (negated', members', after)) :
    Passage cur after (fun cur' after' =>
      after'.rest ≠ [] -> readFirstBracket negated members cur' = some (negated', members', after')) := by
  unfold readFirstBracket at read
  split at read
  · rename_i rest start
    rcases Option.bind_eq_some_iff.mp read with ⟨_, advanced, made⟩
    cases made
    refine (Passage.overAdvance start advanced).imp ?_
    rintro cur' after' ⟨rest', start', -, step⟩ something
    simp only [readFirstBracket, start']
    rw [step something]
    rfl
  · rename_i other
    cases read
    refine Passage.here ?_
    rintro cur' rfl -
    unfold readFirstBracket
    split
    · rename_i start
      exact absurd (congrArg (· ++ closing) start) (other _ rfl)
    · rfl

theorem readOpening_passage {negated : Bool} {members : List CharacterSet}
    (read : readOpening cur = some (negated, members, after)) :
    Passage cur after (fun cur' after' => after'.rest ≠ [] -> readOpening cur' = some (negated, members, after')) := by
  rw [readOpening_eq] at read
  rcases Option.bind_eq_some_iff.mp read with ⟨start, advanced, read⟩
  rcases Option.bind_eq_some_iff.mp read with ⟨⟨sign, signed⟩, caret, read⟩
  rcases Option.bind_eq_some_iff.mp read with ⟨⟨dashes, dashed⟩, leading, bracket⟩
  have dashesRead : Passage signed dashed (fun cur' after' =>
      after'.rest ≠ [] -> readLeadingDashes (cur'.rest.length + 1) [] cur' = some (dashes, after')) :=
    (readLeadingDashes_passage leading).imp fun cur' _ again something => again something _ (Nat.lt_succ_self _)
  have membersRead : Passage signed after (fun cur' after' =>
      after'.rest ≠ [] -> readFirstMembers sign cur' = some (negated, members, after')) :=
    dashesRead.bind (readFirstBracket_passage bracket)
  have signRead : Passage start after (fun cur' after' => after'.rest ≠ [] ->
      (readCaret cur').bind (fun sign => readFirstMembers sign.1 sign.2) = some (negated, members, after')) :=
    (readCaret_passage caret).bind membersRead
  refine (Passage.advance advanced).trans signRead ?_
  intro cur' mid' after' _ between finish before again something
  rw [readOpening_eq, before (signRead.ne_nil between finish something)]
  exact again something

/-! ## Members up to the closing bracket -/

/-- A class can be read again with fuel for twice the text that is left. -/
def ReadsClass (fuel : Nat) : Prop :=
  forall cur set after, readClass fuel cur = some (set, after) -> Passage cur after (fun cur' after' =>
    forall fuel', 2 * cur'.rest.length + 2 <= fuel' -> readClass fuel' cur' = some (set, after'))

/-- Members are read again, and the bracket that ends them has been read. -/
def ReadAgain (waiting : Option (SetOperation × CharacterSet)) (done : List CharacterSet) (set : CharacterSet)
    (cur' after' : Cursor) : Prop :=
  after'.rest.length < cur'.rest.length ∧
    forall fuel', 2 * cur'.rest.length + 1 <= fuel' -> readMembers fuel' waiting done cur' = some (set, after')

/-- So can the members of a class. -/
def ReadsMembers (fuel : Nat) : Prop :=
  forall waiting done cur set after, readMembers fuel waiting done cur = some (set, after) ->
    Passage cur after (ReadAgain waiting done set)

theorem readsClass_succ {fuel : Nat} (inside : ReadsMembers fuel) : ReadsClass (fuel + 1) := by
  intro cur set after read
  rw [readClass] at read
  rcases Option.bind_eq_some_iff.mp read with ⟨⟨negated, members, mid⟩, opening, read⟩
  rcases Option.bind_eq_some_iff.mp read with ⟨⟨inner, _⟩, members, made⟩
  cases made
  have opened := readOpening_passage opening
  refine opened.trans (inside _ _ _ _ _ members) ?_
  rintro cur' mid' after' start between - before ⟨shorter, again⟩ fuel' enough
  rcases exists_fuel enough with ⟨fuel', rfl⟩
  have follows : mid'.rest ≠ [] := List.ne_nil_of_length_pos (Nat.zero_lt_of_lt shorter)
  have remaining := opened.length_le start between
  rw [readClass, before follows, Option.bind_eq_bind, Option.bind_some]
  dsimp only
  rw [again fuel' (by omega)]
  rfl

variable {fuel : Nat} {waiting waiting' : Option (SetOperation × CharacterSet)} {done done' : List CharacterSet}
  {set : CharacterSet}

/-- Members that are read behind some text, with other members waiting. -/
theorem Passage.membersBehind (taken : List Char) {rest : List Char} (start : cur.skip.rest = taken ++ rest)
    (something : taken ≠ [])
    (unfolds : forall (cur' : Cursor) rest' fuel', cur'.skip.rest = taken ++ rest' ->
      readMembers (fuel' + 1) waiting done cur' = readMembers fuel' waiting' done' (cur'.goTo rest'))
    (onward : Passage (cur.goTo rest) after (ReadAgain waiting' done' set)) :
    Passage cur after (ReadAgain waiting done set) := by
  have counted := List.length_pos_iff.mpr something
  refine (Passage.skipPast taken start).trans onward ?_
  rintro cur' _ after' - - - ⟨rest', start', rfl, bound⟩ ⟨shorter, again⟩
  rw [Cursor.goTo_rest] at shorter again
  refine ⟨by omega, fun fuel' enough => ?_⟩
  rcases exists_fuel enough with ⟨fuel', rfl⟩
  rw [unfolds cur' rest' fuel' start']
  exact again fuel' (by omega)

/-- A class among the members, which has not got one of the known names. -/
theorem Passage.membersBehindClass (nested : ReadsClass fuel) {rest : List Char} {inner : CharacterSet}
    (start : cur.skip.rest = '[' :: rest) (unnamed : readNamedClass? rest = none)
    (bracketed : readClass fuel (cur.goTo rest) = some (inner, mid))
    (onward : Passage mid after (ReadAgain waiting (inner :: done) set)) :
    Passage cur after (ReadAgain waiting done set) := by
  have class' := nested _ _ _ bracketed
  refine ((Passage.skipOver start).comp class').trans onward ?_
  rintro cur' mid' after' - between - ⟨_, begins, ⟨rest', start', rfl, bound⟩, again⟩ ⟨shorter, again'⟩
  have unnamed' : readNamedClass? rest' = none := by
    cases named : readNamedClass? rest' with
    | none => rfl
    | some known =>
        rcases readNamedClass?_taken named with ⟨taken, split, named'⟩
        have closed : rest = taken ++ (known.2 ++ closing) := by
          rw [← List.append_assoc, ← split]
          exact congrArg Cursor.rest begins
        rw [closed, named'] at unnamed
        cases unnamed
  have remaining := class'.length_le begins between
  rw [Cursor.goTo_rest] at again remaining
  refine ⟨by omega, fun fuel' enough => ?_⟩
  rcases exists_fuel enough with ⟨fuel', rfl⟩
  simp only [readMembers, start', unnamed', Cursor.skip_goTo, again fuel' (by omega)]
  exact again' fuel' (by omega)

theorem readsMembers_succ (nested : ReadsClass fuel) (inside : ReadsMembers fuel) : ReadsMembers (fuel + 1) := by
  intro waiting done cur set after read
  rw [readMembers] at read
  simp only [Cursor.skip_goTo] at read
  split at read
  · cases read
  · rename_i rest start
    split at read
    · rename_i known behind named
      rcases readNamedClass?_taken named with ⟨taken, rfl, named'⟩
      refine Passage.membersBehind ('[' :: taken) start (List.cons_ne_nil _ _) ?_ (inside _ _ _ _ _ read)
      intro cur' rest' fuel' start'
      simp only [readMembers, start', List.cons_append, named', Cursor.skip_goTo]
    · rename_i unnamed
      split at read
      · rename_i inner mid bracketed
        exact Passage.membersBehindClass nested start unnamed bracketed (inside _ _ _ _ _ read)
      · cases read
  · rename_i rest start
    cases read
    refine (Passage.skipOver start).imp ?_
    rintro cur' _ ⟨rest', start', rfl, shorter⟩
    refine ⟨shorter, fun fuel' enough => ?_⟩
    rcases exists_fuel enough with ⟨fuel', rfl⟩
    simp only [readMembers, start', Cursor.skip_goTo]
  · rename_i rest start
    refine Passage.membersBehind ['&', '&'] start (List.cons_ne_nil _ _) ?_ (inside _ _ _ _ _ read)
    intro cur' rest' fuel' start'
    simp only [readMembers, start', List.cons_append, List.nil_append, Cursor.skip_goTo]
  · rename_i rest start
    refine Passage.membersBehind ['-', '-'] start (List.cons_ne_nil _ _) ?_ (inside _ _ _ _ _ read)
    intro cur' rest' fuel' start'
    simp only [readMembers, start', List.cons_append, List.nil_append, Cursor.skip_goTo]
  · rename_i rest start
    refine Passage.membersBehind ['~', '~'] start (List.cons_ne_nil _ _) ?_ (inside _ _ _ _ _ read)
    intro cur' rest' fuel' start'
    simp only [readMembers, start', List.cons_append, List.nil_append, Cursor.skip_goTo]
  · rename_i unbracketed unclosed unjoined undiminished undiffering
    split at read
    · rename_i first mid ranged
      refine ((Passage.skip cur).comp (readRange_passage ranged)).trans (inside _ _ _ _ _ read) ?_
      rintro cur' mid' after' - - - ⟨_, between, rfl, bound, member⟩ ⟨shorter, again⟩
      have closed : cur.skip.rest = cur'.skip.rest ++ closing := congrArg Cursor.rest between
      have skipped := Cursor.length_skip_le cur'
      refine ⟨by omega, fun fuel' enough => ?_⟩
      rcases exists_fuel enough with ⟨fuel', rfl⟩
      -- A text that begins like one of the other members does so in front of the closing.
      rw [readMembers]
      split
      · rename_i nothing
        rw [nothing] at bound
        exact absurd bound (Nat.not_lt_zero _)
      · rename_i start
        exact absurd (closed.trans (congrArg (· ++ closing) start)) (unbracketed _)
      · rename_i start
        exact absurd (closed.trans (congrArg (· ++ closing) start)) (unclosed _)
      · rename_i start
        exact absurd (closed.trans (congrArg (· ++ closing) start)) (unjoined _)
      · rename_i start
        exact absurd (closed.trans (congrArg (· ++ closing) start)) (undiminished _)
      · rename_i start
        exact absurd (closed.trans (congrArg (· ++ closing) start)) (undiffering _)
      · rw [member (List.ne_nil_of_length_pos (Nat.zero_lt_of_lt shorter))]
        exact again fuel' (by omega)
    · cases read

theorem readsClass_readsMembers (fuel : Nat) : ReadsClass fuel ∧ ReadsMembers fuel := by
  induction fuel with
  | zero =>
      constructor
      · intro cur set after read
        cases read
      · intro waiting done cur set after read
        cases read
  | succ fuel inductionHypothesis =>
      exact ⟨readsClass_succ inductionHypothesis.2, readsMembers_succ inductionHypothesis.1 inductionHypothesis.2⟩

end Regex
end MemoryAtlas

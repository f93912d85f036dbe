import MemoryAtlas.Proofs.Regex.Passage
import MemoryAtlas.Regex.Reader

namespace MemoryAtlas
namespace Regex

open Cursor (Passage)

/-!
# The start of a group in front of a closing

Behind the parenthesis of a group there may be a name or flags.  A name ends at an
angle, which is not in the closing.  Flags end at a colon or at a parenthesis, and
with that the closing begins; so they are read without the closing if something is
left in front of it.
-/

variable {cur after : Cursor}

theorem readFlags_passage {text rest : List Char} {negated : Bool} {g g' : FlagGroup}
    (read : readFlags negated g text = some (g', rest)) (cur : Cursor) :
    Passage (cur.goTo text) (cur.goTo rest) (fun cur' after' => after'.rest ≠ [] ->
      readFlags negated g cur'.rest = some (g', after'.rest) ∧ cur'.goTo after'.rest = after') := by
  induction text generalizing negated g with
  | nil => cases read
  | cons c text inductionHypothesis =>
      have onward : forall {negated' : Bool} {g₁ : FlagGroup},
          (forall text', readFlags negated g (c :: text') = readFlags negated' g₁ text') ->
          readFlags negated' g₁ text = some (g', rest) ->
          Passage (cur.goTo (c :: text)) (cur.goTo rest) (fun cur' after' => after'.rest ≠ [] ->
            readFlags negated g cur'.rest = some (g', after'.rest) ∧ cur'.goTo after'.rest = after') := by
        intro negated' g₁ unfolds inner
        have step : Passage (cur.goTo (c :: text)) (cur.goTo text) (fun cur' after' =>
          ∃ rest', cur'.rest = [c] ++ rest' ∧ cur'.goTo rest' = after') := Passage.past [c] rfl
        refine step.trans (inductionHypothesis inner) ?_
        rintro cur' _ after' - - - ⟨rest', start', rfl⟩ again something
        rw [start']
        exact ⟨(unfolds rest').trans (again something).1, (again something).2⟩
      rw [readFlags] at read
      split at read
      · rename_i ends
        split at read
        · cases read
        rename_i complete
        cases read
        refine Passage.here ?_
        intro cur' start something
        rcases List.exists_cons_of_ne_nil something with ⟨c', text', start'⟩
        have same := congrArg Cursor.rest start
        rw [Cursor.closed_rest, start'] at same
        refine ⟨?_, rfl⟩
        rw [start', ← (List.cons.inj same).1, readFlags, if_pos ends, if_neg complete]
      · rename_i goes
        split at read
        · rename_i isDash
          split at read
          · cases read
          rename_i first
          exact onward (fun text' => by rw [readFlags, if_neg goes, if_pos isDash, if_neg first]) read
        · rename_i isFlag
          split at read
          · cases read
          rename_i f known
          split at read
          · cases read
          rename_i fresh
          split at read
          · rename_i off
            exact onward (fun text' => by
              simp only [readFlags, if_neg goes, if_neg isFlag, known, if_neg fresh, if_pos off]) read
          · rename_i on
            exact onward (fun text' => by
              simp only [readFlags, if_neg goes, if_neg isFlag, known, if_neg fresh, if_neg on]) read

theorem readName_passage {done text name rest : List Char} (read : readName done text = some (name, rest))
    (cur : Cursor) : Passage (cur.goTo text) (cur.goTo rest) (fun cur' after' =>
      readName done cur'.rest = some (name, after'.rest) ∧ cur'.goTo after'.rest = after') := by
  induction text generalizing done with
  | nil => cases read
  | cons c text inductionHypothesis =>
      have step : Passage (cur.goTo (c :: text)) (cur.goTo text) (fun cur' after' =>
        ∃ rest', cur'.rest = [c] ++ rest' ∧ cur'.goTo rest' = after') := Passage.past [c] rfl
      rw [readName] at read
      split at read
      · rename_i ends
        split at read
        · cases read
        rename_i something
        cases read
        refine step.imp ?_
        rintro cur' _ ⟨rest', start', rfl⟩
        refine ⟨?_, rfl⟩
        rw [start', List.singleton_append, readName, if_pos ends, if_neg something]
        rfl
      split at read
      · rename_i goes isCharacter
        refine step.trans (inductionHypothesis read) ?_
        rintro cur' _ after' - - - ⟨rest', start', rfl⟩ ⟨again, same⟩
        refine ⟨?_, same⟩
        rw [start', List.singleton_append, readName, if_neg goes, if_pos isCharacter]
        exact again
      · cases read

/-- The name of a group behind its angle, which has to be new. -/
def readGroupName (cur : Cursor) : Option (Opening × Cursor) :=
  match readName [] cur.rest with
  | some (name, rest) =>
    if cur.names.contains name then none
    else some (.group none, { cur with rest := rest, names := name :: cur.names })
  | none => none

/-- The flags of a group behind its question mark. -/
def readGroupFlags (cur : Cursor) : Option (Opening × Cursor) :=
  match readFlags false ⟨[], []⟩ cur.rest with
  | some (g, ')' :: rest) =>
    if g.on.isEmpty && g.off.isEmpty then none else some (.setFlags g, cur.goTo rest)
  | some (g, ':' :: rest) => some (.group (some g), cur.goTo rest)
  | _ => none

theorem readGroupName_passage {opening : Opening} (read : readGroupName cur = some (opening, after)) :
    Passage cur after (fun cur' after' => readGroupName cur' = some (opening, after')) := by
  unfold readGroupName at read
  split at read
  · rename_i name rest named
    split at read
    · cases read
    rename_i fresh
    cases read
    refine (readName_passage named cur).trans (Passage.renamed (cur.goTo rest) (name :: cur.names)) ?_
    rintro cur' mid' _ begins - - ⟨named', same⟩ rfl
    have names : (cur.goTo cur.rest).names = cur'.closed.names := congrArg Cursor.names begins
    change cur.names = cur'.names at names
    simp only [readGroupName, named']
    rw [if_neg (names ▸ fresh), names, ← same]
    rfl
  · cases read

theorem readGroupFlags_passage {opening : Opening} (read : readGroupFlags cur = some (opening, after)) :
    Passage cur after (fun cur' after' => readGroupFlags cur' = some (opening, after')) := by
  unfold readGroupFlags at read
  split at read
  · rename_i g rest flagged
    split at read
    · cases read
    rename_i something
    cases read
    refine (readFlags_passage flagged cur).trans (Passage.past [')'] rfl) ?_
    rintro cur' _ after' - - - again ⟨rest', start', rfl⟩
    rcases again (by simp [start']) with ⟨flagged', same⟩
    rw [start'] at flagged'
    simp only [readGroupFlags, flagged', List.singleton_append]
    rw [if_neg something, ← same]
    rfl
  · rename_i g rest flagged
    cases read
    refine (readFlags_passage flagged cur).trans (Passage.past [':'] rfl) ?_
    rintro cur' _ after' - - - again ⟨rest', start', rfl⟩
    rcases again (by simp [start']) with ⟨flagged', same⟩
    rw [start'] at flagged'
    simp only [readGroupFlags, flagged', List.singleton_append]
    rw [← same]
    rfl
  · cases read

/-- What an opening parenthesis begins, blanks and remarks behind it skipped. -/
def readGroupMark (cur : Cursor) : Option (Opening × Cursor) :=
  match cur.rest with
  | '?' :: '=' :: _ => none
  | '?' :: '!' :: _ => none
  | '?' :: '<' :: '=' :: _ => none
  | '?' :: '<' :: '!' :: _ => none
  | '?' :: 'P' :: '<' :: rest => readGroupName (cur.goTo rest)
  | '?' :: '<' :: rest => readGroupName (cur.goTo rest)
  | '?' :: rest => readGroupFlags (cur.goTo rest)
  | _ => some (.group none, cur)

theorem readGroupOpening_eq (cur : Cursor) : readGroupOpening cur = readGroupMark cur.skip := rfl

theorem readGroupMark_passage {opening : Opening} (read : readGroupMark cur = some (opening, after)) :
    Passage cur after (fun cur' after' => readGroupMark cur' = some (opening, after')) := by
  unfold readGroupMark at read
  split at read
  · cases read
  · cases read
  · cases read
  · cases read
  · rename_i rest start
    refine (Passage.past ['?', 'P', '<'] start).trans (readGroupName_passage read) ?_
    rintro cur' _ after' - - - ⟨rest', start', rfl⟩ name'
    rw [← name']
    simp only [readGroupMark, start', List.cons_append, List.nil_append]
  · rename_i rest unequal unlike start
    refine (Passage.past ['?', '<'] start).trans (readGroupName_passage read) ?_
    rintro cur' _ after' - between - ⟨rest', start', rfl⟩ name'
    obtain rfl : rest = rest' ++ closing := congrArg Cursor.rest between
    -- What the text does not begin with in front of the closing it does not begin with alone.
    have unequal' : forall more, rest' = '=' :: more -> False := fun _ same => unequal _ (congrArg (· ++ closing) same)
    have unlike' : forall more, rest' = '!' :: more -> False := fun _ same => unlike _ (congrArg (· ++ closing) same)
    rw [← name']
    simp only [readGroupMark, start', List.cons_append, List.nil_append]
  · rename_i rest unequal unlike unequalBehind unlikeBehind unnamed unangled start
    refine (Passage.past ['?'] start).trans (readGroupFlags_passage read) ?_
    rintro cur' _ after' - between - ⟨rest', start', rfl⟩ flags'
    obtain rfl : rest = rest' ++ closing := congrArg Cursor.rest between
    have closed : forall {text : List Char}, rest' = text -> rest' ++ closing = text ++ closing :=
      congrArg (· ++ closing)
    have unequal' : forall more, rest' = '=' :: more -> False := fun _ same => unequal _ (closed same)
    have unlike' : forall more, rest' = '!' :: more -> False := fun _ same => unlike _ (closed same)
    have unequalBehind' : forall more, rest' = '<' :: '=' :: more -> False :=
      fun _ same => unequalBehind _ (closed same)
    have unlikeBehind' : forall more, rest' = '<' :: '!' :: more -> False :=
      fun _ same => unlikeBehind _ (closed same)
    have unnamed' : forall more, rest' = 'P' :: '<' :: more -> False := fun _ same => unnamed _ (closed same)
    have unangled' : forall more, rest' = '<' :: more -> False := fun _ same => unangled _ (closed same)
    rw [← flags']
    simp only [readGroupMark, start', List.cons_append, List.nil_append]
  · rename_i unmarked
    cases read
    refine Passage.here ?_
    rintro cur' rfl
    have plain : forall rest, cur'.rest ≠ '?' :: rest :=
      fun rest start => unmarked _ (congrArg (· ++ closing) start)
    unfold readGroupMark
    split
    all_goals first
      | rfl
      | exact absurd (by assumption) (plain _)

theorem readGroupOpening_passage {opening : Opening} (read : readGroupOpening cur = some (opening, after)) :
    Passage cur after (fun cur' after' => readGroupOpening cur' = some (opening, after')) := by
  rw [readGroupOpening_eq] at read
  refine (Passage.skip cur).trans (readGroupMark_passage read) ?_
  rintro cur' _ after' - - - rfl mark
  exact (readGroupOpening_eq cur').trans mark

end Regex
end MemoryAtlas

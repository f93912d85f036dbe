import MemoryAtlas.Proofs.Regex.Classes
import MemoryAtlas.Proofs.Regex.Groups
import MemoryAtlas.Proofs.Regex.Repetition

namespace MemoryAtlas
namespace Regex

open Cursor (Passage)

/-!
# Rows and branches in front of a closing

Rows of items are local, and so the whole reader is: branches that are read in
front of a closing, up to the end of the text or to a parenthesis in it, are read
just so without the closing.  The fuel is treated along the way.  What is read with
any amount of fuel in front of the closing is read without it as soon as there is
fuel for twice the text.

A row is read item by item, and what an item is depends on its first character.  So
the items are taken one kind at a time, behind that character.  An escape that leaves
a brace dangling is the only one that need not be read again; but then nothing
is read behind it, since bounds that begin with the closing are none.
-/

variable {cur : Cursor}

/-! ## Items -/

/-- The items of a row with a mark of repetition on the last one. -/
def repeatLast (done : List Pattern) (least : Nat) (most : Option Nat) : Option (List Pattern) :=
  match done with
  | last :: before => if isRepeatable last then some (.repeated last least most :: before) else none
  | [] => none

/-- A mark of repetition, which may be followed by one that makes it lazy. -/
def readMark (done : List Pattern) (least : Nat) (most : Option Nat) (cur : Cursor) :
    Option (List Pattern × Cursor) :=
  (repeatLast done least most).map (fun done => (done, skipLazy cur))

/-- A counted repetition behind its brace. -/
def readCounted (done : List Pattern) (cur : Cursor) : Option (List Pattern × Cursor) :=
  (readBounds cur).bind (fun bounds => readMark done bounds.1 bounds.2.1 bounds.2.2)

/-- An escape behind its backslash. -/
def readEscaped (done : List Pattern) (cur : Cursor) : Option (List Pattern × Cursor) :=
  (readEscape cur).map (fun escaped => (escaped.1.toPattern :: done, escaped.2))

/-- A class behind its bracket. -/
def readBracket (done : List Pattern) (fuel : Nat) (cur : Cursor) : Option (List Pattern × Cursor) :=
  match readClass fuel cur with
  | some (.bracketed negated inner, cur) => some (.bracketed negated inner :: done, cur)
  | _ => none

/-- A group behind its parenthesis, or flags that are set for the rest of one. -/
def readGroup (done : List Pattern) (fuel : Nat) (cur : Cursor) : Option (List Pattern × Cursor) :=
  match readGroupOpening cur with
  | none => none
  | some (.setFlags g, after) =>
    some (.flags g :: done, { after with spaced := (g.setting? .spaced).getD cur.spaced })
  | some (.group flags, after) =>
    match readBranches fuel { after with spaced := (flags.bind (·.setting? .spaced)).getD cur.spaced } with
    | some (branches, after) =>
      match after.rest with
      | ')' :: rest =>
        some (.group flags (Pattern.ofBranches branches) :: done, { after with rest := rest, spaced := cur.spaced })
      | _ => none
    | none => none

/-- The item that begins with a character, read behind that. -/
def readItem (done : List Pattern) (c : Char) (fuel : Nat) (cur : Cursor) : Option (List Pattern × Cursor) :=
  if c = '(' then readGroup done fuel cur
  else if c = '[' then readBracket done fuel cur
  else if c = '?' then readMark done 0 (some 1) cur
  else if c = '*' then readMark done 0 none cur
  else if c = '+' then readMark done 1 none cur
  else if c = '\x7b' then readCounted done cur
  else if c = '.' then some (.dot :: done, cur)
  else if c = '^' then some (.anchor .lineStart :: done, cur)
  else if c = '$' then some (.anchor .lineEnd :: done, cur)
  else if c = '\\' then readEscaped done cur
  else some (.literal c false :: done, cur)

/-- The characters at which a row ends. -/
def EndsRow (c : Char) : Prop :=
  c = ')' ∨ c = '|'

instance : DecidablePred EndsRow :=
  fun c => inferInstanceAs (Decidable (c = ')' ∨ c = '|'))

/-- A row goes on with a character, or ends where it is. -/
theorem goesOn_or_ends (cur : Cursor) :
    (∃ c rest, cur.skip.rest = c :: rest ∧ ¬ EndsRow c) ∨
      forall c rest, cur.skip.rest = c :: rest -> EndsRow c := by
  by_cases goes : ∃ c rest, cur.skip.rest = c :: rest ∧ ¬ EndsRow c
  · exact .inl goes
  · exact .inr fun c rest start => Decidable.not_not.mp fun more => goes ⟨c, rest, start, more⟩

theorem readMark_bind (done : List Pattern) (least : Nat) (most : Option Nat) (fuel : Nat) (cur : Cursor) :
    (readMark done least most cur).bind (fun item => readItems fuel item.1 item.2) =
      match done with
      | last :: before =>
        if isRepeatable last then readItems fuel (.repeated last least most :: before) (skipLazy cur) else none
      | [] => none := by
  cases done with
  | nil => rfl
  | cons last before =>
      simp only [readMark, repeatLast]
      cases isRepeatable last <;> rfl

/-- What is made where a group is closed can be handed on there. -/
theorem bind_closing {Made Next : Type} (left : List Char) (made : List Char -> Made)
    (next : Made -> Option Next) :
    (match left with
      | ')' :: rest => some (made rest)
      | _ => none).bind next =
      match left with
      | ')' :: rest => next (made rest)
      | _ => none := by
  split <;> rfl

/-- A row goes on with the item that begins with its first character. -/
theorem readItems_eq {c : Char} {rest : List Char} (done : List Pattern) (fuel : Nat)
    (start : cur.skip.rest = c :: rest) (goes : ¬ EndsRow c) :
    readItems (fuel + 1) done cur =
      (readItem done c fuel (cur.goTo rest)).bind (fun item => readItems fuel item.1 item.2) := by
  rw [readItems]
  dsimp only
  rw [start, Cursor.skip_spaced]
  simp only [Cursor.skip_goTo]
  split
  · rename_i nothing
    cases nothing
  · rename_i same
    cases same
    exact absurd (.inl rfl) goes
  · rename_i same
    cases same
    exact absurd (.inr rfl) goes
  · rename_i same
    cases same
    change _ = (readGroup done fuel (cur.goTo rest)).bind _
    unfold readGroup
    rcases readGroupOpening (cur.goTo rest) with _ | ⟨g | flags, mid⟩
    · rfl
    · rfl
    · dsimp only
      rw [Cursor.goTo_spaced]
      rcases readBranches fuel { mid with spaced := (flags.bind (·.setting? .spaced)).getD cur.spaced } with
        _ | ⟨branches, after⟩
      · rfl
      · exact (bind_closing after.rest
          (fun rest => (.group flags (Pattern.ofBranches branches) :: done,
            { after with rest := rest, spaced := cur.spaced }))
          (fun item => readItems fuel item.1 item.2)).symm
  · rename_i same
    cases same
    change _ = (readBracket done fuel (cur.goTo rest)).bind _
    unfold readBracket
    rcases readClass fuel (cur.goTo rest) with _ | ⟨set, mid⟩
    · rfl
    · cases set <;> rfl
  · rename_i same
    cases same
    exact (readMark_bind done 0 (some 1) fuel (cur.goTo rest)).symm
  · rename_i same
    cases same
    exact (readMark_bind done 0 none fuel (cur.goTo rest)).symm
  · rename_i same
    cases same
    exact (readMark_bind done 1 none fuel (cur.goTo rest)).symm
  · rename_i same
    cases same
    change _ = (readCounted done (cur.goTo rest)).bind _
    rw [readCounted, Option.bind_assoc]
    rcases readBounds (cur.goTo rest) with _ | ⟨least, most, mid⟩
    · rfl
    · exact (readMark_bind done least most fuel mid).symm
  · rename_i same
    cases same
    rfl
  · rename_i same
    cases same
    rfl
  · rename_i same
    cases same
    rfl
  · rename_i same
    cases same
    change _ = (readEscaped done (cur.goTo rest)).bind _
    unfold readEscaped
    rcases readEscape (cur.goTo rest) with _ | ⟨primitive, mid⟩ <;> rfl
  · rename_i _ _ _ _ notGroup notClass notOption notStar notPlus notBrace notDot notStart notFinish notEscape same
    cases same
    unfold readItem
    rw [if_neg notGroup, if_neg notClass, if_neg notOption, if_neg notStar, if_neg notPlus, if_neg notBrace,
      if_neg notDot, if_neg notStart, if_neg notFinish, if_neg notEscape]
    rfl

theorem readItems_ends (fuel : Nat) (done : List Pattern)
    (ends : forall c rest, cur.skip.rest = c :: rest -> EndsRow c) :
    readItems (fuel + 1) done cur = some (done, cur.skip) := by
  cases start : cur.skip.rest with
  | nil => simp only [readItems, start]
  | cons c rest =>
      rcases ends c rest start with rfl | rfl
      · simp only [readItems, start]
      · simp only [readItems, start]

/-! ## Locality -/

/-- A row can be read again with fuel for twice the text that is left. -/
def ReadsItems (fuel : Nat) : Prop :=
  forall done cur items after, readItems fuel done cur = some (items, after) ->
    Passage cur after (fun cur' after' => forall fuel', 2 * cur'.rest.length + 1 <= fuel' ->
      readItems fuel' done cur' = some (items, after'))

/-- So can branches. -/
def ReadsBranches (fuel : Nat) : Prop :=
  forall cur branches after, readBranches fuel cur = some (branches, after) ->
    Passage cur after (fun cur' after' => forall fuel', 2 * cur'.rest.length + 2 <= fuel' ->
      readBranches fuel' cur' = some (branches, after'))

/-- An item that is read with the given fuel can be read again, unless it leaves a
brace dangling. -/
def ItemLocal (fuel : Nat) (read : Nat -> Cursor -> Option (List Pattern × Cursor)) : Prop :=
  forall cur items after, read fuel cur = some (items, after) ->
    Passage cur after (fun cur' after' => after'.Dangles ∨
      forall fuel', 2 * cur'.rest.length + 2 <= fuel' -> read fuel' cur' = some (items, after'))

namespace ItemLocal

variable {fuel : Nat} {first second : Nat -> Cursor -> Option (List Pattern × Cursor)}

theorem plain (items : List Pattern) : ItemLocal fuel (fun _ cur => some (items, cur)) := by
  intro cur items after read
  cases read
  exact (Passage.stay cur).imp fun cur' after' same => .inr fun _ _ => same ▸ rfl

theorem ite {condition : Prop} [Decidable condition] (first_local : ItemLocal fuel first)
    (second_local : ItemLocal fuel second) :
    ItemLocal fuel (fun fuel cur => if condition then first fuel cur else second fuel cur) := by
  by_cases holds : condition
  · simpa only [if_pos holds] using first_local
  · simpa only [if_neg holds] using second_local

theorem mark (done : List Pattern) (least : Nat) (most : Option Nat) :
    ItemLocal fuel (fun _ => readMark done least most) := by
  intro cur items after read
  rcases Option.map_eq_some_iff.mp read with ⟨done', repeats, made⟩
  cases made
  refine (skipLazy_passage cur).imp ?_
  rintro cur' _ rfl
  refine .inr fun _ _ => ?_
  simp only [readMark, repeats, Option.map_some]

theorem counted (done : List Pattern) : ItemLocal fuel (fun _ => readCounted done) := by
  intro cur items after read
  rcases Option.bind_eq_some_iff.mp read with ⟨⟨least, most, mid⟩, bounds, marked⟩
  have marks : ItemLocal fuel (fun _ => readMark done least most) := mark done least most
  refine (readBounds_passage bounds).trans (marks _ _ _ marked) ?_
  rintro cur' mid' after' - - - bounds' again
  refine again.imp id fun again fuel' _ => ?_
  simp only [readCounted, bounds', Option.bind_some]
  exact again _ (Nat.le_refl _)

theorem escaped (done : List Pattern) : ItemLocal fuel (fun _ => readEscaped done) := by
  intro cur items after read
  rcases Option.map_eq_some_iff.mp read with ⟨⟨primitive, _⟩, escape, made⟩
  cases made
  refine (readEscape_passage escape).imp ?_
  rintro cur' after' again
  refine again.imp And.right fun again _ _ => ?_
  simp only [readEscaped, again, Option.map_some]

theorem bracket (done : List Pattern) : ItemLocal fuel (readBracket done) := by
  intro cur items after read
  unfold readBracket at read
  split at read
  · rename_i bracketed
    cases read
    refine ((readsClass_readsMembers fuel).1 _ _ _ bracketed).imp ?_
    rintro cur' after' again
    refine .inr fun fuel' enough => ?_
    rw [readBracket, again fuel' enough]
  · cases read

theorem group (nested : ReadsBranches fuel) (done : List Pattern) : ItemLocal fuel (readGroup done) := by
  intro cur items after read
  unfold readGroup at read
  split at read
  · cases read
  · rename_i g mid opens
    cases read
    refine (readGroupOpening_passage opens).trans (Passage.respaced mid _) ?_
    rintro cur' mid' after' rfl - - opens' same
    refine .inr fun fuel' _ => ?_
    rw [readGroup, opens', ← same, Cursor.closed_spaced]
  · rename_i flags mid opens
    split at read
    · rename_i branches behind inner
      split at read
      · rename_i rest closes
        cases read
        have opened := readGroupOpening_passage opens
        have respaced := Passage.respaced mid ((flags.bind (·.setting? .spaced)).getD cur.spaced)
        have inside := respaced.comp (nested _ _ _ inner)
        have outside := (Passage.past [')'] closes).comp (Passage.respaced (behind.goTo rest) cur.spaced)
        refine (opened.comp inside).trans outside ?_
        rintro cur' behind' _ rfl left - ⟨mid', begins, opens', _, -, rfl, branches'⟩
          ⟨_, -, ⟨rest', closes', rfl⟩, rfl⟩
        have shorter := opened.length_le rfl begins
        refine .inr fun fuel' enough => ?_
        have inner' := branches' fuel' (Nat.le_trans (Nat.add_le_add_right (Nat.mul_le_mul_left 2 shorter) 2) enough)
        rw [Cursor.closed_spaced] at inner'
        simp only [readGroup, opens', inner', closes', List.singleton_append, Cursor.closed_spaced]
        rfl
      · cases read
    · cases read

end ItemLocal

theorem readItem_local {fuel : Nat} (nested : ReadsBranches fuel) (done : List Pattern) (c : Char) :
    ItemLocal fuel (readItem done c) :=
  .ite (.group nested done) <| .ite (.bracket done) <| .ite (.mark done 0 (some 1)) <| .ite (.mark done 0 none) <|
    .ite (.mark done 1 none) <| .ite (.counted done) <| .ite (.plain _) <| .ite (.plain _) <| .ite (.plain _) <|
    .ite (.escaped done) (.plain _)

/-- Nothing is read at a dangling brace. -/
theorem readItems_dangling (fuel : Nat) (done : List Pattern) (dangles : cur.Dangles) :
    readItems fuel done cur.closed = none := by
  rcases dangles with ⟨rest, brace, nothing⟩
  cases fuel with
  | zero => rfl
  | succ fuel =>
      have solid : cur.closed.skip.rest = '\x7b' :: (rest ++ closing) := by
        unfold Cursor.skip
        split
        · rw [Cursor.closed_rest, brace]
          rfl
        · rw [Cursor.closed_rest, brace]
          rfl
      have unbounded : readBounds (cur.goTo (rest ++ closing)) = none := readBounds_closing nothing
      rw [readItems_eq done fuel solid (by decide)]
      change (readCounted done (cur.goTo (rest ++ closing))).bind _ = none
      rw [readCounted, unbounded]
      rfl

theorem readsItems_succ {fuel : Nat} (nested : ReadsBranches fuel) (onward : ReadsItems fuel) :
    ReadsItems (fuel + 1) := by
  intro done cur items after read
  rcases goesOn_or_ends cur with ⟨c, rest, start, goes⟩ | ends
  · rw [readItems_eq done fuel start goes] at read
    rcases Option.bind_eq_some_iff.mp read with ⟨⟨done', mid⟩, item, later⟩
    have item_local := readItem_local nested done c _ _ _ item
    refine ((Passage.skipOver start).comp item_local).trans (onward _ _ _ _ later) ?_
    rintro cur' mid' after' - between - ⟨_, begins, ⟨rest', start', rfl, shorter⟩, dangles | again⟩ onward' fuel' enough
    · -- The row would have to go on at the dangling brace.
      rw [between, readItems_dangling fuel done' dangles] at later
      cases later
    · have remaining := item_local.length_le begins between
      rw [Cursor.goTo_rest] at again remaining
      rcases exists_fuel enough with ⟨fuel', rfl⟩
      rw [readItems_eq done fuel' start' goes, again fuel' (by omega)]
      exact onward' fuel' (by omega)
  · rw [readItems_ends fuel done ends] at read
    cases read
    refine (Passage.skip cur).trans (Passage.stay cur.skip) ?_
    rintro cur' _ after' - between - rfl rfl fuel' enough
    rcases exists_fuel enough with ⟨fuel', rfl⟩
    -- If anything is left without the closing, the row has ended at its first character.
    refine readItems_ends fuel' done fun c rest start => ends c (rest ++ closing) ?_
    rw [between, Cursor.closed_rest, start]
    rfl

theorem readsBranches_succ {fuel : Nat} (row : ReadsItems fuel) (onward : ReadsBranches fuel) :
    ReadsBranches (fuel + 1) := by
  intro cur branches after read
  rw [readBranches] at read
  split at read
  · cases read
  rename_i items mid items_read
  have rowRead := row _ _ _ _ items_read
  dsimp only at read
  split at read
  · rename_i rest bar
    rcases Option.map_eq_some_iff.mp read with ⟨⟨later, _⟩, laterRead, made⟩
    cases made
    refine rowRead.trans ((Passage.past ['|'] bar).comp (onward _ _ _ laterRead)) ?_
    rintro cur' mid' after' begins between - items' ⟨_, -, ⟨rest', bar', rfl⟩, later'⟩ fuel' enough
    rcases exists_fuel enough with ⟨fuel', rfl⟩
    have shorter := rowRead.length_le begins between
    rw [bar', List.singleton_append, List.length_cons] at shorter
    rw [Cursor.goTo_rest] at later'
    rw [readBranches, items' fuel' (by omega)]
    simp only [bar', List.singleton_append, later' fuel' (by omega)]
    rfl
  · rename_i unbarred
    cases read
    refine rowRead.trans (Passage.stay _) ?_
    rintro cur' mid' _ - between - items' rfl fuel' enough
    rcases exists_fuel enough with ⟨fuel', rfl⟩
    rw [readBranches, items' fuel' (by omega)]
    dsimp only
    split
    · rename_i bar
      rw [between, Cursor.closed_rest, bar] at unbarred
      exact absurd rfl (unbarred _)
    · rfl

/-- What is read in front of the closing is read without it. -/
theorem readsItems_readsBranches (fuel : Nat) : ReadsItems fuel ∧ ReadsBranches fuel := by
  induction fuel with
  | zero =>
      constructor
      · intro done cur items after read
        cases read
      · intro cur branches after read
        cases read
  | succ fuel inductionHypothesis =>
      exact ⟨readsItems_succ inductionHypothesis.2 inductionHypothesis.1,
        readsBranches_succ inductionHypothesis.1 inductionHypothesis.2⟩

end Regex
end MemoryAtlas

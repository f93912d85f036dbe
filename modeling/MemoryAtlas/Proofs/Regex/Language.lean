import MemoryAtlas.Proofs.Regex.Fuel
import MemoryAtlas.Proofs.Regex.Matching

namespace MemoryAtlas
namespace Regex

/-!
# The language of the engine

Rules are understood through any engine that does what its documentation promises.
The engine of the library is one of these, and this is shown here: what its reader
takes for a pattern is a language, and the engine follows it.

The parts of a pattern whose form is documented keep it, with the flags resolved that
hold at their place, and all others become atoms.  So the language is as fine as the
promises need it and no finer.  Neither the depth nor the size of a pattern matters,
which are limits of the engine alone.

Two of the promises are not plain from the reader.  A row of items that begins with an
anchor is the row without the anchor, since a repetition only looks at the item in
front of it; but this takes an item between the two.  And what is read inside a group
is the text by itself only if the text leaves the closing of the group alone.  It does
if it is a pattern by itself, for a text has only one reading.
-/

/-! ## Patterns as expressions -/

/-- A condition on a position, as an expression. -/
def Look.toExpr : Look -> Expr Node
  | .start => .start
  | .finish => .stop
  | l => .atom (.look l)

mutual

/-- A pattern as an expression under the switches in force at its start, and the
switches in force after it. -/
def Pattern.expr? (s : Setting) : Pattern -> Option (Expr Node × Setting)
  | .anchor a => some ((anchorLook s a).toExpr, s)
  | .group marks inner => (inner.expr? ((marks.map s.apply).getD s)).map (fun r => (.group r.1, s))
  | .sequence items => Pattern.exprOfItems? s items
  | pattern => (resolve? s pattern).map (fun r => (.atom r.1, r.2))

/-- A row of items, each followed by the next. -/
def Pattern.exprOfItems? (s : Setting) : List Pattern -> Option (Expr Node × Setting)
  | [] => some (.atom .empty, s)
  | item :: rest => do
    let (first, s) <- item.expr? s
    match rest with
    | [] => return (first, s)
    | next :: more => do
      let (others, s) <- Pattern.exprOfItems? s (next :: more)
      return (.followedBy first others, s)

end

/-- A text is read as an expression, whatever fuel that takes. -/
inductive ReadsAs (text : List Char) (e : Expr Node) : Prop where
  | intro {fuel : Nat} {branches : List Pattern} {after : Cursor} {s : Setting}
      (read : readBranches fuel ⟨text, false, []⟩ = some (branches, after)) (ended : after.rest = [])
      (resolved : (Pattern.ofBranches branches).expr? .standing = some (e, s))

/-- A text that is read up to some rest is no expression. -/
theorem not_readsAs {fuel : Nat} {text : List Char} {branches : List Pattern} {after : Cursor}
    (read : readBranches fuel ⟨text, false, []⟩ = some (branches, after)) (left : after.rest ≠ [])
    (e : Expr Node) : ¬ ReadsAs text e := by
  rintro ⟨read', ended, -⟩
  cases readBranches_unique read read'
  exact left ended

/-- The language of the engine. -/
def language : Language Node where
  Reads := ReadsAs
  spans node text := node.Spans text.toArray

/-- The expression spans what the node spans. -/
def Expr.Means (e : Expr Node) (node : Node) : Prop :=
  forall text i j, e.Spans language.spans text i j <-> node.Spans text.toArray i j

theorem means_atom (node : Node) : Expr.Means (.atom node) node :=
  fun _ _ _ => Iff.rfl

theorem means_look (l : Look) : l.toExpr.Means (.look l) := by
  intro text i j
  cases l with
  | start => simp [Look.toExpr, Expr.Spans, Node.Spans, Look.holds]
  | finish => simp [Look.toExpr, Expr.Spans, Node.Spans, Look.holds]
  | _ => exact Iff.rfl

theorem Expr.Means.followedBy {first others : Expr Node} {a b : Node} (firstMeans : first.Means a)
    (othersMean : others.Means b) : Expr.Means (.followedBy first others) (.sequence a b) := by
  intro text i k
  simp only [Expr.Spans, Node.Spans, firstMeans text, othersMean text]

theorem Expr.Means.last {e : Expr Node} {node : Node} (means : e.Means node) :
    e.Means (.sequence node .empty) := by
  intro text i k
  simp only [Node.Spans, exists_eq_right, means text]

mutual

theorem exists_expr? (s s' : Setting) (pattern : Pattern) (node : Node)
    (resolved : resolve? s pattern = some (node, s')) :
    ∃ e, pattern.expr? s = some (e, s') ∧ e.Means node := by
  cases pattern with
  | anchor a =>
      cases resolved
      exact ⟨_, rfl, means_look _⟩
  | group marks inner =>
      rcases Option.map_eq_some_iff.mp resolved with ⟨⟨node, _⟩, inside, made⟩
      cases made
      rcases exists_expr? _ _ inner node inside with ⟨e, read, means⟩
      exact ⟨.group e, by rw [Pattern.expr?, read]; rfl, means⟩
  | sequence items => exact exists_exprOfItems? s s' items node resolved
  | _ => exact ⟨.atom node, by simp only [Pattern.expr?, resolved, Option.map_some], means_atom node⟩

theorem exists_exprOfItems? (s s' : Setting) (items : List Pattern) (node : Node)
    (resolved : resolveItems? s items = some (node, s')) :
    ∃ e, Pattern.exprOfItems? s items = some (e, s') ∧ e.Means node := by
  match items with
  | [] =>
      cases resolved
      exact ⟨_, rfl, means_atom _⟩
  | item :: rest =>
      rcases Option.bind_eq_some_iff.mp resolved with ⟨⟨a, mid⟩, itemResolved, resolved⟩
      rcases Option.bind_eq_some_iff.mp resolved with ⟨⟨b, _⟩, restResolved, made⟩
      cases made
      rcases exists_expr? s mid item a itemResolved with ⟨first, read, means⟩
      match rest with
      | [] =>
          cases restResolved
          exact ⟨first, by rw [Pattern.exprOfItems?, read]; rfl, means.last⟩
      | next :: more =>
          rcases exists_exprOfItems? mid _ (next :: more) b restResolved with ⟨others, read', means'⟩
          refine ⟨.followedBy first others, ?_, means.followedBy means'⟩
          rw [Pattern.exprOfItems?, read]
          exact Option.bind_eq_some_iff.mpr ⟨_, rfl, Option.bind_eq_some_iff.mpr ⟨_, read', rfl⟩⟩

end

theorem expr?_ofItems (s : Setting) (items : List Pattern) :
    (Pattern.ofItems items).expr? s = Pattern.exprOfItems? s items := by
  match items with
  | [] => rfl
  | [item] =>
      rw [Pattern.exprOfItems?, Pattern.ofItems]
      cases item.expr? s <;> rfl
  | item :: next :: rest => rfl

/-! ## Rows behind an anchor -/

/-- A reader looks at no more than the item in front of it: those further in front
stay where they are, and it leaves an item for the next one. -/
structure LooksBack (read : List Pattern -> Option (List Pattern × Cursor)) (done : List Pattern) : Prop where
  append : forall before, read (done ++ before) = (read done).map (fun row => (row.1 ++ before, row.2))
  ne_nil : forall row, read done = some row -> row.1 ≠ []

namespace LooksBack

variable {done : List Pattern} {first second : List Pattern -> Option (List Pattern × Cursor)}

theorem nothing : LooksBack (fun _ => none) done :=
  ⟨fun _ => rfl, by rintro row ⟨⟩⟩

theorem plain (item : Pattern) (cur : Cursor) : LooksBack (fun done => some (item :: done, cur)) done where
  append _ := rfl
  ne_nil := by
    rintro row ⟨⟩
    exact List.cons_ne_nil _ _

theorem ite {condition : Prop} [Decidable condition] (firstLooks : LooksBack first done)
    (secondLooks : LooksBack second done) :
    LooksBack (fun done => if condition then first done else second done) done := by
  by_cases holds : condition
  · simpa only [if_pos holds] using firstLooks
  · simpa only [if_neg holds] using secondLooks

theorem mark (something : done ≠ []) (least : Nat) (most : Option Nat) (cur : Cursor) :
    LooksBack (fun done => readMark done least most cur) done := by
  cases done with
  | nil => exact absurd rfl something
  | cons last earlier =>
      constructor
      · intro before
        simp only [readMark, repeatLast, List.cons_append]
        cases isRepeatable last <;> rfl
      · rintro row read
        rcases Option.map_eq_some_iff.mp read with ⟨items, repeats, rfl⟩
        simp only [repeatLast, Option.ite_none_right_eq_some, Option.some.injEq] at repeats
        rw [← repeats.2]
        exact List.cons_ne_nil _ _

theorem counted (something : done ≠ []) (cur : Cursor) : LooksBack (fun done => readCounted done cur) done := by
  unfold readCounted
  cases readBounds cur with
  | none => exact nothing
  | some bounds => exact mark something bounds.1 bounds.2.1 bounds.2.2

theorem escaped (cur : Cursor) : LooksBack (fun done => readEscaped done cur) done := by
  unfold readEscaped
  cases readEscape cur with
  | none => exact nothing
  | some escaped => exact plain escaped.1.toPattern escaped.2

theorem bracket (fuel : Nat) (cur : Cursor) : LooksBack (fun done => readBracket done fuel cur) done := by
  unfold readBracket
  split
  · exact plain _ _
  · exact nothing

theorem group (fuel : Nat) (cur : Cursor) : LooksBack (fun done => readGroup done fuel cur) done := by
  unfold readGroup
  split
  · exact nothing
  · exact plain _ _
  · split
    · split
      · exact plain _ _
      · exact nothing
    · exact nothing

end LooksBack

/-- An item looks at most at the one in front of it.  A group does not even need one. -/
theorem readItem_looksBack {done : List Pattern} {c : Char} (needed : done ≠ [] ∨ c = '(') (fuel : Nat)
    (cur : Cursor) : LooksBack (fun done => readItem done c fuel cur) done := by
  by_cases parenthesis : c = '('
  · unfold readItem
    simp only [if_pos parenthesis]
    exact .group fuel cur
  · have something : done ≠ [] := needed.resolve_right parenthesis
    exact .ite (.group fuel cur) <| .ite (.bracket fuel cur) <| .ite (.mark something 0 (some 1) cur) <|
      .ite (.mark something 0 none cur) <| .ite (.mark something 1 none cur) <| .ite (.counted something cur) <|
      .ite (.plain _ cur) <| .ite (.plain _ cur) <| .ite (.plain _ cur) <| .ite (.escaped cur) (.plain _ cur)

/-- So does a row, however long it goes on. -/
theorem readItems_append {fuel : Nat} {done : List Pattern} {cur : Cursor}
    (needed : forall c rest, cur.skip.rest = c :: rest -> done ≠ [] ∨ c = '(') (before : List Pattern) :
    readItems fuel (done ++ before) cur =
      (readItems fuel done cur).map (fun row => (row.1 ++ before, row.2)) := by
  induction fuel generalizing done cur with
  | zero => rfl
  | succ fuel inductionHypothesis =>
      rcases goesOn_or_ends cur with ⟨c, rest, start, goes⟩ | ends
      · have lookBack := readItem_looksBack (needed c rest start) fuel (cur.goTo rest)
        rw [readItems_eq _ fuel start goes, readItems_eq _ fuel start goes, lookBack.append before]
        cases read : readItem done c fuel (cur.goTo rest) with
        | none => rfl
        | some item => exact inductionHypothesis fun _ _ _ => .inl (lookBack.ne_nil item read)
      · rw [readItems_ends fuel _ ends, readItems_ends fuel _ ends]
        rfl

/-- Branches go on alike behind rows that stop at the same place. -/
theorem readBranches_of_row {fuel : Nat} {cur cur' mid after : Cursor} {items items' branches : List Pattern}
    (row : readItems fuel [] cur = some (items, mid)) (row' : readItems fuel [] cur' = some (items', mid))
    (read : readBranches (fuel + 1) cur = some (branches, after)) :
    ∃ others, branches = Pattern.ofItems items.reverse :: others ∧
      readBranches (fuel + 1) cur' = some (Pattern.ofItems items'.reverse :: others, after) := by
  rw [readBranches, row] at read
  rw [readBranches, row']
  dsimp only at read ⊢
  revert read
  split
  · rename_i bar
    intro read
    rcases Option.map_eq_some_iff.mp read with ⟨later, others, made⟩
    cases made
    exact ⟨later.1, rfl, by rw [others, Option.map_some]⟩
  · rintro ⟨⟩
    exact ⟨[], rfl, rfl⟩

/-- The anchor takes no part in what is read behind it. -/
theorem readBranches_caret {fuel : Nat} {rest : List Char} {branches : List Pattern} {after : Cursor}
    (read : readBranches fuel ⟨'^' :: '(' :: rest, false, []⟩ = some (branches, after)) :
    ∃ items others, branches = Pattern.ofItems (.anchor .lineStart :: items) :: others ∧
      readBranches fuel ⟨'(' :: rest, false, []⟩ = some (Pattern.ofItems items :: others, after) := by
  match fuel with
  | 0 => cases read
  | 1 => cases read
  | fuel + 2 =>
      have rowRead : ∃ row, readItems (fuel + 1) [] ⟨'^' :: '(' :: rest, false, []⟩ = some row := by
        rw [readBranches] at read
        split at read
        · cases read
        · exact ⟨_, ‹_›⟩
      rcases rowRead with ⟨⟨items, mid⟩, row⟩
      have needed : forall c more, (⟨'(' :: rest, false, []⟩ : Cursor).skip.rest = c :: more ->
          ([] : List Pattern) ≠ [] ∨ c = '(' := fun c more start => .inr (List.cons.inj start).1.symm
      have anchor : readItems (fuel + 1) [] ⟨'^' :: '(' :: rest, false, []⟩ =
          readItems fuel ([] ++ [.anchor .lineStart]) ⟨'(' :: rest, false, []⟩ :=
        readItems_eq (c := '^') [] fuel rfl (by decide)
      have behind := row
      rw [anchor, readItems_append needed] at behind
      rcases Option.map_eq_some_iff.mp behind with ⟨⟨items', _⟩, row', made⟩
      cases made
      rcases readBranches_of_row row ((lasts fuel).items row') read with ⟨others, rfl, read'⟩
      refine ⟨items'.reverse, others, ?_, read'⟩
      rw [List.reverse_append]
      rfl

/-! ## Groups around a text -/

/-- The parenthesis in front is read as it stands. -/
theorem readItems_group {fuel : Nat} {text : List Char} {items : List Pattern} {after : Cursor}
    (read : readItems (fuel + 1) [] ⟨'(' :: '?' :: ':' :: (text ++ closing), false, []⟩ = some (items, after)) :
    ∃ branches mid behind, readBranches fuel ⟨text ++ closing, false, []⟩ = some (branches, mid) ∧
      mid.rest = ')' :: behind ∧
      readItems fuel [.group (some ⟨[], []⟩) (Pattern.ofBranches branches)] ⟨behind, false, mid.names⟩ =
        some (items, after) := by
  let outside : Cursor := ⟨'(' :: '?' :: ':' :: (text ++ closing), false, []⟩
  let inside : Cursor := ⟨'?' :: ':' :: (text ++ closing), false, []⟩
  have parenthesis : outside.skip.rest = '(' :: inside.rest := rfl
  have group : readItems (fuel + 1) [] outside =
      (readGroup [] fuel inside).bind (fun item => readItems fuel item.1 item.2) :=
    readItems_eq [] fuel parenthesis (by decide)
  have opens : readGroupOpening inside = some (.group (some ⟨[], []⟩), ⟨text ++ closing, false, []⟩) := rfl
  rw [group, readGroup, opens] at read
  dsimp only at read
  split at read
  · rename_i branches mid inner
    split at read
    · rename_i behind closes
      exact ⟨branches, mid, behind, inner, closes, read⟩
    · cases read
  · cases read

/-- A closing parenthesis is left with the closing, for none follows in that. -/
theorem exists_closed_of_closes {text behind : List Char} {after : Cursor} (suffix : after.rest <:+ text ++ closing)
    (closes : after.rest = ')' :: behind) : ∃ after' : Cursor, after = after'.closed := by
  rcases suffix with ⟨taken, split⟩
  rcases List.append_eq_append_iff.mp split with ⟨kept, -, rest⟩ | ⟨beyond, -, rest⟩
  · refine ⟨after.goTo kept, ?_⟩
    rw [Cursor.closed, Cursor.goTo_goTo, Cursor.goTo_rest, ← rest, Cursor.goTo_self]
  · cases beyond with
    | nil =>
        refine ⟨after.goTo [], ?_⟩
        rw [List.nil_append] at rest
        rw [Cursor.closed, Cursor.goTo_goTo, Cursor.goTo_rest, List.nil_append, rest, Cursor.goTo_self]
    | cons c beyond =>
        -- The parenthesis would have to stand behind the one in the closing.
        have behindFirst : ['$'] = beyond ++ ')' :: behind := (List.cons.inj (closes ▸ rest)).2
        have among : ')' ∈ ['$'] := behindFirst ▸ List.mem_append_right beyond List.mem_cons_self
        exact absurd among (by decide)

/-- What is read up to a parenthesis that closes the group is read by itself, and a text
that is read to its end by itself has left the closing alone. -/
theorem readBranches_inside {fuel fuel' : Nat} {text behind : List Char} {branches alone : List Pattern}
    {mid after : Cursor} (inner : readBranches fuel ⟨text ++ closing, false, []⟩ = some (branches, mid))
    (closes : mid.rest = ')' :: behind) (read : readBranches fuel' ⟨text, false, []⟩ = some (alone, after))
    (ended : after.rest = []) : branches = alone ∧ behind = ['$'] := by
  have passage := (readsItems_readsBranches fuel).2 _ _ _ inner
  rcases exists_closed_of_closes passage.suffix closes with ⟨mid, rfl⟩
  have same := readBranches_unique (passage.without ⟨text, false, []⟩ mid rfl rfl _ (Nat.le_refl _)) read
  cases same
  rw [Cursor.closed_rest, ended] at closes
  exact ⟨rfl, (List.cons.inj closes).2.symm⟩

/-- Behind the group there is nothing but the dollar sign. -/
theorem readItems_dollar {fuel : Nat} {done items : List Pattern} {names : List (List Char)} {after : Cursor}
    (read : readItems fuel done ⟨['$'], false, names⟩ = some (items, after)) :
    items = .anchor .lineEnd :: done ∧ after.rest = [] := by
  match fuel with
  | 0 => cases read
  | 1 => cases read
  | fuel + 2 =>
      cases read
      exact ⟨rfl, rfl⟩

/-- A text that is a pattern by itself is that pattern in a group. -/
theorem readBranches_group {fuel fuel' : Nat} {text : List Char} {branches alone : List Pattern}
    {after end' : Cursor} (read : readBranches fuel' ⟨text, false, []⟩ = some (alone, end'))
    (ended : end'.rest = [])
    (around : readBranches fuel ⟨'(' :: '?' :: ':' :: (text ++ closing), false, []⟩ = some (branches, after)) :
    branches = [.sequence [.group (some ⟨[], []⟩) (Pattern.ofBranches alone), .anchor .lineEnd]] := by
  match fuel with
  | 0 => cases around
  | 1 => cases around
  | fuel + 2 =>
      rw [readBranches] at around
      split at around
      · cases around
      rename_i items mid row
      rcases readItems_group row with ⟨inner, inside, behind, innerRead, closes, last⟩
      rcases readBranches_inside innerRead closes read ended with ⟨rfl, rfl⟩
      rcases readItems_dollar last with ⟨rfl, nothing⟩
      dsimp only at around
      rw [nothing] at around
      cases around
      rfl

/-! ## The promises -/

theorem parse_eq_some_iff {text : List Char} {pattern : Pattern} : parse text = some pattern <->
    ∃ branches after, readBranches (2 * text.length + 2) ⟨text, false, []⟩ = some (branches, after) ∧
      after.rest = [] ∧ pattern = .ofBranches branches ∧ pattern.depth <= nestingLimit := by
  unfold parse
  constructor
  · intro parsed
    split at parsed
    · rename_i branches spaced names read
      dsimp only at parsed
      split at parsed
      · rename_i shallow
        cases parsed
        exact ⟨branches, _, read, rfl, rfl, shallow⟩
      · cases parsed
    · cases parsed
  · rintro ⟨branches, ⟨_, spaced, names⟩, read, rfl, rfl, shallow⟩
    rw [read]
    exact if_pos shallow

theorem compile_eq_some_iff {text : List Char} {m : Matcher} : compile text = some m <->
    ∃ pattern s, parse text = some pattern ∧ resolve? .standing pattern = some (m.node, s) ∧
      m.node.weight <= weightLimit := by
  unfold compile
  constructor
  · intro compiled
    rcases Option.bind_eq_some_iff.mp compiled with ⟨pattern, parsed, compiled⟩
    rcases Option.bind_eq_some_iff.mp compiled with ⟨⟨node, s⟩, resolved, compiled⟩
    dsimp only at compiled
    split at compiled
    · rename_i light
      cases compiled
      exact ⟨pattern, s, parsed, resolved, light⟩
    · cases compiled
  · rintro ⟨pattern, s, parsed, resolved, light⟩
    rw [parsed, Option.bind_eq_bind, Option.bind_some, resolved, Option.bind_eq_bind, Option.bind_some]
    exact if_pos light

/-- What compiles has been read, and it occurs where the reading spans something. -/
theorem exists_reading {text : List Char} {m : Matcher} (compiled : compile text = some m) :
    ∃ e, ReadsAs text e ∧ forall name, m.occursIn name = true <->
      ∃ i j, i <= name.toList.length ∧ e.Spans language.spans name.toList i j := by
  rcases compile_eq_some_iff.mp compiled with ⟨pattern, s, parsed, resolved, -⟩
  rcases parse_eq_some_iff.mp parsed with ⟨branches, after, read, ended, rfl, -⟩
  rcases exists_expr? .standing s _ m.node resolved with ⟨e, expressed, means⟩
  refine ⟨e, ⟨read, ended, expressed⟩, fun name => ?_⟩
  rw [Matcher.occursIn_iff, List.size_toArray]
  simp only [means name.toList]

/-- A row of one item is the item, and it leaves the same switches. -/
theorem exists_resolve?_ofItems {s s' : Setting} {items : List Pattern} :
    (∃ node, resolve? s (Pattern.ofItems items) = some (node, s')) <->
      ∃ node, resolveItems? s items = some (node, s') := by
  match items with
  | [] => exact Iff.rfl
  | item :: next :: rest => exact Iff.rfl
  | [item] =>
      rw [Pattern.ofItems, resolveItems?]
      cases resolve? s item with
      | none => exact Iff.rfl
      | some found =>
          constructor
          · rintro ⟨node, ⟨⟩⟩
            exact ⟨_, rfl⟩
          · rintro ⟨node, ⟨⟩⟩
            exact ⟨_, rfl⟩

/-- An anchor in front of a row sets no switches. -/
theorem exists_resolve?_without_caret {s s' : Setting} {items : List Pattern} {node : Node}
    (resolved : resolve? s (Pattern.ofItems (.anchor .lineStart :: items)) = some (node, s')) :
    ∃ node, resolve? s (Pattern.ofItems items) = some (node, s') := by
  rcases exists_resolve?_ofItems.mp ⟨node, resolved⟩ with ⟨_, row⟩
  rcases Option.bind_eq_some_iff.mp row with ⟨⟨others, _⟩, row, made⟩
  cases made
  exact exists_resolve?_ofItems.mpr ⟨others, row⟩

/-- The anchor is in front of all that comes, unless it only belongs to the first of
several branches. -/
theorem exists_expr?_without_caret {items others : List Pattern} {whole : Expr Node} {s : Setting}
    (resolved : (Pattern.ofBranches (Pattern.ofItems (.anchor .lineStart :: items) :: others)).expr? .standing =
      some (whole, s)) :
    ∃ e, (Pattern.ofBranches (Pattern.ofItems items :: others)).expr? .standing = some (e, s) ∧
      forall first rest, e = .followedBy first rest -> whole = .followedBy .start e := by
  cases others with
  | nil =>
      rw [Pattern.ofBranches, expr?_ofItems] at resolved ⊢
      cases items with
      | nil =>
          cases resolved
          exact ⟨_, rfl, fun first rest impossible => by cases impossible⟩
      | cons item rest =>
          rcases Option.bind_eq_some_iff.mp resolved with ⟨⟨e, _⟩, row, made⟩
          cases made
          exact ⟨e, row, fun _ _ _ => rfl⟩
  | cons other more =>
      rcases Option.map_eq_some_iff.mp resolved with ⟨⟨node, _⟩, branches, made⟩
      cases made
      rcases Option.bind_eq_some_iff.mp branches with ⟨⟨first, mid⟩, firstResolved, later⟩
      rcases exists_resolve?_without_caret firstResolved with ⟨first', firstResolved'⟩
      rcases Option.bind_eq_some_iff.mp later with ⟨⟨choice, _⟩, othersResolved, made⟩
      cases made
      have alike : resolve? .standing (.alternation (Pattern.ofItems items :: other :: more)) =
          some (.choice first' choice, _) :=
        Option.bind_eq_some_iff.mpr ⟨_, firstResolved', Option.bind_eq_some_iff.mpr ⟨_, othersResolved, rfl⟩⟩
      refine ⟨.atom (.choice first' choice), ?_, fun first rest impossible => by cases impossible⟩
      exact Option.map_eq_some_iff.mpr ⟨_, alike, rfl⟩

/-- The group sets no switches, and those that are set in it do not reach the anchor. -/
theorem expr?_group_dollar {inner : Pattern} {e : Expr Node} {s : Setting}
    (resolved : inner.expr? .standing = some (e, s)) :
    (Pattern.sequence [.group (some ⟨[], []⟩) inner, .anchor .lineEnd]).expr? .standing =
      some (.followedBy (.group e) .stop, .standing) := by
  have unset : Setting.standing.apply ⟨[], []⟩ = .standing := rfl
  have grouped : (Pattern.group (some ⟨[], []⟩) inner).expr? .standing = some (.group e, .standing) := by
    rw [Pattern.expr?, Option.map_some, unset, Option.getD_some, resolved, Option.map_some]
  rw [Pattern.expr?, Pattern.exprOfItems?, grouped]
  rfl

/-- The engine follows the language that its reader reads. -/
theorem engine_follows : engine.Follows language where
  search text occursIn compiled := by
    rcases Option.map_eq_some_iff.mp compiled with ⟨m, found, rfl⟩
    exact exists_reading found
  caret := by
    rintro rest whole ⟨read, ended, resolved⟩
    rcases readBranches_caret read with ⟨items, others, rfl, read'⟩
    rcases exists_expr?_without_caret resolved with ⟨e, resolved', behind⟩
    exact ⟨e, ⟨read', ended, resolved'⟩, behind⟩
  group := by
    rintro inner e whole ⟨read, ended, resolved⟩ ⟨around, -, resolved'⟩
    cases readBranches_group read ended around
    have resolved := expr?_group_dollar resolved
    rw [Pattern.ofBranches, resolved] at resolved'
    cases resolved'
    rfl

end Regex
end MemoryAtlas

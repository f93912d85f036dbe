import MemoryAtlas.Proofs.Regex.Language
import MemoryAtlas.Proofs.Schema.Loaded

namespace MemoryAtlas
namespace Schema

/-!
# Rules and whole names

A rule gives a class to the entities whose whole name its pattern matches, and of
several rules the first decides.  The loader compiles the pattern as a group between
two anchors.  If the pattern is an expression by itself, then the compiled rule is
about whole names: the group keeps the flags that are set in the pattern away from the
anchors, and what occurs between them takes up the whole name.

This is said of every engine that does what its documentation promises.  Nothing is
assumed of the names, classes and repetitions of its language, and it may refuse what it
likes.

Loading does not see to it that the pattern is an expression by itself.  A pattern may
close the group that it is pasted into and open another, and then the anchors belong to
different branches.  No more is claimed of such a rule than that loading accepts it.
-/

section Rules

variable {Atom : Type} (language : Regex.Language Atom)

/-- The pattern of the rule is an expression by itself. -/
def RuleDecl.WellFormed (decl : RuleDecl) : Prop :=
  ∃ e, language.Reads decl.pattern.toList e

/-- The pattern of the rule matches the whole of a name. -/
def RuleDecl.Fits (decl : RuleDecl) (name : String) : Prop :=
  ∃ e, language.Reads decl.pattern.toList e ∧ language.MatchesWhole e name

/-- The first rule that fits a name gives it a class. -/
def FirstFit (rules : List RuleDecl) (name className : String) : Prop :=
  ∃ before decl after, rules = before ++ decl :: after ∧ decl.className = className ∧
    decl.Fits language name ∧ forall earlier, earlier ∈ before -> ¬ earlier.Fits language name

/-- How a declared rule is kept: if its pattern is an expression by itself, it matches
whole names. -/
structure RuleDecl.LoadedAs (decl : RuleDecl) (rule : ClassRule) : Prop where
  pattern : rule.pattern = decl.pattern
  className : rule.className = decl.className
  whole : forall e, language.Reads decl.pattern.toList e ->
    forall name, rule.occursIn name = true <-> language.MatchesWhole e name

end Rules

section Engine

variable {Atom : Type} {language : Regex.Language Atom} {engine : Regex.Engine}

/-- Between the anchors an expression occurs just in the names that it matches as a
whole. -/
theorem occursIn_wholeName_iff (follows : engine.Follows language) {pattern : String}
    {occursIn : String -> Bool} (compiled : engine.compile (wholeName pattern) = some occursIn)
    {e : Regex.Expr Atom} (reads : language.Reads pattern.toList e) (name : String) :
    occursIn name = true <-> language.MatchesWhole e name := by
  rcases follows.search _ _ compiled with ⟨whole, readsWhole, occurs⟩
  have text : (wholeName pattern).toList = '^' :: ("(?:".toList ++ pattern.toList ++ ")$".toList) := by
    simp only [wholeName, String.toList_append]
    rfl
  rw [text] at readsWhole
  rcases follows.caret _ _ readsWhole with ⟨behind, readsBehind, anchored⟩
  have grouped : behind = .followedBy (.group e) .stop := follows.group _ _ _ reads readsBehind
  rw [occurs, anchored _ _ grouped, grouped]
  constructor
  · rintro ⟨i, j, -, _, ⟨rfl, rfl⟩, k, spanned, rfl, rfl⟩
    exact spanned
  · intro spanned
    exact ⟨0, _, Nat.zero_le _, 0, ⟨rfl, rfl⟩, _, spanned, rfl, rfl⟩

theorem loadRule_loadedAs (follows : engine.Follows language) {entities : List String} {decl : RuleDecl}
    {rule : ClassRule} (loaded : loadRule engine entities decl = .ok rule) : decl.LoadedAs language rule := by
  unfold loadRule at loaded
  split at loaded
  · cases loaded
  rename_i occursIn compiled
  split at loaded
  · cases loaded
    exact ⟨rfl, rfl, fun e reads => occursIn_wholeName_iff follows compiled reads⟩
  · cases loaded

theorem RuleDecl.LoadedAs.occursIn_iff_fits {decl : RuleDecl} {rule : ClassRule}
    (kept : decl.LoadedAs language rule) (wellFormed : decl.WellFormed language) (name : String) :
    rule.occursIn name = true <-> decl.Fits language name := by
  rcases wellFormed with ⟨e, reads⟩
  constructor
  · exact fun occurs => ⟨e, reads, (kept.whole e reads name).mp occurs⟩
  · rintro ⟨other, reads', whole⟩
    exact (kept.whole other reads' name).mpr whole

open Classical in
/-- The first rule that occurs in a name has been loaded from the first one that
fits it. -/
theorem className_first_eq {decls : List RuleDecl} {rules : List ClassRule}
    (kept : List.Forall₂ (RuleDecl.LoadedAs language) decls rules)
    (wellFormed : forall decl, decl ∈ decls -> decl.WellFormed language) (name : String) :
    (rules.find? (fun rule => rule.occursIn name)).map ClassRule.className =
      (decls.find? (fun decl => decl.Fits language name)).map RuleDecl.className := by
  induction kept with
  | nil => rfl
  | @cons decl rule decls rules first _ inductionHypothesis =>
      have fits := first.occursIn_iff_fits (wellFormed decl List.mem_cons_self) name
      have later := inductionHypothesis fun other member => wellFormed other (List.mem_cons_of_mem _ member)
      by_cases here : decl.Fits language name
      · simp only [List.find?_cons, fits.mpr here, here, decide_true, Option.map_some, first.className]
      · have notHere : rule.occursIn name = false := Bool.eq_false_iff.mpr (here ∘ fits.mp)
        simpa only [List.find?_cons, notHere, here, decide_false] using later

end Engine

/-- Whatever engine the rules are compiled by, every rule of an accepted document whose
pattern is an expression by itself matches whole names, and if all patterns are, the
first rule that fits a name gives it a class. -/
theorem rules_match_whole_names {Atom : Type} {language : Regex.Language Atom} {host : Host}
    (follows : host.engine.Follows language) {document : Document} {c : Catalog}
    (loaded : load host document = .ok c) :
    List.Forall₂ (RuleDecl.LoadedAs language) document.rules c.rules ∧
      ((forall decl, decl ∈ document.rules -> decl.WellFormed language) -> forall name,
        (forall className, c.classFor name = some className <->
          FirstFit language document.rules name className) ∧
        (c.classFor name = none <-> forall decl, decl ∈ document.rules -> ¬ decl.Fits language name)) := by
  classical
  rcases load_stages loaded with ⟨stages⟩
  have kept : List.Forall₂ (RuleDecl.LoadedAs language) document.rules c.rules :=
    (Except.mapM_forall₂ stages.ruled).imp fun _ _ made => loadRule_loadedAs follows made
  refine ⟨kept, fun wellFormed name => ?_⟩
  have first : c.classFor name =
      (document.rules.find? (fun decl => decl.Fits language name)).map RuleDecl.className :=
    className_first_eq kept wellFormed name
  refine ⟨fun className => ?_, ?_⟩
  · rw [first, Option.map_eq_some_iff]
    constructor
    · rintro ⟨decl, found, given⟩
      rcases List.find?_eq_some_iff_append.mp found with ⟨fits, before, after, split, earlier⟩
      exact ⟨before, decl, after, split, given, of_decide_eq_true fits, by simpa using earlier⟩
    · rintro ⟨before, decl, after, split, given, fits, earlier⟩
      refine ⟨decl, List.find?_eq_some_iff_append.mpr ⟨decide_eq_true fits, before, after, split, ?_⟩, given⟩
      simpa using earlier
  · rw [first, Option.map_eq_none_iff, List.find?_eq_none]
    simp only [decide_eq_true_eq]

/-- A document with a class below the root and the given rules. -/
def Document.ofRules (rules : List RuleDecl) : Document :=
  { Document.empty with hierarchy := [("Item", "Entity")], rules }

/-- The catalog of such a document, with the rules that could be loaded. -/
def catalogOfRules (rules : List RuleDecl) : Catalog :=
  { Catalog.empty with
    names := ⟨[], [], [], ["Entity", "Item"]⟩
    entities := [("Entity", []), ("Item", [])]
    parents := [("Item", "Entity")]
    rules := (rules.mapM (loadRule Regex.engine ["Entity", "Item"])).toOption.getD [] }

theorem load_ofRules {rules : List RuleDecl}
    (loads : (rules.mapM (loadRule Regex.engine ["Entity", "Item"])).toOption.isSome = true) :
    load .standing (.ofRules rules) = .ok (catalogOfRules rules) := by
  let c := catalogOfRules rules
  let gathered : Gathered := ⟨[], [], []⟩
  have ruled : rules.mapM (loadRule Regex.engine ["Entity", "Item"]) = .ok c.rules := by
    cases made : rules.mapM (loadRule Regex.engine ["Entity", "Item"]) with
    | error fault =>
        rw [made] at loads
        cases loads
    | ok kept => simp only [c, catalogOfRules, made, Except.toOption, Option.getD_some]
  have names : (c.tables.flatMap Table.names).Perm ["Entity", "Item"] := .refl _
  exact load_of_stages ⟨[], c.composites, gathered, gathered, gathered, rfl, rfl, rfl, ruled, rfl, rfl, rfl, rfl,
    rfl, rfl, rfl, checkEmbedding_of_perm names (by decide) rfl, rfl, rfl, rfl⟩

/-- Two rules, of which the first one takes names away from the second. -/
def itemRules : List RuleDecl := [⟨"ITEM_[A-Z]+", "Item"⟩, ⟨".*_ROPE|DOOR", "Entity"⟩]

theorem rules_match_whole_names_at_itemRules : Host.standing.engine.Follows Regex.language ∧
    load .standing (.ofRules itemRules) = .ok (catalogOfRules itemRules) ∧
    (forall decl, decl ∈ itemRules -> decl.WellFormed Regex.language) ∧
    FirstFit Regex.language itemRules "ITEM_ROPE" "Item" ∧
    FirstFit Regex.language itemRules "OLD_ITEM_ROPE" "Entity" ∧
    forall decl, decl ∈ itemRules -> ¬ decl.Fits Regex.language "OUTDOOR" := by
  have loaded : load .standing (.ofRules itemRules) = .ok (catalogOfRules itemRules) :=
    load_ofRules (by decide +kernel)
  have wellFormed : forall decl, decl ∈ itemRules -> decl.WellFormed Regex.language := by
    intro decl member
    have compiles : forall decl, decl ∈ itemRules -> (Regex.compile decl.pattern.toList).isSome = true := by
      decide +kernel
    rcases Option.isSome_iff_exists.mp (compiles decl member) with ⟨m, compiled⟩
    rcases Regex.exists_reading compiled with ⟨e, reads, -⟩
    exact ⟨e, reads⟩
  have follows : Host.standing.engine.Follows Regex.language := Regex.engine_follows
  have given := (rules_match_whole_names follows loaded).2 wellFormed
  exact ⟨follows, loaded, wellFormed, ((given "ITEM_ROPE").1 "Item").mp (by decide +kernel),
    ((given "OLD_ITEM_ROPE").1 "Entity").mp (by decide +kernel), (given "OUTDOOR").2.mp (by decide +kernel)⟩

/-- A rule whose pattern closes the group around it and opens another. -/
def crossedRules : List RuleDecl := [⟨"a)|(?:b", "Entity"⟩]

/-- Loading accepts a pattern that is no expression by itself, and its class is given to
a name of which the pattern only takes the beginning. -/
theorem accepted_illFormed_rule : load .standing (.ofRules crossedRules) = .ok (catalogOfRules crossedRules) ∧
    (forall decl, decl ∈ crossedRules ->
      ¬ decl.WellFormed Regex.language ∧ ¬ decl.Fits Regex.language "axe") ∧
    (catalogOfRules crossedRules).classFor "axe" = some "Entity" := by
  have unread : forall e, ¬ Regex.language.Reads "a)|(?:b".toList e := by
    have read : Regex.readBranches 3 ⟨"a)|(?:b".toList, false, []⟩ =
        some ([.literal 'a' false], ⟨")|(?:b".toList, false, []⟩) := rfl
    exact Regex.not_readsAs read (by decide)
  refine ⟨load_ofRules (by decide +kernel), fun decl member => ?_, by decide +kernel⟩
  rw [List.mem_singleton.mp member]
  exact ⟨fun ⟨e, reads⟩ => unread e reads, fun ⟨e, reads, _⟩ => unread e reads⟩

end Schema
end MemoryAtlas

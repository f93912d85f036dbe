import MemoryAtlas.Proofs.Layout.Extent
import MemoryAtlas.Proofs.Layout.Uniform
import MemoryAtlas.Proofs.Schema.Chains
import MemoryAtlas.Report.Rendering

namespace MemoryAtlas

open Schema Shape

/-!
# Routes and how they are spelled

No two visits of a type come by the same route.  Fields of one declaration have
different names, the classes of a chain are different, and so are the places in
an array.  A layout does not keep routes, though.  It keeps them spelled out,
with dots between the names, and a name may contain a dot itself.

Where no name does, a path is read back from its last dot, so that different
routes have different paths and every visit is recorded.  Where names do contain
dots, a visit is lost precisely if an earlier one, come by another route, is
spelled alike.
-/

/-- A name that a path can be read back from. -/
def Dotless (name : String) : Prop :=
  '.' ∉ name.toList

instance (name : String) : Decidable (Dotless name) :=
  inferInstanceAs (Decidable ('.' ∉ name.toList))

theorem dotless_index (i : Nat) : Dotless (toString i) := by
  intro dot
  rw [Nat.toString_eq_repr, Nat.toList_repr] at dot
  have digit := Nat.isDigit_of_mem_toDigits (by decide) (by decide) dot
  cases digit

/-! ## Reading a path back -/

namespace Report

theorem splitLast?_of_dotless {name : String} (dotless : Dotless name) : splitLast? name = none := by
  have all : forall letter, letter ∈ name.toList.reverse -> (letter != '.') = true := by
    intro letter member
    rw [bne_iff_ne]
    rintro rfl
    exact dotless (List.mem_reverse.mp member)
  have rest : name.toList.reverse.dropWhile (· != '.') = [] := List.dropWhile_eq_nil_iff.mpr all
  simp only [splitLast?, rest]

theorem splitLast?_append {name : String} (dotless : Dotless name) (above : String) :
    splitLast? (above ++ "." ++ name) = some (above, name) := by
  have all : forall letter, letter ∈ name.toList.reverse -> (letter != '.') = true := by
    intro letter member
    rw [bne_iff_ne]
    rintro rfl
    exact dotless (List.mem_reverse.mp member)
  have reversed : (above ++ "." ++ name).toList.reverse =
      name.toList.reverse ++ '.' :: above.toList.reverse := by
    simp [String.toList_append]
  have rest : (name.toList.reverse ++ '.' :: above.toList.reverse).dropWhile (· != '.') =
      '.' :: above.toList.reverse := by
    rw [List.dropWhile_append_of_pos all]
    simp
  have last : (name.toList.reverse ++ '.' :: above.toList.reverse).takeWhile (· != '.') =
      name.toList.reverse := by
    rw [List.takeWhile_append_of_pos all]
    simp
  simp only [splitLast?, reversed, rest, last, List.reverse_reverse, String.ofList_toList]

end Report

theorem joinPath_inj_of_dotless {above above' name name' : String} (dotless : Dotless name)
    (dotless' : Dotless name') (same : joinPath above name = joinPath above' name') :
    above = above' ∧ name = name' := by
  have split := congrArg Report.splitLast? same
  by_cases top : above = ""
  · subst top
    by_cases top' : above' = ""
    · subst top'
      exact ⟨rfl, same⟩
    · rw [joinPath_of_ne_empty top', Report.splitLast?_append dotless'] at split
      have plain : joinPath "" name = name := rfl
      rw [plain, Report.splitLast?_of_dotless dotless] at split
      cases split
  · rw [joinPath_of_ne_empty top, Report.splitLast?_append dotless] at split
    by_cases top' : above' = ""
    · subst top'
      have plain : joinPath "" name' = name' := rfl
      rw [plain, Report.splitLast?_of_dotless dotless'] at split
      cases split
    · rw [joinPath_of_ne_empty top', Report.splitLast?_append dotless'] at split
      cases split
      exact ⟨rfl, rfl⟩

/-- A route that can be read back from its path: no name has a dot, and the
path is empty nowhere below the top. -/
structure Spellable (under : String) (route : List String) : Prop where
  dotless : forall name, name ∈ route -> Dotless name
  named : under ≠ "" ∨ route.head? ≠ some ""

theorem Spellable.concat {under : String} {route : List String} {name : String}
    (spellable : Spellable under (route ++ [name])) : Spellable under route ∧ Dotless name := by
  refine ⟨⟨fun other member => ?_, ?_⟩, ?_⟩
  · exact spellable.dotless other (List.mem_append_left [name] member)
  · rcases spellable.named with below | first
    · exact .inl below
    · cases route with
      | nil => exact .inr (by simp)
      | cons other rest => exact .inr first
  · exact spellable.dotless name (List.mem_append_right route List.mem_cons_self)

theorem foldl_joinPath_ne_empty {under : String} (present : under ≠ "") (route : List String) :
    route.foldl joinPath under ≠ "" := by
  induction route generalizing under with
  | nil => exact present
  | cons name rest inductionHypothesis => exact inductionHypothesis (joinPath_ne_empty present name)

/-- Below the top a path is never empty. -/
theorem Spellable.path_ne_empty {under : String} {route : List String} (spellable : Spellable under route)
    (below : route ≠ []) : route.foldl joinPath under ≠ "" := by
  cases route with
  | nil => exact absurd rfl below
  | cons name rest =>
      rcases spellable.named with present | first
      · exact foldl_joinPath_ne_empty (joinPath_ne_empty present name) rest
      · have present : name ≠ "" := by simpa using first
        exact foldl_joinPath_ne_empty (joinPath_ne_empty_of_name present under) rest

theorem length_foldl_joinPath {under : String} (present : under ≠ "") (route : List String) :
    under.length + route.length ≤ (route.foldl joinPath under).length := by
  induction route generalizing under with
  | nil => exact Nat.le_refl _
  | cons name rest inductionHypothesis =>
      have longer := inductionHypothesis (joinPath_ne_empty present name)
      have dot : ".".length = 1 := rfl
      rw [joinPath_of_ne_empty present, String.length_append, String.length_append, dot] at longer
      rw [List.foldl_cons, joinPath_of_ne_empty present, List.length_cons]
      omega

/-- A path below the top is not the top. -/
theorem Spellable.path_ne_top {under : String} {route : List String} (spellable : Spellable under route)
    (below : route ≠ []) : route.foldl joinPath under ≠ under := by
  by_cases top : under = ""
  · subst top
    exact spellable.path_ne_empty below
  · intro same
    have longer := length_foldl_joinPath top route
    have positive := List.length_pos_iff.mpr below
    rw [same] at longer
    omega

/-- Routes that can be read back are told apart by their paths. -/
theorem Spellable.injective {under : String} {route route' : List String}
    (spellable : Spellable under route) (spellable' : Spellable under route')
    (same : route.foldl joinPath under = route'.foldl joinPath under) : route = route' := by
  induction route using List.reverseRecOn generalizing route' with
  | nil =>
      by_cases top : route' = []
      · exact top.symm
      · exact absurd same.symm (spellable'.path_ne_top top)
  | append_singleton route name inductionHypothesis =>
      induction route' using List.reverseRecOn with
      | nil => exact absurd same (spellable.path_ne_top (by simp))
      | append_singleton route' name' _ =>
          rw [List.foldl_append, List.foldl_append] at same
          rcases joinPath_inj_of_dotless spellable.concat.2 spellable'.concat.2 same with ⟨above, rfl⟩
          rw [inductionHypothesis spellable.concat.1 spellable'.concat.1 above]

/-! ## Routes are different -/

namespace Visit

/-- Two visits that come by different routes. -/
def Apart (v w : Visit) : Prop :=
  v.route ≠ w.route

theorem Apart.part {v w : Visit} (apart : Apart v w) (owner : Option String) (name : String)
    (offset : Nat) : Apart (v.part owner name offset) (w.part owner name offset) :=
  fun same => apart (List.cons.inj same).2

theorem apart_part_of_ne {name name' : String} (different : name ≠ name') (v w : Visit)
    (owner : Option String) (offset offset' : Nat) :
    Apart (v.part owner name offset) (w.part owner name' offset') :=
  fun same => different (List.cons.inj same).1

end Visit

namespace Shape

theorem route_ne_nil_of_mem {owner : Option String} {parts : List Part} {v : Visit}
    (member : v ∈ visitsOfParts owner parts) : v.route ≠ [] := by
  rcases mem_visitsOfParts.mp member with ⟨part, -, inner, -, rfl⟩
  exact List.cons_ne_nil _ _

/-- Parts with different names have visits with different routes. -/
theorem pairwise_apart {parts : List Part} (names : (parts.map Prod.fst).Nodup)
    (each : forall part, part ∈ parts -> part.2.2.visits.Pairwise Visit.Apart) (owner : Option String) :
    (visitsOfParts owner parts).Pairwise Visit.Apart := by
  refine pairwise_visitsOfParts ?_ ((List.pairwise_map.mp names).imp ?_)
  · intro part listed
    exact List.pairwise_map.mpr ((each part listed).imp (fun apart => apart.part _ _ _))
  · intro part later different v _ w _
    exact Visit.apart_part_of_ne different v w _ _ _

theorem nodup_elementParts (element : Shape) (count : Nat) :
    ((elementParts element count).map Prod.fst).Nodup := by
  rw [elementParts, List.map_map]
  refine List.Nodup.map_on (fun i _ j _ same => ?_) List.nodup_range
  exact Nat.repr_inj.mp same

end Shape

namespace Catalog

theorem map_fst_layFields (expand : Kind -> Shape) (cursor : Nat) (fields : List Field) :
    (layFields expand cursor fields).map Prod.fst = fields.map Field.name := by
  induction fields generalizing cursor with
  | nil => rfl
  | cons field rest inductionHypothesis => exact congrArg (List.cons field.name) (inductionHypothesis _)

theorem map_fst_layClasses (c : Catalog) (expand : Kind -> Shape) (cursor : Nat) (chain : List String) :
    (c.layClasses expand cursor chain).map Prod.fst = chain := by
  induction chain generalizing cursor with
  | nil => rfl
  | cons name rest inductionHypothesis => exact congrArg (List.cons name) (inductionHypothesis _)

/-- No declaration has two fields of one name, and no chain a class twice. -/
structure Distinct (c : Catalog) : Prop where
  fields : forall kind, ((c.fieldsOf kind).map Field.name).Nodup
  chains : forall name, (c.ancestors name).Nodup

theorem Distinct.layFields_apart {c : Catalog} (distinct : c.Distinct) {expand : Kind -> Shape} {kind : Kind}
    (each : forall field, field ∈ c.fieldsOf kind -> (expand field.kind).visits.Pairwise Visit.Apart)
    (owner : Option String) :
    (visitsOfParts owner (layFields expand 0 (c.fieldsOf kind))).Pairwise Visit.Apart := by
  have names := distinct.fields kind
  rw [← map_fst_layFields expand 0] at names
  refine pairwise_apart names (fun part listed => ?_) owner
  rcases mem_layFields listed with ⟨field, member, offset, rfl⟩
  exact each field member

theorem Distinct.partsOf_apart {c : Catalog} (distinct : c.Distinct) {expand : Kind -> Shape} {kind : Kind}
    (each : forall field, field ∈ c.partFields kind -> (expand field.kind).visits.Pairwise Visit.Apart)
    (owner : Option String) :
    (visitsOfParts owner (c.partsOf expand kind)).Pairwise Visit.Apart := by
  cases kind with
  | entity name =>
      have classes := distinct.chains name
      rw [← c.map_fst_layClasses expand 0 (c.ancestors name)] at classes
      refine pairwise_apart classes (fun part listed => ?_) owner
      rcases mem_layClasses listed with ⟨ancestor, above, offset, rfl⟩
      refine .cons (fun w below => (route_ne_nil_of_mem below).symm) ?_
      refine distinct.layFields_apart (fun field member => ?_) _
      exact each field (mem_partFields_of_ancestor above member)
  | _ =>
      rw [partFields_eq_fieldsOf rfl] at each
      exact distinct.layFields_apart each owner

theorem Grown.apart {c : Catalog} (distinct : c.Distinct) {reach : Nat} {kind : Kind} {shape : Shape}
    (grown : c.Grown reach kind shape) : shape.visits.Pairwise Visit.Apart := by
  have behind : forall {kind size owner parts}, (visitsOfParts owner parts).Pairwise Visit.Apart ->
      (.self kind size :: (visitsOfParts owner parts).map Visit.behind).Pairwise Visit.Apart := by
    intro kind size owner parts apart
    refine .cons (fun w below => ?_) (List.pairwise_map.mpr apart)
    rcases List.mem_map.mp below with ⟨inner, reached, rfl⟩
    exact (route_ne_nil_of_mem reached).symm
  induction grown with
  | gap reach bytes => exact .nil
  | atom reach undivided => exact List.pairwise_singleton _ _
  | @array reach element shape count divided grown inductionHypothesis =>
      rw [visits_array]
      refine .cons (fun w below => (route_ne_nil_of_mem below).symm) ?_
      refine pairwise_apart (nodup_elementParts shape count) (fun part listed => ?_) none
      rcases List.mem_map.mp listed with ⟨i, -, rfl⟩
      exact inductionHypothesis
  | record expand structured held inductionHypothesis =>
      refine .cons (fun w below => (route_ne_nil_of_mem below).symm) ?_
      exact distinct.partsOf_apart inductionHypothesis _
  | endless reach structured infinite => exact List.pairwise_singleton _ _
  | unfollowed pointer => exact List.pairwise_singleton _ _
  | followed expand leads held inductionHypothesis =>
      exact behind (distinct.partsOf_apart inductionHypothesis _)
  | @starred reach target shape plain grown inductionHypothesis =>
      have names : ([("*", 0, shape)].map (Prod.fst : Part -> String)).Nodup := List.nodup_singleton "*"
      refine behind (pairwise_apart names (fun part listed => ?_) _)
      rw [List.mem_singleton.mp listed]
      exact inductionHypothesis

theorem Distinct.typeVisits_apart {c : Catalog} (distinct : c.Distinct) (consistent : c.Consistent)
    (reach : Nat) (name : String) : (c.typeVisits reach name).Pairwise Visit.Apart := by
  have each : forall field : Field, (c.shape reach field.kind).visits.Pairwise Visit.Apart :=
    fun field => (consistent.grown reach field.kind).apart distinct
  rw [typeVisits, topParts]
  split
  · have chain : (visitsOfParts (some name)
        (c.partsOf (c.shape reach) (.entity name))).Pairwise Visit.Apart :=
      distinct.partsOf_apart (fun field _ => each field) (some name)
    exact chain
  · rw [fieldsNamed]
    cases c.resolve name with
    | none => exact .nil
    | some kind => exact distinct.layFields_apart (fun field _ => each field) (some name)

/-! ## Routes without dots -/

/-- No name that a route can pass through has a dot. -/
structure DotFree (c : Catalog) : Prop where
  fields : forall kind field, field ∈ c.fieldsOf kind -> Dotless field.name
  chains : forall name ancestor, ancestor ∈ c.ancestors name -> Dotless ancestor

/-- A layout of the type starts below a name, or with classes that have names. -/
def TopNamed (c : Catalog) (name : String) : Prop :=
  if c.isClass name then forall ancestor, ancestor ∈ c.ancestors name -> ancestor ≠ "" else name ≠ ""

theorem VisitsPart.dotless {c : Catalog} (dotFree : c.DotFree) {expand : Kind -> Shape} {kind : Kind}
    {owner : Option String} {v : Visit} (visited : c.VisitsPart expand kind owner v)
    (each : forall field, field ∈ c.partFields kind -> forall v, v ∈ (expand field.kind).visits ->
      forall name, name ∈ v.route -> Dotless name) :
    forall name, name ∈ v.route -> Dotless name := by
  cases visited with
  | @field field inner offset plain member visited =>
      have listed := mem_partFields_of_plain plain member
      exact List.forall_mem_cons.mpr ⟨dotFree.fields _ field member, each field listed inner visited⟩
  | @header name ancestor offset size isClass above =>
      exact List.forall_mem_cons.mpr ⟨dotFree.chains name ancestor above, fun _ none => by cases none⟩
  | @inherited name ancestor field inner offset offset' isClass above member visited =>
      subst isClass
      have listed := mem_partFields_of_ancestor above member
      refine List.forall_mem_cons.mpr ⟨dotFree.chains name ancestor above, ?_⟩
      exact List.forall_mem_cons.mpr ⟨dotFree.fields _ field member, each field listed inner visited⟩

theorem Grown.dotless {c : Catalog} (dotFree : c.DotFree) {reach : Nat} {kind : Kind} {shape : Shape}
    (grown : c.Grown reach kind shape) {v : Visit} (member : v ∈ shape.visits) :
    forall name, name ∈ v.route -> Dotless name := by
  refine grown.forall_visits (fun v => forall name, name ∈ v.route -> Dotless name) ?_ ?_ ?_ ?_ ?_ member
  · exact fun kind size name none => by cases none
  · exact fun i offset v dotless => List.forall_mem_cons.mpr ⟨dotless_index i, dotless⟩
  · exact fun v dotless => List.forall_mem_cons.mpr ⟨by decide, dotless⟩
  · exact fun v dotless => dotless
  · exact fun expand kind each v below => (visitsPart_of_mem below).dotless dotFree each

theorem spellable_of_mem_typeVisits {c : Catalog} (consistent : c.Consistent) (dotFree : c.DotFree)
    {reach : Nat} {name : String} (named : c.TopNamed name) {v : Visit}
    (visited : v ∈ c.typeVisits reach name) : Spellable (c.topPath name) v.route := by
  have each : forall field : Field, forall v, v ∈ (c.shape reach field.kind).visits ->
      forall name, name ∈ v.route -> Dotless name :=
    fun field v reached => (consistent.grown reach field.kind).dotless dotFree reached
  rcases typeVisits_cases visited with ⟨isClass, part⟩ | ⟨stranger, field, declared, inner, reached, offset, rfl⟩
  · refine ⟨part.dotless dotFree (fun field _ => each field), .inr ?_⟩
    rw [TopNamed, if_pos isClass] at named
    cases part with
    | field offset plain member visited => cases plain
    | header offset size same above =>
        cases same
        exact fun first => named _ above (Option.some.inj first)
    | inherited offset offset' same above member visited =>
        cases same
        exact fun first => named _ above (Option.some.inj first)
  · rw [TopNamed, stranger] at named
    rw [topPath, stranger]
    have own : Dotless field.name := by
      rw [fieldsNamed] at declared
      cases resolved : c.resolve name with
      | none => simp [resolved] at declared
      | some kind =>
          rw [resolved] at declared
          exact dotFree.fields kind field declared
    exact ⟨List.forall_mem_cons.mpr ⟨own, each field inner reached⟩, .inl named⟩

end Catalog

/-! ## What is recorded -/

namespace Schema.Stages

variable {host : Host} {document : Document} {c : Catalog} (stages : Stages host document c)
include stages

/-- The fields of a kind have been loaded from the declarations of its name. -/
theorem fieldsOf_filed (kind : Kind) : ∃ name,
    (c.fieldsOf kind ≠ [] -> kind.declaration? = some name) ∧
    Filed c.names name (document.Declares name) (c.fieldsOf kind) := by
  have looked : forall {table : Table (List Field)} {name},
      (forall {fields}, table.find? name = some fields -> stages.structs.find? name = some fields ∨
        c.entities.find? name = some fields) ->
      Filed c.names name (document.Declares name) ((table.find? name).getD []) := by
    intro table name known
    cases found : table.find? name with
    | none => exact Filed.nil
    | some fields => exact stages.filed (known found)
  cases kind with
  | composite name =>
      refine ⟨name, fun _ => rfl, looked fun found => .inl ?_⟩
      rw [stages.composites_eq] at found
      exact Table.find?_of_find?_filter
        (fun name => !c.names.pointers.contains name && !c.names.inlines.contains name) found
  | ownedPointer name =>
      refine ⟨name, fun _ => rfl, looked fun found => .inl ?_⟩
      rw [stages.pointers_eq] at found
      exact Table.find?_of_find?_filter (fun name => c.names.pointers.contains name) found
  | inlineStruct name =>
      refine ⟨name, fun _ => rfl, looked fun found => .inl ?_⟩
      rw [stages.inlines_eq] at found
      exact Table.find?_of_find?_filter
        (fun name => !c.names.pointers.contains name && c.names.inlines.contains name) found
  | entity name => exact ⟨name, fun _ => rfl, looked .inr⟩
  | _ => exact ⟨"", fun some => absurd rfl some, Filed.nil⟩

theorem distinct : c.Distinct where
  fields := by
    intro kind
    rcases stages.fieldsOf_filed kind with ⟨name, -, filed⟩
    exact filed.nodup
  chains := stages.nodup_ancestors

end Schema.Stages

namespace Catalog

theorem toList_typeOffsets {host : Host} {document : Document} {c : Catalog}
    (loaded : load host document = .ok c)
    (dotFree : c.DotFree) {name : String} (named : c.TopNamed name) (o : LayoutOptions) (m : Memory)
    (root : Address) : (c.typeOffsets o m root name).toList =
      (c.typeVisits o.reach name).map (Visit.entry m (c.topPath name) root) := by
  rcases load_stages loaded with ⟨stages⟩
  have consistent := load_consistent loaded
  have apart := stages.distinct.typeVisits_apart consistent o.reach name
  rw [typeOffsets_eq]
  refine OffsetMap.toList_ofEntries (List.pairwise_map.mpr ?_)
  refine apart.imp_of_mem fun {v w} visited visited' different same => different ?_
  have spellable := spellable_of_mem_typeVisits consistent dotFree named visited
  have spellable' := spellable_of_mem_typeVisits consistent dotFree named visited'
  exact spellable.injective spellable' same

theorem doorCatalog_dotFree : doorCatalog.DotFree ∧ doorCatalog.TopNamed "Door" := by
  rcases load_stages load_doorWithLocks with ⟨stages⟩
  have filed : forall name, name ∈ doorCatalog.entities.names -> Dotless name ∧ name ≠ "" := by decide
  have known : forall name ancestor, ancestor ∈ doorCatalog.ancestors name -> Dotless ancestor ∧ ancestor ≠ "" :=
    fun name ancestor above => filed ancestor (stages.mem_entities_of_mem_ancestors above)
  constructor
  · exact ⟨fun kind => forall_fieldsOf (by decide) kind, fun name ancestor above => (known name ancestor above).1⟩
  · exact fun ancestor above => (known "Door" ancestor above).2

/-- What a layout loses.  All visits of a type come by different routes, and
each is inserted after the ones before it.  An insertion is rejected precisely
if a visit come by another route has the same path already.  In a catalog
without dots in its names there is no such visit, and every value has an entry
of its own. -/
theorem insert_rejected_iff_spelled_alike {host : Host} {document : Document} {c : Catalog}
    (loaded : load host document = .ok c) (o : LayoutOptions) (m : Memory) (root : Address) (name : String) :
    (c.typeVisits o.reach name).Pairwise Visit.Apart ∧
    c.typeOffsets o m root name =
      .ofEntries ((c.typeVisits o.reach name).map (Visit.entry m (c.topPath name) root)) ∧
    (forall before v after, c.typeVisits o.reach name = before ++ v :: after ->
      (((OffsetMap.ofEntries (before.map (Visit.entry m (c.topPath name) root))).insert
          (v.entry m (c.topPath name) root)).1 = false <->
        ∃ earlier, earlier ∈ before ∧ earlier.route ≠ v.route ∧
          earlier.path (c.topPath name) = v.path (c.topPath name))) ∧
    (c.DotFree -> c.TopNamed name -> (c.typeOffsets o m root name).toList =
      (c.typeVisits o.reach name).map (Visit.entry m (c.topPath name) root)) := by
  rcases load_stages loaded with ⟨stages⟩
  have consistent := load_consistent loaded
  have apart := stages.distinct.typeVisits_apart consistent o.reach name
  refine ⟨apart, typeOffsets_eq c o m root name, ?_, ?_⟩
  · intro before v after split
    rw [split] at apart
    have different := (List.pairwise_append.mp apart).2.2
    rw [OffsetMap.insert_rejects_iff, OffsetMap.contains_ofEntries]
    constructor
    · rintro ⟨entry, member, same⟩
      rcases List.mem_map.mp member with ⟨earlier, listed, rfl⟩
      exact ⟨earlier, listed, different earlier listed v List.mem_cons_self, same⟩
    · rintro ⟨earlier, listed, -, same⟩
      exact ⟨_, List.mem_map_of_mem listed, same⟩
  · exact fun dotFree named => toList_typeOffsets loaded dotFree named o m root

theorem insert_rejected_iff_spelled_alike_at_doorWithLocks : load .standing doorWithLocks = .ok doorCatalog ∧
    doorCatalog.DotFree ∧ doorCatalog.TopNamed "Door" ∧
    forall o m root, (doorCatalog.typeOffsets o m root "Door").toList =
      (doorCatalog.typeVisits o.reach "Door").map (Visit.entry m "" root) := by
  rcases doorCatalog_dotFree with ⟨dotFree, named⟩
  refine ⟨load_doorWithLocks, dotFree, named, fun o m root => ?_⟩
  exact (insert_rejected_iff_spelled_alike load_doorWithLocks o m root "Door").2.2.2 dotFree named

/-- A structure with a field `a` that has a part `c`, and a field `a.c`. -/
def dottedOuter : Document :=
  { Document.empty with
    structs := [("Inner", [plainField "c" "Byte"]),
      ("Outer", [plainField "a" "Inner", plainField "a.c" "Byte"])] }

/-- Loading accepts a structure in which the layout loses a field, although
every size ends. -/
theorem accepted_loses_field : ∃ c, load .standing dottedOuter = .ok c ∧ (forall kind, ∃ size, c.SizeRun kind size) ∧
    forall m root, ∃ before v, c.typeVisits 8 "Outer" = before ++ [v] ∧ v.route = ["a.c"] ∧
      ((OffsetMap.ofEntries (before.map (Visit.entry m "Outer" root))).insert
        (v.entry m "Outer" root)).1 = false := by
  let c : Catalog :=
    { Catalog.empty with
      names := ⟨[], [], ["Inner", "Outer"], ["Entity"]⟩
      composites := [("Inner", [⟨"c", .scalar ⟨1, .signed⟩, "Byte", none, none⟩]),
        ("Outer", [⟨"a", .composite "Inner", "Inner", none, none⟩,
          ⟨"a.c", .scalar ⟨1, .signed⟩, "Byte", none, none⟩])]
      entities := [("Entity", [])] }
  have loaded : load .standing dottedOuter = .ok c := by cbv
  have noClass : forall kind field, field ∈ c.fieldsOf kind -> field.kind.core.isEntity = false :=
    fun kind => forall_fieldsOf (by decide) kind
  have visited : c.typeVisits 8 "Outer" =
      [⟨["a"], [.on 0], .composite "Inner", 1, some ("Outer", "a")⟩,
       ⟨["a", "c"], [.on 0, .on 0], .scalar ⟨1, .signed⟩, 1, some ("Inner", "c")⟩] ++
      [⟨["a.c"], [.on 1], .scalar ⟨1, .signed⟩, 1, some ("Outer", "a.c")⟩] := by decide
  refine ⟨c, loaded, terminates_of_no_class_held (load_consistent loaded) noClass, fun m root => ?_⟩
  refine ⟨_, _, visited, rfl, ?_⟩
  have same : ["a", "c"].foldl joinPath "Outer" = ["a.c"].foldl joinPath "Outer" := by decide
  rw [OffsetMap.insert_rejects_iff, OffsetMap.contains_ofEntries]
  exact ⟨_, List.mem_cons_of_mem _ List.mem_cons_self, same⟩

end Catalog
end MemoryAtlas

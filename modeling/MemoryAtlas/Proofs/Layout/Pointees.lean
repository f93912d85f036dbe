import MemoryAtlas.Proofs.Layout.Unresolved
import MemoryAtlas.Proofs.Layout.Depth

namespace MemoryAtlas

open Schema Shape

/-!
# Where pointers lead

What a pointer leads to is laid out like a type by itself, from the stored
address on.  The stored address can be anything.  Each value in the pointee is
at the stored address and its own distance, counted around the end of the
address space, whatever the distances from one structure to the next were on the
way.

There is one address at which this stops being true, because it means that
nothing was found: a structure, a class, an array or an element that happens to
begin at address 0 counts as unresolved, and takes everything in it along.  A
pointer to the top of the address space can bring that about.
-/

/-- A step forward goes around the end of the address space. -/
theorem Address.toNat_shift_mod (a : Address) (n : Nat) :
    (a.shift n).toNat = (a.toNat + n) % 2 ^ 64 := by
  rw [shift, UInt64.toNat_add, UInt64.toNat_ofNat']
  omega

theorem Address.shift_eq_zero_iff {a : Address} {n : Nat} :
    a.shift n = 0 <-> (a.toNat + n) % 2 ^ 64 = 0 := by
  rw [← UInt64.toNat_inj, toNat_shift_mod, UInt64.toNat_zero]

/-! ## Steps that go forward, around the end -/

theorem foldl_advance_concat (steps : List Step) (bytes : Nat) :
    (steps ++ [Step.on bytes]).foldl Step.advance 0 = steps.foldl Step.advance 0 + bytes := by
  rw [List.foldl_append]
  rfl

theorem direct_of_append {before after : List Step} (direct : (before ++ after).count .through = 0) :
    before.count .through = 0 ∧ after.count .through = 0 := by
  rw [List.count_append] at direct
  omega

/-- Steps forward lead as far as they add up to, unless they come to address 0
before the last of them. -/
theorem foldl_take_of_resolved (m : Memory) {steps : List Step} (direct : steps.count .through = 0)
    {a : Address} (resolved : forall before after, steps = before ++ after -> after ≠ [] ->
      a.shift (before.foldl Step.advance 0) ≠ 0) :
    steps.foldl m.take a = a.shift (steps.foldl Step.advance 0) := by
  induction steps using List.reverseRecOn with
  | nil => exact a.shift_zero.symm
  | append_singleton steps last inductionHypothesis =>
      have earlier := inductionHypothesis (direct_of_append direct).1
        (fun before after split more => resolved before (after ++ [last])
          (by rw [split, List.append_assoc]) (by simp))
      cases last with
      | through => simp at direct
      | on bytes =>
          have here := resolved steps [.on bytes] rfl (List.cons_ne_nil _ _)
          rw [List.foldl_append, earlier, foldl_advance_concat, ← Address.shift_shift]
          exact if_neg here

/-- Once they have come to address 0 they do not get away from it. -/
theorem foldl_take_of_unresolved (m : Memory) {steps : List Step} (direct : steps.count .through = 0)
    {a : Address} (unresolved : ∃ before after, steps = before ++ after ∧ after ≠ [] ∧
      a.shift (before.foldl Step.advance 0) = 0) :
    steps.foldl m.take a = 0 := by
  induction steps using List.reverseRecOn with
  | nil =>
      rcases unresolved with ⟨before, after, split, more, -⟩
      exact absurd (List.append_eq_nil_iff.mp split.symm).2 more
  | append_singleton steps last inductionHypothesis =>
      suffices arrived : steps.foldl m.take a = 0 by
        rw [List.foldl_append, arrived]
        exact m.take_zero last
      by_cases earlier : ∃ before after, steps = before ++ after ∧ after ≠ [] ∧
          a.shift (before.foldl Step.advance 0) = 0
      · exact inductionHypothesis (direct_of_append direct).1 earlier
      · -- Address 0 is reached with the step before the last one, and not sooner.
        rw [foldl_take_of_resolved m (direct_of_append direct).1 fun before after split more zero =>
          earlier ⟨before, after, split, more, zero⟩]
        rcases unresolved with ⟨before, after, split, more, zero⟩
        rcases List.eq_nil_or_concat after with none | ⟨others, final, rfl⟩
        · exact absurd none more
        · rw [List.concat_eq_append, ← List.append_assoc] at split
          rcases List.append_inj' split rfl with ⟨same, -⟩
          rcases others with _ | ⟨next, others⟩
          · rw [same, List.append_nil]
            exact zero
          · exact absurd ⟨before, next :: others, same, List.cons_ne_nil _ _, zero⟩ earlier

/-- Steps forward that do not end at address 0 lead as far as they add up to. -/
theorem foldl_take_of_ne_zero (m : Memory) {steps : List Step} (direct : steps.count .through = 0)
    {a : Address} (resolved : steps.foldl m.take a ≠ 0) :
    steps.foldl m.take a = a.shift (steps.foldl Step.advance 0) := by
  refine foldl_take_of_resolved m direct fun before after split more zero => ?_
  exact resolved (foldl_take_of_unresolved m direct ⟨before, after, split, more, zero⟩)

/-! ## What holds a value -/

/-- The second value is a part of the first one, at any depth: the way to it
goes on from there. -/
structure Visit.Encloses (outer v : Visit) : Prop where
  route : ∃ names, v.route = outer.route ++ names
  steps : ∃ steps, steps ≠ [] ∧ v.steps = outer.steps ++ steps

namespace Shape

/-- Every place on the way to a value that no pointer leads to is the place of a
value that has been visited before. -/
def Staged (visits : List Visit) (v : Visit) (before : List Step) : Prop :=
  ∃ outer, outer ∈ visits ∧ outer.steps = before ∧ ∃ names, v.route = outer.route ++ names

theorem Staged.mono {visits visits' : List Visit} {v : Visit} {before : List Step}
    (staged : Staged visits v before) (more : visits ⊆ visits') : Staged visits' v before := by
  rcases staged with ⟨outer, visited, same, onward⟩
  exact ⟨outer, more visited, same, onward⟩

theorem Staged.part {visits : List Visit} {v : Visit} {before : List Step}
    (staged : Staged visits v before) (owner : Option String) (name : String) (offset : Nat) :
    Staged (visits.map (Visit.part owner name offset)) (v.part owner name offset) (.on offset :: before) := by
  rcases staged with ⟨outer, visited, rfl, names, onward⟩
  exact ⟨_, List.mem_map_of_mem visited, rfl, names, congrArg (List.cons name) onward⟩

theorem staged_self (kind : Kind) (size : Nat) (rest : List Visit) (v : Visit) :
    Staged (.self kind size :: rest) v [] :=
  ⟨_, List.mem_cons_self, rfl, v.route, rfl⟩

mutual

theorem staged_of_mem {shape : Shape} {v : Visit} (visited : v ∈ shape.visits) (direct : v.depth = 0)
    {before after : List Step} (split : v.steps = before ++ after) (more : after ≠ []) :
    Staged shape.visits v before := by
  have apart : forall kind size, v ≠ .self kind size := by
    rintro kind size rfl
    exact more (List.append_eq_nil_iff.mp split.symm).2
  match shape with
  | .gap bytes => cases visited
  | .atom kind bytes => exact absurd (List.mem_singleton.mp visited) (apart _ _)
  | .endless kind => exact absurd (List.mem_singleton.mp visited) (apart _ _)
  | .array kind element count =>
      rcases before with _ | ⟨step, before⟩
      · exact staged_self kind _ _ v
      rcases List.mem_cons.mp visited with same | below
      · exact absurd same (apart _ _)
      rcases List.mem_flatMap.mp below with ⟨i, listed, mapped⟩
      rcases List.mem_map.mp mapped with ⟨inner, reached, rfl⟩
      rw [Visit.depth_part] at direct
      rcases List.cons.inj split with ⟨rfl, inside⟩
      have staged := (staged_of_mem reached direct inside more).part none (toString i) (i * element.size)
      exact staged.mono fun outer member =>
        List.mem_cons_of_mem _ (List.mem_flatMap.mpr ⟨i, listed, member⟩)
  | .record kind parts =>
      rcases before with _ | ⟨step, before⟩
      · exact staged_self kind _ _ v
      rcases List.mem_cons.mp visited with same | below
      · exact absurd same (apart _ _)
      exact (staged_of_mem_parts below direct split (List.cons_ne_nil _ _) more).mono
        (List.subset_cons_self _ _)
  | .pointer kind target =>
      rcases List.mem_cons.mp visited with same | below
      · exact absurd same (apart _ _)
      rcases List.mem_map.mp below with ⟨inner, -, rfl⟩
      rw [Visit.depth_behind] at direct
      omega

theorem staged_of_mem_parts {owner : Option String} {parts : List (String × Nat × Shape)} {v : Visit}
    (visited : v ∈ visitsOfParts owner parts) (direct : v.depth = 0) {before after : List Step}
    (split : v.steps = before ++ after) (begun : before ≠ []) (more : after ≠ []) :
    Staged (visitsOfParts owner parts) v before := by
  match parts with
  | [] => cases visited
  | (name, offset, shape) :: rest =>
      rcases List.mem_append.mp visited with here | later
      · rcases List.mem_map.mp here with ⟨inner, reached, rfl⟩
        rw [Visit.depth_part] at direct
        rcases before with _ | ⟨step, before⟩
        · exact absurd rfl begun
        rcases List.cons.inj split with ⟨rfl, inside⟩
        have staged := (staged_of_mem reached direct inside more).part owner name offset
        exact staged.mono (List.subset_append_left _ _)
      · exact (staged_of_mem_parts later direct split begun more).mono (List.subset_append_right _ _)

end

end Shape

namespace Catalog

/-- What is visited where a pointer leads, with so many more pointers to follow:
the parts of the declaration that it points to, laid out by themselves. -/
def pointees (c : Catalog) (left : Nat) (kind : Kind) : List Visit :=
  visitsOfParts kind.declaration? (c.targetParts (c.shape left) kind)

/-- A value is reached through a pointer, and through no further one: it is the
inner value of what the pointer leads to. -/
structure Pointee (c : Catalog) (left : Nat) (pointer inner v : Visit) : Prop where
  isPointer : pointer.kind.isPointer = true
  visited : inner ∈ c.pointees left pointer.kind
  direct : inner.depth = 0
  route : v.route = pointer.route ++ inner.route
  steps : v.steps = pointer.steps ++ .through :: inner.steps
  kind : v.kind = inner.kind

theorem Pointee.offset_eq {c : Catalog} {left : Nat} {pointer inner v : Visit}
    (pointee : c.Pointee left pointer inner v) : v.offset = inner.offset := by
  rw [Visit.offset, pointee.steps, List.foldl_append]
  rfl

theorem Pointee.part {c : Catalog} {left : Nat} {pointer inner v : Visit}
    (pointee : c.Pointee left pointer inner v) (owner : Option String) (name : String) (offset : Nat) :
    c.Pointee left (pointer.part owner name offset) inner (v.part owner name offset) where
  isPointer := pointee.isPointer
  visited := pointee.visited
  direct := pointee.direct
  route := congrArg (List.cons name) pointee.route
  steps := congrArg (List.cons (Step.on offset)) pointee.steps
  kind := pointee.kind

theorem Pointee.behind {c : Catalog} {left : Nat} {pointer inner v : Visit}
    (pointee : c.Pointee left pointer inner v) : c.Pointee left pointer.behind inner v.behind where
  isPointer := pointee.isPointer
  visited := pointee.visited
  direct := pointee.direct
  route := pointee.route
  steps := congrArg (List.cons Step.through) pointee.steps
  kind := pointee.kind

/-- Whatever pointers lead to among these visits is a pointee of one that is
visited too. -/
def Led (c : Catalog) (visits : List Visit) : Prop :=
  forall v, v ∈ visits -> v.depth ≠ 0 ->
    ∃ pointer, pointer ∈ visits ∧ ∃ left inner, c.Pointee left pointer inner v

section Led

variable {c : Catalog} {expand : Kind -> Shape}

theorem led_self (kind : Kind) (size : Nat) : c.Led [.self kind size] := by
  intro v visited deep
  rw [List.mem_singleton.mp visited] at deep
  exact absurd rfl deep

/-- A header on top is no pointee, and whatever was led to below it still is. -/
theorem Led.cons {visits : List Visit} (led : c.Led visits) (kind : Kind) (size : Nat) :
    c.Led (.self kind size :: visits) := by
  intro v visited deep
  rcases List.mem_cons.mp visited with rfl | below
  · exact absurd rfl deep
  rcases led v below deep with ⟨pointer, reached, pointee⟩
  exact ⟨pointer, List.mem_cons_of_mem _ reached, pointee⟩

theorem led_visitsOfParts {parts : List Part} (each : forall part, part ∈ parts -> c.Led part.2.2.visits)
    (owner : Option String) : c.Led (visitsOfParts owner parts) := by
  intro v visited deep
  rcases mem_visitsOfParts.mp visited with ⟨part, listed, inner, reached, rfl⟩
  rw [Visit.depth_part] at deep
  rcases each part listed inner reached deep with ⟨pointer, alsoReached, left, innermost, pointee⟩
  exact ⟨pointer.part owner part.1 part.2.1, mem_visitsOfParts.mpr ⟨part, listed, pointer, alsoReached, rfl⟩,
    left, innermost, pointee.part owner part.1 part.2.1⟩

theorem led_layFields {fields : List Field}
    (each : forall field, field ∈ fields -> c.Led (expand field.kind).visits) (owner : Option String)
    (cursor : Nat) : c.Led (visitsOfParts owner (layFields expand cursor fields)) := by
  refine led_visitsOfParts (fun part listed => ?_) owner
  rcases mem_layFields listed with ⟨field, declared, offset, rfl⟩
  exact each field declared

theorem led_layClasses {chain : List String}
    (each : forall name, name ∈ chain -> forall field, field ∈ c.fieldsOf (.entity name) ->
      c.Led (expand field.kind).visits) (owner : Option String) (cursor : Nat) :
    c.Led (visitsOfParts owner (c.layClasses expand cursor chain)) := by
  refine led_visitsOfParts (fun part listed => ?_) owner
  rcases mem_layClasses listed with ⟨name, above, offset, rfl⟩
  exact (led_layFields (each name above) _ 0).cons _ _

theorem led_partsOf {kind : Kind}
    (each : forall field, field ∈ c.partFields kind -> c.Led (expand field.kind).visits)
    (owner : Option String) : c.Led (visitsOfParts owner (c.partsOf expand kind)) := by
  have fields : kind.isEntity = false ->
      c.Led (visitsOfParts owner (layFields expand 0 (c.fieldsOf kind))) := fun plain =>
    led_layFields (fun field member => each field (mem_partFields_of_plain plain member)) owner 0
  cases kind with
  | entity name =>
      exact led_layClasses (fun ancestor above field member =>
        each field (mem_partFields_of_ancestor above member)) owner 0
  | _ => exact fields rfl

theorem led_targetParts (each : forall kind, c.Led (expand kind).visits) (owner : Option String)
    (kind : Kind) : c.Led (visitsOfParts owner (c.targetParts expand kind)) := by
  cases kind with
  | ownedPointer name =>
      show c.Led (visitsOfParts owner (c.partsOf expand (.ownedPointer name)))
      exact led_partsOf (fun field _ => each field.kind) owner
  | pointerTo target =>
      rw [targetParts]
      split
      · exact led_partsOf (fun field _ => each field.kind) owner
      · refine led_visitsOfParts (fun part listed => ?_) owner
        rw [List.mem_singleton.mp listed]
        exact each target
  | _ => exact fun v visited => absurd visited List.not_mem_nil

/-- What stands behind a pointer at once is its pointee, and anything deeper is
one of a pointer that stands there. -/
theorem led_behind {left : Nat} {kind : Kind} (isPointer : kind.isPointer = true)
    (led : c.Led (c.pointees left kind)) :
    c.Led (.self kind pointerSize :: (c.pointees left kind).map Visit.behind) := by
  intro v visited deep
  rcases List.mem_cons.mp visited with rfl | below
  · exact absurd rfl deep
  rcases List.mem_map.mp below with ⟨inner, reached, rfl⟩
  by_cases direct : inner.depth = 0
  · exact ⟨_, List.mem_cons_self, left, inner, isPointer, reached, direct, rfl, rfl, rfl⟩
  · rcases led inner reached direct with ⟨pointer, alsoReached, further, innermost, pointee⟩
    exact ⟨pointer.behind, List.mem_cons_of_mem _ (List.mem_map_of_mem alsoReached), further, innermost,
      pointee.behind⟩

end Led

/-- In a shape every pointer leads to its own pointees.  The walk goes to what a
kind holds by value first, and behind its pointers with one step less. -/
theorem led_shape {c : Catalog} (consistent : c.Consistent) (wellFounded : WellFounded c.Holds)
    (reach : Nat) (kind : Kind) : c.Led (c.shape reach kind).visits := by
  have byValue : forall reach, (forall kind : Kind, kind.isPointer = true ->
      c.Led (c.shape reach kind).visits) -> forall kind, c.Led (c.shape reach kind).visits := by
    intro reach pointers kind
    induction kind using wellFounded.induction with
    | _ kind held =>
      have accessible := wellFounded.apply kind
      have ofStructure : kind.structName?.isSome -> c.Led (c.shape reach kind).visits := by
        intro structured
        rw [shape_of_structured consistent accessible structured]
        refine (led_partsOf (fun field member => held field.kind ?_) _).cons kind _
        show field.kind ∈ c.heldKinds kind
        rw [heldKinds_eq c structured]
        exact List.mem_map_of_mem member
      cases kind with
      | inlineStruct name => exact ofStructure rfl
      | composite name => exact ofStructure rfl
      | entity name => exact ofStructure rfl
      | pointerTo target => exact pointers _ rfl
      | ownedPointer name => exact pointers _ rfl
      | fixedArray element count =>
          cases scalar : element.isScalar with
          | false =>
              rw [shape_of_array consistent accessible scalar, visits_array]
              refine (led_visitsOfParts (fun part listed => ?_) none).cons _ _
              rcases List.mem_map.mp listed with ⟨i, -, rfl⟩
              exact held element List.mem_cons_self
          | true =>
              rw [shape_eq consistent accessible, shapeWith, scalar]
              exact led_self _ _
      | skip bytes =>
          rw [shape_eq consistent accessible]
          exact fun v visited => absurd visited List.not_mem_nil
      | _ =>
          rw [shape_eq consistent accessible]
          exact led_self _ _
  induction reach generalizing kind with
  | zero =>
      refine byValue 0 (fun kind isPointer => ?_) kind
      rw [shape_of_isPointer consistent isPointer]
      exact led_self kind pointerSize
  | succ reach inductionHypothesis =>
      refine byValue (reach + 1) (fun kind isPointer => ?_) kind
      rw [shape_of_isPointer consistent isPointer]
      exact led_behind isPointer (led_targetParts inductionHypothesis _ kind)

theorem led_subject {c : Catalog} (consistent : c.Consistent) (wellFounded : WellFounded c.Holds)
    (reach : Nat) (subject : Subject) : c.Led (subject.visits c reach) := by
  have each := led_shape consistent wellFounded reach
  have fields : forall fields, c.Led (visitsOfParts none (layFields (c.shape reach) 0 fields)) :=
    fun fields => led_layFields (fun field _ => each field.kind) none 0
  have chain : forall chain, c.Led (visitsOfParts none (c.layClasses (c.shape reach) 0 chain)) :=
    fun chain => led_layClasses (fun name _ field _ => each field.kind) none 0
  cases subject with
  | ofFields under declared => exact fields declared
  | ofChain under names => exact chain names
  | ofName name =>
      rw [Subject.visits, Subject.parts, topParts]
      split
      · exact chain _
      · exact fields _

/-! ## Addresses of pointees -/

/-- A pointee is at the stored address and its own distance, unless it is part of
something that begins at address 0. -/
theorem Pointee.address {c : Catalog} {left : Nat} {pointer inner v : Visit}
    (pointee : c.Pointee left pointer inner v) {m : Memory} {root target : Address}
    (resolved : pointer.address m root ≠ 0) (stored : m.readPointer (pointer.address m root) = .ok target)
    (present : target ≠ 0) :
    ((forall outer, outer ∈ c.pointees left pointer.kind -> outer.Encloses inner ->
        (target.toNat + outer.offset) % 2 ^ 64 ≠ 0) ->
      (v.address m root).toNat = (target.toNat + inner.offset) % 2 ^ 64) ∧
    ((∃ outer, outer ∈ c.pointees left pointer.kind ∧ outer.Encloses inner ∧
        (target.toNat + outer.offset) % 2 ^ 64 = 0) -> v.address m root = 0) := by
  rw [Visit.Behind.address_eq pointee.steps, Memory.follow_of_readPointer resolved stored]
  constructor
  · intro apart
    rw [foldl_take_of_resolved m pointee.direct, Address.toNat_shift_mod]
    · rfl
    intro before after split more zero
    rcases before with _ | ⟨first, before⟩
    · rw [List.foldl_nil, Address.shift_zero] at zero
      exact present zero
    · rcases staged_of_mem_parts pointee.visited pointee.direct split (List.cons_ne_nil _ _) more with
        ⟨outer, visited, same, onward⟩
      refine apart outer visited ⟨onward, after, more, by rw [same, split]⟩ ?_
      rw [← same] at zero
      exact Address.shift_eq_zero_iff.mp zero
  · rintro ⟨outer, -, ⟨-, after, more, split⟩, zero⟩
    exact foldl_take_of_unresolved m pointee.direct
      ⟨outer.steps, after, split, more, Address.shift_eq_zero_iff.mpr zero⟩

/-- Followed pointers.  The layout of a subject records the same visits over
every memory and from every root, the first one to each path; whatever is reached through a pointer is a
pointee of the last pointer on the way; and a pointee of a pointer with something
stored in it is at the stored address and its own distance from the start of what
the pointer points to, counted around the end of the address space.  Only where a
structure, class, array or element that the pointee is part of begins at address
0 itself, the pointee is unresolved with it. -/
theorem pointees_laid_out {host : Host} {document : Document} {c : Catalog}
    (loaded : load host document = .ok c)
    (terminates : forall kind, ∃ size, c.SizeRun kind size) (subject : Subject) (o : LayoutOptions) :
    ((subject.recorded c o.reach).Sublist (subject.visits c o.reach) ∧ forall m root,
      (subject.offsets c o m root).toList =
        (subject.recorded c o.reach).map (Visit.entry m (subject.under c) root)) ∧
    (forall v, v ∈ subject.visits c o.reach -> v.depth ≠ 0 ->
      ∃ pointer, pointer ∈ subject.visits c o.reach ∧ ∃ left inner, c.Pointee left pointer inner v) ∧
    forall left pointer inner v, c.Pointee left pointer inner v -> forall m root target,
      pointer.address m root ≠ 0 -> m.readPointer (pointer.address m root) = .ok target -> target ≠ 0 ->
        ((forall outer, outer ∈ c.pointees left pointer.kind -> outer.Encloses inner ->
            (target.toNat + outer.offset) % 2 ^ 64 ≠ 0) ->
          (v.address m root).toNat = (target.toNat + inner.offset) % 2 ^ 64) ∧
        ((∃ outer, outer ∈ c.pointees left pointer.kind ∧ outer.Encloses inner ∧
            (target.toNat + outer.offset) % 2 ^ 64 = 0) -> v.address m root = 0) := by
  have consistent := load_consistent loaded
  have wellFounded := wellFounded_of_terminates terminates
  have recorded := subject.recorded_sublist c o.reach
  exact ⟨⟨recorded, fun m root => subject.toList_offsets c o m root⟩,
    led_subject consistent wellFounded o.reach subject,
    fun left pointer inner v pointee m root target resolved stored present =>
      pointee.address resolved stored present⟩

/-- A root that points to a node, in which a pair stands behind a number. -/
def nodeWithPair : Document :=
  { Document.empty with
    structs := [("Node", [plainField "id" "Qword", plainField "pair" "Pair"]),
      ("Pair", [plainField "x" "Dword", plainField "y" "Dword"]),
      ("Root", [{ plainField "node" "Node" with pointer := true }])] }

/-- The catalog of that document. -/
def nodeCatalog : Catalog :=
  { empty with
    names := ⟨[], [], ["Node", "Pair", "Root"], ["Entity"]⟩
    composites := [("Node", [⟨"id", .scalar ⟨8, .signed⟩, "Qword", none, none⟩,
        ⟨"pair", .composite "Pair", "Pair", none, none⟩]),
      ("Pair", [⟨"x", .scalar ⟨4, .signed⟩, "Dword", none, none⟩,
        ⟨"y", .scalar ⟨4, .signed⟩, "Dword", none, none⟩]),
      ("Root", [⟨"node", .pointerTo (.composite "Node"), "Node", none, none⟩])]
    entities := [("Entity", [])] }

theorem load_nodeWithPair : load .standing nodeWithPair = .ok nodeCatalog := by
  let c := nodeCatalog
  let gathered : Gathered := ⟨[], [], []⟩
  have names : (c.tables.flatMap Table.names).Perm ["Entity", "Node", "Pair", "Root"] := by decide
  exact load_of_stages ⟨[], c.composites, gathered, gathered, gathered, rfl, rfl, rfl, rfl, rfl, rfl, rfl, rfl,
    rfl, rfl, rfl, checkEmbedding_of_perm names (by decide) rfl, rfl, rfl, rfl⟩

theorem nodeCatalog_terminates : forall kind, ∃ size, nodeCatalog.SizeRun kind size :=
  terminates_of_no_class_filed load_nodeWithPair (by decide)

/-- A memory of eight bytes that hold an address. -/
def storing (target : Address) : Memory :=
  (Snapshot.ofRegion 0x1000 (List.toArray (toLittleEndian 8 target.toNat))).memory

/-- The end of the address space lies within the pair, and its second number is
counted on from the start. -/
theorem pointees_laid_out_at_nodeWithPair : load .standing nodeWithPair = .ok nodeCatalog ∧
    (forall kind, ∃ size, nodeCatalog.SizeRun kind size) ∧
    (storing 0xfffffffffffffff6).readPointer 0x1000 = .ok 0xfffffffffffffff6 ∧
    ∃ v, v ∈ (Subject.ofName "Root").visits nodeCatalog 8 ∧ v.route = ["node", "pair", "y"] ∧
      (v.address (storing 0xfffffffffffffff6) 0x1000).toNat = 2 := by
  let m := storing 0xfffffffffffffff6
  let number : Kind := .scalar ⟨4, .signed⟩
  let pointer : Visit := ⟨["node"], [.on 0], .pointerTo (.composite "Node"), 8, none⟩
  let inner : Visit := ⟨["pair", "y"], [.on 8, .on 4], number, 4, some ("Pair", "y")⟩
  let v : Visit := ⟨["node", "pair", "y"], [.on 0, .through, .on 8, .on 4], number, 4, some ("Pair", "y")⟩
  have pointee : nodeCatalog.Pointee 7 pointer inner v := ⟨rfl, by decide, rfl, rfl, rfl, rfl⟩
  have stored : m.readPointer 0x1000 = .ok 0xfffffffffffffff6 := by decide
  have apart : forall outer, outer ∈ nodeCatalog.pointees 7 pointer.kind ->
      ((0xfffffffffffffff6 : Address).toNat + outer.offset) % 2 ^ 64 ≠ 0 := by decide
  have laidOut := (pointees_laid_out load_nodeWithPair nodeCatalog_terminates (.ofName "Root") {}).2.2
  refine ⟨load_nodeWithPair, nodeCatalog_terminates, stored, v, by decide, rfl, ?_⟩
  have wrapped := (laidOut 7 pointer inner v pointee m 0x1000 _ (by decide) stored (by decide)).1
    fun outer visited _ => apart outer visited
  exact wrapped.trans (by decide)

/-- Where the pair begins at address 0, it counts as unresolved: its second number
is recorded at address 0 and not at 4, although it is twelve bytes from the start
of the node. -/
theorem accepted_wraps_to_unresolved : load .standing nodeWithPair = .ok nodeCatalog ∧
    (forall kind, ∃ size, nodeCatalog.SizeRun kind size) ∧
    (storing 0xfffffffffffffff8).readPointer 0x1000 = .ok 0xfffffffffffffff8 ∧
    ⟨"Node.pair.y", 0x1000 + 12, .scalar ⟨4, .signed⟩⟩ ∈
      (nodeCatalog.typeOffsets {} (storing 0xfffffffffffffff8) 0x1000 "Node").toList ∧
    ⟨"Root.node", 0x1000, .pointerTo (.composite "Node")⟩ ∈
      (nodeCatalog.typeOffsets {} (storing 0xfffffffffffffff8) 0x1000 "Root").toList ∧
    ⟨"Root.node.pair.y", 0, .scalar ⟨4, .signed⟩⟩ ∈
      (nodeCatalog.typeOffsets {} (storing 0xfffffffffffffff8) 0x1000 "Root").toList ∧
    (0xfffffffffffffff8 + 12) % 2 ^ 64 = 4 := by
  let m := storing 0xfffffffffffffff8
  have node : (nodeCatalog.typeOffsets {} m 0x1000 "Node").toList =
      (nodeCatalog.typeVisits 8 "Node").map (Visit.entry m "Node" 0x1000) :=
    toList_typeOffsets_of_nodup (by decide) m 0x1000
  have root : (nodeCatalog.typeOffsets {} m 0x1000 "Root").toList =
      (nodeCatalog.typeVisits 8 "Root").map (Visit.entry m "Root" 0x1000) :=
    toList_typeOffsets_of_nodup (by decide) m 0x1000
  rw [node, root]
  exact ⟨load_nodeWithPair, nodeCatalog_terminates, by decide, by decide, by decide, by decide, by decide⟩

end Catalog
end MemoryAtlas

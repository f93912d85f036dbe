import Mathlib.Data.List.Forall2

namespace MemoryAtlas

/-!
# Steps that may fail

A sequence of steps has a result only if every one of them has.  The
statements here take such a result apart again, so that no proof about a
loader or a walk has to open the sequence itself.
-/

/-- A step that has a result hands it on. -/
@[simp] theorem Except.ok_bind {ε α β : Type} (value : α) (next : α -> Except ε β) :
    (Except.ok value >>= next) = next value :=
  rfl

/-- The result of two steps comes from a result of the first. -/
theorem Except.bind_eq_ok_iff {ε α β : Type} {first : Except ε α} {next : α -> Except ε β}
    {result : β} :
    (first >>= next) = .ok result <-> ∃ value, first = .ok value ∧ next value = .ok result := by
  cases first with
  | error fault => simp [bind, Except.bind]
  | ok value => simp [bind, Except.bind]

/-- The fault of two steps is that of the first, or that of the second behind a
result of the first. -/
theorem Except.bind_eq_error_iff {ε α β : Type} {first : Except ε α} {next : α -> Except ε β}
    {fault : ε} : (first >>= next) = .error fault <->
      first = .error fault ∨ ∃ value, first = .ok value ∧ next value = .error fault := by
  cases first with
  | error other => simp [bind, Except.bind]
  | ok value => simp [bind, Except.bind]

/-- A fold fails in one of its steps. -/
theorem Except.foldlM_fails {ε α σ : Type} {step : σ -> α -> Except ε σ} {items : List α} {start : σ}
    {fault : ε} (run : items.foldlM step start = .error fault) :
    ∃ item, item ∈ items ∧ ∃ before, step before item = .error fault := by
  induction items generalizing start with
  | nil => cases run
  | cons item rest inductionHypothesis =>
      rw [List.foldlM_cons] at run
      rcases Except.bind_eq_error_iff.mp run with here | ⟨middle, -, later⟩
      · exact ⟨item, List.mem_cons_self, start, here⟩
      · rcases inductionHypothesis later with ⟨other, listed, before, failed⟩
        exact ⟨other, List.mem_cons_of_mem item listed, before, failed⟩

/-- A fold reaches what each of its steps reaches for one item more. -/
theorem Except.foldlM_along {ε α σ : Type} {step : σ -> α -> Except ε σ}
    (Reached : List α -> σ -> Prop) {items : List α} {start final : σ} (begins : Reached [] start)
    (proceeds : forall done item before after, item ∈ items -> Reached done before ->
      step before item = .ok after -> Reached (done ++ [item]) after)
    (run : items.foldlM step start = .ok final) : Reached items final := by
  induction items generalizing start Reached with
  | nil =>
      cases run
      exact begins
  | cons item rest inductionHypothesis =>
      rw [List.foldlM_cons, Except.bind_eq_ok_iff] at run
      rcases run with ⟨middle, first, later⟩
      refine inductionHypothesis (fun done => Reached (item :: done)) ?_ ?_ later
      · exact proceeds [] item start middle List.mem_cons_self begins first
      · intro done other before after member
        exact proceeds (item :: done) other before after (List.mem_cons_of_mem item member)

/-- A fold keeps its invariant, and what each item establishes lasts to the
end if no later step takes it back. -/
theorem Except.foldlM_establishes {ε α σ : Type} {step : σ -> α -> Except ε σ}
    (Invariant : σ -> Prop) (Established : α -> σ -> Prop)
    {items : List α} {start final : σ} (begins : Invariant start)
    (proceeds : forall before item after, item ∈ items -> Invariant before ->
      step before item = .ok after ->
      Invariant after ∧ Established item after ∧
        forall other, Established other before -> Established other after)
    (run : items.foldlM step start = .ok final) :
    Invariant final ∧ (forall item, item ∈ items -> Established item final) ∧
      forall other, Established other start -> Established other final := by
  refine Except.foldlM_along (fun done state => Invariant state ∧
    (forall item, item ∈ done -> Established item state) ∧
      forall other, Established other start -> Established other state) ?_ ?_ run
  · exact ⟨begins, fun item member => absurd member List.not_mem_nil, fun _ established => established⟩
  · rintro done item before after member ⟨kept, others, lasting⟩ taken
    rcases proceeds before item after member kept taken with ⟨stillKept, here, onward⟩
    refine ⟨stillKept, ?_, fun other established => onward other (lasting other established)⟩
    intro other listed
    rcases List.mem_append.mp listed with earlier | last
    · exact onward other (others other earlier)
    · rw [List.mem_singleton.mp last]
      exact here

/-- What holds before a fold and survives each of its steps holds after it. -/
theorem Except.foldlM_preserves {ε α σ : Type} {step : σ -> α -> Except ε σ} (Invariant : σ -> Prop)
    {items : List α} {start final : σ} (begins : Invariant start)
    (survives : forall before item after, item ∈ items -> Invariant before ->
      step before item = .ok after -> Invariant after)
    (run : items.foldlM step start = .ok final) : Invariant final :=
  (Except.foldlM_establishes Invariant (fun _ _ => True) begins
    (fun before item after member kept taken =>
      ⟨survives before item after member kept taken, trivial, fun _ _ => trivial⟩) run).1

/-- A loop over checks ends only if every check is passed. -/
theorem Except.forIn_ok {ε α : Type} {check : α -> Except ε Unit} {items : List α} {final : PUnit}
    (run : (forIn items PUnit.unit fun item _ => do
      check item
      pure (ForInStep.yield PUnit.unit)) = (Except.ok final : Except ε PUnit)) :
    forall item, item ∈ items -> check item = .ok () := by
  induction items with
  | nil => exact fun item member => absurd member List.not_mem_nil
  | cons first rest inductionHypothesis =>
      rw [List.forIn_cons, Except.bind_eq_ok_iff] at run
      rcases run with ⟨next, stepped, later⟩
      rcases Except.bind_eq_ok_iff.mp stepped with ⟨⟨⟩, passed, made⟩
      cases made
      intro item member
      rcases List.mem_cons.mp member with rfl | listed
      · exact passed
      · exact inductionHypothesis later item listed

/-- A loop over checks that are all passed ends. -/
theorem Except.forIn_succeeds {ε α : Type} {check : α -> Except ε Unit} {items : List α}
    (passed : forall item, item ∈ items -> check item = .ok ()) :
    (forIn items PUnit.unit fun item _ => do
      check item
      pure (ForInStep.yield PUnit.unit)) = (Except.ok PUnit.unit : Except ε PUnit) := by
  induction items with
  | nil => rfl
  | cons first rest inductionHypothesis =>
      rw [List.forIn_cons, passed first List.mem_cons_self]
      exact inductionHypothesis fun item listed => passed item (List.mem_cons_of_mem first listed)

/-- A fold whose steps all succeed has a result. -/
theorem Except.foldlM_succeeds {ε α σ : Type} {step : σ -> α -> Except ε σ} {items : List α}
    (succeeds : forall state item, item ∈ items -> ∃ next, step state item = .ok next) (start : σ) :
    ∃ final, items.foldlM step start = .ok final := by
  induction items generalizing start with
  | nil => exact ⟨start, rfl⟩
  | cons first rest inductionHypothesis =>
      rcases succeeds start first List.mem_cons_self with ⟨next, taken⟩
      rcases inductionHypothesis
        (fun state item listed => succeeds state item (List.mem_cons_of_mem first listed)) next with
        ⟨final, run⟩
      exact ⟨final, by rw [List.foldlM_cons, taken]; exact run⟩

/-- Steps that all succeed give their results. -/
theorem Except.mapM_eq_ok {ε α β : Type} {make : α -> Except ε β} {result : α -> β} {items : List α}
    (made : forall item, item ∈ items -> make item = .ok (result item)) :
    items.mapM make = .ok (items.map result) := by
  induction items with
  | nil => rfl
  | cons item rest inductionHypothesis =>
      rw [List.mapM_cons, made item List.mem_cons_self, Except.ok_bind,
        inductionHypothesis fun other member => made other (List.mem_cons_of_mem item member)]
      rfl

/-- A sequence of steps makes one result from each item. -/
theorem Except.mapM_forall₂ {ε α β : Type} {make : α -> Except ε β} {items : List α} {results : List β}
    (run : items.mapM make = .ok results) :
    List.Forall₂ (fun item result => make item = .ok result) items results := by
  induction items generalizing results with
  | nil =>
      cases run
      exact .nil
  | cons first rest inductionHypothesis =>
      rw [List.mapM_cons] at run
      rcases Except.bind_eq_ok_iff.mp run with ⟨one, made, run⟩
      rcases Except.bind_eq_ok_iff.mp run with ⟨others, later, run⟩
      cases run
      exact .cons made (inductionHypothesis later)

/-- A sequence of steps fails at one of its items. -/
theorem Except.mapM_fails {ε α β : Type} {make : α -> Except ε β} {items : List α} {fault : ε}
    (run : items.mapM make = .error fault) : ∃ item, item ∈ items ∧ make item = .error fault := by
  induction items with
  | nil => cases run
  | cons first rest inductionHypothesis =>
      rw [List.mapM_cons] at run
      rcases Except.bind_eq_error_iff.mp run with here | ⟨one, -, run⟩
      · exact ⟨first, List.mem_cons_self, here⟩
      rcases Except.bind_eq_error_iff.mp run with later | ⟨others, -, done⟩
      · rcases inductionHypothesis later with ⟨item, listed, failed⟩
        exact ⟨item, List.mem_cons_of_mem first listed, failed⟩
      · cases done

/-- In two lists side by side every item of the second one has a partner in the
first. -/
theorem exists_partner {α β : Type} {Related : α -> β -> Prop} {items : List α} {others : List β}
    (aligned : List.Forall₂ Related items others) :
    forall other, other ∈ others -> ∃ item, item ∈ items ∧ Related item other := by
  induction aligned with
  | nil => exact fun other member => absurd member List.not_mem_nil
  | @cons first one rest more related _ inductionHypothesis =>
      intro other member
      rcases List.mem_cons.mp member with rfl | listed
      · exact ⟨first, List.mem_cons_self, related⟩
      · rcases inductionHypothesis other listed with ⟨item, present, relatedLater⟩
        exact ⟨item, List.mem_cons_of_mem first present, relatedLater⟩

/-- Lists whose members go together have equal images if members that go together have. -/
theorem map_eq_of_forall₂ {α β γ : Type} {Related : α -> β -> Prop} {items : List α} {others : List β}
    (aligned : List.Forall₂ Related items others) {image : α -> γ} {image' : β -> γ}
    (same : forall item other, item ∈ items -> Related item other -> image item = image' other) :
    items.map image = others.map image' := by
  induction aligned with
  | nil => rfl
  | cons first _ inductionHypothesis =>
      rw [List.map_cons, List.map_cons, same _ _ List.mem_cons_self first,
        inductionHypothesis fun item other member => same item other (List.mem_cons_of_mem _ member)]

/-- What a sequence of steps makes has been made by one of them. -/
theorem Except.mapM_ok {ε α β : Type} {make : α -> Except ε β} {items : List α} {results : List β}
    (run : items.mapM make = .ok results) :
    forall result, result ∈ results -> ∃ item, item ∈ items ∧ make item = .ok result :=
  exists_partner (Except.mapM_forall₂ run)

theorem Option.mapM_ok {α β : Type} {make : α -> Option β} {items : List α} {results : List β}
    (run : items.mapM make = some results) :
    forall result, result ∈ results -> ∃ item, item ∈ items ∧ make item = some result := by
  induction items generalizing results with
  | nil =>
      cases run
      exact fun result member => absurd member List.not_mem_nil
  | cons first rest inductionHypothesis =>
      rw [List.mapM_cons] at run
      rcases Option.bind_eq_some_iff.mp run with ⟨one, made, run⟩
      rcases Option.bind_eq_some_iff.mp run with ⟨others, later, run⟩
      cases run
      intro result member
      rcases List.mem_cons.mp member with rfl | listed
      · exact ⟨first, List.mem_cons_self, made⟩
      · rcases inductionHypothesis later result listed with ⟨item, present, madeLater⟩
        exact ⟨item, List.mem_cons_of_mem first present, madeLater⟩

end MemoryAtlas

import MemoryAtlas.Layout.View

namespace MemoryAtlas

/-!
# One refresh at a time

Any number of parties share a view.  They ask for its ticket, give tickets back and
refresh the view, in any order and each at its own pace.  A refresh is not done at
once: it takes the ticket, looks at the object, and gives the ticket back at its end,
and whatever the others do in between falls between two of its moves.  The object may
change under its eyes, so what it finds is left open here.

The gate is a single flag that is taken by one step and given back by another.
Giving back does not ask whose ticket it is.  That this never opens the gate for
somebody else follows from one invariant: the flag is set if there is exactly one
ticket, and otherwise there is none.

Tickets are given back by their holders alone, and nobody has to give one back.  Every
access to the flag counts as one step, in one order for all parties.
-/

/-- A ticket that has not been given back yet, with the party that took it: for itself,
or for a refresh that has not come to its end. -/
inductive Ticket (Party : Type) where
  | held (p : Party)
  | refreshing (p : Party)
deriving Repr, DecidableEq

/-- A view with its live tickets. -/
structure Scene (Party : Type) where
  view : View
  tickets : List (Ticket Party)
deriving Repr

/-- What a party can do.  A refresh begins with one move and ends with another. -/
inductive Move (Party : Type) where
  | begin (p : Party) (address : Address)
  | drop (p : Party)
  | enter (p : Party)
  | leave (p : Party)

/-- What a party is told. -/
inductive Answer where
  | granted
  | refused (fault : RefreshFault)
  | dropped
  | observed (found : Observation)

namespace Scene

variable {Party : Type}

/-- The scene with another gate and other tickets. -/
def turn (s : Scene Party) (gate : Gate) (tickets : List (Ticket Party)) : Scene Party :=
  ⟨{ s.view with gate := gate }, tickets⟩

/-- One move of one party. -/
inductive Step (s : Scene Party) : Move Party -> Answer -> Scene Party -> Prop where
  | begin {p : Party} {a : Address} {gate : Gate} (free : s.view.gate.tryBegin a = .ok gate) :
      Step s (.begin p a) .granted (s.turn gate (.held p :: s.tickets))
  | refuse {p : Party} {a : Address} {fault : RefreshFault} (busy : s.view.gate.tryBegin a = .error fault) :
      Step s (.begin p a) (.refused fault) s
  | drop {p : Party} {before after : List (Ticket Party)} (live : s.tickets = before ++ .held p :: after) :
      Step s (.drop p) .dropped (s.turn s.view.gate.release (before ++ after))
  | enter {p : Party} {gate : Gate} (free : s.view.gate.tryBegin s.view.root = .ok gate) :
      Step s (.enter p) .granted (s.turn gate (.refreshing p :: s.tickets))
  | turnAway {p : Party} {fault : RefreshFault} (busy : s.view.gate.tryBegin s.view.root = .error fault) :
      Step s (.enter p) (.refused fault) s
  | leave {p : Party} {found : Observation} {before after : List (Ticket Party)}
      (live : s.tickets = before ++ .refreshing p :: after) :
      Step s (.leave p) (.observed found) (s.turn s.view.gate.release (before ++ after))

/-- What becomes of a scene by any number of moves. -/
inductive Reaches : Scene Party -> Scene Party -> Prop where
  | refl (s : Scene Party) : Reaches s s
  | step {s t u : Scene Party} {move : Move Party} {answer : Answer} (earlier : Reaches s t)
      (last : Step t move answer u) : Reaches s u

/-- The scene of a view that has just been made. -/
def start (root : Address) (target : Target) (comparisonRoot : Option Address) : Scene Party :=
  ⟨⟨root, target, comparisonRoot, .idle⟩, []⟩

/-- The flag of the gate tells whether there is a ticket, and there is only one. -/
inductive Guarded (s : Scene Party) : Prop where
  | free (gate : s.view.gate = .idle) (none : s.tickets = [])
  | busy {ticket : Ticket Party} (gate : s.view.gate = ⟨true⟩) (one : s.tickets = [ticket])

variable {s t u : Scene Party} {move : Move Party} {answer : Answer} {ticket : Ticket Party}

/-- A refresh that nobody interrupts is its two moves in a row. -/
theorem moves_of_refresh {p : Party} {c : Catalog} {o : LayoutOptions} {m : Memory} {found : Observation}
    {view : View} (done : s.view.refresh c o m = (.ok found, view)) :
    ∃ t, s.Step (.enter p) .granted t ∧ t.Step (.leave p) (.observed found) ⟨view, s.tickets⟩ := by
  unfold View.refresh at done
  split at done
  · cases done
  · rename_i gate free
    cases done
    have live : (s.turn gate (.refreshing p :: s.tickets)).tickets = [] ++ .refreshing p :: s.tickets := rfl
    have leaves : Step _ (.leave p) (.observed (s.view.observe c o m)) _ := .leave live
    exact ⟨_, .enter free, leaves⟩

/-- A refresh that fails is the one move that is refused. -/
theorem move_of_refresh {p : Party} {c : Catalog} {o : LayoutOptions} {m : Memory} {fault : RefreshFault}
    {view : View} (failed : s.view.refresh c o m = (.error fault, view)) :
    s.Step (.enter p) (.refused fault) ⟨view, s.tickets⟩ := by
  unfold View.refresh at failed
  split at failed
  · rename_i busy
    cases failed
    exact .turnAway busy
  · cases failed

/-- A ticket that is taken out of a single one leaves none. -/
theorem rest_of_single {ticket other : Ticket Party} {before after : List (Ticket Party)}
    (single : [ticket] = before ++ other :: after) : before ++ after = [] := by
  cases before with
  | nil =>
      cases single
      rfl
  | cons first rest => simp at single

namespace Guarded

theorem tryBegin_of_free (guarded : s.Guarded) (none : s.tickets = []) (a : Address) :
    s.view.gate.tryBegin a = .ok ⟨true⟩ := by
  cases guarded with
  | free gate _ =>
      rw [gate]
      rfl
  | busy _ one => cases none.symm.trans one

theorem tryBegin_of_busy (guarded : s.Guarded) (live : s.tickets ≠ []) (a : Address) :
    s.view.gate.tryBegin a = .error (.inFlight a) := by
  cases guarded with
  | free _ none => exact absurd none live
  | busy gate _ =>
      rw [gate]
      rfl

theorem inFlight_iff (guarded : s.Guarded) : s.view.gate.inFlight = true <-> s.tickets ≠ [] := by
  cases guarded with
  | free gate none => simp [gate, none, Gate.idle]
  | busy gate one => simp [gate, one]

theorem length_le_one (guarded : s.Guarded) : s.tickets.length ≤ 1 := by
  cases guarded with
  | free _ none => simp [none]
  | busy _ one => simp [one]

/-- Whoever gives a ticket back leaves none. -/
theorem rest_eq_nil (guarded : s.Guarded) {ticket : Ticket Party} {before after : List (Ticket Party)}
    (live : s.tickets = before ++ ticket :: after) : before ++ after = [] := by
  cases guarded with
  | free _ none =>
      rw [none] at live
      simp at live
  | busy _ one => exact rest_of_single (one.symm.trans live)

/-- A ticket is granted only where there is none. -/
theorem of_granted (guarded : s.Guarded) {a : Address} {gate : Gate}
    (free : s.view.gate.tryBegin a = .ok gate) : s.tickets = [] ∧ gate = ⟨true⟩ := by
  by_cases none : s.tickets = []
  · cases (guarded.tryBegin_of_free none a).symm.trans free
    exact ⟨none, rfl⟩
  · cases (guarded.tryBegin_of_busy none a).symm.trans free

/-- A ticket is refused only where there is one. -/
theorem of_refused (guarded : s.Guarded) {a : Address} {fault : RefreshFault}
    (busy : s.view.gate.tryBegin a = .error fault) : s.tickets ≠ [] ∧ fault = .inFlight a := by
  by_cases none : s.tickets = []
  · cases (guarded.tryBegin_of_free none a).symm.trans busy
  · cases (guarded.tryBegin_of_busy none a).symm.trans busy
    exact ⟨none, rfl⟩

/-- Every move keeps the flag and the tickets together. -/
theorem step (guarded : s.Guarded) (step : s.Step move answer t) : t.Guarded := by
  cases step with
  | begin free =>
      rcases guarded.of_granted free with ⟨none, rfl⟩
      exact .busy rfl (congrArg _ none)
  | enter free =>
      rcases guarded.of_granted free with ⟨none, rfl⟩
      exact .busy rfl (congrArg _ none)
  | refuse | turnAway => exact guarded
  | drop live | leave live => exact .free rfl (guarded.rest_eq_nil live)

end Guarded

theorem start_guarded (root : Address) (target : Target) (comparisonRoot : Option Address) :
    (start root target comparisonRoot : Scene Party).Guarded :=
  .free rfl rfl

theorem Reaches.guarded (reaches : s.Reaches t) (guarded : s.Guarded) : t.Guarded := by
  induction reaches with
  | refl => exact guarded
  | step _ last inductionHypothesis => exact inductionHypothesis.step last

/-- The view with its gate at rest. -/
def atRest (s : Scene Party) : View :=
  { s.view with gate := .idle }

/-- Nothing but the gate of a view ever changes. -/
theorem Step.atRest_eq (step : s.Step move answer t) : t.atRest = s.atRest := by
  cases step <;> rfl

theorem Reaches.atRest_eq (reaches : s.Reaches t) : t.atRest = s.atRest := by
  induction reaches with
  | refl => rfl
  | step _ last inductionHypothesis => exact last.atRest_eq.trans inductionHypothesis

/-- What comes of asking for a ticket: it is granted and becomes the only one, or there is
one already and nothing happens. -/
def Asks (s : Scene Party) (ticket : Ticket Party) (a : Address) (answer : Answer) (t : Scene Party) : Prop :=
  (s.tickets = [] ∧ answer = .granted ∧ t = s.turn ⟨true⟩ [ticket]) ∨
    (s.tickets ≠ [] ∧ answer = .refused (.inFlight a) ∧ t = s)

/-- What the tickets of a scene say about its flag, about whoever asks for another one,
and about refreshes: those done at once and those that others come in between. -/
structure Exclusive (s : Scene Party) : Prop where
  atMostOne : s.tickets.length ≤ 1
  inFlight : s.view.gate.inFlight = true <-> s.tickets ≠ []
  begins : forall p a answer t, s.Step (.begin p a) answer t <-> s.Asks (.held p) a answer t
  enters : forall p answer t, s.Step (.enter p) answer t <-> s.Asks (.refreshing p) s.view.root answer t
  refreshes : forall p c o m,
    (s.tickets = [] ∧ s.view.refresh c o m = (.ok (s.view.observe c o m), s.view) ∧
      ∃ t, s.Step (.enter p) .granted t ∧ t.Step (.leave p) (.observed (s.view.observe c o m)) s) ∨
    (s.tickets ≠ [] ∧ s.view.refresh c o m = (.error (.inFlight s.view.root), s.view) ∧
      s.Step (.enter p) (.refused (.inFlight s.view.root)) s)
  returns : forall p t u found v, s.Step (.enter p) .granted t -> t.Reaches u ->
    u.Step (.leave p) (.observed found) v -> v = s

namespace Guarded

theorem asks_of_free (guarded : s.Guarded) {a : Address} {gate : Gate}
    (free : s.view.gate.tryBegin a = .ok gate) : s.Asks ticket a .granted (s.turn gate (ticket :: s.tickets)) := by
  rcases guarded.of_granted free with ⟨none, rfl⟩
  exact .inl ⟨none, rfl, by rw [none]⟩

theorem asks_of_busy (guarded : s.Guarded) {a : Address} {fault : RefreshFault}
    (busy : s.view.gate.tryBegin a = .error fault) : s.Asks ticket a (.refused fault) s := by
  rcases guarded.of_refused busy with ⟨live, rfl⟩
  exact .inr ⟨live, rfl, rfl⟩

theorem begin_iff (guarded : s.Guarded) (p : Party) (a : Address) :
    s.Step (.begin p a) answer t <-> s.Asks (.held p) a answer t := by
  constructor
  · intro step
    cases step with
    | begin free => exact guarded.asks_of_free free
    | refuse busy => exact guarded.asks_of_busy busy
  · rintro (⟨none, rfl, rfl⟩ | ⟨live, rfl, rfl⟩)
    · exact none ▸ .begin (guarded.tryBegin_of_free none a)
    · exact .refuse (guarded.tryBegin_of_busy live a)

theorem enter_iff (guarded : s.Guarded) (p : Party) :
    s.Step (.enter p) answer t <-> s.Asks (.refreshing p) s.view.root answer t := by
  constructor
  · intro step
    cases step with
    | enter free => exact guarded.asks_of_free free
    | turnAway busy => exact guarded.asks_of_busy busy
  · rintro (⟨none, rfl, rfl⟩ | ⟨live, rfl, rfl⟩)
    · exact none ▸ .enter (guarded.tryBegin_of_free none _)
    · exact .turnAway (guarded.tryBegin_of_busy live _)

theorem atRest_eq (guarded : s.Guarded) (none : s.tickets = []) : s.atRest = s.view := by
  cases guarded with
  | free gate _ => rw [atRest, ← gate]
  | busy _ one => cases none.symm.trans one

theorem refresh_of_free (guarded : s.Guarded) (none : s.tickets = []) (c : Catalog) (o : LayoutOptions)
    (m : Memory) : s.view.refresh c o m = (.ok (s.view.observe c o m), s.view) := by
  rw [← guarded.atRest_eq none]
  rfl

theorem refresh_of_busy (guarded : s.Guarded) (live : s.tickets ≠ []) (c : Catalog) (o : LayoutOptions)
    (m : Memory) : s.view.refresh c o m = (.error (.inFlight s.view.root), s.view) := by
  unfold View.refresh
  rw [guarded.tryBegin_of_busy live]

theorem refreshes (guarded : s.Guarded) (p : Party) (c : Catalog) (o : LayoutOptions) (m : Memory) :
    (s.tickets = [] ∧ s.view.refresh c o m = (.ok (s.view.observe c o m), s.view) ∧
      ∃ t, s.Step (.enter p) .granted t ∧ t.Step (.leave p) (.observed (s.view.observe c o m)) s) ∨
    (s.tickets ≠ [] ∧ s.view.refresh c o m = (.error (.inFlight s.view.root), s.view) ∧
      s.Step (.enter p) (.refused (.inFlight s.view.root)) s) := by
  by_cases none : s.tickets = []
  · have done := guarded.refresh_of_free none c o m
    exact .inl ⟨none, done, moves_of_refresh done⟩
  · have failed := guarded.refresh_of_busy none c o m
    exact .inr ⟨none, failed, move_of_refresh failed⟩

/-- Where a refresh has come to its end, the scene is what it was at its beginning, though
any number of moves of others lie in between. -/
theorem leave_eq (guarded : s.Guarded) {p : Party} {found : Observation} {v : Scene Party}
    (enters : s.Step (.enter p) .granted t) (reaches : t.Reaches u)
    (leaves : u.Step (.leave p) (.observed found) v) : v = s := by
  have entered : t.Guarded := guarded.step enters
  have later : u.Guarded := reaches.guarded entered
  have before : s.tickets = [] := by
    cases enters with
    | enter free => exact (guarded.of_granted free).1
  have after : v.tickets = [] := by
    cases leaves with
    | leave live => exact later.rest_eq_nil live
  have same : v.atRest = s.atRest := leaves.atRest_eq.trans (reaches.atRest_eq.trans enters.atRest_eq)
  have views : v.view = s.view := by
    rw [← (later.step leaves).atRest_eq after, same, guarded.atRest_eq before]
  calc
    v = ⟨v.view, v.tickets⟩ := rfl
    _ = ⟨s.view, s.tickets⟩ := by rw [views, after, before]

end Guarded

/-- Whatever the parties do with the ticket of a view, there is never more than one, the flag
of the gate tells whether there is one, and it is refused just where there is one.  A
refresh that has come to its end leaves everything as it was when it began. -/
theorem exclusive_of_reaches {root : Address} {target : Target} {comparisonRoot : Option Address}
    (reached : (start root target comparisonRoot).Reaches s) : s.Exclusive :=
  have guarded : s.Guarded := reached.guarded (start_guarded root target comparisonRoot)
  { atMostOne := guarded.length_le_one
    inFlight := guarded.inFlight_iff
    begins := fun p a _ _ => guarded.begin_iff p a
    enters := fun p _ _ => guarded.enter_iff p
    refreshes := guarded.refreshes
    returns := fun _ _ _ _ _ enters reaches leaves => guarded.leave_eq enters reaches leaves }

/-- The view of a child, with numbers for the parties. -/
def child (gate : Gate) (tickets : List (Ticket Nat)) : Scene Nat :=
  ⟨⟨0x1000, .struct "Child", none, gate⟩, tickets⟩

/-- One party takes the ticket and gives it back, another one begins a refresh, and the
first one comes too late with a refresh of its own. -/
theorem exclusive_of_reaches_at_child :
    (start 0x1000 (.struct "Child") none).Reaches (child ⟨true⟩ [.refreshing 1]) ∧
      (child ⟨true⟩ [.refreshing 1]).Exclusive := by
  have begins : (child .idle []).Step (.begin 0 0x2000) .granted (child ⟨true⟩ [.held 0]) := .begin rfl
  have live : (child ⟨true⟩ [.held 0]).tickets = [] ++ .held 0 :: [] := rfl
  have drops : (child ⟨true⟩ [.held 0]).Step (.drop 0) .dropped (child .idle []) := .drop live
  have enters : (child .idle []).Step (.enter 1) .granted (child ⟨true⟩ [.refreshing 1]) := .enter rfl
  have late : (child ⟨true⟩ [.refreshing 1]).Step (.enter 0) (.refused (.inFlight 0x1000))
      (child ⟨true⟩ [.refreshing 1]) := .turnAway rfl
  have reached : (start 0x1000 (.struct "Child") none).Reaches (child ⟨true⟩ [.refreshing 1]) :=
    ((((Reaches.refl _).step begins).step drops).step enters).step late
  exact ⟨reached, exclusive_of_reaches reached⟩

end Scene
end MemoryAtlas

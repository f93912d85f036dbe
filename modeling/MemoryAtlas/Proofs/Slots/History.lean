import Mathlib.Data.List.Induction
import MemoryAtlas.Image.Snapshot
import MemoryAtlas.Proofs.Slots.Loaded

namespace MemoryAtlas
namespace Directory

/-!
# What a directory remembers

A directory goes through loads, attached names and resets in any order.  A load
that succeeds and a reset settle anew what it holds; all that came before them is
forgotten.  A load that fails and a name for an address where no slot begins leave
everything as it was.  What remains of a run is therefore the last load that
succeeded, if no reset came after it, and the names attached since.

Of these names only which of them went to which address is remembered.  They can
have been attached in any order and any number of times.
-/

/-- What can be done with a directory. -/
inductive Act where
  | load (l : Load)
  | attach (a : Address) (name : String)
  | reset

namespace Act

/-- Carries out an operation: whether it succeeds, and the directory afterwards. -/
def perform (d : Directory) : Act -> Bool × Directory
  | load l =>
    match Directory.load l.memory l.start l.count l.symbols with
    | .ok loaded => (true, loaded)
    | .error _ => (false, d)
  | attach a name =>
    match d.attach? a name with
    | some labeled => (true, labeled)
    | none => (false, d)
  | reset => (true, empty)

/-- The operations that settle anew what a directory holds. -/
def Renews : Act -> Prop
  | load l => ∃ bytes, l.Reads bytes
  | attach _ _ => False
  | reset => True

end Act

/-- The directory after a run from the beginning. -/
def after (acts : List Act) : Directory :=
  acts.foldl (fun d act => (act.perform d).2) empty

/-- Operations among which nothing is loaded or reset. -/
def Quiet (acts : List Act) : Prop :=
  forall act, act ∈ acts -> ¬ act.Renews

/-- The names that operations attach to the slots of a table. -/
def AttachedIn (l : Load) (acts : List Act) (i : Nat) (name : String) : Prop :=
  ∃ a, Act.attach a name ∈ acts ∧ l.SlotAt a i

theorem after_concat (acts : List Act) (act : Act) : after (acts ++ [act]) = (act.perform (after acts)).2 := by
  rw [after, List.foldl_concat]
  rfl

/-- An operation that fails changes nothing. -/
theorem perform_of_failed {d : Directory} {act : Act} (failed : (act.perform d).1 = false) :
    (act.perform d).2 = d := by
  cases act with
  | load l =>
      rw [Act.perform] at failed ⊢
      split
      · rename_i loaded made
        rw [made] at failed
        cases failed
      · rfl
  | attach a name =>
      rw [Act.perform] at failed ⊢
      split
      · rename_i labeled attached
        rw [attached] at failed
        cases failed
      · rfl
  | reset => cases failed

/-- A load succeeds exactly if it reads a table. -/
theorem load_succeeds_iff {d : Directory} {l : Load} :
    ((Act.load l).perform d).1 = true <-> ∃ bytes, l.Reads bytes := by
  rw [Act.perform]
  split
  · rename_i loaded made
    rcases load_eq_ok_iff.mp made with ⟨bytes, reads, -⟩
    exact ⟨fun _ => ⟨bytes, reads⟩, fun _ => rfl⟩
  · rename_i fault refused
    refine ⟨fun succeeded => Bool.noConfusion succeeded, ?_⟩
    rintro ⟨bytes, reads⟩
    rcases exists_load reads with ⟨d, made, -⟩
    cases refused.symm.trans made

/-- A name is attached exactly where a slot begins. -/
theorem attach_succeeds_iff {d : Directory} {a : Address} (name : String) :
    ((Act.attach a name).perform d).1 = true <-> ∃ i, i < d.size ∧ a.toNat = d.start.toNat + i * slotSize := by
  rw [← isSome_attach?_iff name]
  rw [Act.perform]
  split <;> simp_all

/-- A load that reads a table leaves what it has read. -/
theorem perform_load (d : Directory) {l : Load} {bytes : List UInt8} (reads : l.Reads bytes) :
    ((Act.load l).perform d).2.Tells l bytes (fun _ _ => False) := by
  rcases exists_load reads with ⟨loaded, made, tells⟩
  rw [Act.perform, made]
  exact tells

/-- One operation that renews nothing adds the name that it attaches, to the slot
that begins where it is attached. -/
theorem Tells.perform {d : Directory} {l : Load} {bytes : List UInt8} {Attached : Nat -> String -> Prop}
    (tells : d.Tells l bytes Attached) {act : Act} (quiet : ¬ act.Renews) :
    (act.perform d).2.Tells l bytes
      (fun i name => (∃ a, act = .attach a name ∧ l.SlotAt a i) ∨ Attached i name) := by
  cases succeeded : (act.perform d).1 with
  | false =>
      rw [perform_of_failed succeeded]
      refine ⟨tells.start, tells.size, fun i s present => (tells.slots i s present).congr fun name => ?_⟩
      refine (or_iff_right ?_).symm
      rintro ⟨a, rfl, place⟩
      rw [Load.SlotAt, ← tells.start] at place
      have below : i < d.size := (Array.getElem?_eq_some_iff.mp present).1
      have attached := (attach_succeeds_iff name).mpr ⟨i, below, place⟩
      cases succeeded.symm.trans attached
  | true =>
      cases act with
      | load other => exact absurd (load_succeeds_iff.mp succeeded) quiet
      | reset => exact absurd trivial quiet
      | attach a name =>
          rw [Act.perform] at succeeded ⊢
          split
          · rename_i labeled attached
            have told := tells.attach attached
            refine ⟨told.start, told.size, fun i s present => (told.slots i s present).congr fun other => ?_⟩
            refine or_congr_left ⟨?_, ?_⟩
            · rintro ⟨place, rfl⟩
              exact ⟨a, rfl, place⟩
            · rintro ⟨other, same, place⟩
              cases same
              exact ⟨place, rfl⟩
          · rename_i refused
            rw [refused] at succeeded
            cases succeeded

theorem perform_empty {act : Act} (quiet : ¬ act.Renews) : (act.perform empty).2 = empty := by
  refine perform_of_failed (Bool.eq_false_iff.mpr fun succeeded => ?_)
  cases act with
  | load l => exact quiet (load_succeeds_iff.mp succeeded)
  | reset => exact quiet trivial
  | attach a name =>
      rcases (attach_succeeds_iff name).mp succeeded with ⟨i, below, -⟩
      exact Nat.not_lt_zero i below

/-! ## Runs -/

theorem Quiet.of_concat {acts : List Act} {act : Act} (quiet : Quiet (acts ++ [act])) :
    Quiet acts ∧ ¬ act.Renews :=
  ⟨fun other member => quiet other (List.mem_append_left _ member),
    quiet act (List.mem_append_right _ List.mem_cons_self)⟩

/-- Every run ends with operations that renew nothing, after one that does unless
there is none. -/
theorem quiet_or_renewed (acts : List Act) :
    Quiet acts ∨ ∃ before last since, acts = before ++ last :: since ∧ last.Renews ∧ Quiet since := by
  induction acts using List.reverseRecOn with
  | nil => exact .inl fun act member => absurd member List.not_mem_nil
  | append_singleton acts act inductionHypothesis =>
      have extended : forall since, Quiet since -> ¬ act.Renews -> Quiet (since ++ [act]) := by
        intro since quiet still other member
        rcases List.mem_append.mp member with earlier | last
        · exact quiet other earlier
        · rw [List.mem_singleton.mp last]
          exact still
      rcases Classical.em act.Renews with renews | still
      · exact .inr ⟨acts, act, [], rfl, renews, fun other member => absurd member List.not_mem_nil⟩
      · rcases inductionHypothesis with quiet | ⟨before, last, since, split, renews, quiet⟩
        · exact .inl (extended acts quiet still)
        · exact .inr ⟨before, last, since ++ [act], by simp [split], renews, extended since quiet still⟩

/-- After a load that reads its table, a run that renews nothing leads to a directory
that tells of this load and of all names attached in the run. -/
theorem after_tells {before since : List Act} {l : Load} {bytes : List UInt8} (reads : l.Reads bytes)
    (quiet : Quiet since) : (after (before ++ .load l :: since)).Tells l bytes (AttachedIn l since) := by
  induction since using List.reverseRecOn with
  | nil =>
      rw [after_concat]
      have told := perform_load (after before) reads
      refine ⟨told.start, told.size, fun i s present => (told.slots i s present).congr fun name => ?_⟩
      simp [AttachedIn]
  | append_singleton since act inductionHypothesis =>
      rcases quiet.of_concat with ⟨earlier, still⟩
      rw [← List.cons_append, ← List.append_assoc, after_concat]
      have told := (inductionHypothesis earlier).perform still
      refine ⟨told.start, told.size, fun i s present => (told.slots i s present).congr fun name => ?_⟩
      simp only [AttachedIn, List.mem_append, List.mem_singleton, or_and_right, exists_or,
        eq_comm (b := act), or_comm]

theorem after_empty {before since : List Act} (unloaded : after before = empty) (quiet : Quiet since) :
    after (before ++ since) = empty := by
  induction since using List.reverseRecOn with
  | nil => rw [List.append_nil, unloaded]
  | append_singleton since act inductionHypothesis =>
      rcases quiet.of_concat with ⟨earlier, still⟩
      rw [← List.append_assoc, after_concat, inductionHypothesis earlier, perform_empty still]

/-- What a run has left of its operations.  Either the last one to renew the
directory is a load, or there is none or it is a reset, and nothing is loaded. -/
inductive Leaves (acts : List Act) (d : Directory) : Prop where
  | loaded {before since : List Act} {l : Load} {bytes : List UInt8}
      (split : acts = before ++ .load l :: since) (reads : l.Reads bytes) (quiet : Quiet since)
      (tells : d.Tells l bytes (AttachedIn l since)) : Leaves acts d
  | unloaded {before since : List Act} (split : acts = before ++ since)
      (ends : before = [] ∨ ∃ earlier, before = earlier ++ [.reset]) (quiet : Quiet since)
      (empty : d = empty) : Leaves acts d

theorem leaves (acts : List Act) : Leaves acts (after acts) := by
  rcases quiet_or_renewed acts with quiet | ⟨before, last, since, rfl, renews, quiet⟩
  · have nothing : after ([] ++ acts) = empty := after_empty rfl quiet
    exact .unloaded (List.nil_append acts).symm (.inl rfl) quiet nothing
  · cases last with
    | load l =>
        rcases renews with ⟨bytes, reads⟩
        exact .loaded rfl reads quiet (after_tells reads quiet)
    | attach a name => exact absurd renews id
    | reset =>
        rw [List.append_cons]
        exact .unloaded rfl (.inr ⟨before, rfl⟩) quiet (after_empty (after_concat before .reset) quiet)

/-- Whatever has been done, the slots are numbered in order. -/
theorem number_of_present {acts : List Act} {i : Nat} {s : Slot} (present : (after acts).slots[i]? = some s) :
    s.number = i := by
  cases leaves acts with
  | loaded split reads quiet tells => exact (tells.slots i s present).number
  | unloaded split ends quiet nothing =>
      rw [nothing] at present
      cases present

/-- Two runs load the same table last and since then attach the same names to the
same addresses. -/
inductive SameSince : List Act -> List Act -> Prop where
  | intro {before before' since since' : List Act} {l : Load} (loads : (Act.load l).Renews)
      (quiet : Quiet since) (quiet' : Quiet since')
      (same : forall a name, Act.attach a name ∈ since <-> Act.attach a name ∈ since') :
      SameSince (before ++ .load l :: since) (before' ++ .load l :: since')

theorem SameSince.after_eq {acts others : List Act} (same : SameSince acts others) :
    after others = after acts := by
  cases same with
  | intro loads quiet quiet' same =>
      rcases loads with ⟨bytes, reads⟩
      refine (after_tells reads quiet').eq (after_tells reads quiet) fun i name => ?_
      simp only [AttachedIn, same]

/-- Whatever is done with a directory, its slots are numbered in order and tell of
the last load that succeeded and of the names attached since.  What fails changes
nothing: a load that does not read a table, and a name for an address where no slot
begins.  The order of the attached names and how often each was attached make no
difference. -/
theorem after_consistent (acts : List Act) :
    (forall (i : Nat) (s : Slot), (after acts).slots[i]? = some s -> s.number = i) ∧
    Leaves acts (after acts) ∧
    (forall act : Act, (act.perform (after acts)).1 = false -> (act.perform (after acts)).2 = after acts) ∧
    (forall l, ((Act.load l).perform (after acts)).1 = true <-> ∃ bytes, l.Reads bytes) ∧
    (forall a name, ((Act.attach a name).perform (after acts)).1 = true <->
      ∃ i, i < (after acts).size ∧ a.toNat = (after acts).start.toNat + i * slotSize) ∧
    forall others, SameSince acts others -> after others = after acts := by
  refine ⟨fun i s present => ?_, leaves acts, fun act => perform_of_failed, fun l => load_succeeds_iff,
    fun a name => attach_succeeds_iff name, fun others => SameSince.after_eq⟩
  cases leaves acts with
  | loaded split reads quiet tells => exact (tells.slots i s present).number
  | unloaded split ends quiet nothing =>
      rw [nothing] at present
      cases present

/-- A table of two slots, of which the first points behind the table and the second
nowhere.  Names are known for both values. -/
def twoSlots : Load where
  memory := (Snapshot.ofRegion 0x1000 #[0x10, 0x10, 0, 0, 0, 0, 0, 0, 0xad, 0xde, 0, 0, 0, 0, 0, 0, 0x90]).memory
  start := 0x1000
  count := 2
  symbols := fun a => if a = 0x1010 || a = 0xdead then some "open" else none

/-- What follows the load of a run: a load that asks for too much, a name for an
address between two slots, and one name twice. -/
def labels : List Act :=
  [.attach 0x1008 "close", .load { twoSlots with count := 3 }, .attach 0x1000 "enter",
    .attach 0x1009 "between", .attach 0x1008 "close"]

/-- The same names, each attached once. -/
def labelsOnce : List Act :=
  [.attach 0x1009 "between", .attach 0x1000 "enter", .attach 0x1008 "close"]

theorem after_consistent_at_twoSlots :
    SameSince (.load twoSlots :: labels) ([.attach 0x1008 "early"] ++ .load twoSlots :: labelsOnce) ∧
    after ([.attach 0x1008 "early"] ++ .load twoSlots :: labelsOnce) = after (.load twoSlots :: labels) := by
  have loads : (Act.load twoSlots).Renews := ⟨_, by decide, by decide, rfl⟩
  have quiet : Quiet labels := by
    have refused : ¬ (Act.load { twoSlots with count := 3 }).Renews := by
      rintro ⟨bytes, reads⟩
      cases reads.read
    simpa [labels, Quiet, Act.Renews] using refused
  have quiet' : Quiet labelsOnce := by simp [labelsOnce, Quiet, Act.Renews]
  have same : SameSince ([] ++ .load twoSlots :: labels)
      ([.attach 0x1008 "early"] ++ .load twoSlots :: labelsOnce) := by
    refine .intro loads quiet quiet' fun a name => ?_
    simp only [labels, labelsOnce, List.mem_cons, reduceCtorEq, false_or]
    tauto
  exact ⟨same, (after_consistent _).2.2.2.2.2 _ same⟩

example : after (.load twoSlots :: labels) =
    ⟨0x1000, #[⟨0, 0x1010, true, true, ["enter", "open"]⟩, ⟨1, 0xdead, false, false, ["close"]⟩]⟩ := by
  decide

end Directory
end MemoryAtlas

import Mathlib.Data.List.Forall2
import RobotRoutine.Proofs.Command.Trace

/-!
# What becomes of the members of a group

A poll and an abort of a group come down to what they do to each member. An
abort aborts every one of them. A poll polls each of them at most once; those
that it does not reach, because they belong to a later step or somebody before
them failed, it leaves untouched.

The trace of a group is read the same way: what it holds for one member, under
the turn that leads to it, is the member's own trace. So an induction over the
tree needs the members one by one only (`rel_child?`), and no longer the walk.
-/

namespace RobotRoutine

namespace Trace

/-- The calls made beyond one step down, seen from there. -/
def below (turn : Turn) (trace : Trace) : Trace :=
  trace.filterMap fun entry =>
    match entry.place with
    | [] => none
    | first :: rest => if first = turn then some { entry with place := rest } else none

variable {turn other : Turn} (first second trace : Trace)

@[simp]
theorem below_append : below turn (first ++ second) = below turn first ++ below turn second :=
  List.filterMap_append

@[simp]
theorem below_own (call : Call) : below turn (.own call :: trace) = below turn trace :=
  rfl

@[simp]
theorem below_under : below turn (under turn trace) = trace := by
  rw [below, under, List.filterMap_map]
  simp

theorem below_under_of_ne (h : other ≠ turn) : below turn (under other trace) = [] := by
  rw [below, under, List.filterMap_map]
  simp [h]

@[simp]
theorem callsAt_append (place : Place) :
    callsAt place (first ++ second) = callsAt place first ++ callsAt place second :=
  List.filterMap_append

@[simp]
theorem callsAt_under_nil : callsAt [] (under turn trace) = [] := by
  rw [callsAt, under, List.filterMap_map]
  simp

theorem callsAt_cons (place : Place) :
    callsAt (turn :: place) trace = callsAt place (below turn trace) := by
  rw [callsAt, callsAt, below, List.filterMap_filterMap]
  congr 1
  funext entry
  obtain ⟨at_, call, effect⟩ := entry
  cases at_ with
  | nil => rfl
  | cons first rest => by_cases hfirst : first = turn <;> simp [hfirst]

@[simp]
theorem callsAt_own_nil (call : Call) :
    callsAt [] (.own call :: trace) = call :: callsAt [] trace :=
  rfl

@[simp]
theorem callsAt_ran_nil (work : Leaf) (before after : Robot) :
    callsAt [] (work.ran before after :: trace) = .run :: callsAt [] trace := by
  cases work <;> rfl

/-! ## Reading the trace of a group -/

theorem below_ofRow_of_ne {row : Nat → Turn} {index : Nat} (h : ∀ i, index ≤ i → row i ≠ turn)
    (recorded : List Recorded) : below turn (ofRow row index recorded) = [] := by
  induction recorded generalizing index with
  | nil => rfl
  | cons first rest ih =>
      rw [ofRow, below_append, below_under_of_ne _ (h index (Nat.le_refl _)),
        ih fun i hi => h i (Nat.le_of_succ_le hi)]
      rfl

theorem below_ofRow {row : Nat → Turn} (hrow : Function.Injective row) (index i : Nat)
    (recorded : List Recorded) :
    below (row (index + i)) (ofRow row index recorded) =
      (recorded[i]?.map Prod.snd).getD [] := by
  induction recorded generalizing index i with
  | nil => rfl
  | cons first rest ih =>
      rw [ofRow, below_append]
      cases i with
      | zero =>
          have hrest : below (row index) (ofRow row (index + 1) rest) = [] :=
            below_ofRow_of_ne (fun i hi heq => absurd (hrow heq) (by omega)) rest
          rw [Nat.add_zero, below_under, hrest, List.append_nil]
          rfl
      | succ i =>
          have hne : row index ≠ row (index + (i + 1)) := fun heq => absurd (hrow heq) (by omega)
          rw [below_under_of_ne _ hne, Nat.add_comm i 1, ← Nat.add_assoc, ih]
          rw [Nat.add_comm 1 i]
          rfl

theorem below_ofStep_of_ne {index : Nat} (h : ∀ role, turn ≠ .member index role)
    (step : Step Recorded) : below turn (ofStep index step) = [] := by
  rw [ofStep, below_append, below_append, below_under_of_ne _ (h _).symm,
    below_ofRow_of_ne fun i _ => (h _).symm, below_ofRow_of_ne fun i _ => (h _).symm]
  rfl

theorem below_ofStep (index : Nat) (role : Role) (step : Step Recorded) :
    below (.member index role) (ofStep index step) =
      ((step.member? role).map Prod.snd).getD [] := by
  have hcompanion : Function.Injective fun i => Turn.member index (.companion i) :=
    fun i j h => by simpa using h
  have hbeside : Function.Injective fun i => Turn.member index (.beside i) :=
    fun i j h => by simpa using h
  rw [ofStep, below_append, below_append]
  cases role with
  | primary =>
      rw [below_under, below_ofRow_of_ne fun i _ => by simp, below_ofRow_of_ne fun i _ => by simp,
        List.append_nil, List.append_nil]
      rfl
  | companion i =>
      have hrow := below_ofRow hcompanion 0 i step.companions
      rw [Nat.zero_add] at hrow
      rw [below_under_of_ne _ (by simp), hrow, below_ofRow_of_ne fun i _ => by simp,
        List.nil_append, List.append_nil]
      rfl
  | beside i =>
      have hrow := below_ofRow hbeside 0 i step.threaded
      rw [Nat.zero_add] at hrow
      rw [below_under_of_ne _ (by simp), below_ofRow_of_ne fun i _ => by simp, hrow,
        List.nil_append, List.nil_append]
      rfl

theorem below_ofSteps_of_ne {index : Nat} (h : ∀ i role, index ≤ i → turn ≠ .member i role)
    (steps : List (Step Recorded)) : below turn (ofSteps index steps) = [] := by
  induction steps generalizing index with
  | nil => rfl
  | cons step rest ih =>
      rw [ofSteps, below_append, below_ofStep_of_ne fun role => h index role (Nat.le_refl _),
        ih fun i role hi => h i role (Nat.le_of_succ_le hi)]
      rfl

/-- The trace of a group holds for each member the member's own trace. -/
theorem below_ofSteps (index i : Nat) (role : Role) (steps : List (Step Recorded)) :
    below (.member (index + i) role) (ofSteps index steps) =
      ((steps[i]?.bind (·.member? role)).map Prod.snd).getD [] := by
  induction steps generalizing index i with
  | nil => rfl
  | cons step rest ih =>
      rw [ofSteps, below_append]
      cases i with
      | zero =>
          have hrest : below (.member index role) (ofSteps (index + 1) rest) = [] :=
            below_ofSteps_of_ne (fun i role hi heq => by cases heq; omega) rest
          rw [Nat.add_zero, below_ofStep, hrest, List.append_nil]
          rfl
      | succ i =>
          have hne : ∀ role', Turn.member (index + (i + 1)) role ≠ .member index role' :=
            fun role' heq => by cases heq
          rw [below_ofStep_of_ne hne, Nat.add_comm i 1, ← Nat.add_assoc, ih, Nat.add_comm 1 i]
          rfl

@[simp]
theorem callsAt_ofRow_nil (row : Nat → Turn) (index : Nat) (recorded : List Recorded) :
    callsAt [] (ofRow row index recorded) = [] := by
  induction recorded generalizing index with
  | nil => rfl
  | cons first rest ih => rw [ofRow, callsAt_append, callsAt_under_nil, ih, List.append_nil]

@[simp]
theorem callsAt_ofSteps_nil (index : Nat) (steps : List (Step Recorded)) :
    callsAt [] (ofSteps index steps) = [] := by
  induction steps generalizing index with
  | nil => rfl
  | cons step rest ih =>
      rw [ofSteps, ofStep, callsAt_append, callsAt_append, callsAt_append, ih]
      simp only [callsAt_under_nil, callsAt_ofRow_nil, List.append_nil]

end Trace

/-! ## Relations between the members of two steps -/

/-- Whether each command of a step is related to the one in its place of another. -/
structure Step.Rel {α β : Type} (relation : α → β → Prop) (first : Step α) (second : Step β) :
    Prop where
  primary : relation first.primary second.primary
  companions : List.Forall₂ relation first.companions second.companions
  threaded : List.Forall₂ relation first.threaded second.threaded

section Relations

variable {α β γ : Type} {relation : α → β → Prop}

theorem rel_getElem? {first : List α} {second : List β} (h : List.Forall₂ relation first second)
    (index : Nat) : Option.Rel relation first[index]? second[index]? := by
  induction h generalizing index with
  | nil => exact .none
  | cons hhead _ ih =>
      cases index with
      | zero => exact .some hhead
      | succ index => exact ih index

theorem Step.Rel.member? {first : Step α} {second : Step β} (h : Step.Rel relation first second)
    (role : Role) : Option.Rel relation (first.member? role) (second.member? role) := by
  cases role with
  | primary => exact .some h.primary
  | companion index => exact rel_getElem? h.companions index
  | beside index => exact rel_getElem? h.threaded index

theorem rel_bind_member? {first : List (Step α)} {second : List (Step β)}
    (h : List.Forall₂ (Step.Rel relation) first second) (index : Nat) (role : Role) :
    Option.Rel relation (first[index]?.bind (·.member? role))
      (second[index]?.bind (·.member? role)) := by
  have hstep := rel_getElem? h index
  revert hstep
  generalize first[index]? = old, second[index]? = new
  rintro (hrel | _)
  · exact hrel.member? role
  · exact .none

theorem exists_of_mem_right {first : List α} {second : List β}
    (h : List.Forall₂ relation first second) {b : β} (hb : b ∈ second) :
    ∃ a ∈ first, relation a b := by
  induction h with
  | nil => exact nomatch hb
  | cons hhead _ ih =>
      rcases List.mem_cons.mp hb with rfl | hb
      · exact ⟨_, List.mem_cons_self, hhead⟩
      · obtain ⟨a, ha, hrel⟩ := ih hb
        exact ⟨a, List.mem_cons_of_mem _ ha, hrel⟩

theorem Step.Rel.members {first : Step α} {second : Step β} (h : Step.Rel relation first second) :
    List.Forall₂ relation first.members second.members :=
  .cons h.primary (List.rel_append h.companions h.threaded)

theorem Step.Rel.imp {relation' : α → β → Prop} {first : Step α} {second : Step β}
    (h : Step.Rel relation first second) (himp : ∀ a b, relation a b → relation' a b) :
    Step.Rel relation' first second :=
  ⟨himp _ _ h.primary, h.companions.imp himp, h.threaded.imp himp⟩

theorem forall₂_map_of_mem {f : α → β} {list : List α} (h : ∀ a ∈ list, relation a (f a)) :
    List.Forall₂ relation list (list.map f) :=
  List.forall₂_map_right_iff.mpr (List.forall₂_same.mpr h)

theorem Step.rel_map_of_mem {f : α → β} {step : Step α} (h : ∀ a ∈ step.members, relation a (f a)) :
    Step.Rel relation step (step.map f) where
  primary := h _ List.mem_cons_self
  companions := forall₂_map_of_mem fun a ha =>
    h a (List.mem_cons_of_mem _ (List.mem_append_left _ ha))
  threaded := forall₂_map_of_mem fun a ha =>
    h a (List.mem_cons_of_mem _ (List.mem_append_right _ ha))

theorem forall₂_map_self {f : α → β} (h : ∀ a, relation a (f a)) (list : List α) :
    List.Forall₂ relation list (list.map f) :=
  forall₂_map_of_mem fun a _ => h a

theorem Step.rel_map_self {f : α → β} (h : ∀ a, relation a (f a)) (step : Step α) :
    Step.Rel relation step (step.map f) :=
  Step.rel_map_of_mem fun a _ => h a

end Relations

namespace Command

theorem bare_getElem?_bind (recorded : List (Step Recorded)) (index : Nat) (role : Role) :
    (bare recorded)[index]?.bind (·.member? role) =
      (recorded[index]?.bind (·.member? role)).map Prod.fst := by
  rw [bare, List.getElem?_map]
  cases recorded[index]? with
  | none => rfl
  | some step =>
      cases role with
      | primary => rfl
      | companion index | beside index => exact List.getElem?_map ..

/-- What holds between the members of a group and their records holds between
them and what the trace of the group says of them. -/
theorem rel_child? {relation : Command → Recorded → Prop} {name name' : String}
    {phase phase' : Phase} {finished remaining finished' remaining' : List (Step Command)}
    {recorded : List (Step Recorded)}
    (h : List.Forall₂ (Step.Rel relation) (finished ++ remaining) recorded)
    (hbare : finished' ++ remaining' = bare recorded) (turn : Turn) :
    Option.Rel (fun old new => relation old (new, (Trace.ofSteps 0 recorded).below turn))
      ((Command.group name phase finished remaining).child? turn)
      ((Command.group name' phase' finished' remaining').child? turn) := by
  cases turn with
  | inner => exact .none
  | member index role =>
      have hbelow := Trace.below_ofSteps 0 index role recorded
      rw [Nat.zero_add] at hbelow
      rw [child?, child?, hbare, bare_getElem?_bind, hbelow]
      have hmember := rel_bind_member? h index role
      revert hmember
      generalize (finished ++ remaining)[index]?.bind (·.member? role) = old,
        recorded[index]?.bind (·.member? role) = new
      rintro (hrel | _)
      · exact .some hrel
      · exact .none

/-! ## What an abort does to each member -/

/-- Whether a record is that of an abort of the command. -/
def IsAborted (command : Command) (recorded : Recorded) : Prop :=
  ∃ robot, recorded = (command.abortRecorded robot).1

theorem forall₂_abortAll (commands : List Command) (robot : Robot) :
    List.Forall₂ IsAborted commands (abortAllRecorded commands robot).1 := by
  induction commands generalizing robot with
  | nil => exact .nil
  | cons command rest ih => exact .cons ⟨robot, rfl⟩ (ih _)

theorem rel_abortStep (step : Step Command) (robot : Robot) :
    Step.Rel IsAborted step (abortStepRecorded step robot).1 := by
  obtain ⟨primary, companions, beside⟩ := step
  exact ⟨⟨robot, rfl⟩, forall₂_abortAll companions _, forall₂_abortAll beside _⟩

theorem forall₂_abortSteps (steps : List (Step Command)) (robot : Robot) :
    List.Forall₂ (Step.Rel IsAborted) steps (abortStepsRecorded steps robot).1 := by
  induction steps generalizing robot with
  | nil => exact .nil
  | cons step rest ih => exact .cons (rel_abortStep step robot) (ih _)

/-! ## What a poll does to each member -/

/-- Whether a record is that of at most one poll of the command. -/
def IsPolled (command : Command) (recorded : Recorded) : Prop :=
  recorded = command.untouched ∨ ∃ robot, recorded = (command.pollRecorded robot).item

theorem isPolled_untouched (command : Command) : IsPolled command command.untouched :=
  Or.inl rfl

theorem forall₂_pollAll (commands : List Command) (robot : Robot) :
    List.Forall₂ IsPolled commands (pollAllRecorded commands robot).item := by
  induction commands generalizing robot with
  | nil => exact .nil
  | cons command rest ih =>
      rw [pollAllRecorded]
      split
      · exact .cons (Or.inr ⟨robot, rfl⟩) (forall₂_map_self isPolled_untouched rest)
      · exact .cons (Or.inr ⟨robot, rfl⟩) (ih _)

theorem rel_pollStep (step : Step Command) (robot : Robot) :
    Step.Rel IsPolled step (pollStepRecorded step robot).item := by
  rw [pollStepRecorded]
  split
  · exact ⟨Or.inr ⟨robot, rfl⟩, forall₂_map_self isPolled_untouched _,
      forall₂_map_self isPolled_untouched _⟩
  · simp only
    split
    · exact ⟨Or.inr ⟨robot, rfl⟩, forall₂_pollAll _ _, forall₂_map_self isPolled_untouched _⟩
    · exact ⟨Or.inr ⟨robot, rfl⟩, forall₂_pollAll _ _, forall₂_pollAll _ _⟩

theorem forall₂_pollFinished (steps : List (Step Command)) (robot : Robot) :
    List.Forall₂ (Step.Rel IsPolled) steps (pollFinishedRecorded steps robot).item := by
  induction steps generalizing robot with
  | nil => exact .nil
  | cons step rest ih =>
      have hstep : Step.Rel IsPolled step
          ⟨step.primary.untouched, step.companions.map untouched,
            (pollAllRecorded step.threaded robot).item⟩ :=
        ⟨isPolled_untouched _, forall₂_map_self isPolled_untouched _, forall₂_pollAll _ _⟩
      rw [pollFinishedRecorded]
      split
      · exact .cons hstep (forall₂_map_self (Step.rel_map_self isPolled_untouched) rest)
      · exact .cons hstep (ih _)

theorem forall₂_runSteps (steps : List (Step Command)) (robot : Robot) :
    List.Forall₂ (Step.Rel IsPolled) steps
      ((runStepsRecorded steps robot).item.1 ++ (runStepsRecorded steps robot).item.2) := by
  induction steps generalizing robot with
  | nil => exact .nil
  | cons step rest ih =>
      have hrest := forall₂_map_self (Step.rel_map_self isPolled_untouched) rest
      rw [runStepsRecorded]
      split
      · exact .cons (rel_pollStep step robot) hrest
      · simp only
        split
        · exact .cons (rel_pollStep step robot) (ih _)
        · exact .cons (rel_pollStep step robot) hrest

theorem forall₂_walk (finished remaining : List (Step Command)) (robot : Robot) :
    List.Forall₂ (Step.Rel IsPolled) (finished ++ remaining)
      ((walkRecorded finished remaining robot).item.1 ++
        (walkRecorded finished remaining robot).item.2) := by
  have hfinished := forall₂_pollFinished finished robot
  rw [walkRecorded]
  split
  · exact List.rel_append hfinished (forall₂_map_self (Step.rel_map_self isPolled_untouched) _)
  · simp only [Polled.map, List.append_assoc]
    exact List.rel_append hfinished (forall₂_runSteps _ _)

end Command

end RobotRoutine

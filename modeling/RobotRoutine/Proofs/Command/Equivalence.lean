import RobotRoutine.Proofs.Command.Conditions
import RobotRoutine.Proofs.Command.Hooks
import RobotRoutine.Proofs.Command.Members
import RobotRoutine.Proofs.Command.Steps

/-!
# Commands that no host can tell apart

A host polls and aborts the root of a tree and sees the phase or the error that
a poll answers with, and the robot. Two commands are equivalent when a relation
holds between them that polls and aborts keep, and under which they answer
alike and do the same to the robot; `Scene.observe_eq` says that this is enough
for whole runs, in which the sensors and the clocks may change at any time. Which
readings may occur is a parameter: members of a step that only agree as long as
no sensor is out of order are equivalent under that condition.

Most of what is said about groups is said of their two lists of steps, a plan.
`IsPlanBisimulation` has what a relation between plans must keep for the groups
to be equivalent (`equivalent_group`): a walk over either plan meets the same
error or none, and then leaves related plans with work left in both or in
neither. After an error only the abort that follows it has to agree, for nothing
that an ended group holds is seen again.

Equivalent members make equivalent groups (`equivalent_group_of_rel`), so a rule
that puts an equivalent command in place of another may be used anywhere in a
tree (`Within.equivalent`).
-/

namespace RobotRoutine

namespace Command

/-- Whether two polls were alike, up to what a relation allows in what they leave. -/
structure Polled.Rel {α β : Type} (related : α → β → Prop) (first : Polled α)
    (second : Polled β) : Prop where
  item : related first.item second.item
  robot : first.robot = second.robot
  fault : first.fault = second.fault

/-- What a poll is answered with: the error, or the phase that the command is in. -/
def Polled.result (polled : Polled Command) : Except RoutineError Phase :=
  match polled.fault with
  | some error => .error error
  | none => .ok polled.item.phase

/-- A relation between commands that cannot be told apart as long as the
conditions are among those that are allowed. -/
structure IsBisimulation (allowed : Conditions → Prop) (related : Command → Command → Prop) :
    Prop where
  phase : ∀ {first second}, related first second → first.phase = second.phase
  poll : ∀ {first second}, related first second → ∀ robot, allowed robot.conditions →
    (first.poll robot).Rel related (second.poll robot)
  abort : ∀ {first second}, related first second → ∀ robot,
    related (first.abort robot).1 (second.abort robot).1 ∧
      (first.abort robot).2 = (second.abort robot).2

/-- Whether no host can tell two commands apart under the allowed conditions. -/
def Equivalent (allowed : Conditions → Prop) (first second : Command) : Prop :=
  ∃ related, IsBisimulation allowed related ∧ related first second

variable {allowed : Conditions → Prop}

@[refl]
theorem Equivalent.refl (command : Command) : Equivalent allowed command command :=
  ⟨Eq, ⟨congrArg phase, fun h _ _ => h ▸ ⟨rfl, rfl, rfl⟩, fun h _ => h ▸ ⟨rfl, rfl⟩⟩, rfl⟩

theorem isBisimulation_equivalent : IsBisimulation allowed (Equivalent allowed) where
  phase := by
    intro first second ⟨related, hb, h⟩
    exact hb.phase h
  poll := by
    intro first second ⟨related, hb, h⟩ robot hrobot
    obtain ⟨hitem, hafter, hfault⟩ := hb.poll h robot hrobot
    exact ⟨⟨related, hb, hitem⟩, hafter, hfault⟩
  abort := by
    intro first second ⟨related, hb, h⟩ robot
    obtain ⟨hitem, hafter⟩ := hb.abort h robot
    exact ⟨⟨related, hb, hitem⟩, hafter⟩

/-! ## Plans -/

/-- The steps of a group: those that are finished, and those that remain. -/
abbrev Plan := List (Step Command) × List (Step Command)

/-- The robot after everything in a plan has been aborted. -/
def Plan.abort (plan : Plan) (robot : Robot) : Robot :=
  (abortSteps plan.2 (abortSteps plan.1 robot).2).2

/-- A group with the steps of a plan. -/
def Plan.group (name : String) (phase : Phase) (plan : Plan) : Command :=
  .group name phase plan.1 plan.2

/-- How two walks compare: both meet no error, or both meet the same one and
leave the same robot when everything has been aborted after it. -/
inductive WalksAlike (related : Plan → Plan → Prop) (first second : Polled Plan) : Prop
  | on (hitem : related first.item second.item) (hrobot : first.robot = second.robot)
      (hfirst : first.fault = none) (hsecond : second.fault = none)
      (hleft : first.item.2 = [] ↔ second.item.2 = [])
  | failed (error : RoutineError) (hfirst : first.fault = some error)
      (hsecond : second.fault = some error)
      (habort : first.item.abort first.robot = second.item.abort second.robot)

/-- What a relation between plans keeps whose groups cannot be told apart. -/
structure IsPlanBisimulation (allowed : Conditions → Prop) (related : Plan → Plan → Prop) :
    Prop where
  walk : ∀ {first second}, related first second → ∀ robot, allowed robot.conditions →
    WalksAlike related (walk first.1 first.2 robot) (walk second.1 second.2 robot)
  abort : ∀ {first second}, related first second → ∀ robot,
    first.abort robot = second.abort robot

/-- The groups of related plans in the same phase; of ended groups only that they have ended. -/
inductive PlanRel (related : Plan → Plan → Prop) : Command → Command → Prop
  | group {first second : Plan} (name name' : String) (phase : Phase) (h : related first second) :
      PlanRel related (first.group name phase) (second.group name' phase)
  | completed {first second : Command} (hfirst : first.phase = .completed)
      (hsecond : second.phase = .completed) : PlanRel related first second

theorem Polled.finishIf_of_ends {polled : Polled Command} {isDone : Bool}
    (h : (polled.fault.isSome || isDone) = true) :
    polled.finishIf isDone =
      ⟨(polled.item.abort polled.robot).1, (polled.item.abort polled.robot).2, polled.fault⟩ := by
  rw [finishIf, if_pos h]

theorem Polled.finishIf_of_goes_on {polled : Polled Command} (h : polled.fault = none) :
    polled.finishIf false = polled := by
  rw [finishIf, h]
  rfl

section Groups

variable {related : Plan → Plan → Prop} (hplan : IsPlanBisimulation allowed related)

include hplan

theorem planRel_poll {first second : Plan} (name name' : String) {phase : Phase}
    (hphase : phase ≠ .completed) (h : related first second) (robot : Robot)
    (hrobot : allowed robot.conditions) :
    ((first.group name phase).poll robot).Rel (PlanRel related)
      ((second.group name' phase).poll robot) := by
  rw [Plan.group, Plan.group, poll_group hphase, poll_group hphase]
  have hwalk := hplan.walk h robot hrobot
  generalize walk first.1 first.2 robot = walked at hwalk ⊢
  generalize walk second.1 second.2 robot = walked' at hwalk ⊢
  obtain ⟨plan, after, fault⟩ := walked
  obtain ⟨plan', after', fault'⟩ := walked'
  cases hwalk with
  | on hitem hafter hfirst hsecond hleft =>
      simp only at hitem hafter hfirst hsecond hleft
      subst hafter hfirst hsecond
      cases hempty : plan.2.isEmpty with
      | true =>
          -- Nothing is left, and both groups end.
          have hempty' : plan'.2.isEmpty = true := by
            rw [List.isEmpty_iff] at hempty ⊢
            exact hleft.mp hempty
          simp only [hempty']
          rw [Polled.finishIf_of_ends (Bool.or_true _), Polled.finishIf_of_ends (Bool.or_true _)]
          exact ⟨.completed rfl rfl, hplan.abort hitem after, rfl⟩
      | false =>
          have hempty' : plan'.2.isEmpty = false := by
            rw [List.isEmpty_eq_false_iff] at hempty ⊢
            exact fun h => hempty (hleft.mpr h)
          simp only [hempty']
          rw [Polled.finishIf_of_goes_on rfl, Polled.finishIf_of_goes_on rfl]
          exact ⟨.group name name' .running hitem, rfl, rfl⟩
  | failed error hfirst hsecond habort =>
      simp only at hfirst hsecond habort
      subst hfirst hsecond
      rw [Polled.finishIf_of_ends rfl, Polled.finishIf_of_ends rfl]
      exact ⟨.completed rfl rfl, habort, rfl⟩

theorem isBisimulation_planRel : IsBisimulation allowed (PlanRel related) where
  phase := by
    intro first second h
    cases h with
    | group name name' phase h => rfl
    | completed hfirst hsecond => rw [hfirst, hsecond]
  poll := by
    intro first second h robot hrobot
    cases h with
    | completed hfirst hsecond =>
        rw [poll_of_phase_completed hfirst, poll_of_phase_completed hsecond]
        exact ⟨.completed hfirst hsecond, rfl, rfl⟩
    | group name name' phase h =>
        by_cases hphase : phase = .completed
        · subst hphase
          exact ⟨.completed rfl rfl, rfl, rfl⟩
        · exact planRel_poll hplan name name' hphase h robot hrobot
  abort := by
    intro first second h robot
    cases h with
    | completed hfirst hsecond =>
        rw [abort_of_phase_ne_running (by rw [hfirst]; decide),
          abort_of_phase_ne_running (by rw [hsecond]; decide)]
        exact ⟨.completed hfirst hsecond, rfl⟩
    | group name name' phase h =>
        match phase with
        | .running => exact ⟨.completed rfl rfl, hplan.abort h robot⟩
        | .notStarted => exact ⟨.group name name' .notStarted h, rfl⟩
        | .completed => exact ⟨.completed rfl rfl, rfl⟩

/-- Groups of related plans cannot be told apart. -/
theorem equivalent_group (first second : Plan) (name name' : String) (phase : Phase)
    (h : related first second) :
    Equivalent allowed (first.group name phase) (second.group name' phase) :=
  ⟨PlanRel related, isBisimulation_planRel hplan, .group name name' phase h⟩

end Groups

/-! ## Members of one group that are equivalent to those of another -/

section Members

variable {related : Command → Command → Prop} (hb : IsBisimulation allowed related)

include hb

theorem pollAll_rel {commands commands' : List Command}
    (h : List.Forall₂ related commands commands') (robot : Robot)
    (hrobot : allowed robot.conditions) :
    (pollAll commands robot).Rel (List.Forall₂ related) (pollAll commands' robot) := by
  induction h generalizing robot with
  | nil => exact ⟨.nil, rfl, rfl⟩
  | @cons command command' rest rest' hfirst hrest ih =>
      have hpolled := hb.poll hfirst robot hrobot
      rw [pollAll, pollAll, ← hpolled.fault, ← hpolled.robot]
      cases hfault : (command.poll robot).fault with
      | some error => exact ⟨.cons hpolled.item hrest, hpolled.robot, hpolled.fault⟩
      | none =>
          have hnext := ih (command.poll robot).robot (by rwa [conditions_poll])
          exact ⟨.cons hpolled.item hnext.item, hnext.robot, hnext.fault⟩

theorem pollStep_rel {step step' : Step Command} (h : Step.Rel related step step')
    (robot : Robot) (hrobot : allowed robot.conditions) :
    (pollStep step robot).Rel (Step.Rel related) (pollStep step' robot) := by
  obtain ⟨primary, companions, beside⟩ := step
  obtain ⟨primary', companions', beside'⟩ := step'
  obtain ⟨hprimary, hcompanions, hbeside⟩ := h
  have hfirst := hb.poll hprimary robot hrobot
  rw [pollStep, pollStep, ← hfirst.fault, ← hfirst.robot]
  cases hfault : (primary.poll robot).fault with
  | some error => exact ⟨⟨hfirst.item, hcompanions, hbeside⟩, hfirst.robot, hfirst.fault⟩
  | none =>
      have hsecond := pollAll_rel hb hcompanions (primary.poll robot).robot
        (by rwa [conditions_poll])
      simp only
      rw [← hsecond.fault, ← hsecond.robot]
      cases hfault : (pollAll companions (primary.poll robot).robot).fault with
      | some error => exact ⟨⟨hfirst.item, hsecond.item, hbeside⟩, hsecond.robot, hsecond.fault⟩
      | none =>
          have hthird := pollAll_rel hb hbeside _
            (show allowed (pollAll companions (primary.poll robot).robot).robot.conditions by
              rwa [conditions_pollAll, conditions_poll])
          exact ⟨⟨hfirst.item, hsecond.item, hthird.item⟩, hthird.robot, hthird.fault⟩

theorem pollFinished_rel {steps steps' : List (Step Command)}
    (h : List.Forall₂ (Step.Rel related) steps steps') (robot : Robot)
    (hrobot : allowed robot.conditions) :
    (pollFinished steps robot).Rel (List.Forall₂ (Step.Rel related))
      (pollFinished steps' robot) := by
  induction h generalizing robot with
  | nil => exact ⟨.nil, rfl, rfl⟩
  | @cons step step' rest rest' hstep hrest ih =>
      obtain ⟨primary, companions, beside⟩ := step
      obtain ⟨primary', companions', beside'⟩ := step'
      obtain ⟨hprimary, hcompanions, hbeside⟩ := hstep
      have hfirst := pollAll_rel hb hbeside robot hrobot
      rw [pollFinished, pollFinished, ← hfirst.fault, ← hfirst.robot]
      cases hfault : (pollAll beside robot).fault with
      | some error =>
          exact ⟨.cons ⟨hprimary, hcompanions, hfirst.item⟩ hrest, hfirst.robot, hfirst.fault⟩
      | none =>
          have hnext := ih (pollAll beside robot).robot (by rwa [conditions_pollAll])
          exact ⟨.cons ⟨hprimary, hcompanions, hfirst.item⟩ hnext.item, hnext.robot, hnext.fault⟩

theorem isComplete_of_rel {step step' : Step Command} (h : Step.Rel related step step') :
    step.isComplete = step'.isComplete := by
  have hall : ∀ {commands commands' : List Command}, List.Forall₂ related commands commands' →
      commands.all isCompleted = commands'.all isCompleted := by
    intro commands commands' h
    induction h with
    | nil => rfl
    | cons hfirst _ ih =>
        rw [List.all_cons, List.all_cons, ih, isCompleted, isCompleted, hb.phase hfirst]
  exact hall (.cons h.primary h.companions)

/-- Whether the steps of two plans have related members. -/
def MembersRel (related : Command → Command → Prop) (first second : Plan) : Prop :=
  List.Forall₂ (Step.Rel related) first.1 second.1 ∧
    List.Forall₂ (Step.Rel related) first.2 second.2

theorem runSteps_rel {steps steps' : List (Step Command)}
    (h : List.Forall₂ (Step.Rel related) steps steps') (robot : Robot)
    (hrobot : allowed robot.conditions) :
    (runSteps steps robot).Rel (MembersRel related) (runSteps steps' robot) := by
  induction h generalizing robot with
  | nil => exact ⟨⟨.nil, .nil⟩, rfl, rfl⟩
  | @cons step step' rest rest' hstep hrest ih =>
      have hfirst := pollStep_rel hb hstep robot hrobot
      rw [runSteps, runSteps, ← hfirst.fault, ← hfirst.robot]
      cases hfault : (pollStep step robot).fault with
      | some error => exact ⟨⟨.nil, .cons hfirst.item hrest⟩, hfirst.robot, hfirst.fault⟩
      | none =>
          simp only
          rw [← isComplete_of_rel hb hfirst.item]
          cases (pollStep step robot).item.isComplete with
          | false => exact ⟨⟨.nil, .cons hfirst.item hrest⟩, hfirst.robot, hfirst.fault⟩
          | true =>
              have hnext := ih (pollStep step robot).robot (by rwa [conditions_pollStep])
              exact ⟨⟨.cons hfirst.item hnext.item.1, hnext.item.2⟩, hnext.robot, hnext.fault⟩

theorem walk_rel {first second : Plan} (h : MembersRel related first second) (robot : Robot)
    (hrobot : allowed robot.conditions) :
    (walk first.1 first.2 robot).Rel (MembersRel related) (walk second.1 second.2 robot) := by
  have hbeside := pollFinished_rel hb h.1 robot hrobot
  rw [walk, walk, ← hbeside.fault, ← hbeside.robot]
  cases hfault : (pollFinished first.1 robot).fault with
  | some error => exact ⟨⟨hbeside.item, h.2⟩, hbeside.robot, hbeside.fault⟩
  | none =>
      have hsteps := runSteps_rel hb h.2 (pollFinished first.1 robot).robot
        (by rwa [conditions_pollFinished])
      exact ⟨⟨List.rel_append hbeside.item hsteps.item.1, hsteps.item.2⟩, hsteps.robot,
        hsteps.fault⟩

theorem abortAll_rel {commands commands' : List Command}
    (h : List.Forall₂ related commands commands') (robot : Robot) :
    (abortAll commands robot).2 = (abortAll commands' robot).2 := by
  induction h generalizing robot with
  | nil => rfl
  | cons hfirst _ ih =>
      simp only [abortAll]
      rw [(hb.abort hfirst robot).2]
      exact ih _

theorem abortSteps_rel {steps steps' : List (Step Command)}
    (h : List.Forall₂ (Step.Rel related) steps steps') (robot : Robot) :
    (abortSteps steps robot).2 = (abortSteps steps' robot).2 := by
  induction h generalizing robot with
  | nil => rfl
  | @cons step step' rest rest' hstep _ ih =>
      obtain ⟨primary, companions, beside⟩ := step
      obtain ⟨primary', companions', beside'⟩ := step'
      obtain ⟨hprimary, hcompanions, hbeside⟩ := hstep
      simp only [abortSteps, abortStep]
      rw [(hb.abort hprimary robot).2, abortAll_rel hb hcompanions, abortAll_rel hb hbeside]
      exact ih _

theorem Plan.abort_rel {first second : Plan} (h : MembersRel related first second)
    (robot : Robot) : first.abort robot = second.abort robot := by
  rw [Plan.abort, Plan.abort, abortSteps_rel hb h.1, abortSteps_rel hb h.2]

end Members

/-- Walks that are alike while they last are alike in what they come to. -/
theorem WalksAlike.of_rel {related : Plan → Plan → Prop} {first second : Polled Plan}
    (h : first.Rel related second)
    (habort : ∀ robot, first.item.abort robot = second.item.abort robot)
    (hlength : first.item.2.length = second.item.2.length) :
    WalksAlike related first second := by
  obtain ⟨hitem, hrobot, hfault⟩ := h
  cases herror : first.fault with
  | some error =>
      exact .failed error herror (hfault ▸ herror) (by rw [habort, hrobot])
  | none =>
      refine .on hitem hrobot herror (hfault ▸ herror) ?_
      rw [← List.length_eq_zero_iff, hlength, List.length_eq_zero_iff]

/-- Groups whose members are equivalent, each to the one in its place, are
equivalent. -/
theorem equivalent_group_of_rel (name : String) (phase : Phase)
    {finished finished' remaining remaining' : List (Step Command)}
    (hfinished : List.Forall₂ (Step.Rel (Equivalent allowed)) finished finished')
    (hremaining : List.Forall₂ (Step.Rel (Equivalent allowed)) remaining remaining') :
    Equivalent allowed (.group name phase finished remaining)
      (.group name phase finished' remaining') := by
  have hb : IsBisimulation allowed (Equivalent allowed) := isBisimulation_equivalent
  have hplan : IsPlanBisimulation allowed (MembersRel (Equivalent allowed)) :=
    { walk := fun h robot hrobot =>
        have hwalk := walk_rel hb h robot hrobot
        .of_rel hwalk (Plan.abort_rel hb hwalk.item) hwalk.item.2.length_eq
      abort := fun h robot => Plan.abort_rel hb h robot }
  exact equivalent_group hplan (finished, remaining) (finished', remaining') name name phase
    ⟨hfinished, hremaining⟩

/-! ## Rules used somewhere in a tree -/

/-- Whether a command is no wrapper, and no step has commands beside those that it waits for. -/
structure IsDirect (command : Command) : Prop where
  isThreaded : command.isThreaded = false
  beside : ∀ step index, command.child? (.member step (.beside index)) = none

/-- Whether nothing in a tree runs on a worker. -/
def IsUnthreaded : Command → Prop :=
  Everywhere IsDirect

theorem IsDirect.isThreadless {name : String} {phase : Phase}
    {finished remaining : List (Step Command)}
    (h : (Command.group name phase finished remaining).IsDirect) :
    IsThreadless (finished ++ remaining) := by
  intro step hstep
  obtain ⟨index, hindex⟩ := List.mem_iff_getElem?.mp hstep
  have hnone := h.beside index 0
  rw [child?, hindex] at hnone
  exact List.head?_eq_none_iff.mp (List.head?_eq_getElem? ▸ hnone)

theorem isDirect_group {name : String} {phase : Phase} {finished remaining : List (Step Command)}
    (h : IsThreadless (finished ++ remaining)) :
    (Command.group name phase finished remaining).IsDirect := by
  refine ⟨rfl, fun index place => ?_⟩
  rw [child?]
  cases hstep : (finished ++ remaining)[index]? with
  | none => rfl
  | some step =>
      show step.threaded[place]? = none
      rw [h step (List.mem_of_getElem? hstep)]
      rfl

theorem isUnthreaded_leaf (name : String) (phase : Phase) (work : Leaf) :
    (Command.leaf name phase work).IsUnthreaded :=
  everywhere_iff.mpr ⟨⟨rfl, fun _ _ => rfl⟩, nofun⟩

/-- A group is off the workers when its members are and it has nothing beside its steps. -/
theorem isUnthreaded_ofSteps_iff {name : String} {steps : List (Step Command)} :
    (Command.ofSteps name steps).IsUnthreaded ↔
      ∀ step ∈ steps, step.threaded = [] ∧ ∀ member ∈ step.members, member.IsUnthreaded := by
  constructor
  · intro h step hstep
    exact ⟨h.self.isThreadless step hstep,
      forall_members_of_child? (fun _ _ hchild => h.child hchild) step hstep⟩
  · intro h
    refine everywhere_iff.mpr ⟨isDirect_group fun step hstep => (h step hstep).1, ?_⟩
    intro turn child hchild
    obtain ⟨step, hstep, hmember⟩ := mem_of_child? hchild
    exact (h step hstep).2 child hmember

/-- A group is fresh when its members are. -/
theorem isFresh_ofSteps_iff {name : String} {steps : List (Step Command)} :
    (Command.ofSteps name steps).IsFresh ↔
      ∀ step ∈ steps, ∀ member ∈ step.members, member.IsFresh :=
  ⟨fun h => forall_members_of_child? fun _ _ hchild => Everywhere.child h hchild,
    isFresh_ofSteps name⟩

/-- A rule used once, at some place of a tree. -/
inductive Within (rule : Command → Command → Prop) : Command → Command → Prop
  | here {command command' : Command} (h : rule command command') : Within rule command command'
  | deeper {command old new : Command} {turn : Turn} (hold : command.child? turn = some old)
      (h : Within rule old new) : Within rule command (command.setChild turn new)

theorem isDirect_setChild {command new : Command} {turn : Turn} (h : command.IsDirect) :
    (command.setChild turn new).IsDirect := by
  refine ⟨by rw [isThreaded_setChild]; exact h.isThreaded, fun step index => ?_⟩
  by_cases hturn : Turn.member step (.beside index) = turn
  · subst hturn
    exact child?_setChild_none (h.beside step index)
  · rw [child?_setChild_ne hturn]
    exact h.beside step index

theorem isNew_setChild {command new : Command} {turn : Turn} (h : command.IsNew) :
    (command.setChild turn new).IsNew := by
  refine ⟨?_, ?_, ?_⟩
  · rw [phase_setChild, h.phase]
  · rw [task?_setChild, h.task?]
  · rw [current_setChild, h.current]

theorem step_rel_refl {related : Command → Command → Prop} (hrefl : ∀ c, related c c)
    (step : Step Command) : Step.Rel related step step where
  primary := hrefl _
  companions := List.forall₂_same.mpr fun c _ => hrefl c
  threaded := List.forall₂_same.mpr fun c _ => hrefl c

theorem step_rel_setMember {related : Command → Command → Prop} (hrefl : ∀ c, related c c)
    {step : Step Command} {role : Role} {old new : Command}
    (hold : step.member? role = some old) (h : related old new) :
    Step.Rel related step (step.setMember role new) := by
  have hself : ∀ commands : List Command, List.Forall₂ related commands commands :=
    fun commands => List.forall₂_same.mpr fun c _ => hrefl c
  have hset : ∀ {commands : List Command} {index : Nat}, commands[index]? = some old →
      List.Forall₂ related commands (commands.set index new) := by
    intro commands
    induction commands with
    | nil => exact fun hindex => nomatch hindex
    | cons first rest ih =>
        intro index hindex
        cases index with
        | zero =>
            obtain rfl := Option.some.inj hindex
            exact .cons h (hself rest)
        | succ index => exact .cons (hrefl first) (ih hindex)
  cases role with
  | primary =>
      obtain rfl := Option.some.inj hold
      exact ⟨h, hself _, hself _⟩
  | companion index => exact ⟨hrefl _, hset hold, hself _⟩
  | beside index => exact ⟨hrefl _, hself _, hset hold⟩

theorem forall₂_modify {α : Type} {related : α → α → Prop} (hrefl : ∀ a, related a a)
    {list : List α} {index : Nat} {a : α} (ha : list[index]? = some a) {f : α → α}
    (h : related a (f a)) : List.Forall₂ related list (list.modify index f) := by
  induction list generalizing index with
  | nil => exact nomatch ha
  | cons first rest ih =>
      cases index with
      | zero =>
          obtain rfl := Option.some.inj ha
          exact .cons h (List.forall₂_same.mpr fun b _ => hrefl b)
      | succ index =>
          rw [List.modify_succ_cons]
          exact .cons (hrefl first) (ih ha)

/-- A fresh group and the same with an equivalent member in one place. -/
theorem equivalent_setChild {command old new : Command} {turn : Turn} (hnew : command.IsNew)
    (hdirect : command.IsDirect) (hold : command.child? turn = some old)
    (h : Equivalent allowed old new) : Equivalent allowed command (command.setChild turn new) := by
  cases command with
  | leaf name phase work => cases turn <;> cases hold
  | threaded name phase cadence task inner => cases hdirect.isThreaded
  | group name phase finished remaining =>
      cases turn with
      | inner => cases hold
      | member index role =>
          obtain rfl : finished = [] := List.length_eq_zero_iff.mp hnew.current
          obtain ⟨step, hstep, hmember⟩ := Option.bind_eq_some_iff.mp hold
          have hremaining : List.Forall₂ (Step.Rel (Equivalent allowed)) remaining
              (remaining.modify index (·.setMember role new)) :=
            forall₂_modify (step_rel_refl Equivalent.refl) hstep
              (step_rel_setMember Equivalent.refl hmember h)
          rw [setChild, List.length_nil, if_neg (Nat.not_lt_zero _), Nat.sub_zero]
          exact equivalent_group_of_rel name phase .nil hremaining

section Rules

variable {rule : Command → Command → Prop}
  (hfresh : ∀ {first second}, rule first second → first.IsFresh → first.IsUnthreaded →
    second.IsFresh ∧ second.IsUnthreaded)

include hfresh in
/-- A rule that keeps trees fresh and off the workers keeps them so at any place. -/
theorem Within.fresh {first second : Command} (h : Within rule first second)
    (hfirst : first.IsFresh) (hunthreaded : first.IsUnthreaded) :
    second.IsFresh ∧ second.IsUnthreaded := by
  induction h with
  | here h => exact hfresh h hfirst hunthreaded
  | deeper hold _ ih =>
      obtain ⟨hnew, hdirect⟩ := ih (hfirst.child hold) (hunthreaded.child hold)
      exact ⟨hfirst.setChild hnew (isNew_setChild hfirst.self),
        hunthreaded.setChild hdirect (isDirect_setChild hunthreaded.self)⟩

/-- What a rule puts in place of a command may be put there anywhere in a tree. -/
theorem Within.equivalent
    (hrule : ∀ {first second}, rule first second → first.IsFresh → first.IsUnthreaded →
      Equivalent allowed first second)
    {first second : Command} (h : Within rule first second) (hfirst : first.IsFresh)
    (hunthreaded : first.IsUnthreaded) : Equivalent allowed first second := by
  induction h with
  | here h => exact hrule h hfirst hunthreaded
  | deeper hold _ ih =>
      exact equivalent_setChild hfirst.self hunthreaded.self hold
        (ih (hfirst.child hold) (hunthreaded.child hold))

end Rules

end Command

/-! ## Runs -/

/-- Whether an event is one that the host brings about, or a change to conditions
that are allowed. -/
def Event.IsHosted (allowed : Conditions → Prop) : Event → Prop
  | .poll | .abort => True
  | .change conditions => allowed conditions
  | .work _ => False

namespace Scene

open Command

/-- What an event lets the host see: what a poll is answered with, and the robot. -/
def shows (scene : Scene) (event : Event) : Option (Except RoutineError Phase) × Robot :=
  let answer := match event with
    | .poll => some (scene.root.poll scene.robot).result
    | .abort | .work _ | .change _ => none
  (answer, (scene.step event).robot)

/-- What the host sees in a run, event by event. -/
def observe (scene : Scene) : List Event → List (Option (Except RoutineError Phase) × Robot)
  | [] => []
  | event :: rest => scene.shows event :: (scene.step event).observe rest

variable {allowed : Conditions → Prop}

/-- Equivalent routines show the same, whatever the host does and whichever of
the allowed conditions it meets. -/
theorem observe_eq {root root' : Command} (h : Equivalent allowed root root') {robot : Robot}
    (hrobot : allowed robot.conditions) {events : List Event}
    (hevents : ∀ event ∈ events, event.IsHosted allowed) :
    (Scene.mk root robot).observe events = (Scene.mk root' robot).observe events := by
  have hb : IsBisimulation allowed (Equivalent allowed) := isBisimulation_equivalent
  induction events generalizing root root' robot with
  | nil => rfl
  | cons event rest ih =>
      have hrest := fun e he => hevents e (List.mem_cons_of_mem _ he)
      have hevent := hevents event List.mem_cons_self
      rw [observe, observe]
      cases event with
      | poll =>
          obtain ⟨hitem, hafter, hfault⟩ := hb.poll h robot hrobot
          have hresult : (root.poll robot).result = (root'.poll robot).result := by
            rw [Polled.result, Polled.result, hfault, hb.phase hitem]
          have hrobot' : allowed (root.poll robot).robot.conditions := by rwa [conditions_poll]
          have hnext := ih hitem hrobot' hrest
          simp only [shows, step, hresult]
          rw [hnext, hafter]
      | abort =>
          obtain ⟨hitem, hafter⟩ := hb.abort h robot
          have hrobot' : allowed (root.abort robot).2.conditions := by
            rwa [(abort_moves root robot).conditions]
          have hnext := ih hitem hrobot' hrest
          simp only [shows, step]
          rw [hnext, hafter]
      | change conditions =>
          have hrobot' : allowed (robot.under conditions).conditions := hevent
          have hnext := ih h hrobot' hrest
          simp only [shows, step]
          rw [hnext]
      | work place => exact hevent.elim

/-- A rule used any number of times, each time anywhere in the tree, leaves what
the host sees as it was. -/
theorem observe_eq_of_within {rule : Command → Command → Prop}
    (hfresh : ∀ {first second}, rule first second → first.IsFresh → first.IsUnthreaded →
      second.IsFresh ∧ second.IsUnthreaded)
    (hrule : ∀ {first second}, rule first second → first.IsFresh → first.IsUnthreaded →
      Equivalent allowed first second)
    {root root' : Command} (h : Relation.ReflTransGen (Within rule) root root')
    (hroot : root.IsFresh) (hunthreaded : root.IsUnthreaded) {robot : Robot}
    (hrobot : allowed robot.conditions) {events : List Event}
    (hevents : ∀ event ∈ events, event.IsHosted allowed) :
    (Scene.mk root robot).observe events = (Scene.mk root' robot).observe events := by
  induction h using Relation.ReflTransGen.head_induction_on with
  | refl => rfl
  | head hfirst _ ih =>
      obtain ⟨hroot', hunthreaded'⟩ := hfirst.fresh hfresh hroot hunthreaded
      exact (observe_eq (hfirst.equivalent hrule hroot hunthreaded) hrobot hevents).trans
        (ih hroot' hunthreaded')

end Scene

end RobotRoutine

import Mathlib.Data.Finset.Piecewise
import RobotRoutine.Proofs.Command.Equivalence
import RobotRoutine.Proofs.Command.Schedule

/-!
# What a command keeps to

A command acts on the robot through handles, and which ones can be read off the
tree. `Robot.graft` puts what belongs to some handles of one robot in place of
the same of another. A command keeps to its handles when it does not matter
what the rest of the robot is: it polls as it would have polled, and the rest
comes through unchanged. As one equation, `poll_graft` says both.

Sensors and clocks are everybody's to read and nobody's to write, so they belong
to no handle. Both controllers go with the drive base: whoever drives by one
reads it, and who ends disables it and stops the drive.
-/

namespace RobotRoutine

/-- What commands act on the robot through. -/
inductive Handle where
  /-- The drive base and both controllers. -/
  | base
  | bucket
  | gearGuard
  /-- Where messages go. -/
  | sink
deriving DecidableEq

/-- What the robot has for a handle. -/
def Handle.Part : Handle → Type
  | .base => Drive × Controller × Controller
  | .bucket | .gearGuard => Actuator
  | .sink => List String

/-- The handle of a mechanism. -/
def Handle.ofMechanism : Mechanism → Handle
  | .bucket => .bucket
  | .gearGuard => .gearGuard

namespace Robot

/-- The part of the robot behind a handle. -/
def part (robot : Robot) : (handle : Handle) → handle.Part
  | .base => (robot.drive, robot.distance.controller, robot.heading.controller)
  | .bucket => robot.bucket
  | .gearGuard => robot.gearGuard
  | .sink => robot.messages

/-- The robot made of its parts. -/
def ofParts (plant : PlantParameters) (conditions : Conditions)
    (part : (handle : Handle) → handle.Part) : Robot where
  plant
  drive := (part .base).1
  distance := ⟨conditions.encoder, (part .base).2.1⟩
  heading := ⟨conditions.gyro, (part .base).2.2⟩
  bucket := part .bucket
  gearGuard := part .gearGuard
  clock := conditions.clock
  separateMatchClock := conditions.separateMatchClock
  messages := part .sink

/-- What belongs to some handles of one robot, with the rest of another. -/
def graft (own : Finset Handle) (robot other : Robot) : Robot :=
  ofParts other.plant robot.conditions (own.piecewise robot.part other.part)

variable {own : Finset Handle} {robot other : Robot}

@[simp]
theorem ofParts_part (robot : Robot) :
    ofParts robot.plant robot.conditions robot.part = robot :=
  rfl

@[simp]
theorem part_ofParts (plant : PlantParameters) (conditions : Conditions)
    (part : (handle : Handle) → handle.Part) : (ofParts plant conditions part).part = part := by
  funext handle
  cases handle <;> rfl

@[simp]
theorem conditions_graft : (robot.graft own other).conditions = robot.conditions :=
  rfl

@[simp]
theorem part_graft : (robot.graft own other).part = own.piecewise robot.part other.part :=
  part_ofParts ..

/-- Robots are the same when they have the same parts under the same conditions. -/
theorem ext_part (hplant : robot.plant = other.plant)
    (hconditions : robot.conditions = other.conditions)
    (hpart : ∀ handle, robot.part handle = other.part handle) : robot = other := by
  rw [← ofParts_part robot, ← ofParts_part other, hplant, hconditions, funext hpart]

@[simp]
theorem graft_self (own : Finset Handle) (robot : Robot) : robot.graft own robot = robot := by
  rw [graft, Finset.piecewise_same, ofParts_part]

theorem part_graft_of_mem {handle : Handle} (h : handle ∈ own) :
    (robot.graft own other).part handle = robot.part handle := by
  rw [part_graft, Finset.piecewise_eq_of_mem own _ _ h]

/-- The robot with what it has for a handle changed. -/
def change (robot : Robot) (handle : Handle) (f : handle.Part → handle.Part) : Robot :=
  ofParts robot.plant robot.conditions
    (Function.update robot.part handle (f (robot.part handle)))

theorem change_graft {handle : Handle} (h : handle ∈ own) (f : handle.Part → handle.Part) :
    (robot.graft own other).change handle f = (robot.change handle f).graft own other := by
  have hpart : (robot.change handle f).part =
      Function.update robot.part handle (f (robot.part handle)) := part_ofParts ..
  rw [graft.eq_def own (robot.change handle f), hpart, change, part_graft_of_mem h, part_graft,
    Finset.update_piecewise_of_mem own _ _ h]
  rfl

section Base

variable (h : Handle.base ∈ own)

include h

theorem distance_graft : (robot.graft own other).distance = robot.distance := by
  simp [graft, ofParts, part, conditions, h]

theorem heading_graft : (robot.graft own other).heading = robot.heading := by
  simp [graft, ofParts, part, conditions, h]

theorem tank_graft (left right : Float) :
    (robot.graft own other).tank left right = (robot.tank left right).graft own other :=
  change_graft h fun base => (base.1.tank left right, base.2)

theorem arcade_graft (speed turn : Float) :
    (robot.graft own other).arcade speed turn = (robot.arcade speed turn).graft own other :=
  tank_graft h (speed + turn) (speed - turn)

theorem stop_graft : (robot.graft own other).stop = robot.stop.graft own other :=
  change_graft h fun base => (base.1.stop, base.2)

theorem controlDistance_graft (f : Controller → Controller) :
    (robot.graft own other).controlDistance f = (robot.controlDistance f).graft own other :=
  change_graft h fun base => (base.1, f base.2.1, base.2.2)

theorem controlHeading_graft (f : Controller → Controller) :
    (robot.graft own other).controlHeading f = (robot.controlHeading f).graft own other :=
  change_graft h fun base => (base.1, base.2.1, f base.2.2)

end Base

theorem send_graft {mechanism : Mechanism} (h : Handle.ofMechanism mechanism ∈ own)
    (position : Position) :
    (robot.graft own other).send mechanism position =
      (robot.send mechanism position).graft own other := by
  cases mechanism with
  | bucket => exact change_graft h fun bucket => Actuator.send bucket position
  | gearGuard => exact change_graft h fun gearGuard => Actuator.send gearGuard position

theorem emit_graft (h : Handle.sink ∈ own) (message : String) :
    (robot.graft own other).emit message = (robot.emit message).graft own other :=
  change_graft h fun messages => List.append messages [message]

end Robot

/-! ## The handles of a command -/

/-- The handle of an effect. -/
def Effect.handle : Effect → Handle
  | .print _ => .sink
  | .stopDrive => .base
  | .send mechanism _ => .ofMechanism mechanism

/-- The handles that a leaf acts through. -/
def Leaf.handles : Leaf → Finset Handle
  | .action effect => {effect.handle}
  | .timed _ .idle _ => ∅
  | .timed _ (.tank ..) _ | .convergence .. | .waitUntil _ => {.base}

namespace Command

mutual

/-- The handles that a command acts through. -/
def handles : Command → Finset Handle
  | .leaf _ _ work => work.handles
  | .threaded _ _ _ _ inner => inner.handles
  | .group _ _ finished remaining => handlesOfSteps finished ∪ handlesOfSteps remaining

/-- The handles that any of the commands acts through. -/
def handlesOfAll : List Command → Finset Handle
  | [] => ∅
  | command :: rest => command.handles ∪ handlesOfAll rest

/-- The handles that the commands of any of the steps act through. -/
def handlesOfSteps : List (Step Command) → Finset Handle
  | [] => ∅
  | ⟨primary, companions, beside⟩ :: rest =>
    primary.handles ∪ handlesOfAll companions ∪ handlesOfAll beside ∪ handlesOfSteps rest

end

theorem handles_subset_handlesOfAll {commands : List Command} {command : Command}
    (h : command ∈ commands) : command.handles ⊆ handlesOfAll commands := by
  induction commands with
  | nil => exact nomatch h
  | cons first rest ih =>
      rcases List.mem_cons.mp h with heq | h
      · rw [heq]
        exact Finset.subset_union_left
      · exact (ih h).trans Finset.subset_union_right

theorem handles_subset_handlesOfSteps {steps : List (Step Command)} {step : Step Command}
    (hstep : step ∈ steps) {member : Command} (h : member ∈ step.members) :
    member.handles ⊆ handlesOfSteps steps := by
  induction steps with
  | nil => exact nomatch hstep
  | cons first rest ih =>
      rcases List.mem_cons.mp hstep with heq | hstep
      · subst heq
        obtain ⟨primary, companions, beside⟩ := step
        refine Finset.Subset.trans ?_ Finset.subset_union_left
        rcases List.mem_cons.mp h with heq | h
        · subst heq
          exact Finset.subset_union_left.trans Finset.subset_union_left
        · rcases List.mem_append.mp h with h | h
          · exact (handles_subset_handlesOfAll h).trans
              (Finset.subset_union_right.trans Finset.subset_union_left)
          · exact (handles_subset_handlesOfAll h).trans Finset.subset_union_right
      · exact (ih hstep).trans Finset.subset_union_right

theorem handles_subset_of_child? {command child : Command} {turn : Turn}
    (h : command.child? turn = some child) : child.handles ⊆ command.handles := by
  match command, turn with
  | .threaded .., .inner =>
      obtain rfl := Option.some.inj h
      exact Finset.Subset.refl _
  | .group name phase finished remaining, turn =>
      obtain ⟨step, hstep, hmember⟩ := mem_of_child? h
      rcases List.mem_append.mp hstep with hstep | hstep
      · exact (handles_subset_handlesOfSteps hstep hmember).trans Finset.subset_union_left
      · exact (handles_subset_handlesOfSteps hstep hmember).trans Finset.subset_union_right
  | .leaf .., _ | .threaded .., .member .. => exact nomatch h

end Command

/-! ## What the hooks keep to -/

namespace Leaf

variable {work work' : Leaf} {robot robot' : Robot}

theorem handles_start (work : Leaf) (robot : Robot) :
    (work.start robot).1.handles = work.handles := by
  cases work with
  | timed duration output startedAt => cases output <;> rfl
  | action | convergence | waitUntil => rfl

theorem handles_run (h : work.run robot = .ok (work', robot')) : work'.handles = work.handles := by
  cases work with
  | timed duration output startedAt =>
      cases output with
      | idle | tank => exact (Prod.mk.inj (Except.ok.inj h)).1 ▸ rfl
  | convergence mode target count measured =>
      rw [run] at h
      split at h
      · cases h
      · exact (Prod.mk.inj (Except.ok.inj h)).1 ▸ rfl
  | action | waitUntil => exact (Prod.mk.inj (Except.ok.inj h)).1 ▸ rfl

theorem handles_check (work : Leaf) (robot : Robot) :
    (work.check robot).1.handles = work.handles := by
  cases work with
  | timed duration output startedAt => cases output <;> rfl
  | action | convergence | waitUntil => rfl

variable {own : Finset Handle} (h : work.handles ⊆ own) (robot other : Robot)

theorem check_graft (work : Leaf) : work.check (robot.graft own other) = work.check robot := by
  cases work <;> rfl

include h

theorem start_graft : work.start (robot.graft own other) =
    ((work.start robot).1, (work.start robot).2.graft own other) := by
  cases work with
  | convergence mode target count measured =>
      have hbase : Handle.base ∈ own := Finset.singleton_subset_iff.mp h
      cases mode with
      | distance => exact congrArg _ (Robot.controlDistance_graft hbase _)
      | straight =>
          simp only [start, ConvergenceMode.engage, Robot.controlDistance_graft hbase,
            Robot.controlHeading_graft hbase]
      | turn coefficient => exact congrArg _ (Robot.controlHeading_graft hbase _)
  | action | timed | waitUntil => rfl

theorem run_graft : work.run (robot.graft own other) =
    (work.run robot).map fun after => (after.1, after.2.graft own other) := by
  cases work with
  | action effect =>
      have hown : effect.handle ∈ own := Finset.singleton_subset_iff.mp h
      refine congrArg (fun after => Except.ok (Leaf.action effect, after)) ?_
      cases effect with
      | print words => exact Robot.emit_graft hown _
      | stopDrive => exact Robot.stop_graft hown
      | send mechanism position => exact Robot.send_graft hown position
  | timed duration output startedAt =>
      cases output with
      | idle => rfl
      | tank left right =>
          have hbase : Handle.base ∈ own := Finset.singleton_subset_iff.mp h
          exact congrArg (fun after => Except.ok (_, after)) (Robot.tank_graft hbase left right)
  | convergence mode target count measured =>
      have hbase : Handle.base ∈ own := Finset.singleton_subset_iff.mp h
      have hsensor : mode.sensor (robot.graft own other) = mode.sensor robot := by
        cases mode <;> rfl
      have hsteer : mode.steer (robot.graft own other) = (mode.steer robot).graft own other := by
        cases mode with
        | distance | straight | turn =>
            simp only [ConvergenceMode.steer, Robot.distance_graft hbase, Robot.heading_graft hbase,
              Robot.tank_graft hbase, Robot.arcade_graft hbase]
      rw [run, run, hsensor, hsteer]
      cases (mode.sensor robot).read with
      | error fault => rfl
      | ok measured => rfl
  | waitUntil time =>
      have hbase : Handle.base ∈ own := Finset.singleton_subset_iff.mp h
      exact congrArg (fun after => Except.ok (_, after)) (Robot.stop_graft hbase)

theorem finish_graft : work.finish (robot.graft own other) =
    (work.finish robot).graft own other := by
  cases work with
  | timed duration output startedAt =>
      cases output with
      | idle => rfl
      | tank left right => exact Robot.stop_graft (Finset.singleton_subset_iff.mp h)
  | convergence mode target count measured =>
      have hbase : Handle.base ∈ own := Finset.singleton_subset_iff.mp h
      cases mode with
      | distance | straight | turn =>
          simp only [finish, ConvergenceMode.disengage, Robot.controlDistance_graft hbase,
            Robot.controlHeading_graft hbase, Robot.stop_graft hbase]
  | action | waitUntil => rfl

end Leaf

namespace Command

/-! ## What a tree keeps to -/

/-- Whether a command, if it is a leaf, acts through some handles only. -/
def IsLocal (own : Finset Handle) (command : Command) : Prop :=
  ∀ name phase work, command = .leaf name phase work → work.handles ⊆ own

/-- Whether nothing in a tree acts through other handles. -/
def KeepsTo (own : Finset Handle) : Command → Prop :=
  Everywhere (IsLocal own)

variable {own : Finset Handle}

/-- A tree keeps to its own handles. -/
theorem keepsTo_of_handles_subset {command : Command} (h : command.handles ⊆ own) :
    KeepsTo own command := by
  induction command using childInduction with
  | step command ih =>
  refine everywhere_iff.mpr ⟨?_, fun turn child hchild =>
    ih turn child hchild ((handles_subset_of_child? hchild).trans h)⟩
  intro name phase work heq
  subst heq
  exact h

theorem isLocal_leaf {name : String} {phase : Phase} {work : Leaf} (h : work.handles ⊆ own) :
    IsLocal own (.leaf name phase work) := by
  intro name' phase' work' heq
  cases heq
  exact h

theorem KeepsTo.handles_subset {name : String} {phase : Phase} {work : Leaf}
    (h : KeepsTo own (.leaf name phase work)) : work.handles ⊆ own :=
  Everywhere.self h name phase work rfl

/-- Every move keeps to the handles that were kept to before. -/
theorem Move.keepsTo {command command' : Command} {robot robot' : Robot}
    (h : Move command robot command' robot') (hkeeps : KeepsTo own command) :
    KeepsTo own command' := by
  induction h with
  | start =>
      exact hkeeps.of_child?_eq (fun _ => rfl)
        (isLocal_leaf ((Leaf.handles_start _ _).subset.trans hkeeps.handles_subset))
  | run hrun =>
      exact hkeeps.of_child?_eq (fun _ => rfl)
        (isLocal_leaf ((Leaf.handles_run hrun).subset.trans hkeeps.handles_subset))
  | check =>
      exact hkeeps.of_child?_eq (fun _ => rfl)
        (isLocal_leaf ((Leaf.handles_check _ _).subset.trans hkeeps.handles_subset))
  | finish => exact hkeeps.of_child?_eq (fun _ => rfl) (isLocal_leaf hkeeps.handles_subset)
  | spawn | respawn | note | cancel | leave | enter | close =>
      exact hkeeps.of_child?_eq (fun turn => by cases turn <;> rfl) nofun
  | advance => exact hkeeps.of_child?_eq (child?_advance _ _ _ _) nofun
  | @child command old new turn robot robot' hrunning hold hadmits hmove ih =>
      refine Everywhere.setChild hkeeps (ih (hkeeps.child hold)) ?_
      intro name phase work heq
      have hnew := child?_setChild_self new hold
      rw [heq] at hnew
      exact nomatch hnew

theorem Moves.keepsTo {before after : Command × Robot} (h : Moves before after)
    (hkeeps : KeepsTo own before.1) : KeepsTo own after.1 := by
  induction h with
  | refl => exact hkeeps
  | tail _ hlast ih => exact hlast.keepsTo ih

/-! ## Aborts -/

/-- Whether an abort goes the same way whatever the rest of the robot is, and
leaves that as it was. -/
def AbortsWithin (own : Finset Handle) (command : Command) : Prop :=
  ∀ robot other, command.abort (robot.graft own other) =
    ((command.abort robot).1, (command.abort robot).2.graft own other)

theorem abortAll_graft {commands : List Command}
    (h : ∀ command ∈ commands, AbortsWithin own command) (robot other : Robot) :
    abortAll commands (robot.graft own other) =
      ((abortAll commands robot).1, (abortAll commands robot).2.graft own other) := by
  induction commands generalizing robot with
  | nil => rfl
  | cons command rest ih =>
      rw [abortAll, abortAll, h command List.mem_cons_self]
      simp only
      rw [ih fun c hc => h c (List.mem_cons_of_mem _ hc)]

theorem abortStep_graft {step : Step Command}
    (h : ∀ command ∈ step.members, AbortsWithin own command) (robot other : Robot) :
    abortStep step (robot.graft own other) =
      ((abortStep step robot).1, (abortStep step robot).2.graft own other) := by
  obtain ⟨primary, companions, beside⟩ := step
  obtain ⟨hprimary, hcompanions, hbeside⟩ := forall_members_iff.mp h
  rw [abortStep, abortStep, hprimary]
  simp only
  rw [abortAll_graft hcompanions]
  simp only
  rw [abortAll_graft hbeside]

theorem abortSteps_graft {steps : List (Step Command)}
    (h : ∀ step ∈ steps, ∀ command ∈ step.members, AbortsWithin own command)
    (robot other : Robot) : abortSteps steps (robot.graft own other) =
      ((abortSteps steps robot).1, (abortSteps steps robot).2.graft own other) := by
  induction steps generalizing robot with
  | nil => rfl
  | cons step rest ih =>
      rw [abortSteps, abortSteps, abortStep_graft (h step List.mem_cons_self)]
      simp only
      rw [ih fun s hs => h s (List.mem_cons_of_mem _ hs)]

theorem abort_graft {command : Command} (h : KeepsTo own command) : AbortsWithin own command := by
  induction command using childInduction with
  | step command ih =>
  intro robot other
  by_cases hphase : command.phase = .running
  case neg => rw [abort_of_phase_ne_running hphase, abort_of_phase_ne_running hphase]
  match command with
  | .leaf name phase work =>
      cases hphase
      exact congrArg _ (Leaf.finish_graft h.handles_subset robot other)
  | .threaded name phase cadence none inner =>
      cases hphase
      rfl
  | .threaded name phase cadence (some task) inner =>
      cases hphase
      have hinner : AbortsWithin own inner :=
        ih .inner inner rfl (@Everywhere.child _ _ _ .inner h rfl)
      rw [abort, abort, hinner]
      split
      · rfl
      · rfl
  | .group name phase finished remaining =>
      cases hphase
      have hmembers : ∀ step ∈ finished ++ remaining, ∀ member ∈ step.members,
          AbortsWithin own member :=
        forall_members_of_child? fun turn member hchild =>
          ih turn member hchild (Everywhere.child h hchild)
      rw [abort, abort, abortSteps_graft fun step hs => hmembers step (List.mem_append_left _ hs)]
      simp only
      rw [abortSteps_graft fun step hs => hmembers step (List.mem_append_right _ hs)]

/-! ## Polls -/

/-- The same poll with another robot outside of some handles. -/
def Polled.graft {α : Type} (own : Finset Handle) (polled : Polled α) (other : Robot) : Polled α :=
  { polled with robot := polled.robot.graft own other }

/-- Whether a poll goes the same way whatever the rest of the robot is, and
leaves that as it was. -/
def PollsWithin (own : Finset Handle) (command : Command) : Prop :=
  ∀ robot other, command.poll (robot.graft own other) = (command.poll robot).graft own other

theorem pollAll_graft {commands : List Command} (h : ∀ command ∈ commands, PollsWithin own command)
    (robot other : Robot) :
    pollAll commands (robot.graft own other) = (pollAll commands robot).graft own other := by
  induction commands generalizing robot with
  | nil => rfl
  | cons command rest ih =>
      have hrest := ih (fun c hc => h c (List.mem_cons_of_mem _ hc)) (command.poll robot).robot
      rw [pollAll, pollAll, h command List.mem_cons_self]
      simp only [Polled.graft] at hrest ⊢
      cases hfault : (command.poll robot).fault with
      | some error => simp only [Polled.map, hfault]
      | none => simp only [Polled.map, hrest]

theorem pollStep_graft {step : Step Command} (h : ∀ command ∈ step.members, PollsWithin own command)
    (robot other : Robot) :
    pollStep step (robot.graft own other) = (pollStep step robot).graft own other := by
  obtain ⟨primary, companions, beside⟩ := step
  obtain ⟨hprimary, hcompanions, hbeside⟩ := forall_members_iff.mp h
  have hsecond := pollAll_graft hcompanions (primary.poll robot).robot other
  have hthird := pollAll_graft hbeside (pollAll companions (primary.poll robot).robot).robot other
  rw [pollStep, pollStep, hprimary]
  simp only [Polled.graft] at hsecond hthird ⊢
  cases hfault : (primary.poll robot).fault with
  | some error => simp only [Polled.map, hfault]
  | none =>
      simp only [hsecond]
      cases hfault' : (pollAll companions (primary.poll robot).robot).fault with
      | some error => simp only [Polled.map, hfault']
      | none => simp only [Polled.map, hthird]

theorem pollFinished_graft {steps : List (Step Command)}
    (h : ∀ step ∈ steps, ∀ command ∈ step.members, PollsWithin own command)
    (robot other : Robot) :
    pollFinished steps (robot.graft own other) = (pollFinished steps robot).graft own other := by
  induction steps generalizing robot with
  | nil => rfl
  | cons step rest ih =>
      obtain ⟨primary, companions, beside⟩ := step
      obtain ⟨-, -, hbeside⟩ := forall_members_iff.mp (h _ List.mem_cons_self)
      have hrest := ih (fun s hs => h s (List.mem_cons_of_mem _ hs)) (pollAll beside robot).robot
      rw [pollFinished, pollFinished, pollAll_graft hbeside]
      simp only [Polled.graft] at hrest ⊢
      cases hfault : (pollAll beside robot).fault with
      | some error => simp only [Polled.map, hfault]
      | none => simp only [Polled.map, hrest]

theorem runSteps_graft {steps : List (Step Command)}
    (h : ∀ step ∈ steps, ∀ command ∈ step.members, PollsWithin own command)
    (robot other : Robot) :
    runSteps steps (robot.graft own other) = (runSteps steps robot).graft own other := by
  induction steps generalizing robot with
  | nil => rfl
  | cons step rest ih =>
      have hrest := ih (fun s hs => h s (List.mem_cons_of_mem _ hs)) (pollStep step robot).robot
      rw [runSteps, runSteps, pollStep_graft (h step List.mem_cons_self)]
      simp only [Polled.graft] at hrest ⊢
      cases hfault : (pollStep step robot).fault with
      | some error => simp only [Polled.map, hfault]
      | none =>
          by_cases hcomplete : (pollStep step robot).item.isComplete = true
          · simp only [Polled.map, hrest, if_pos hcomplete]
          · simp only [Polled.map, hfault, if_neg hcomplete]
            exact if_neg hcomplete

theorem walk_graft {finished remaining : List (Step Command)}
    (h : ∀ step ∈ finished ++ remaining, ∀ command ∈ step.members, PollsWithin own command)
    (robot other : Robot) :
    walk finished remaining (robot.graft own other) =
      (walk finished remaining robot).graft own other := by
  have hsteps := runSteps_graft (fun step hstep => h step (List.mem_append_right _ hstep))
    (pollFinished finished robot).robot other
  rw [walk, walk, pollFinished_graft fun step hstep => h step (List.mem_append_left _ hstep)]
  simp only [Polled.graft] at hsteps ⊢
  cases hfault : (pollFinished finished robot).fault with
  | some error => simp only [Polled.map, hfault]
  | none => simp only [Polled.map, hsteps]

theorem finishIf_graft (polled : Polled Command) (h : AbortsWithin own polled.item)
    (isDone : Bool) (other : Robot) :
    (polled.graft own other).finishIf isDone = (polled.finishIf isDone).graft own other := by
  have habort := h polled.robot other
  rw [Polled.finishIf, Polled.finishIf]
  simp only [Polled.graft, habort]
  split
  · rfl
  · rfl

theorem pollLeaf_graft {work : Leaf} (h : work.handles ⊆ own) (name : String)
    (robot other : Robot) :
    pollLeaf name work (robot.graft own other) = (pollLeaf name work robot).graft own other := by
  have habort : ∀ {work' : Leaf}, work'.handles ⊆ own →
      AbortsWithin own (.leaf name .running work') :=
    fun hwork' robot other => congrArg _ (Leaf.finish_graft hwork' robot other)
  rw [pollLeaf, pollLeaf, Leaf.run_graft h]
  cases hrun : work.run robot with
  | error fault =>
      exact finishIf_graft ⟨.leaf name .running work, robot, some (.sensor name fault)⟩ (habort h) _
        other
  | ok after =>
      obtain ⟨work', robot'⟩ := after
      have hwork' := (Leaf.handles_check work' robot').subset.trans
        ((Leaf.handles_run hrun).subset.trans h)
      simp only [Except.map, Leaf.check_graft]
      exact finishIf_graft ⟨.leaf name .running (work'.check robot').1, robot', none⟩
        (habort hwork') _ other

/-- What a walk over the steps of a group keeps of each member. -/
theorem forall_members_walk {property : Command → Prop} {finished remaining : List (Step Command)}
    (h : ∀ step ∈ finished ++ remaining, ∀ member ∈ step.members, HoldsPolled property member)
    (robot : Robot) :
    ∀ step ∈ (walk finished remaining robot).item.1 ++ (walk finished remaining robot).item.2,
      ∀ member ∈ step.members, property member := by
  obtain ⟨hfinished, hremaining⟩ := List.forall_mem_append.mp h
  have hbehind := forall_members_pollFinished hfinished robot
  rw [walk]
  cases (pollFinished finished robot).fault with
  | some error =>
      exact List.forall_mem_append.mpr ⟨hbehind, fun s hs m hm => (hremaining s hs m hm).1⟩
  | none =>
      have hrun := forall_members_runSteps hremaining (pollFinished finished robot).robot
      simp only [Polled.map, List.append_assoc]
      exact List.forall_mem_append.mpr ⟨hbehind, hrun⟩

theorem keepsTo_group (name : String) (phase : Phase) {finished remaining : List (Step Command)}
    (h : ∀ step ∈ finished ++ remaining, ∀ member ∈ step.members, KeepsTo own member) :
    KeepsTo own (.group name phase finished remaining) := by
  refine everywhere_iff.mpr ⟨nofun, fun turn child hchild => ?_⟩
  obtain ⟨step, hstep, hmember⟩ := mem_of_child? hchild
  exact h step hstep child hmember

theorem KeepsTo.running {name : String} {phase : Phase} {cadence : Duration}
    {task : Option Task} {inner : Command} (h : KeepsTo own (.threaded name phase cadence task inner))
    (task' : Option Task) : KeepsTo own (.threaded name .running cadence task' inner) :=
  Everywhere.of_child?_eq h (fun turn => by cases turn <;> rfl) nofun

/-- A tree polls within the handles that it keeps to. -/
theorem poll_graft {command : Command} (h : KeepsTo own command) : PollsWithin own command := by
  induction command using childInduction with
  | step command ih =>
  intro robot other
  by_cases hphase : command.phase = .completed
  case pos =>
    rw [poll_of_phase_completed hphase, poll_of_phase_completed hphase]
    rfl
  match command with
  | .leaf name .notStarted work =>
      have hwork := h.handles_subset
      rw [poll, poll, Leaf.start_graft hwork]
      exact pollLeaf_graft ((Leaf.handles_start _ _).subset.trans hwork) name _ other
  | .leaf name .running work => exact pollLeaf_graft h.handles_subset name robot other
  | .threaded name .notStarted cadence none inner =>
      exact finishIf_graft ⟨.threaded name .running cadence _ inner, robot, _⟩
        (abort_graft (h.running _)) _ other
  | .threaded name .notStarted cadence (some task) inner =>
      exact finishIf_graft ⟨.threaded name .running cadence (some task) inner, robot,
        some (.taskAlreadyStarted name)⟩ (abort_graft (h.running _)) _ other
  | .threaded name .running cadence none inner =>
      exact finishIf_graft ⟨.threaded name .running cadence none inner, robot, none⟩
        (abort_graft (h.running _)) _ other
  | .threaded name .running cadence (some task) inner =>
      exact finishIf_graft ⟨.threaded name .running cadence _ inner, robot, _⟩
        (abort_graft (h.running _)) _ other
  | .group name phase finished remaining =>
      have hkeeps : ∀ step ∈ finished ++ remaining, ∀ member ∈ step.members, KeepsTo own member :=
        forall_members_of_child? fun turn member hchild => Everywhere.child h hchild
      have hpolls : ∀ step ∈ finished ++ remaining, ∀ member ∈ step.members,
          PollsWithin own member :=
        forall_members_of_child? fun turn member hchild =>
          ih turn member hchild (Everywhere.child h hchild)
      have hwalked := keepsTo_group name .running
        (forall_members_walk (fun step hstep member hmember =>
          ⟨hkeeps step hstep member hmember, fun robot =>
            (poll_moves member robot).keepsTo (hkeeps step hstep member hmember)⟩) robot)
      have hphase : phase ≠ .completed := hphase
      rw [poll_group hphase, poll_group hphase, walk_graft hpolls]
      exact finishIf_graft ((walk finished remaining robot).map fun plan =>
        .group name .running plan.1 plan.2) (abort_graft hwalked) _ other

end Command

end RobotRoutine

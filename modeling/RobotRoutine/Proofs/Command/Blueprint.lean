import RobotRoutine.Command.Describe
import RobotRoutine.Proofs.Command.Chronicle
import RobotRoutine.Proofs.Command.Symmetry

/-!
# What a run leaves alone

The blueprint of a command is the command with everything taken back that a run
writes: phases, the times at which commands started, streaks and measured values,
workers, and the count of finished steps. What is left is what a command is built
from, and of a tree that was only put together nothing is taken back
(`blueprint_of_assembled`).

No small move changes the blueprint of the tree it is made in
(`Move.blueprint_eq`), so polls and aborts of any tree leave it alone, whatever
state the tree is in. A worker polls or aborts what it was handed, somewhere in
the tree, and `blueprint_visit` carries that up to the root.

A description is written from names and settings alone, which is why it reads the
same before and after (`describeAt_blueprint`).
-/

namespace RobotRoutine

theorem Debounce.start_update (count : Debounce) (error : Float) :
    Debounce.start (count.update error).tolerance (count.update error).required =
      .start count.tolerance count.required := by
  rw [Debounce.update]
  split
  · rfl
  · rfl

namespace Leaf

/-- The command as it was built. -/
def blueprint : Leaf → Leaf
  | .action effect => .action effect
  | .timed duration output _ => .timed duration output none
  | .convergence mode target count _ =>
    .convergence mode target (.start count.tolerance count.required) 0
  | .waitUntil time => .waitUntil time

theorem blueprint_start (work : Leaf) (robot : Robot) :
    (work.start robot).1.blueprint = work.blueprint := by
  cases work <;> rfl

theorem blueprint_run {work work' : Leaf} {robot robot' : Robot}
    (h : work.run robot = .ok (work', robot')) : work'.blueprint = work.blueprint := by
  match work with
  | .action _ | .timed _ .idle _ | .timed _ (.tank ..) _ | .waitUntil _ =>
      obtain ⟨rfl, -⟩ := Prod.mk.inj (Except.ok.inj h)
      rfl
  | .convergence mode target count measured =>
      rw [run] at h
      cases hread : (mode.sensor robot).read with
      | error fault =>
          rw [hread] at h
          cases h
      | ok value =>
          rw [hread] at h
          obtain ⟨rfl, -⟩ := Prod.mk.inj (Except.ok.inj h)
          rfl

theorem blueprint_check (work : Leaf) (robot : Robot) :
    (work.check robot).1.blueprint = work.blueprint := by
  match work with
  | .action _ | .timed .. | .waitUntil _ => rfl
  | .convergence mode target count measured =>
      exact congrArg (Leaf.convergence mode target · 0) (Debounce.start_update count _)

end Leaf

namespace Command

mutual

/-- The command, with all that is below it, as it was built. -/
def blueprint : Command → Command
  | .leaf name _ work => .leaf name .notStarted work.blueprint
  | .threaded name _ cadence _ inner => .threaded name .notStarted cadence none inner.blueprint
  | .group name _ finished remaining =>
    .group name .notStarted [] (blueprintSteps finished ++ blueprintSteps remaining)

/-- The commands as they were built. -/
def blueprintAll : List Command → List Command
  | [] => []
  | command :: rest => command.blueprint :: blueprintAll rest

/-- The steps as they were built. -/
def blueprintSteps : List (Step Command) → List (Step Command)
  | [] => []
  | ⟨primary, companions, beside⟩ :: rest =>
    ⟨primary.blueprint, blueprintAll companions, blueprintAll beside⟩ :: blueprintSteps rest

end

theorem blueprintAll_eq (commands : List Command) :
    blueprintAll commands = commands.map blueprint := by
  induction commands with
  | nil => rfl
  | cons command rest ih => rw [blueprintAll, ih, List.map_cons]

theorem blueprintSteps_eq (steps : List (Step Command)) :
    blueprintSteps steps = steps.map (Step.map blueprint) := by
  induction steps with
  | nil => rfl
  | cons step rest ih =>
      rw [blueprintSteps, ih, blueprintAll_eq, blueprintAll_eq, List.map_cons]
      rfl

theorem blueprint_group (name : String) (phase : Phase) (finished remaining : List (Step Command)) :
    (Command.group name phase finished remaining).blueprint =
      .group name .notStarted [] ((finished ++ remaining).map (Step.map blueprint)) := by
  rw [blueprint, blueprintSteps_eq, blueprintSteps_eq, List.map_append]

/-! ## Places in a blueprint -/

theorem child?_blueprint (command : Command) (turn : Turn) :
    command.blueprint.child? turn = (command.child? turn).map blueprint := by
  match command, turn with
  | .group name phase finished remaining, .member index role =>
      rw [blueprint_group, child?, child?, List.nil_append, List.getElem?_map]
      cases (finished ++ remaining)[index]? with
      | none => rfl
      | some step => exact member?_map _ step role
  | .threaded .., .inner | .leaf .., _ | .threaded .., .member .. | .group .., .inner => rfl

/-- What a place leads to in a blueprint is the blueprint of what it leads to. -/
theorem at?_blueprint (place : Place) (command : Command) :
    command.blueprint.at? place = (command.at? place).map blueprint := by
  induction place generalizing command with
  | nil => rfl
  | cons turn rest ih =>
      rw [at?, at?, child?_blueprint]
      cases command.child? turn with
      | none => rfl
      | some child => exact ih child

theorem blueprint_setChild (command child : Command) (turn : Turn) :
    (command.setChild turn child).blueprint = command.blueprint.setChild turn child.blueprint := by
  match command, turn with
  | .group name phase finished remaining, .member index role =>
      obtain ⟨finished', remaining', hset, -, -, hrow⟩ :=
        setChild_group name phase finished remaining index role child
      rw [hset, blueprint_group, blueprint_group, hrow, map_modify_setMember, setChild]
      rfl
  | .threaded .., .inner | .leaf .., _ | .threaded .., .member .. | .group .., .inner => rfl

/-- Another command in the place of one with the same blueprint changes no blueprint. -/
theorem blueprint_setChild_of_eq {command old new : Command} {turn : Turn}
    (hold : command.child? turn = some old) (h : new.blueprint = old.blueprint) :
    (command.setChild turn new).blueprint = command.blueprint := by
  rw [blueprint_setChild, h, ← blueprint_setChild, setChild_self hold]

/-! ## Moves, polls and aborts -/

/-- A move changes no blueprint. -/
theorem Move.blueprint_eq {command command' : Command} {robot robot' : Robot}
    (h : Move command robot command' robot') : command'.blueprint = command.blueprint := by
  induction h with
  | start => exact congrArg (Command.leaf _ .notStarted) (Leaf.blueprint_start _ _)
  | run hrun => exact congrArg (Command.leaf _ .notStarted) (Leaf.blueprint_run hrun)
  | check => exact congrArg (Command.leaf _ .notStarted) (Leaf.blueprint_check _ _)
  | finish | spawn | respawn | note | cancel | leave | enter | close => rfl
  | advance =>
      rw [blueprint_group, blueprint_group, List.append_assoc]
      rfl
  | child _ hold _ _ ih => exact blueprint_setChild_of_eq hold ih

theorem Moves.blueprint_eq {before after : Command × Robot} (h : Moves before after) :
    after.1.blueprint = before.1.blueprint := by
  induction h with
  | refl => rfl
  | tail _ hlast ih => exact hlast.blueprint_eq.trans ih

theorem blueprint_poll (command : Command) (robot : Robot) :
    (command.poll robot).item.blueprint = command.blueprint :=
  (poll_moves command robot).blueprint_eq

theorem blueprint_abort (command : Command) (robot : Robot) :
    (command.abort robot).1.blueprint = command.blueprint :=
  (abort_moves command robot).blueprint_eq

/-! ## Workers -/

theorem blueprint_iterateWorker (command : Command) (robot : Robot) :
    (command.iterateWorker robot).1.blueprint = command.blueprint := by
  match command with
  | .leaf .. | .threaded _ _ _ none _ | .group .. => rfl
  | .threaded name phase cadence (some task) inner =>
      rw [iterateWorker, Worker.iterate]
      by_cases hcancelled : task.cancelled = true
      · rw [if_pos hcancelled]
      · rw [if_neg hcancelled]
        exact congrArg (Command.threaded name .notStarted cadence none)
          (blueprint_poll inner robot)

theorem blueprint_cancelWorker (command : Command) (robot : Robot) :
    (command.cancelWorker robot).1.blueprint = command.blueprint := by
  match command with
  | .leaf .. | .threaded _ _ _ none _ | .group .. => rfl
  | .threaded name phase cadence (some task) inner =>
      rw [cancelWorker, Worker.cancel]
      by_cases hcancelled : task.cancelled = true
      · rw [if_pos hcancelled]
      · rw [if_neg hcancelled]
        exact congrArg (Command.threaded name .notStarted cadence none)
          (blueprint_abort inner robot)

/-- What changes no blueprint anywhere changes none of the tree it is done in. -/
theorem blueprint_visit {act : Command → Robot → Command × Robot}
    (h : ∀ command robot, (act command robot).1.blueprint = command.blueprint) (place : Place)
    (command : Command) (robot : Robot) :
    (command.visit act place robot).1.blueprint = command.blueprint := by
  induction place generalizing command robot with
  | nil => exact h command robot
  | cons turn rest ih =>
      rw [visit]
      split
      · rfl
      · next child hchild => exact blueprint_setChild_of_eq hchild (ih child robot)

/-! ## Descriptions -/

theorem name_blueprint (command : Command) : command.blueprint.name = command.name := by
  cases command <;> rfl

theorem kind_blueprint (command : Command) : command.blueprint.kind = command.kind := by
  match command with
  | .leaf _ _ (.action _) | .leaf _ _ (.timed ..) | .leaf _ _ (.convergence ..)
  | .leaf _ _ (.waitUntil _) | .threaded .. | .group .. => rfl

theorem summary_blueprint (command : Command) : command.blueprint.summary = command.summary := by
  match command with
  | .leaf _ _ (.action _) | .leaf _ _ (.timed _ .idle _) | .leaf _ _ (.timed _ (.tank ..) _)
  | .leaf _ _ (.convergence ..) | .leaf _ _ (.waitUntil _) | .threaded .. => rfl
  | .group name phase finished remaining =>
      rw [blueprint_group, summary, summary, List.length_nil, Nat.zero_add, List.length_map,
        List.length_append]

theorem headline_blueprint (depth : Nat) (command : Command) :
    headline depth command.blueprint = headline depth command := by
  rw [headline, headline, name_blueprint, kind_blueprint, summary_blueprint]

theorem describeSteps_append (depth number : Nat) (first second : List (Step Command)) :
    describeSteps depth number (first ++ second) =
      describeSteps depth number first ++ describeSteps depth (number + first.length) second := by
  induction first generalizing number with
  | nil => rw [List.nil_append, describeSteps, String.empty_append, List.length_nil, Nat.add_zero]
  | cons step rest ih =>
      rw [List.cons_append, describeSteps, describeSteps, ih, List.length_cons, Nat.add_assoc,
        Nat.add_comm 1]
      simp only [String.append_assoc]

theorem describeAll_map_blueprint {depth : Nat} {commands : List Command}
    (h : ∀ command ∈ commands,
      describeAt depth command.blueprint = describeAt depth command) :
    describeAll depth (commands.map blueprint) = describeAll depth commands := by
  induction commands with
  | nil => rfl
  | cons command rest ih =>
      rw [List.map_cons, describeAll, describeAll, h command List.mem_cons_self,
        ih fun c hc => h c (List.mem_cons_of_mem _ hc)]

theorem describeSteps_map_blueprint {depth : Nat} (number : Nat) {steps : List (Step Command)}
    (h : ∀ step ∈ steps, ∀ command ∈ step.members,
      describeAt (depth + 1) command.blueprint = describeAt (depth + 1) command) :
    describeSteps depth number (steps.map (Step.map blueprint)) =
      describeSteps depth number steps := by
  induction steps generalizing number with
  | nil => rfl
  | cons step rest ih =>
      obtain ⟨primary, companions, beside⟩ := step
      obtain ⟨hprimary, hcompanions, hbeside⟩ := forall_members_iff.mp (h _ List.mem_cons_self)
      rw [List.map_cons, Step.map, describeSteps, describeSteps, describeStep, describeStep,
        hprimary, describeAll_map_blueprint hcompanions, describeAll_map_blueprint hbeside,
        ih _ fun s hs => h s (List.mem_cons_of_mem _ hs)]

/-- A command is described by its blueprint. -/
theorem describeAt_blueprint (depth : Nat) (command : Command) :
    describeAt depth command.blueprint = describeAt depth command := by
  induction command using childInduction generalizing depth with
  | step command ih =>
  have hline := headline_blueprint depth command
  match command with
  | .leaf name phase work => exact hline
  | .threaded name phase cadence task inner =>
      exact congrArg₂ (· ++ ·) hline (ih .inner inner rfl (depth + 1))
  | .group name phase finished remaining =>
      have hmembers := forall_members_of_child? fun turn member hchild =>
        ih turn member hchild (depth + 1 + 1)
      rw [blueprint_group] at hline ⊢
      rw [describeAt, describeAt, hline, describeSteps_map_blueprint _ hmembers,
        describeSteps_append, describeSteps, String.append_assoc, String.append_assoc,
        String.empty_append, List.length_nil, Nat.zero_add, Nat.add_comm 1]

/-! ## What was only put together -/

theorem blueprint_onWorker (command : Command) (cadence : Duration)
    (h : command.blueprint = command) :
    (command.onWorker cadence).blueprint = command.onWorker cadence := by
  rw [onWorker, blueprint, h]

theorem blueprint_ofSteps (name : String) {steps : List (Step Command)}
    (h : ∀ step ∈ steps, ∀ member ∈ step.members, member.blueprint = member) :
    (ofSteps name steps).blueprint = ofSteps name steps := by
  rw [ofSteps, blueprint_group, List.nil_append,
    map_eq_self fun step hstep => Step.map_eq_self (h step hstep)]

/-- What is put together is its own blueprint. -/
theorem blueprint_of_assembled {command : Command} (h : Assembled command) :
    command.blueprint = command := by
  induction h with
  | action | timed | convergence | waitUntil => rfl
  | threaded name cadence _ ih => exact congrArg (Command.threaded name .notStarted cadence none) ih
  | group name additions _ ih =>
      exact blueprint_ofSteps name
        (forall_members_foldl_addTo blueprint_onWorker (fun _ h => nomatch h) ih)

end Command

namespace Scene

open Command

theorem blueprint_perform (scene : Scene) (occurrence : Occurrence) :
    (scene.perform occurrence).root.blueprint = scene.root.blueprint := by
  match occurrence with
  | .event .poll => exact blueprint_poll scene.root scene.robot
  | .event .abort => exact blueprint_abort scene.root scene.robot
  | .event (.work place) => exact blueprint_visit blueprint_iterateWorker place _ _
  | .event (.change _) => rfl
  | .cancel place => exact blueprint_visit blueprint_cancelWorker place _ _

theorem blueprint_foldl_perform (scene : Scene) (occurrences : List Occurrence) :
    (occurrences.foldl perform scene).root.blueprint = scene.root.blueprint := by
  induction occurrences generalizing scene with
  | nil => rfl
  | cons occurrence rest ih => exact (ih _).trans (blueprint_perform scene occurrence)

/-- A run never alters the structure of the tree it is made with. Whatever tree is polled,
aborted, worked on and told to stop, in whatever order and under whatever conditions, every
place goes on leading to a command with the same blueprint, the description stays the same,
and of a tree that was put together before the run the blueprint is the tree itself. -/
theorem structure_is_kept (scene : Scene) (occurrences : List Occurrence) :
    let after := occurrences.foldl perform scene
    (∀ place, (after.root.at? place).map blueprint = (scene.root.at? place).map blueprint) ∧
      after.root.describe = scene.root.describe ∧
      (Assembled scene.root → after.root.blueprint = scene.root) := by
  intro after
  have hroot : after.root.blueprint = scene.root.blueprint :=
    blueprint_foldl_perform scene occurrences
  refine ⟨fun place => ?_, ?_, fun hassembled => ?_⟩
  · rw [← at?_blueprint, ← at?_blueprint, hroot]
  · rw [describe, describe, ← describeAt_blueprint, hroot, describeAt_blueprint]
  · rw [hroot, blueprint_of_assembled hassembled]

/-- A tank drive on a worker beside a step that comes to its end, and a move in the next step
that fails when its encoder is unplugged: the routine is completed after that, with one of its
steps finished, and can still be read off it. -/
theorem structure_is_kept_unplugged :
    let root : Command := .ofSteps "routine" ([.sequential (.timed "wait" ⟨5⟩ .idle),
      .threaded (.timed "tank" ⟨100⟩ (.tank 1 1)) ⟨20⟩,
      .sequential (.convergence "move" .distance 120 10 3)].foldl Addition.addTo [])
    let robot := Robot.ofParameters {}
    let later : Conditions := ⟨robot.distance.sensor, robot.heading.sensor, ⟨5⟩, none⟩
    let unplugged := { later with
      encoder := { later.encoder with outOfOrder := some "unplugged" } }
    let after := [.event .poll, .event (.work [.member 0 (.beside 0)]), .event (.change later),
      .event .poll, .event (.change unplugged), .event .poll].foldl perform ⟨root, robot⟩
    Assembled root ∧ after.root.phase = .completed ∧ after.root.current = 1 ∧
      after.root.blueprint = root ∧ after.root.describe = root.describe := by
  intro root robot later unplugged after
  have hroot : Assembled root := by
    refine .group _ _ ?_
    simp only [List.forall_mem_cons, List.not_mem_nil, false_imp_iff, implies_true, and_true]
    exact ⟨.timed .., .timed .., .convergence ..⟩
  have hended : after.root.phase = .completed ∧ after.root.current = 1 := by decide +kernel
  obtain ⟨-, hdescribe, hblueprint⟩ := structure_is_kept ⟨root, robot⟩
    [.event .poll, .event (.work [.member 0 (.beside 0)]), .event (.change later),
      .event .poll, .event (.change unplugged), .event .poll]
  exact ⟨hroot, hended.1, hended.2, hblueprint hroot, hdescribe⟩

end Scene

end RobotRoutine

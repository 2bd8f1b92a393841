import RobotRoutine.Proofs.Command.Run

/-!
# Whatever is switched on has a running owner

A controller that is enabled was enabled by a convergence command that follows
it, a drive that was given power was given it by a convergence command or a
timed one, and that command is still running. Several commands may share an
output, and any of them may switch it off under the others; so the statement
is not that who switched it on still runs, but that somebody does who may have.

What goes from move to move is `Move.handsOver`: an output that is active
after a move has an owner then, or it was active before and none of the
commands that moved owned it. The second half is what makes the statement
compose. A child that moves knows nothing of its siblings; if it leaves an
active output without an owner of its own, it did not own it before either,
so whoever owned it stands elsewhere and was not touched.
-/

namespace RobotRoutine

/-- What a routine can leave switched on. -/
inductive Output where
  | distanceController
  | headingController
  | drive
deriving DecidableEq

/-- Whether an output is on: a controller by being enabled, the drive by a last
order other than to stop. -/
def Robot.IsActive (robot : Robot) : Output → Prop
  | .distanceController => robot.distance.controller.enabled = true
  | .headingController => robot.heading.controller.enabled = true
  | .drive => ¬ robot.drive.IsStopped

/-- Both controllers are disabled, and the drive was never used or last told to
stop. -/
structure Robot.IsSafe (robot : Robot) : Prop where
  distance : robot.distance.controller.enabled = false
  heading : robot.heading.controller.enabled = false
  drive : robot.drive.IsStopped

theorem Robot.isSafe_iff {robot : Robot} : robot.IsSafe ↔ ∀ output, ¬ robot.IsActive output := by
  constructor
  · rintro ⟨hdistance, hheading, hdrive⟩ output
    cases output with
    | distanceController => simp [IsActive, hdistance]
    | headingController => simp [IsActive, hheading]
    | drive => exact not_not_intro hdrive
  · intro h
    exact ⟨by simpa [IsActive] using h .distanceController,
      by simpa [IsActive] using h .headingController, Decidable.not_not.mp (h .drive)⟩

/-- Whether a mode enables a controller. -/
def ConvergenceMode.follows : ConvergenceMode → Output → Bool
  | .distance, .distanceController => true
  | .straight, .distanceController | .straight, .headingController => true
  | .turn _, .headingController => true
  | _, _ => false

/-- Whether a leaf answers for an output while it runs: convergence commands
for the controllers of their mode and for the drive, timed ones that put out
power for the drive. -/
def Leaf.owns : Leaf → Output → Bool
  | .convergence .., .drive => true
  | .convergence mode .., output => mode.follows output
  | .timed _ (.tank ..) _, .drive => true
  | _, _ => false

namespace Leaf

variable {work : Leaf} {robot : Robot} {output : Output}

theorem isActive_start (h : (work.start robot).2.IsActive output) :
    robot.IsActive output ∨ (work.start robot).1.owns output = true := by
  cases work with
  | convergence mode target count measured =>
      cases output with
      | drive => exact Or.inr rfl
      | distanceController =>
          cases mode with
          | distance | straight => exact Or.inr rfl
          | turn coefficient => exact Or.inl h
      | headingController =>
          cases mode with
          | distance => exact Or.inl h
          | straight | turn coefficient => exact Or.inr rfl
  | action | timed | waitUntil => exact Or.inl h

theorem isActive_run {work' : Leaf} {robot' : Robot} (hrun : work.run robot = .ok (work', robot'))
    (h : robot'.IsActive output) : robot.IsActive output ∨ work'.owns output = true := by
  cases work with
  | action effect =>
      obtain ⟨rfl, rfl⟩ := Prod.mk.inj (Except.ok.inj hrun)
      cases effect with
      | print words => exact Or.inl h
      | stopDrive =>
          cases output with
          | drive => exact absurd (Or.inr rfl) h
          | distanceController | headingController => exact Or.inl h
      | send mechanism position => cases mechanism <;> exact Or.inl h
  | timed duration out startedAt =>
      cases out with
      | idle =>
          obtain ⟨rfl, rfl⟩ := Prod.mk.inj (Except.ok.inj hrun)
          exact Or.inl h
      | tank left right =>
          obtain ⟨rfl, rfl⟩ := Prod.mk.inj (Except.ok.inj hrun)
          cases output with
          | drive => exact Or.inr rfl
          | distanceController | headingController => exact Or.inl h
  | convergence mode target count measured =>
      rw [run] at hrun
      split at hrun
      · cases hrun
      · obtain ⟨rfl, rfl⟩ := Prod.mk.inj (Except.ok.inj hrun)
        cases output with
        | drive => exact Or.inr rfl
        | distanceController | headingController => cases mode <;> exact Or.inl h
  | waitUntil time =>
      obtain ⟨rfl, rfl⟩ := Prod.mk.inj (Except.ok.inj hrun)
      cases output with
      | drive => exact absurd (Or.inr rfl) h
      | distanceController | headingController => exact Or.inl h

theorem owns_run {work' : Leaf} {robot' : Robot} (hrun : work.run robot = .ok (work', robot'))
    (output : Output) : work'.owns output = work.owns output := by
  cases work with
  | convergence mode target count measured =>
      rw [run] at hrun
      split at hrun
      · cases hrun
      · obtain ⟨rfl, rfl⟩ := Prod.mk.inj (Except.ok.inj hrun)
        cases output <;> rfl
  | timed duration out startedAt =>
      cases out <;> obtain ⟨rfl, rfl⟩ := Prod.mk.inj (Except.ok.inj hrun) <;> rfl
  | action | waitUntil =>
      obtain ⟨rfl, rfl⟩ := Prod.mk.inj (Except.ok.inj hrun)
      rfl

theorem owns_check (work : Leaf) (robot : Robot) (output : Output) :
    (work.check robot).1.owns output = work.owns output := by
  cases work <;> cases output <;> rfl

/-- A leaf that ends switches off whatever it owned. -/
theorem isActive_finish (h : (work.finish robot).IsActive output) :
    robot.IsActive output ∧ work.owns output = false := by
  cases work with
  | timed duration out startedAt =>
      cases out with
      | idle => exact ⟨h, by cases output <;> rfl⟩
      | tank left right =>
          cases output with
          | drive => exact absurd (Or.inr rfl) h
          | distanceController | headingController => exact ⟨h, rfl⟩
  | convergence mode target count measured =>
      cases output with
      | drive => cases mode <;> exact absurd (Or.inr rfl) h
      | distanceController =>
          cases mode with
          | distance | straight => exact absurd h Bool.false_ne_true
          | turn coefficient => exact ⟨h, rfl⟩
      | headingController =>
          cases mode with
          | distance => exact ⟨h, rfl⟩
          | straight | turn coefficient => exact absurd h Bool.false_ne_true
  | action | waitUntil => exact ⟨h, by cases output <;> rfl⟩

end Leaf

namespace Command

/-- Whether a leaf that answers for the output is running somewhere in a tree. -/
def HasOwner (command : Command) (output : Output) : Prop :=
  ∃ place name work, command.at? place = some (.leaf name .running work) ∧ work.owns output = true

theorem hasOwner_iff_child {command : Command} {output : Output}
    (h : ∀ name phase work, command ≠ .leaf name phase work) :
    command.HasOwner output ↔ ∃ turn child, command.child? turn = some child ∧
      child.HasOwner output := by
  constructor
  · rintro ⟨place, name, work, hat, howns⟩
    cases place with
    | nil => exact absurd (Option.some.inj hat) (h name .running work)
    | cons turn rest =>
        obtain ⟨child, hchild, hat⟩ := Option.bind_eq_some_iff.mp hat
        exact ⟨turn, child, hchild, rest, name, work, hat, howns⟩
  · rintro ⟨turn, child, hchild, place, name, work, hat, howns⟩
    exact ⟨turn :: place, name, work, by rw [at?, hchild]; exact hat, howns⟩

theorem hasOwner_leaf {name : String} {phase : Phase} {work : Leaf} {output : Output} :
    (Command.leaf name phase work).HasOwner output ↔
      phase = .running ∧ work.owns output = true := by
  constructor
  · rintro ⟨place, name', work', hat, howns⟩
    cases place with
    | nil =>
        cases Option.some.inj hat
        exact ⟨rfl, howns⟩
    | cons turn rest => exact nomatch hat
  · rintro ⟨rfl, howns⟩
    exact ⟨[], name, work, rfl, howns⟩

theorem ne_leaf_of_child? {command child : Command} {turn : Turn}
    (h : command.child? turn = some child) (name : String) (phase : Phase) (work : Leaf) :
    command ≠ .leaf name phase work := by
  rintro rfl
  exact nomatch h

/-! ## From move to move -/

/-- A move that leaves the children and the robot alone leaves the owners alone. -/
theorem handsOver_of_child?_eq {command command' : Command} {robot : Robot} {output : Output}
    (h : ∀ name phase work, command ≠ .leaf name phase work)
    (h' : ∀ name phase work, command' ≠ .leaf name phase work)
    (hchild : ∀ turn, command'.child? turn = command.child? turn)
    (hactive : robot.IsActive output) :
    command'.HasOwner output ∨ robot.IsActive output ∧ ¬ command.HasOwner output := by
  rw [hasOwner_iff_child h, hasOwner_iff_child h']
  simp only [hchild]
  by_cases howner : ∃ turn child, command.child? turn = some child ∧ child.HasOwner output
  · exact Or.inl howner
  · exact Or.inr ⟨hactive, howner⟩

/-- An output that is active after a move has an owner, or nothing in the
command that moved owned it and it was active before. -/
theorem Move.handsOver {command command' : Command} {robot robot' : Robot} {output : Output}
    (h : Move command robot command' robot') (hactive : robot'.IsActive output) :
    command'.HasOwner output ∨ robot.IsActive output ∧ ¬ command.HasOwner output := by
  induction h with
  | start =>
      rcases Leaf.isActive_start hactive with hbefore | howns
      · exact Or.inr ⟨hbefore, fun howner => nomatch (hasOwner_leaf.mp howner).1⟩
      · exact Or.inl (hasOwner_leaf.mpr ⟨rfl, howns⟩)
  | @run name work work' robot robot' hrun =>
      by_cases howns : work.owns output = true
      · exact Or.inl (hasOwner_leaf.mpr ⟨rfl, by rw [Leaf.owns_run hrun, howns]⟩)
      · rcases Leaf.isActive_run hrun hactive with hbefore | howns'
        · exact Or.inr ⟨hbefore, fun howner => howns (hasOwner_leaf.mp howner).2⟩
        · exact Or.inl (hasOwner_leaf.mpr ⟨rfl, howns'⟩)
  | @check name work robot =>
      by_cases howns : work.owns output = true
      · exact Or.inl (hasOwner_leaf.mpr ⟨rfl, by rw [Leaf.owns_check, howns]⟩)
      · exact Or.inr ⟨hactive, fun howner => howns (hasOwner_leaf.mp howner).2⟩
  | finish =>
      obtain ⟨hbefore, howns⟩ := Leaf.isActive_finish hactive
      refine Or.inr ⟨hbefore, fun howner => ?_⟩
      exact absurd (hasOwner_leaf.mp howner).2 (by rw [howns]; decide)
  | spawn | respawn | note | cancel | leave | enter | close =>
      exact handsOver_of_child?_eq (by simp) (by simp) (fun turn => by cases turn <;> rfl) hactive
  | advance =>
      exact handsOver_of_child?_eq (by simp) (by simp) (child?_advance _ _ _ _) hactive
  | @child command old new turn robot robot' hrunning hold hadmits hmove ih =>
      have hnew : (command.setChild turn new).child? turn = some new :=
        child?_setChild_self new hold
      rcases ih hactive with howner | ⟨hbefore, hnone⟩
      · exact Or.inl ((hasOwner_iff_child (ne_leaf_of_child? hnew)).mpr ⟨turn, new, hnew, howner⟩)
      · by_cases howner : command.HasOwner output
        · -- The owner is not in the child that moved, so it was not touched.
          obtain ⟨other, child, hchild, howner⟩ :=
            (hasOwner_iff_child (ne_leaf_of_child? hold)).mp howner
          have hother : other ≠ turn := by
            rintro rfl
            obtain rfl := Option.some.inj (hchild.symm.trans hold)
            exact hnone howner
          exact Or.inl ((hasOwner_iff_child (ne_leaf_of_child? hnew)).mpr
            ⟨other, child, (child?_setChild_ne hother).trans hchild, howner⟩)
        · exact Or.inr ⟨hbefore, howner⟩

theorem Moves.handsOver {before after : Command × Robot} {output : Output}
    (h : Moves before after) (hactive : after.2.IsActive output) :
    after.1.HasOwner output ∨ before.2.IsActive output ∧ ¬ before.1.HasOwner output := by
  induction h with
  | refl =>
      by_cases howner : before.1.HasOwner output
      · exact Or.inl howner
      · exact Or.inr ⟨hactive, howner⟩
  | tail _ hlast ih =>
      rcases hlast.handsOver hactive with howner | ⟨hmiddle, hnone⟩
      · exact Or.inl howner
      · rcases ih hmiddle with howner | hbefore
        · exact absurd howner hnone
        · exact Or.inr hbefore

end Command

/-! ## Over a whole run -/

namespace Scene

open Command

/-- Whether everything that is switched on has a running owner. -/
def IsOwned (scene : Scene) : Prop :=
  ∀ output, scene.robot.IsActive output → scene.root.HasOwner output

theorem isOwned_step {scene : Scene} (ho : Everywhere Orderly scene.root) (h : scene.IsOwned)
    (event : Event) : (scene.step event).IsOwned := by
  intro output hactive
  rcases step_cases ho event with hmoves | ⟨conditions, hstep⟩
  · rcases hmoves.handsOver hactive with howner | ⟨hbefore, hnone⟩
    · exact howner
    · exact absurd (h output hbefore) hnone
  · rw [hstep] at hactive ⊢
    exact h output (by cases output <;> exact hactive)

theorem isOwned_after {scene : Scene} (ho : Everywhere Orderly scene.root) (h : scene.IsOwned)
    (events : List Event) : (scene.after events).IsOwned := by
  induction events generalizing scene with
  | nil => exact h
  | cons event rest ih => exact ih (orderly_step ho event) (isOwned_step ho h event)

theorem isOwned_of_isSafe {scene : Scene} (h : scene.robot.IsSafe) : scene.IsOwned :=
  fun output hactive => absurd hactive (Robot.isSafe_iff.mp h output)

/-- However a fresh routine is polled, aborted and worked on, an enabled
controller has a running convergence command that follows it, and a drive that
was not told to stop a running command that puts out power. -/
theorem exists_running_owner {root : Command} (hroot : root.IsFresh) {robot : Robot}
    (hrobot : robot.IsSafe) (events : List Event) :
    let scene := (Scene.mk root robot).after events
    ∀ output, scene.robot.IsActive output →
      ∃ place name work, scene.root.at? place = some (.leaf name .running work) ∧
        work.owns output = true :=
  isOwned_after hroot.orderly (isOwned_of_isSafe hrobot) events

/-- A worker that outlives its step: the tank drive beside the first step is
still going while the group waits in the second one. -/
theorem exists_running_owner_beside_finished_step :
    let root : Command := .ofSteps "routine" ([.sequential (.action "report" (.print ["go"])),
      .threaded (.timed "tank" ⟨10⟩ (.tank 1 1)) ⟨20⟩,
      .sequential (.waitUntil "window" ⟨5⟩)].foldl Addition.addTo [])
    let robot := Robot.ofParameters {}
    let scene := (Scene.mk root robot).after [.poll, .work [.member 0 (.beside 0)]]
    (root.IsFresh ∧ robot.IsSafe) ∧ (scene.root.current = 1 ∧ scene.robot.IsActive .drive) ∧
      ∀ output, scene.robot.IsActive output →
        ∃ place name work, scene.root.at? place = some (.leaf name .running work) ∧
          work.owns output = true := by
  intro root robot scene
  have hroot : root.IsFresh := by
    refine Assembled.isFresh (.group _ _ ?_)
    simp only [List.forall_mem_cons, List.not_mem_nil, false_imp_iff, implies_true, and_true]
    exact ⟨.action .., .timed .., .waitUntil ..⟩
  have hrobot : robot.IsSafe := ⟨rfl, rfl, Or.inl rfl⟩
  refine ⟨⟨hroot, hrobot⟩, ⟨rfl, ?_⟩, exists_running_owner hroot hrobot _⟩
  show ¬ scene.robot.drive.IsStopped
  decide +kernel

end Scene

end RobotRoutine

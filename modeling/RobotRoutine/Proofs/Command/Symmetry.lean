import RobotRoutine.Proofs.Command.Schedule
import RobotRoutine.Proofs.Command.Trace

/-!
# Changes that no tree can tell

What a tree makes of a robot it makes of it through the hooks of its leaves. So a
change of the robot, together with one of the leaves that have started, which all
hooks go along with (`Symmetry`) is one that polls, aborts and workers' rounds of
any tree go along with: done to the changed tree and the changed robot they leave
behind what they would have left behind, changed.

A leaf that has yet to start is left as it is, since its start hook sets up what
the leaf has to remember. A fresh tree is therefore its own image (`image_of_isFresh`).
-/

namespace RobotRoutine

/-- A change of robots and of leaves that have started which no hook of a leaf can tell. -/
structure Symmetry where
  leaf : Leaf → Leaf
  robot : Robot → Robot
  start : ∀ (work : Leaf) r, work.start (robot r) = Prod.map leaf robot (work.start r)
  run : ∀ work r, (leaf work).run (robot r) = (work.run r).map (Prod.map leaf robot)
  check : ∀ work r, (leaf work).check (robot r) = Prod.map leaf id (work.check r)
  finish : ∀ work r, (leaf work).finish (robot r) = robot (work.finish r)

namespace Command

mutual

/-- The command with every leaf in it changed that has started. -/
def image (change : Leaf → Leaf) : Command → Command
  | .leaf name phase work => .leaf name phase (if phase = .notStarted then work else change work)
  | .threaded name phase cadence task inner =>
    .threaded name phase cadence task (inner.image change)
  | .group name phase finished remaining =>
    .group name phase (imageSteps change finished) (imageSteps change remaining)

/-- The commands with every leaf in them changed that has started. -/
def imageAll (change : Leaf → Leaf) : List Command → List Command
  | [] => []
  | command :: rest => command.image change :: imageAll change rest

/-- The steps with every leaf in them changed that has started. -/
def imageSteps (change : Leaf → Leaf) : List (Step Command) → List (Step Command)
  | [] => []
  | ⟨primary, companions, beside⟩ :: rest =>
    ⟨primary.image change, imageAll change companions, imageAll change beside⟩
      :: imageSteps change rest

end

section Image

variable (change : Leaf → Leaf)

theorem imageAll_eq (commands : List Command) :
    imageAll change commands = commands.map (image change) := by
  induction commands with
  | nil => rfl
  | cons command rest ih => rw [imageAll, ih, List.map_cons]

theorem imageSteps_eq (steps : List (Step Command)) :
    imageSteps change steps = steps.map (Step.map (image change)) := by
  induction steps with
  | nil => rfl
  | cons step rest ih =>
      rw [imageSteps, ih, imageAll_eq, imageAll_eq, List.map_cons]
      rfl

theorem image_group (name : String) (phase : Phase) (finished remaining : List (Step Command)) :
    (Command.group name phase finished remaining).image change =
      .group name phase (finished.map (Step.map (image change)))
        (remaining.map (Step.map (image change))) := by
  rw [image, imageSteps_eq, imageSteps_eq]

@[simp]
theorem phase_image (command : Command) : (command.image change).phase = command.phase := by
  cases command <;> rfl

@[simp]
theorem isCompleted_image (command : Command) :
    (command.image change).isCompleted = command.isCompleted := by
  rw [isCompleted, isCompleted, phase_image]

@[simp]
theorem isComplete_map_image (step : Step Command) :
    (step.map (image change)).isComplete = step.isComplete := by
  have hall : (step.companions.map (image change)).all isCompleted =
      step.companions.all isCompleted := by
    rw [List.all_map]
    congr 1
    exact funext fun command => isCompleted_image change command
  rw [Step.isComplete, Step.isComplete, Step.blocking, Step.blocking, List.all_cons, List.all_cons]
  exact congr_arg₂ _ (isCompleted_image change step.primary) hall

theorem member?_map {α β : Type} (f : α → β) (step : Step α) (role : Role) :
    (step.map f).member? role = (step.member? role).map f := by
  cases role with
  | primary => rfl
  | companion index | beside index => exact List.getElem?_map ..

theorem child?_image (command : Command) (turn : Turn) :
    (command.image change).child? turn = (command.child? turn).map (image change) := by
  match command, turn with
  | .group name phase finished remaining, .member index role =>
      rw [image_group, child?, child?, ← List.map_append, List.getElem?_map]
      cases (finished ++ remaining)[index]? with
      | none => rfl
      | some step => exact member?_map _ step role
  | .threaded .., .inner | .leaf .., _ | .threaded .., .member .. | .group .., .inner => rfl

theorem map_setMember {α β : Type} (f : α → β) (step : Step α) (role : Role) (member : α) :
    (step.setMember role member).map f = (step.map f).setMember role (f member) := by
  cases role with
  | primary => rfl
  | companion index | beside index => simp [Step.map, Step.setMember, List.map_set]

theorem map_modify_setMember {α β : Type} (f : α → β) (steps : List (Step α)) (index : Nat)
    (role : Role) (member : α) :
    (steps.modify index (·.setMember role member)).map (Step.map f) =
      (steps.map (Step.map f)).modify index (·.setMember role (f member)) := by
  apply List.ext_getElem?
  intro i
  rw [List.getElem?_map, List.getElem?_modify, List.getElem?_modify, List.getElem?_map]
  cases steps[i]? with
  | none => rfl
  | some step =>
      by_cases hi : index = i
      · simp only [hi, if_true, Option.map_eq_map, Option.map_some, map_setMember]
      · simp only [hi, if_false, Option.map_eq_map, Option.map_some]

theorem setChild_image (command child : Command) (turn : Turn) :
    (command.image change).setChild turn (child.image change) =
      (command.setChild turn child).image change := by
  match command, turn with
  | .group name phase finished remaining, .member index role =>
      rw [image_group, setChild, setChild, List.length_map]
      split
      · rw [image_group, map_modify_setMember]
      · rw [image_group, map_modify_setMember]
  | .threaded .., .inner | .leaf .., _ | .threaded .., .member .. | .group .., .inner => rfl

theorem map_eq_self {α : Type} {f : α → α} {list : List α} (h : ∀ a ∈ list, f a = a) :
    list.map f = list :=
  (List.map_congr_left h).trans (List.map_id list)

theorem Step.map_eq_self {f : Command → Command} {step : Step Command}
    (h : ∀ command ∈ step.members, f command = command) : step.map f = step := by
  obtain ⟨primary, companions, beside⟩ := step
  obtain ⟨hprimary, hcompanions, hbeside⟩ := forall_members_iff.mp h
  rw [Step.map, hprimary, Command.map_eq_self hcompanions, Command.map_eq_self hbeside]

/-- A tree in which nothing has started is its own image. -/
theorem image_of_isFresh {command : Command} (h : command.IsFresh) :
    command.image change = command := by
  induction command using childInduction with
  | step command ih =>
  match command with
  | .leaf name phase work =>
      obtain rfl : phase = .notStarted := h.phase
      rfl
  | .threaded name phase cadence task inner =>
      have hinner : (Command.threaded name phase cadence task inner).child? .inner = some inner :=
        rfl
      rw [image, ih .inner inner hinner (h.child hinner)]
  | .group name phase finished remaining =>
      have hmembers : ∀ step ∈ finished ++ remaining, ∀ member ∈ step.members,
          member.image change = member :=
        forall_members_of_child? fun turn member hchild => ih turn member hchild (h.child hchild)
      obtain ⟨hfinished, hremaining⟩ := List.forall_mem_append.mp hmembers
      rw [image_group, map_eq_self fun step hstep => Step.map_eq_self (hfinished step hstep),
        map_eq_self fun step hstep => Step.map_eq_self (hremaining step hstep)]

end Image

variable (symmetry : Symmetry)

/-! ## Aborts -/

/-- Whether an abort of a command goes along with a symmetry. -/
def AbortsAlike (symmetry : Symmetry) (command : Command) : Prop :=
  ∀ robot, (command.image symmetry.leaf).abort (symmetry.robot robot) =
    Prod.map (image symmetry.leaf) symmetry.robot (command.abort robot)

variable {symmetry}

theorem abortAll_image {commands : List Command}
    (h : ∀ command ∈ commands, AbortsAlike symmetry command) (robot : Robot) :
    abortAll (commands.map (image symmetry.leaf)) (symmetry.robot robot) =
      Prod.map (List.map (image symmetry.leaf)) symmetry.robot (abortAll commands robot) := by
  induction commands generalizing robot with
  | nil => rfl
  | cons command rest ih =>
      rw [List.map_cons, abortAll, abortAll, h command List.mem_cons_self]
      simp only [Prod.map_fst, Prod.map_snd]
      rw [ih fun c hc => h c (List.mem_cons_of_mem _ hc)]
      rfl

theorem abortStep_image {step : Step Command}
    (h : ∀ command ∈ step.members, AbortsAlike symmetry command) (robot : Robot) :
    abortStep (step.map (image symmetry.leaf)) (symmetry.robot robot) =
      Prod.map (Step.map (image symmetry.leaf)) symmetry.robot (abortStep step robot) := by
  obtain ⟨primary, companions, beside⟩ := step
  obtain ⟨hprimary, hcompanions, hbeside⟩ := forall_members_iff.mp h
  rw [Step.map, abortStep, abortStep, hprimary]
  simp only [Prod.map_fst, Prod.map_snd]
  rw [abortAll_image hcompanions]
  simp only [Prod.map_fst, Prod.map_snd]
  rw [abortAll_image hbeside]
  rfl

theorem abortSteps_image {steps : List (Step Command)}
    (h : ∀ step ∈ steps, ∀ command ∈ step.members, AbortsAlike symmetry command)
    (robot : Robot) :
    abortSteps (steps.map (Step.map (image symmetry.leaf))) (symmetry.robot robot) =
      Prod.map (List.map (Step.map (image symmetry.leaf))) symmetry.robot
        (abortSteps steps robot) := by
  induction steps generalizing robot with
  | nil => rfl
  | cons step rest ih =>
      rw [List.map_cons, abortSteps, abortSteps, abortStep_image (h step List.mem_cons_self)]
      simp only [Prod.map_fst, Prod.map_snd]
      rw [ih fun s hs => h s (List.mem_cons_of_mem _ hs)]
      rfl

/-- The abort of every tree goes along with a symmetry. -/
theorem abort_image (command : Command) : AbortsAlike symmetry command := by
  induction command using childInduction with
  | step command ih =>
  intro robot
  by_cases hphase : command.phase = .running
  case neg =>
    rw [abort_of_phase_ne_running hphase,
      abort_of_phase_ne_running (by rw [phase_image]; exact hphase)]
    rfl
  match command with
  | .leaf name phase work =>
      obtain rfl : phase = .running := hphase
      exact congrArg _ (symmetry.finish work robot)
  | .threaded name phase cadence none inner =>
      obtain rfl : phase = .running := hphase
      rfl
  | .threaded name phase cadence (some task) inner =>
      obtain rfl : phase = .running := hphase
      rw [image, abort, abort, ih .inner inner rfl]
      split
      · rfl
      · rfl
  | .group name phase finished remaining =>
      obtain rfl : phase = .running := hphase
      have hmembers : ∀ step ∈ finished ++ remaining, ∀ member ∈ step.members,
          AbortsAlike symmetry member := forall_members_of_child? ih
      obtain ⟨hfinished, hremaining⟩ := List.forall_mem_append.mp hmembers
      rw [image_group, abort, abort, abortSteps_image hfinished]
      simp only [Prod.map_fst, Prod.map_snd]
      rw [abortSteps_image hremaining]
      exact congrArg (·, _) (image_group ..).symm

/-! ## Polls -/

/-- The same poll with what it leaves behind changed. -/
def Polled.image {α : Type} (symmetry : Symmetry) (change : α → α) (polled : Polled α) :
    Polled α :=
  ⟨change polled.item, symmetry.robot polled.robot, polled.fault⟩

/-- Whether a poll of a command goes along with a symmetry. -/
def PollsAlike (symmetry : Symmetry) (command : Command) : Prop :=
  ∀ robot, (command.image symmetry.leaf).poll (symmetry.robot robot) =
    (command.poll robot).image symmetry (Command.image symmetry.leaf)

theorem finishIf_image (isDone : Bool) (polled : Polled Command) :
    (polled.image symmetry (Command.image symmetry.leaf)).finishIf isDone =
      (polled.finishIf isDone).image symmetry (Command.image symmetry.leaf) := by
  rw [Polled.finishIf, Polled.finishIf]
  simp only [Polled.image, abort_image polled.item polled.robot]
  split
  · rfl
  · rfl

theorem pollLeaf_image (name : String) (work : Leaf) (robot : Robot) :
    pollLeaf name (symmetry.leaf work) (symmetry.robot robot) =
      (pollLeaf name work robot).image symmetry (Command.image symmetry.leaf) := by
  rw [pollLeaf, pollLeaf, symmetry.run]
  cases work.run robot with
  | error fault => exact finishIf_image _ ⟨.leaf name .running work, robot, _⟩
  | ok after =>
      obtain ⟨work', robot'⟩ := after
      simp only [Except.map, Prod.map_apply, symmetry.check]
      exact finishIf_image _ ⟨.leaf name .running (work'.check robot').1, robot', none⟩

theorem pollThreaded_image (name : String) (cadence : Duration) (task : Task) (inner : Command)
    (robot : Robot) :
    pollThreaded name cadence task (inner.image symmetry.leaf) (symmetry.robot robot) =
      (pollThreaded name cadence task inner robot).image symmetry
        (Command.image symmetry.leaf) := by
  rw [pollThreaded, pollThreaded, isCompleted_image]
  exact finishIf_image _ ⟨.threaded name .running cadence _ inner, robot, task.fault⟩

theorem pollAll_image {commands : List Command}
    (h : ∀ command ∈ commands, PollsAlike symmetry command) (robot : Robot) :
    pollAll (commands.map (Command.image symmetry.leaf)) (symmetry.robot robot) =
      (pollAll commands robot).image symmetry (List.map (Command.image symmetry.leaf)) := by
  induction commands generalizing robot with
  | nil => rfl
  | cons command rest ih =>
      rw [List.map_cons, pollAll, pollAll, h command List.mem_cons_self]
      obtain ⟨item, robot', fault⟩ := command.poll robot
      cases fault with
      | some error => rfl
      | none =>
          simp only [Polled.image]
          rw [ih fun c hc => h c (List.mem_cons_of_mem _ hc)]
          rfl

theorem pollStep_image {step : Step Command}
    (h : ∀ command ∈ step.members, PollsAlike symmetry command) (robot : Robot) :
    pollStep (step.map (Command.image symmetry.leaf)) (symmetry.robot robot) =
      (pollStep step robot).image symmetry (Step.map (Command.image symmetry.leaf)) := by
  obtain ⟨primary, companions, beside⟩ := step
  obtain ⟨hprimary, hcompanions, hbeside⟩ := forall_members_iff.mp h
  rw [Step.map, pollStep, pollStep, hprimary]
  obtain ⟨item, robot', fault⟩ := primary.poll robot
  cases fault with
  | some error => rfl
  | none =>
      simp only [Polled.image]
      rw [pollAll_image hcompanions]
      obtain ⟨item', robot'', fault⟩ := pollAll companions robot'
      cases fault with
      | some error => rfl
      | none =>
          simp only [Polled.image]
          rw [pollAll_image hbeside]
          rfl

theorem pollFinished_image {steps : List (Step Command)}
    (h : ∀ step ∈ steps, ∀ command ∈ step.members, PollsAlike symmetry command)
    (robot : Robot) :
    pollFinished (steps.map (Step.map (Command.image symmetry.leaf))) (symmetry.robot robot) =
      (pollFinished steps robot).image symmetry
        (List.map (Step.map (Command.image symmetry.leaf))) := by
  induction steps generalizing robot with
  | nil => rfl
  | cons step rest ih =>
      obtain ⟨primary, companions, beside⟩ := step
      obtain ⟨-, -, hbeside⟩ := forall_members_iff.mp (h _ List.mem_cons_self)
      rw [List.map_cons, Step.map, pollFinished, pollFinished, pollAll_image hbeside]
      obtain ⟨item, robot', fault⟩ := pollAll beside robot
      cases fault with
      | some error => rfl
      | none =>
          simp only [Polled.image]
          rw [ih fun s hs => h s (List.mem_cons_of_mem _ hs)]
          rfl

/-- Both parts that the steps of a group fall into, changed. -/
def imageParts (change : Leaf → Leaf) :
    List (Step Command) × List (Step Command) → List (Step Command) × List (Step Command) :=
  Prod.map (List.map (Step.map (image change))) (List.map (Step.map (image change)))

theorem runSteps_image {steps : List (Step Command)}
    (h : ∀ step ∈ steps, ∀ command ∈ step.members, PollsAlike symmetry command)
    (robot : Robot) :
    runSteps (steps.map (Step.map (Command.image symmetry.leaf))) (symmetry.robot robot) =
      (runSteps steps robot).image symmetry (imageParts symmetry.leaf) := by
  induction steps generalizing robot with
  | nil => rfl
  | cons step rest ih =>
      rw [List.map_cons, runSteps, runSteps, pollStep_image (h step List.mem_cons_self)]
      obtain ⟨item, robot', fault⟩ := pollStep step robot
      cases fault with
      | some error => rfl
      | none =>
          simp only [Polled.image, isComplete_map_image]
          by_cases hcomplete : item.isComplete = true
          · rw [if_pos hcomplete, if_pos hcomplete, ih fun s hs => h s (List.mem_cons_of_mem _ hs)]
            rfl
          · rw [if_neg hcomplete, if_neg hcomplete]
            rfl

theorem walk_image {finished remaining : List (Step Command)}
    (h : ∀ step ∈ finished ++ remaining, ∀ command ∈ step.members, PollsAlike symmetry command)
    (robot : Robot) :
    walk (finished.map (Step.map (Command.image symmetry.leaf)))
        (remaining.map (Step.map (Command.image symmetry.leaf))) (symmetry.robot robot) =
      (walk finished remaining robot).image symmetry (imageParts symmetry.leaf) := by
  obtain ⟨hfinished, hremaining⟩ := List.forall_mem_append.mp h
  rw [walk, walk, pollFinished_image hfinished]
  obtain ⟨item, robot', fault⟩ := pollFinished finished robot
  cases fault with
  | some error => rfl
  | none =>
      simp only [Polled.image]
      rw [runSteps_image hremaining]
      simp only [Polled.map, Polled.image, imageParts, Prod.map_apply, Prod.map_fst, Prod.map_snd,
        List.map_append]

/-- The poll of every tree goes along with a symmetry. -/
theorem poll_image (command : Command) : PollsAlike symmetry command := by
  induction command using childInduction with
  | step command ih =>
  intro robot
  match command with
  | .leaf name .notStarted work =>
      rw [image, if_pos rfl, poll, poll, symmetry.start]
      exact pollLeaf_image name _ _
  | .leaf name .running work => exact pollLeaf_image name work robot
  | .threaded name .notStarted cadence none inner =>
      exact pollThreaded_image name cadence .started inner robot
  | .threaded name .notStarted cadence (some task) inner =>
      exact finishIf_image _ ⟨.threaded name .running cadence (some task) inner, robot, _⟩
  | .threaded name .running cadence (some task) inner =>
      exact pollThreaded_image name cadence task inner robot
  | .threaded name .running cadence none inner =>
      rw [image, poll, poll, isCompleted_image]
      exact finishIf_image _ ⟨.threaded name .running cadence none inner, robot, none⟩
  | .leaf name .completed work | .threaded name .completed cadence task inner
  | .group name .completed finished remaining => rfl
  | .group name .notStarted finished remaining | .group name .running finished remaining =>
      have hmembers : ∀ step ∈ finished ++ remaining, ∀ member ∈ step.members,
          PollsAlike symmetry member := forall_members_of_child? ih
      rw [image_group, poll_group (by decide), poll_group (by decide), walk_image hmembers,
        ← finishIf_image]
      obtain ⟨⟨done, left⟩, robot', fault⟩ := walk finished remaining robot
      have hplan : Command.image symmetry.leaf (.group name .running done left) =
          .group name .running (done.map (Step.map (Command.image symmetry.leaf)))
            (left.map (Step.map (Command.image symmetry.leaf))) := image_group ..
      simp only [Polled.map, Polled.image, imageParts, Prod.map_apply, hplan, List.isEmpty_map]

/-! ## Rounds of workers -/

theorem iterateWorker_image (command : Command) (robot : Robot) :
    (command.image symmetry.leaf).iterateWorker (symmetry.robot robot) =
      Prod.map (image symmetry.leaf) symmetry.robot (command.iterateWorker robot) := by
  match command with
  | .leaf .. | .threaded _ _ _ none _ | .group .. => rfl
  | .threaded name phase cadence (some task) inner =>
      rw [image, iterateWorker, iterateWorker, Worker.iterate, Worker.iterate]
      by_cases hcancelled : task.cancelled = true
      · rw [if_pos hcancelled, if_pos hcancelled]
        rfl
      · rw [if_neg hcancelled, if_neg hcancelled]
        simp only [poll_image inner robot]
        rfl

theorem visit_iterateWorker_image (symmetry : Symmetry) (command : Command) (place : Place)
    (robot : Robot) :
    (command.image symmetry.leaf).visit iterateWorker place (symmetry.robot robot) =
      Prod.map (image symmetry.leaf) symmetry.robot (command.visit iterateWorker place robot) := by
  induction place generalizing command robot with
  | nil => exact iterateWorker_image command robot
  | cons turn rest ih =>
      rw [visit, visit, child?_image]
      cases command.child? turn with
      | none => rfl
      | some child =>
          simp only [Option.map_some, ih child robot, Prod.map_fst, Prod.map_snd, setChild_image]
          rfl

/-! ## Letting go -/

/-- Whether letting go of a command goes along with a symmetry. -/
def ReleasesAlike (symmetry : Symmetry) (command : Command) : Prop :=
  ∀ robot, (command.image symmetry.leaf).release (symmetry.robot robot) =
    Prod.map (image symmetry.leaf) symmetry.robot (command.release robot)

theorem releaseAll_image {commands : List Command}
    (h : ∀ command ∈ commands, ReleasesAlike symmetry command) (robot : Robot) :
    releaseAll (commands.map (image symmetry.leaf)) (symmetry.robot robot) =
      Prod.map (List.map (image symmetry.leaf)) symmetry.robot (releaseAll commands robot) := by
  induction commands generalizing robot with
  | nil => rfl
  | cons command rest ih =>
      rw [List.map_cons, releaseAll, releaseAll, h command List.mem_cons_self]
      simp only [Prod.map_fst, Prod.map_snd]
      rw [ih fun c hc => h c (List.mem_cons_of_mem _ hc)]
      rfl

theorem releaseStep_image {step : Step Command}
    (h : ∀ command ∈ step.members, ReleasesAlike symmetry command) (robot : Robot) :
    releaseStep (step.map (image symmetry.leaf)) (symmetry.robot robot) =
      Prod.map (Step.map (image symmetry.leaf)) symmetry.robot (releaseStep step robot) := by
  obtain ⟨primary, companions, beside⟩ := step
  obtain ⟨hprimary, hcompanions, hbeside⟩ := forall_members_iff.mp h
  rw [Step.map, releaseStep, releaseStep, hprimary]
  simp only [Prod.map_fst, Prod.map_snd]
  rw [releaseAll_image hcompanions]
  simp only [Prod.map_fst, Prod.map_snd]
  rw [releaseAll_image hbeside]
  rfl

theorem releaseSteps_image {steps : List (Step Command)}
    (h : ∀ step ∈ steps, ∀ command ∈ step.members, ReleasesAlike symmetry command)
    (robot : Robot) :
    releaseSteps (steps.map (Step.map (image symmetry.leaf))) (symmetry.robot robot) =
      Prod.map (List.map (Step.map (image symmetry.leaf))) symmetry.robot
        (releaseSteps steps robot) := by
  induction steps generalizing robot with
  | nil => rfl
  | cons step rest ih =>
      rw [List.map_cons, releaseSteps, releaseSteps, releaseStep_image (h step List.mem_cons_self)]
      simp only [Prod.map_fst, Prod.map_snd]
      rw [ih fun s hs => h s (List.mem_cons_of_mem _ hs)]
      rfl

theorem release_image (command : Command) : ReleasesAlike symmetry command := by
  induction command using childInduction with
  | step command ih =>
  intro robot
  match command with
  | .leaf .. | .threaded _ _ _ none _ => rfl
  | .threaded name phase cadence (some task) inner =>
      rw [image, release, release, ih .inner inner rfl]
      simp only [Prod.map_fst, Prod.map_snd, Worker.cancel]
      by_cases hcancelled : task.cancelled = true
      · rw [if_pos hcancelled, if_pos hcancelled]
        rfl
      · rw [if_neg hcancelled, if_neg hcancelled, abort_image]
        rfl
  | .group name phase finished remaining =>
      have hmembers : ∀ step ∈ finished ++ remaining, ∀ member ∈ step.members,
          ReleasesAlike symmetry member := forall_members_of_child? ih
      obtain ⟨hfinished, hremaining⟩ := List.forall_mem_append.mp hmembers
      rw [image_group, release, release, releaseSteps_image hfinished]
      simp only [Prod.map_fst, Prod.map_snd]
      rw [releaseSteps_image hremaining]
      exact congrArg (·, _) (image_group ..).symm

end Command

end RobotRoutine

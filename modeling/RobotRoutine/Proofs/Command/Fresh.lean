import RobotRoutine.Proofs.Command.Place

/-!
# Trees that nothing has happened to, and trees that nothing will happen to

A fresh tree is one in which every command has yet to start. It is what the
constructors of commands and the three ways of adding to a group make, which
is `Assembled.isFresh`. A quiet tree is one in which nothing runs and every
worker was told to stop. A fresh tree is quiet, and a worker's round in a quiet
tree changes nothing.
-/

namespace RobotRoutine

namespace Command

/-! ## Fresh trees -/

/-- Whether a command has yet to start, has no worker and no finished step. -/
structure IsNew (command : Command) : Prop where
  phase : command.phase = .notStarted
  task? : command.task? = none
  current : command.current = 0

/-- Whether nothing has happened to a command and to everything below it. -/
def IsFresh : Command → Prop :=
  Everywhere IsNew

theorem IsFresh.phase {command : Command} (h : command.IsFresh) : command.phase = .notStarted :=
  (Everywhere.self h).phase

/-- One of the three ways to add a command to a group. -/
inductive Addition where
  | sequential (command : Command)
  | concurrent (command : Command)
  | threaded (command : Command) (cadence : Duration)

/-- The command that is added, without a wrapper. -/
def Addition.command : Addition → Command
  | .sequential command | .concurrent command | .threaded command _ => command

/-- The steps with one more command added. -/
def Addition.addTo (steps : Steps) : Addition → Steps
  | .sequential command => steps.appendSequential command
  | .concurrent command => steps.appendConcurrent command
  | .threaded command cadence => steps.appendThreaded command cadence

/-- Put together with the constructors of commands and by adding to groups. -/
inductive Assembled : Command → Prop
  | action (name : String) (effect : Effect) : Assembled (.action name effect)
  | timed (name : String) (duration : Duration) (output : TimedOutput) :
      Assembled (.timed name duration output)
  | convergence (name : String) (mode : ConvergenceMode) (target tolerance : Float)
      (required : UInt32) : Assembled (.convergence name mode target tolerance required)
  | waitUntil (name : String) (time : Duration) : Assembled (.waitUntil name time)
  /-- A wrapper commonly has the name of what is inside, but may have another. -/
  | threaded (name : String) (cadence : Duration) {inner : Command} (h : Assembled inner) :
      Assembled (.threaded name .notStarted cadence none inner)
  | group (name : String) (additions : List Addition)
      (h : ∀ addition ∈ additions, Assembled addition.command) :
      Assembled (.ofSteps name (additions.foldl Addition.addTo []))

theorem isFresh_leaf (name : String) (work : Leaf) : (Command.leaf name .notStarted work).IsFresh :=
  everywhere_iff.mpr ⟨⟨rfl, rfl, rfl⟩, fun _ _ h => by simp [child?] at h⟩

theorem isFresh_threaded (name : String) (cadence : Duration) {inner : Command}
    (h : inner.IsFresh) : (Command.threaded name .notStarted cadence none inner).IsFresh := by
  refine everywhere_iff.mpr ⟨⟨rfl, rfl, rfl⟩, fun turn child hchild => ?_⟩
  match turn with
  | .inner =>
      obtain rfl := Option.some.inj hchild
      exact h
  | .member .. => simp [child?] at hchild

theorem isFresh_ofSteps (name : String) {steps : List (Step Command)}
    (h : ∀ step ∈ steps, ∀ member ∈ step.members, member.IsFresh) :
    (Command.ofSteps name steps).IsFresh := by
  refine everywhere_iff.mpr ⟨⟨rfl, rfl, rfl⟩, fun turn child hchild => ?_⟩
  obtain ⟨step, hstep, hmember⟩ := mem_of_child? hchild
  exact h step hstep child hmember

theorem mem_members_join {step : Step Command} {command member : Command}
    (h : member ∈ (step.join command).members) : member ∈ step.members ∨ member = command := by
  rw [Step.join] at h
  split at h
  · rcases List.mem_cons.mp h with rfl | h
    · exact Or.inl List.mem_cons_self
    · simp only [Step.members, List.mem_cons, List.mem_append, List.not_mem_nil] at h ⊢
      grind
  · rcases List.mem_cons.mp h with rfl | h
    · exact Or.inl List.mem_cons_self
    · simp only [Step.members, List.mem_cons, List.mem_append, List.not_mem_nil] at h ⊢
      grind

theorem forall_members_appendSequential {property : Command → Prop} {steps : Steps}
    {command : Command} (hsteps : ∀ step ∈ steps, ∀ member ∈ step.members, property member)
    (h : property command) :
    ∀ step ∈ steps.appendSequential command, ∀ member ∈ step.members, property member := by
  intro step hstep member hmember
  rcases List.mem_append.mp hstep with hstep | hstep
  · exact hsteps step hstep member hmember
  · obtain rfl := List.mem_singleton.mp hstep
    obtain rfl := List.mem_singleton.mp hmember
    exact h

theorem forall_members_appendConcurrent {property : Command → Prop} {steps : Steps}
    {command : Command} (hsteps : ∀ step ∈ steps, ∀ member ∈ step.members, property member)
    (h : property command) :
    ∀ step ∈ steps.appendConcurrent command, ∀ member ∈ step.members, property member := by
  fun_induction Steps.appendConcurrent steps command with
  | case1 command =>
      simp only [List.mem_singleton, forall_eq]
      intro member hmember
      obtain rfl := List.mem_singleton.mp hmember
      exact h
  | case2 step command =>
      simp only [List.mem_singleton, forall_eq]
      intro member hmember
      rcases mem_members_join hmember with hmember | rfl
      · exact hsteps step List.mem_cons_self member hmember
      · exact h
  | case3 step rest command hrest ih =>
      intro s hs
      rcases List.mem_cons.mp hs with rfl | hs
      · exact hsteps _ List.mem_cons_self
      · exact ih (fun s hs => hsteps s (List.mem_cons_of_mem _ hs)) h s hs

/-- What holds of all that is added to steps, and of wrappers of what it holds of, holds of
the members of the steps. -/
theorem forall_members_foldl_addTo {property : Command → Prop}
    (honWorker : ∀ command cadence, property command → property (command.onWorker cadence))
    {additions : List Addition} {steps : Steps}
    (hsteps : ∀ step ∈ steps, ∀ member ∈ step.members, property member)
    (h : ∀ addition ∈ additions, property addition.command) :
    ∀ step ∈ additions.foldl Addition.addTo steps, ∀ member ∈ step.members, property member := by
  induction additions generalizing steps with
  | nil => exact hsteps
  | cons addition rest ih =>
      refine ih ?_ fun a ha => h a (List.mem_cons_of_mem _ ha)
      have hnew := h addition List.mem_cons_self
      match addition with
      | .sequential command => exact forall_members_appendSequential hsteps hnew
      | .concurrent command => exact forall_members_appendConcurrent hsteps hnew
      | .threaded command cadence =>
          exact forall_members_appendConcurrent hsteps (honWorker command cadence hnew)

/-- What is put together has not been started. -/
theorem Assembled.isFresh {command : Command} (h : Assembled command) : command.IsFresh := by
  induction h with
  | action | timed | convergence | waitUntil => exact isFresh_leaf _ _
  | threaded name cadence _ ih => exact isFresh_threaded name cadence ih
  | group name additions _ ih =>
      exact isFresh_ofSteps name (forall_members_foldl_addTo
        (fun _ cadence => isFresh_threaded _ cadence) (fun _ h => nomatch h) ih)

/-! ## Quiet trees -/

/-- Whether a command is not running and its worker, if any, was told to stop. -/
structure IsIdle (command : Command) : Prop where
  phase : command.phase ≠ .running
  cancelled : ∀ task ∈ command.task?, task.cancelled = true

/-- Whether nothing runs in a command or below it. -/
def IsQuiet : Command → Prop :=
  Everywhere IsIdle

theorem IsFresh.isQuiet {command : Command} (h : command.IsFresh) : command.IsQuiet := by
  intro place part hpart
  obtain ⟨hphase, htask, -⟩ := h place part hpart
  exact ⟨by rw [hphase]; decide, by simp [htask]⟩

/-- A worker that was told to stop does nothing. -/
theorem visit_iterateWorker_of_isQuiet {command : Command} (h : command.IsQuiet) (place : Place)
    (robot : Robot) : command.visit iterateWorker place robot = (command, robot) := by
  induction place generalizing command robot with
  | nil =>
      match command, h.self.cancelled with
      | .threaded name phase cadence (some task) inner, hcancelled =>
          rw [visit, iterateWorker, Worker.iterate, if_pos (hcancelled task rfl)]
      | .leaf .., _ | .threaded _ _ _ none _, _ | .group .., _ => rfl
  | cons turn rest ih =>
      rw [visit]
      split
      · rfl
      · next child hchild => rw [ih (h.child hchild)]; simp only [setChild_self hchild]

end Command

end RobotRoutine

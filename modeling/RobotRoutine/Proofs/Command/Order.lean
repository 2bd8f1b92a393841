import RobotRoutine.Proofs.Command.Fresh
import RobotRoutine.Proofs.Command.Walk

/-!
# What every move keeps

`Orderly` says of one command how its phase, its worker and its steps go
together with the commands directly below it; a tree is in order when this
holds everywhere. A fresh tree is in order and every move keeps it so
(`Move.orderly`), which is the one induction over moves that the statements on
schedules and on safe stops rest on.

Two things are read off it. A command of an orderly tree that is not running
is quiet all the way down (`isQuiet_of_orderly`). And a worker's round, which
may happen anywhere in the tree, is made of moves (`iterateWorker_moves`):
where a wrapper or a group on the way does not let its child move, the child
is quiet and the round does nothing.
-/

namespace RobotRoutine

namespace Command

/-- How a command's phase, worker and steps go together with what is directly
below it. -/
structure Orderly (command : Command) : Prop where
  /-- Nothing happens below a command that has yet to start. -/
  fresh : command.phase = .notStarted → command.IsFresh
  /-- A wrapper that runs has a worker that was not told to stop. -/
  working : command.phase = .running → command.isThreaded = true →
    ∃ task, command.task? = some task ∧ task.cancelled = false
  /-- A wrapper that is completed has told its worker to stop. -/
  released : command.phase = .completed → ∀ task ∈ command.task?, task.cancelled = true
  /-- Nothing runs directly below a command that is completed. -/
  settled : command.phase = .completed →
    ∀ turn child, command.child? turn = some child → child.phase ≠ .running
  /-- What the finished steps waited for is completed. -/
  finished : ∀ step role child, step < command.current → role.isBlocking = true →
    command.child? (.member step role) = some child → child.phase = .completed
  /-- The steps after the current one have not been touched. -/
  ahead : ∀ step role child, command.current < step →
    command.child? (.member step role) = some child → child.IsFresh

theorem IsFresh.orderly {command : Command} (h : command.IsFresh) :
    Everywhere Orderly command := by
  intro place part hpart
  have hpart : part.IsFresh := fun place' part' hpart' =>
    h (place ++ place') part' (by rw [at?_append, hpart]; exact hpart')
  exact
    { fresh := fun _ => hpart
      working := fun hphase => absurd hphase (by rw [hpart.phase]; decide)
      released := fun hphase => absurd hphase (by rw [hpart.phase]; decide)
      settled := fun hphase => absurd hphase (by rw [hpart.phase]; decide)
      finished := fun step role child hstep => absurd hstep (by rw [hpart.self.current]; omega)
      ahead := fun step role child _ hchild => hpart.child hchild }

/-! ## Every move keeps a tree in order -/

theorem orderly_leaf (name : String) {phase : Phase} (work : Leaf) (h : phase ≠ .notStarted) :
    Orderly (.leaf name phase work) where
  fresh hphase := absurd hphase h
  working _ hthreaded := absurd hthreaded Bool.false_ne_true
  released _ _ htask := nomatch htask
  settled _ _ _ hchild := by simp [child?] at hchild
  finished _ _ _ hstep := absurd hstep (Nat.not_lt_zero _)
  ahead _ _ _ _ hchild := by simp [child?] at hchild

theorem orderly_running {name : String} {cadence : Duration} {task : Task} {inner : Command}
    (h : task.cancelled = false) :
    Orderly (.threaded name .running cadence (some task) inner) where
  fresh hphase := nomatch hphase
  working _ _ := ⟨task, rfl, h⟩
  released hphase := nomatch hphase
  settled hphase := nomatch hphase
  finished _ _ _ hstep := absurd hstep (Nat.not_lt_zero _)
  ahead _ _ _ _ hchild := by simp [child?] at hchild

theorem orderly_cancelled {name : String} {cadence : Duration} {task : Task} {inner : Command}
    (hcancelled : task.cancelled = true) (hinner : inner.phase ≠ .running) :
    Orderly (.threaded name .completed cadence (some task) inner) where
  fresh hphase := nomatch hphase
  working hphase := nomatch hphase
  released _ t ht := by
    obtain rfl := Option.some.inj ht
    exact hcancelled
  settled _ turn child hchild := by
    match turn with
    | .inner =>
        obtain rfl := Option.some.inj hchild
        exact hinner
    | .member .. => simp [child?] at hchild
  finished _ _ _ hstep := absurd hstep (Nat.not_lt_zero _)
  ahead _ _ _ _ hchild := by simp [child?] at hchild

theorem Orderly.enter {name : String} {finished remaining : List (Step Command)}
    (h : Orderly (.group name .notStarted finished remaining)) :
    Orderly (.group name .running finished remaining) where
  fresh hphase := nomatch hphase
  working _ hthreaded := absurd hthreaded Bool.false_ne_true
  released hphase := nomatch hphase
  settled hphase := nomatch hphase
  finished := h.finished
  ahead := h.ahead

theorem child?_advance (name : String) (finished rest : List (Step Command))
    (step : Step Command) (turn : Turn) :
    (Command.group name .running (finished ++ [step]) rest).child? turn =
      (Command.group name .running finished (step :: rest)).child? turn := by
  cases turn with
  | inner => rfl
  | member index role => rw [child?, child?, List.append_assoc, List.singleton_append]

theorem Orderly.advance {name : String} {finished rest : List (Step Command)}
    {step : Step Command} (h : Orderly (.group name .running finished (step :: rest)))
    (hcomplete : step.isComplete = true) :
    Orderly (.group name .running (finished ++ [step]) rest) where
  fresh hphase := nomatch hphase
  working _ hthreaded := absurd hthreaded Bool.false_ne_true
  released hphase := nomatch hphase
  settled hphase := nomatch hphase
  finished index role child hindex hrole hchild := by
    rw [child?_advance] at hchild
    rw [current, List.length_append, List.length_singleton] at hindex
    rcases Nat.lt_succ_iff_lt_or_eq.mp hindex with hlt | rfl
    · exact h.finished index role child hlt hrole hchild
    · -- The step that was just found complete.
      rw [child?, List.getElem?_append_right (Nat.le_refl _), Nat.sub_self] at hchild
      have hmember : child ∈ step.blocking := Step.mem_blocking_iff.mpr ⟨role, hrole, hchild⟩
      rw [Step.isComplete, List.all_eq_true] at hcomplete
      simpa [isCompleted] using hcomplete child hmember
  ahead index role child hindex hchild := by
    rw [child?_advance] at hchild
    rw [current, List.length_append, List.length_singleton] at hindex
    exact h.ahead index role child (Nat.lt_of_succ_lt hindex) hchild

theorem Orderly.close {name : String} {finished remaining : List (Step Command)}
    (h : Orderly (.group name .running finished remaining))
    (hsettled : ∀ turn child,
      (Command.group name .running finished remaining).child? turn = some child →
        child.phase ≠ .running) :
    Orderly (.group name .completed finished remaining) where
  fresh hphase := nomatch hphase
  working hphase := nomatch hphase
  released _ _ htask := nomatch htask
  settled _ turn child hchild := hsettled turn child (by cases turn <;> exact hchild)
  finished := h.finished
  ahead := h.ahead

/-- A parent stays in order when one of its children moves: a completed child
does not, and one that lies ahead may not. -/
theorem Orderly.setChild {command old new : Command} {turn : Turn} {robot robot' : Robot}
    (h : Orderly command) (hrunning : command.phase = .running)
    (hold : command.child? turn = some old) (hadmits : command.Admits turn old)
    (hmove : Move old robot new robot') : Orderly (command.setChild turn new) where
  fresh hphase := absurd hphase (by rw [phase_setChild, hrunning]; decide)
  working _ hthreaded := by
    rw [task?_setChild]
    exact h.working hrunning (by rwa [isThreaded_setChild] at hthreaded)
  released hphase := absurd hphase (by rw [phase_setChild, hrunning]; decide)
  settled hphase := absurd hphase (by rw [phase_setChild, hrunning]; decide)
  finished step role child hstep hrole hchild := by
    rw [current_setChild] at hstep
    by_cases hturn : .member step role = turn
    · subst hturn
      exact absurd (h.finished step role old hstep hrole hold) hmove.phase_ne_completed
    · rw [child?_setChild_ne hturn] at hchild
      exact h.finished step role child hstep hrole hchild
  ahead step role child hstep hchild := by
    rw [current_setChild] at hstep
    by_cases hturn : .member step role = turn
    · subst hturn
      have hfresh := h.ahead step role old hstep hold
      rcases admits_member hadmits with hle | hstarted
      · exact absurd hstep (Nat.not_lt.mpr hle)
      · exact absurd hfresh.phase hstarted
    · rw [child?_setChild_ne hturn] at hchild
      exact h.ahead step role child hstep hchild

theorem Everywhere.of_child?_eq {property : Command → Prop} {command command' : Command}
    (h : Everywhere property command)
    (hchild : ∀ turn, command'.child? turn = command.child? turn) (hself : property command') :
    Everywhere property command' :=
  everywhere_iff.mpr ⟨hself, fun turn _ hturn => h.child ((hchild turn).symm.trans hturn)⟩

/-- Every move keeps a tree in order. -/
theorem Move.orderly {command command' : Command} {robot robot' : Robot}
    (h : Move command robot command' robot') (ho : Everywhere Orderly command) :
    Everywhere Orderly command' := by
  induction h with
  | start | run | check | finish =>
      exact ho.of_child?_eq (fun _ => rfl) (orderly_leaf _ _ (by decide))
  | spawn =>
      exact ho.of_child?_eq (fun turn => by cases turn <;> rfl) (orderly_running rfl)
  | respawn =>
      have htask := (ho.self.fresh rfl).self.task?
      exact nomatch htask
  | note =>
      obtain ⟨_, htask, hcancelled⟩ := ho.self.working rfl rfl
      obtain rfl := Option.some.inj htask
      exact ho.of_child?_eq (fun turn => by cases turn <;> rfl) (orderly_running hcancelled)
  | cancel hinner =>
      exact ho.of_child?_eq (fun turn => by cases turn <;> rfl) (orderly_cancelled rfl hinner)
  | leave hall =>
      obtain ⟨task, htask, hcancelled⟩ := ho.self.working rfl rfl
      exact absurd (hall task htask) (by rw [hcancelled]; decide)
  | enter =>
      exact ho.of_child?_eq (fun turn => by cases turn <;> rfl) ho.self.enter
  | advance hcomplete =>
      exact ho.of_child?_eq (child?_advance _ _ _ _) (ho.self.advance hcomplete)
  | close hsettled =>
      exact ho.of_child?_eq (fun turn => by cases turn <;> rfl) (ho.self.close hsettled)
  | child hrunning hold hadmits hmove ih =>
      exact ho.setChild (ih (ho.child hold)) (ho.self.setChild hrunning hold hadmits hmove)

theorem Moves.orderly {before after : Command × Robot} (h : Moves before after)
    (ho : Everywhere Orderly before.1) : Everywhere Orderly after.1 := by
  induction h with
  | refl => exact ho
  | tail _ hlast ih => exact hlast.orderly ih

/-! ## Quiet commands and workers' rounds -/

/-- In a tree that is in order, what is not running is quiet. -/
theorem isQuiet_of_orderly {command : Command} (ho : Everywhere Orderly command)
    (h : command.phase ≠ .running) : command.IsQuiet := by
  induction command using childInduction with
  | step command ih =>
  cases hphase : command.phase with
  | notStarted => exact (ho.self.fresh hphase).isQuiet
  | running => exact absurd hphase h
  | completed =>
      refine everywhere_iff.mpr ⟨⟨h, ho.self.released hphase⟩, fun turn child hchild => ?_⟩
      exact ih turn child hchild (ho.child hchild) (ho.self.settled hphase turn child hchild)

/-- A running command of an orderly tree lets a child move unless the child is
fresh. -/
theorem admits_or_isFresh {command child : Command} {turn : Turn} (ho : Orderly command)
    (hrunning : command.phase = .running) (hchild : command.child? turn = some child) :
    command.Admits turn child ∨ child.IsFresh := by
  match command, turn with
  | .threaded name phase cadence task inner, .inner =>
      obtain ⟨_, htask, hcancelled⟩ := ho.working hrunning rfl
      obtain rfl : task = some _ := htask
      exact Or.inl hcancelled
  | .group name phase finished remaining, .member step role =>
      rcases Nat.lt_or_ge finished.length step with hlt | hge
      · exact Or.inr (ho.ahead step role child hlt hchild)
      · exact Or.inl (Or.inl hge)
  | .leaf .., _ | .threaded .., .member .. | .group .., .inner => simp [child?] at hchild

/-- A round of a worker anywhere in an orderly tree is made of moves. -/
theorem iterateWorker_moves {command : Command} (ho : Everywhere Orderly command)
    (place : Place) (robot : Robot) :
    Moves (command, robot) (command.visit iterateWorker place robot) := by
  by_cases hrunning : command.phase = .running
  case neg => rw [visit_iterateWorker_of_isQuiet (isQuiet_of_orderly ho hrunning)]
  induction place generalizing command robot with
  | nil =>
      match command, hrunning with
      | .leaf .., _ | .threaded _ _ _ none _, _ | .group .., _ => exact .refl
      | .threaded name .running cadence (some task) inner, _ =>
          obtain ⟨_, htask, hcancelled⟩ := ho.self.working rfl rfl
          obtain rfl := Option.some.inj htask
          rw [visit, iterateWorker, Worker.iterate, if_neg (by rw [hcancelled]; decide)]
          have hold : (Command.threaded name .running cadence (some task) inner).child? .inner =
            some inner := rfl
          have hinner := Moves.child rfl hold hcancelled (poll_moves inner robot)
          exact hinner.trans (Move.note _).moves
  | cons turn rest ih =>
      rw [visit]
      split
      · exact .refl
      · next child hchild =>
          by_cases hphase : child.phase = .running
          · have hadmits := (admits_or_isFresh ho.self hrunning hchild).resolve_right
              fun hfresh => absurd hfresh.phase (by rw [hphase]; decide)
            exact Moves.child hrunning hchild hadmits (ih (ho.child hchild) robot hphase)
          · have hquiet := isQuiet_of_orderly (ho.child hchild) hphase
            rw [visit_iterateWorker_of_isQuiet hquiet]
            simp only [setChild_self hchild]
            exact .refl

end Command

end RobotRoutine

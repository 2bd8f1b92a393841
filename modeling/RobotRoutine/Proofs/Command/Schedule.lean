import RobotRoutine.Proofs.Command.Evolution
import RobotRoutine.Proofs.Command.Hooks

/-!
# Groups keep their schedule

A group takes its steps in order. Between two events the steps before the
current one have what they waited for completed, the steps after it have not
been touched, and a group that runs waits for something in the current one.

`Orderly` has the first two, and every move keeps them. The third is not kept
by every move: a poll that completes the last blocking member of a step passes
through a state in which the group has not advanced yet, and it may pass
through several of these on its way from step to step. `IsBusy` therefore
speaks of whole polls, and `busy_poll` is an induction over the tree in which
the only thing to see is where a run of steps stops (`runSteps_left`). All
other ways for a poll to come back with a running group are excluded by
`Polled.finishIf`: an error and a finished group both end in an abort.
-/

namespace RobotRoutine

namespace Command

/-! ## What a walk of polls does to every member

A walk polls some of the members it comes across and leaves the others alone,
so a property of commands that a poll keeps is kept for all of them. -/

/-- Whether a property holds of a command, polled once or not at all. -/
def HoldsPolled (property : Command → Prop) (command : Command) : Prop :=
  property command ∧ ∀ robot, property (command.poll robot).item

section Walks

variable {property : Command → Prop}

theorem forall_mem_pollAll {commands : List Command}
    (h : ∀ command ∈ commands, HoldsPolled property command) (robot : Robot) :
    ∀ command ∈ (pollAll commands robot).item, property command := by
  induction commands generalizing robot with
  | nil => exact fun _ hmem => nomatch hmem
  | cons command rest ih =>
      have hfirst := (h command List.mem_cons_self).2 robot
      have hrest := fun c hc => h c (List.mem_cons_of_mem _ hc)
      rw [pollAll]
      cases (command.poll robot).fault with
      | some fault => exact List.forall_mem_cons.mpr ⟨hfirst, fun c hc => (hrest c hc).1⟩
      | none => exact List.forall_mem_cons.mpr ⟨hfirst, ih hrest _⟩

theorem forall_members_iff {step : Step Command} :
    (∀ member ∈ step.members, property member) ↔
      property step.primary ∧ (∀ member ∈ step.companions, property member) ∧
        ∀ member ∈ step.threaded, property member := by
  rw [Step.members, List.forall_mem_cons, List.forall_mem_append]

theorem forall_members_pollStep {step : Step Command}
    (h : ∀ member ∈ step.members, HoldsPolled property member) (robot : Robot) :
    ∀ member ∈ (pollStep step robot).item.members, property member := by
  obtain ⟨primary, companions, beside⟩ := step
  obtain ⟨hprimary, hcompanions, hbeside⟩ := forall_members_iff.mp h
  rw [pollStep, forall_members_iff]
  cases (primary.poll robot).fault with
  | some fault =>
      exact ⟨hprimary.2 robot, fun c hc => (hcompanions c hc).1, fun c hc => (hbeside c hc).1⟩
  | none =>
      have hpolled := forall_mem_pollAll hcompanions (primary.poll robot).robot
      simp only
      cases (pollAll companions (primary.poll robot).robot).fault with
      | some fault => exact ⟨hprimary.2 robot, hpolled, fun c hc => (hbeside c hc).1⟩
      | none => exact ⟨hprimary.2 robot, hpolled, forall_mem_pollAll hbeside _⟩

theorem forall_members_pollFinished {steps : List (Step Command)}
    (h : ∀ step ∈ steps, ∀ member ∈ step.members, HoldsPolled property member) (robot : Robot) :
    ∀ step ∈ (pollFinished steps robot).item, ∀ member ∈ step.members, property member := by
  induction steps generalizing robot with
  | nil => exact fun _ hmem => nomatch hmem
  | cons step rest ih =>
      obtain ⟨primary, companions, beside⟩ := step
      obtain ⟨hprimary, hcompanions, hbeside⟩ :=
        forall_members_iff.mp (h _ List.mem_cons_self)
      have hrest := fun s hs => h s (List.mem_cons_of_mem _ hs)
      have hfirst : ∀ member ∈ (Step.mk primary companions (pollAll beside robot).item).members,
          property member :=
        forall_members_iff.mpr
          ⟨hprimary.1, fun c hc => (hcompanions c hc).1, forall_mem_pollAll hbeside robot⟩
      rw [pollFinished]
      cases (pollAll beside robot).fault with
      | some fault =>
          exact List.forall_mem_cons.mpr ⟨hfirst, fun s hs m hm => (hrest s hs m hm).1⟩
      | none => exact List.forall_mem_cons.mpr ⟨hfirst, ih hrest _⟩

theorem forall_members_runSteps {steps : List (Step Command)}
    (h : ∀ step ∈ steps, ∀ member ∈ step.members, HoldsPolled property member) (robot : Robot) :
    ∀ step ∈ (runSteps steps robot).item.1 ++ (runSteps steps robot).item.2,
      ∀ member ∈ step.members, property member := by
  induction steps generalizing robot with
  | nil => exact fun _ hmem => nomatch hmem
  | cons step rest ih =>
      have hfirst := forall_members_pollStep (h step List.mem_cons_self) robot
      have hrest := fun s hs => h s (List.mem_cons_of_mem _ hs)
      have hstopped := List.forall_mem_cons.mpr
        ⟨hfirst, fun s hs m hm => (hrest s hs m hm).1⟩
      rw [runSteps]
      cases (pollStep step robot).fault with
      | some fault => exact hstopped
      | none =>
          simp only
          split
          · exact List.forall_mem_cons.mpr ⟨hfirst, ih hrest _⟩
          · exact hstopped

end Walks

/-- Where a run of steps stops without an error: at the end, or at a step that
waits for something. -/
theorem runSteps_left {steps : List (Step Command)} {robot : Robot}
    (h : (runSteps steps robot).fault = none) :
    (runSteps steps robot).item.2 = [] ∨
      ∃ step rest, (runSteps steps robot).item.2 = step :: rest ∧ step.isComplete = false := by
  induction steps generalizing robot with
  | nil => exact Or.inl rfl
  | cons step rest ih =>
      rw [runSteps] at h ⊢
      cases hfault : (pollStep step robot).fault with
      | some fault =>
          rw [hfault] at h
          exact absurd (hfault.symm.trans h) (Option.some_ne_none fault)
      | none =>
          rw [hfault] at h
          simp only at h ⊢
          split at h
          · next hcomplete =>
              rw [if_pos hcomplete]
              exact ih h
          · next hcomplete =>
              rw [if_neg hcomplete]
              exact Or.inr ⟨_, _, rfl, Bool.not_eq_true _ ▸ hcomplete⟩

/-- A poll that comes back with a running command met no error and found the
command not done. -/
theorem Polled.finishIf_of_running {polled : Polled Command} {isDone : Bool}
    (h : (polled.finishIf isDone).item.phase = .running) :
    polled.finishIf isDone = polled ∧ polled.fault = none ∧ isDone = false := by
  rw [finishIf] at h ⊢
  split at h
  · exact absurd h (phase_abort_ne_running polled.item polled.robot)
  · next hcontinues =>
      rw [if_neg hcontinues]
      rw [Bool.or_eq_true, not_or, Bool.not_eq_true, Bool.not_eq_true,
        Option.isSome_eq_false_iff, Option.isNone_iff_eq_none] at hcontinues
      exact ⟨rfl, hcontinues.1, hcontinues.2⟩

/-! ## Running groups wait for their current step -/

/-- A group that runs waits for a member of its current step. -/
def IsBusy : Command → Prop
  | .group name .running finished remaining =>
    ∃ role child, role.isBlocking = true ∧
      (Command.group name .running finished remaining).child? (.member finished.length role) =
        some child ∧
      child.phase ≠ .completed
  | _ => True

theorem isBusy_of_phase_ne_running {command : Command} (h : command.phase ≠ .running) :
    IsBusy command := by
  match command with
  | .leaf .. | .threaded .. | .group _ .notStarted .. | .group _ .completed .. => trivial
  | .group _ .running .. => exact absurd rfl h

theorem IsQuiet.everywhere_isBusy {command : Command} (h : command.IsQuiet) :
    Everywhere IsBusy command :=
  fun place part hpart => isBusy_of_phase_ne_running (h place part hpart).phase

theorem child?_current {name : String} {phase : Phase} {finished rest : List (Step Command)}
    {step : Step Command} {role : Role} :
    (Command.group name phase finished (step :: rest)).child? (.member finished.length role) =
      step.member? role := by
  rw [child?, List.getElem?_append_right (Nat.le_refl _), Nat.sub_self]
  rfl

/-- What `IsBusy` says of a running group, in terms of its steps. -/
theorem isBusy_group_iff {name : String} {finished remaining : List (Step Command)} :
    IsBusy (.group name .running finished remaining) ↔
      ∃ step rest, remaining = step :: rest ∧ ∃ member ∈ step.blocking,
        member.phase ≠ .completed := by
  constructor
  · rintro ⟨role, child, hrole, hchild, hphase⟩
    cases remaining with
    | nil =>
        rw [child?, List.append_nil, List.getElem?_eq_none (Nat.le_refl _)] at hchild
        simp at hchild
    | cons step rest =>
        rw [child?_current] at hchild
        exact ⟨step, rest, rfl, child, Step.mem_blocking_iff.mpr ⟨role, hrole, hchild⟩, hphase⟩
  · rintro ⟨step, rest, rfl, member, hmember, hphase⟩
    obtain ⟨role, hrole, hchild⟩ := Step.mem_blocking_iff.mp hmember
    exact ⟨role, member, hrole, child?_current.trans hchild, hphase⟩

theorem exists_mem_blocking_of_isComplete {step : Step Command} (h : step.isComplete = false) :
    ∃ member ∈ step.blocking, member.phase ≠ .completed := by
  rw [Step.isComplete, List.all_eq_false] at h
  simpa [isCompleted] using h

theorem busy_pollLeaf {name : String} {work : Leaf} {robot : Robot}
    (h : (pollLeaf name work robot).item.phase = .running) :
    Everywhere IsBusy (pollLeaf name work robot).item := by
  have hleaf : ∀ work', Everywhere IsBusy (.leaf name .running work') :=
    fun _ => everywhere_iff.mpr ⟨trivial, fun _ _ hchild => nomatch hchild⟩
  rw [pollLeaf] at h ⊢
  split at h
  · obtain ⟨-, hfault, -⟩ := Polled.finishIf_of_running h
    cases hfault
  · obtain ⟨heq, -⟩ := Polled.finishIf_of_running h
    exact congrArg Polled.item heq ▸ hleaf _

theorem pollThreaded_item {name : String} {cadence : Duration} {task : Task} {inner : Command}
    {robot : Robot} (h : (pollThreaded name cadence task inner robot).item.phase = .running) :
    (pollThreaded name cadence task inner robot).item =
      .threaded name .running cadence (some { task with fault := none }) inner := by
  rw [pollThreaded, (Polled.finishIf_of_running h).1]

theorem busy_pollGroup {name : String} {finished remaining : List (Step Command)} {robot : Robot}
    (h : ∀ step ∈ finished ++ remaining, ∀ member ∈ step.members,
      HoldsPolled (Everywhere IsBusy) member)
    (hrunning : ((Command.group name .running finished remaining).poll robot).item.phase =
      .running) :
    Everywhere IsBusy ((Command.group name .running finished remaining).poll robot).item := by
  have hfinished := forall_members_pollFinished
    (fun step hstep => h step (List.mem_append_left _ hstep)) robot
  have hrun := forall_members_runSteps
    (fun step hstep => h step (List.mem_append_right _ hstep)) (pollFinished finished robot).robot
  rw [poll] at hrunning ⊢
  obtain ⟨heq, hfault, hleft⟩ := Polled.finishIf_of_running hrunning
  rw [heq]
  cases hbeside : (pollFinished finished robot).fault with
  | some fault =>
      simp only [hbeside, Polled.map] at hfault
      cases hfault
  | none =>
      simp only [hbeside, Polled.map] at hfault hleft ⊢
      refine everywhere_iff.mpr ⟨?_, fun turn child hchild => ?_⟩
      · obtain hempty | ⟨step, rest, hleft, hincomplete⟩ := runSteps_left hfault
        · rw [hempty] at hleft
          cases hleft
        · exact isBusy_group_iff.mpr
            ⟨step, rest, hleft, exists_mem_blocking_of_isComplete hincomplete⟩
      · obtain ⟨step, hstep, hmember⟩ := mem_of_child? hchild
        rw [List.append_assoc] at hstep
        rcases List.mem_append.mp hstep with hstep | hstep
        · exact hfinished step hstep child hmember
        · exact hrun step hstep child hmember

/-- After a poll every group that runs waits for its current step, provided it
did before. -/
theorem busy_poll {command : Command} (ho : Everywhere Orderly command)
    (hb : Everywhere IsBusy command) (robot : Robot) :
    Everywhere IsBusy (command.poll robot).item := by
  induction command using childInduction generalizing robot with
  | step command ih =>
  by_cases hrunning : (command.poll robot).item.phase = .running
  case neg =>
    exact (isQuiet_of_orderly ((poll_moves command robot).orderly ho) hrunning).everywhere_isBusy
  have hchild : ∀ turn child, command.child? turn = some child →
      HoldsPolled (Everywhere IsBusy) child :=
    fun turn child h => ⟨hb.child h, ih turn child h (ho.child h) (hb.child h)⟩
  match command with
  | .leaf name .notStarted work | .leaf name .running work =>
      exact busy_pollLeaf hrunning
  | .threaded name .notStarted cadence none inner
  | .threaded name .running cadence (some task) inner =>
      rw [poll] at hrunning ⊢
      rw [pollThreaded_item hrunning]
      exact hb.of_child?_eq (fun turn => by cases turn <;> rfl) trivial
  | .threaded name .notStarted cadence (some task) inner
  | .threaded name .running cadence none inner =>
      rw [poll] at hrunning ⊢
      rw [(Polled.finishIf_of_running hrunning).1]
      exact hb.of_child?_eq (fun turn => by cases turn <;> rfl) trivial
  | .group name .notStarted finished remaining | .group name .running finished remaining =>
      refine busy_pollGroup (fun step hstep member hmember => ?_) hrunning
      obtain ⟨turn, hturn⟩ := exists_child?_of_mem hstep hmember
      exact hchild turn member hturn
  | .leaf name .completed work | .threaded name .completed cadence task inner
  | .group name .completed finished remaining => exact hb

theorem busy_abort {command : Command} (ho : Everywhere Orderly command) (robot : Robot) :
    Everywhere IsBusy (command.abort robot).1 := by
  have hquiet := isQuiet_of_orderly ((abort_moves command robot).orderly ho)
    (phase_abort_ne_running command robot)
  exact hquiet.everywhere_isBusy

theorem IsBusy.setChild {command old new : Command} {turn : Turn} (h : IsBusy command)
    (hold : command.child? turn = some old) (hphase : new.phase = old.phase) :
    IsBusy (command.setChild turn new) := by
  match command, turn with
  | .group name .running finished remaining, .member step role =>
      obtain ⟨role', child, hrole, hchild, hincomplete⟩ := h
      have hnew := child?_setChild_self new hold
      have hother : Turn.member finished.length role' ≠ .member step role →
          ((Command.group name .running finished remaining).setChild (.member step role) new).child?
            (.member finished.length role') = some child :=
        fun hturn => (child?_setChild_ne hturn).trans hchild
      obtain ⟨finished', remaining', hset, hlength, -⟩ :=
        setChild_group name .running finished remaining step role new
      rw [hset] at hnew hother ⊢
      rw [IsBusy, hlength]
      by_cases hturn : Turn.member finished.length role' = .member step role
      · rw [hturn] at hchild
        obtain rfl := Option.some.inj (hchild.symm.trans hold)
        exact ⟨role', new, hrole, hturn ▸ hnew, hphase ▸ hincomplete⟩
      · exact ⟨role', child, hrole, hother hturn, hincomplete⟩
  | .group name .notStarted finished remaining, _ | .group name .completed finished remaining, _ =>
      exact isBusy_of_phase_ne_running (by rw [phase_setChild]; exact Phase.noConfusion)
  | .group .., .inner => exact h
  | .threaded .., .inner => trivial
  | .threaded .., .member .. | .leaf .., _ => trivial

/-- A worker's round polls one command and keeps the phase of all above it. -/
theorem busy_iterateWorker {command : Command} (ho : Everywhere Orderly command)
    (hb : Everywhere IsBusy command) (place : Place) (robot : Robot) :
    Everywhere IsBusy (command.visit iterateWorker place robot).1 := by
  induction place generalizing command robot with
  | nil =>
      match command with
      | .leaf .. | .threaded _ _ _ none _ | .group .. => exact hb
      | .threaded name phase cadence (some task) inner =>
          rw [visit, iterateWorker, Worker.iterate]
          by_cases hcancelled : task.cancelled = true
          · rw [if_pos hcancelled]
            exact hb
          · rw [if_neg hcancelled]
            refine everywhere_iff.mpr ⟨trivial, fun turn child hchild => ?_⟩
            cases turn with
            | inner =>
                have hinner : (Command.threaded name phase cadence (some task) inner).child?
                  .inner = some inner := rfl
                obtain rfl := Option.some.inj hchild
                exact busy_poll (ho.child hinner) (hb.child hinner) robot
            | member step role => simp [child?] at hchild
  | cons turn rest ih =>
      rw [visit]
      split
      · exact hb
      · next child hchild =>
          exact hb.setChild (ih (ho.child hchild) (hb.child hchild) robot)
            (hb.self.setChild hchild (phase_visit_iterateWorker child rest robot))

/-! ## The schedule -/

/-- How a group stands in its schedule, by its phase, its finished steps and
its remaining ones, the first of which is the current one. -/
structure OnSchedule (phase : Phase) (finished remaining : List (Step Command)) : Prop where
  /-- What the steps before the current one waited for is completed. -/
  behind : ∀ step ∈ finished, ∀ member ∈ step.blocking, member.phase = .completed
  /-- Nothing has happened to the steps after the current one, all the way down. -/
  ahead : ∀ step ∈ remaining.tail, ∀ member ∈ step.members, member.IsFresh
  /-- Nothing of a step has been started before all that earlier steps wait for is completed. -/
  inOrder : ∀ (i j : Nat) (earlier later : Step Command), i < j →
    (finished ++ remaining)[i]? = some earlier → (finished ++ remaining)[j]? = some later →
    (∃ member ∈ later.members, ¬ member.IsFresh) →
    ∀ member ∈ earlier.blocking, member.phase = .completed
  /-- A group that runs has a current step, and waits for some member of it. -/
  busy : phase = .running → ∃ step rest, remaining = step :: rest ∧
    ∃ member ∈ step.blocking, member.phase ≠ .completed

/-- What a group makes of its schedule later on. -/
structure Continues (phase : Phase) (finished remaining : List (Step Command))
    (phase' : Phase) (finished' remaining' : List (Step Command)) : Prop where
  /-- The current step never moves back. -/
  forward : finished.length ≤ finished'.length
  /-- It never moves past the end, for there are as many steps as before. -/
  within : finished'.length + remaining'.length = finished.length + remaining.length
  /-- What a finished step waited for stays as it was, and a poll of it does nothing. -/
  done : ∀ (index : Nat) (step : Step Command) (role : Role) (member : Command),
    finished[index]? = some step → role.isBlocking = true → step.member? role = some member →
      (∃ step', finished'[index]? = some step' ∧ step'.member? role = some member) ∧
      ∀ robot, member.poll robot = ⟨member, robot, none⟩
  /-- A group that has ended, in whichever way, stays as it was. -/
  ended : phase = .completed → phase' = .completed ∧ finished' = finished ∧ remaining' = remaining

theorem child?_finished (name : String) (phase : Phase) {finished : List (Step Command)}
    (remaining : List (Step Command)) {index : Nat} {step : Step Command}
    (h : finished[index]? = some step) (role : Role) :
    (Command.group name phase finished remaining).child? (.member index role) =
      step.member? role := by
  obtain ⟨hlt, -⟩ := List.getElem?_eq_some_iff.mp h
  rw [child?, List.getElem?_append_left hlt, h]
  rfl

theorem child?_ahead (name : String) (phase : Phase) (finished : List (Step Command))
    {remaining : List (Step Command)} {index : Nat} {step : Step Command}
    (h : remaining.tail[index]? = some step) (role : Role) :
    (Command.group name phase finished remaining).child?
      (.member (finished.length + (index + 1)) role) = step.member? role := by
  rw [child?, List.getElem?_append_right (Nat.le_add_right _ _), Nat.add_sub_cancel_left,
    ← List.getElem?_tail, h]
  rfl

theorem Orderly.behind {name : String} {phase : Phase} {finished remaining : List (Step Command)}
    (ho : Orderly (.group name phase finished remaining)) :
    ∀ step ∈ finished, ∀ member ∈ step.blocking, member.phase = .completed := by
  intro step hstep member hmember
  obtain ⟨index, hindex⟩ := List.mem_iff_getElem?.mp hstep
  obtain ⟨role, hrole, hmember⟩ := Step.mem_blocking_iff.mp hmember
  obtain ⟨hlt, -⟩ := List.getElem?_eq_some_iff.mp hindex
  exact ho.finished index role member hlt hrole
    ((child?_finished name phase remaining hindex role).trans hmember)

theorem Orderly.pending {name : String} {phase : Phase}
    {finished remaining : List (Step Command)}
    (ho : Orderly (.group name phase finished remaining)) :
    ∀ step ∈ remaining.tail, ∀ member ∈ step.members, member.IsFresh := by
  intro step hstep member hmember
  obtain ⟨index, hindex⟩ := List.mem_iff_getElem?.mp hstep
  obtain ⟨role, hmember⟩ := Step.exists_member?_of_mem_members hmember
  exact ho.ahead (finished.length + (index + 1)) role member (by rw [current]; omega)
    ((child?_ahead name phase finished hindex role).trans hmember)

theorem onSchedule_of_orderly {name : String} {phase : Phase}
    {finished remaining : List (Step Command)}
    (ho : Orderly (.group name phase finished remaining))
    (hb : IsBusy (.group name phase finished remaining)) :
    OnSchedule phase finished remaining := by
  refine ⟨ho.behind, ho.pending, ?_, fun hphase => ?_⟩
  · rintro i j earlier later hij hearlier hlater ⟨started, hstarted, hnew⟩
    rcases Nat.lt_or_ge finished.length j with hlt | hge
    · -- The later step lies ahead of the current one.
      refine absurd (ho.pending later (List.mem_of_getElem? (i := j - (finished.length + 1)) ?_)
        started hstarted) hnew
      rw [List.getElem?_tail, ← hlater, List.getElem?_append_right (by omega)]
      congr 1
      omega
    · rw [List.getElem?_append_left (by omega)] at hearlier
      exact ho.behind earlier (List.mem_of_getElem? hearlier)
  · subst hphase
    exact isBusy_group_iff.mp hb

end Command

namespace Scene

open Command

theorem busy_step {scene : Scene} (ho : Everywhere Orderly scene.root)
    (hb : Everywhere IsBusy scene.root) (event : Event) :
    Everywhere IsBusy (scene.step event).root := by
  cases event with
  | poll => exact busy_poll ho hb scene.robot
  | abort => exact busy_abort ho scene.robot
  | work place => exact busy_iterateWorker ho hb place scene.robot
  | change conditions => exact hb

theorem busy_after {scene : Scene} (ho : Everywhere Orderly scene.root)
    (hb : Everywhere IsBusy scene.root) (events : List Event) :
    Everywhere IsBusy (scene.after events).root := by
  induction events generalizing scene with
  | nil => exact hb
  | cons event rest ih => exact ih (orderly_step ho event) (busy_step ho hb event)

theorem continues_after {scene : Scene} (ho : Everywhere Orderly scene.root)
    (events : List Event) {place : Place} {name : String} {phase : Phase}
    {finished remaining : List (Step Command)}
    (h : scene.root.at? place = some (.group name phase finished remaining)) :
    ∃ phase' finished' remaining',
      (scene.after events).root.at? place = some (.group name phase' finished' remaining') ∧
      Continues phase finished remaining phase' finished' remaining' := by
  obtain ⟨group, hgroup, hevolves⟩ := evolves_at? ho events h
  obtain ⟨phase', finished', remaining', rfl, hforward, hwithin⟩ := hevolves.group
  refine ⟨phase', finished', remaining', hgroup, hforward, hwithin, ?_, fun hphase => ?_⟩
  · intro index step role member hstep hrole hmember
    obtain ⟨hlt, -⟩ := List.getElem?_eq_some_iff.mp hstep
    have hchild : (Command.group name phase finished remaining).child? (.member index role) =
        some member := (child?_finished name phase remaining hstep role).trans hmember
    have hcompleted := (ho place _ h).finished index role member hlt hrole hchild
    refine ⟨?_, poll_of_phase_completed hcompleted⟩
    have hat : scene.root.at? (place ++ [.member index role]) = some member := by
      rw [at?_concat, h]
      exact hchild
    obtain ⟨member', hat', hmember'⟩ := evolves_at? ho events hat
    obtain rfl := hmember'.eq_of_completed hcompleted
    obtain ⟨step', hstep'⟩ : ∃ step', finished'[index]? = some step' :=
      ⟨_, List.getElem?_eq_getElem (Nat.lt_of_lt_of_le hlt hforward)⟩
    rw [at?_concat, hgroup] at hat'
    exact ⟨step', hstep', (child?_finished name phase' remaining' hstep' role).symm.trans hat'⟩
  · have heq := hevolves.eq_of_completed hphase
    injection heq with _ hphase' hfinished hremaining
    exact ⟨hphase'.trans hphase, hfinished, hremaining⟩

/-- Every group of a fresh routine keeps its schedule, whatever the polls,
aborts, workers' rounds and readings: at any time what the steps before the
current one waited for is completed, what lies after it is untouched, and a
group that runs waits for something in it; so nothing of a step starts before
all that earlier steps wait for is completed. As time goes on the current step
only moves forward, up to the end, and what is behind it stays as it is.
Whichever way the group ends, by running out of steps, by an abort or by an
error, it stays as it was then; in particular the steps after the one it had
come to are never started. -/
theorem groups_keep_schedule {root : Command} (hroot : root.IsFresh) (robot : Robot)
    (events : List Event) {place : Place} {name : String} {phase : Phase}
    {finished remaining : List (Step Command)}
    (h : ((Scene.mk root robot).after events).root.at? place =
      some (.group name phase finished remaining)) :
    OnSchedule phase finished remaining ∧
    (∀ later, ∃ phase' finished' remaining',
      ((Scene.mk root robot).after (events ++ later)).root.at? place =
        some (.group name phase' finished' remaining') ∧
      OnSchedule phase' finished' remaining' ∧
      Continues phase finished remaining phase' finished' remaining') ∧
    (phase = .running → ∀ later, ∃ finished' remaining',
      ((Scene.mk root robot).after (events ++ .abort :: later)).root.at? place =
        some (.group name .completed finished' remaining') ∧
      OnSchedule .completed finished' remaining' ∧ finished'.length = finished.length) ∧
    ∀ robot' fault,
      ((Command.group name phase finished remaining).poll robot').fault = some fault →
        ((Command.group name phase finished remaining).poll robot').item.phase = .completed := by
  have ho : ∀ events, Everywhere Orderly ((Scene.mk root robot).after events).root :=
    orderly_after hroot.orderly
  have hb : ∀ events, Everywhere IsBusy ((Scene.mk root robot).after events).root :=
    busy_after hroot.orderly hroot.isQuiet.everywhere_isBusy
  refine ⟨onSchedule_of_orderly (ho events place _ h) (hb events place _ h), ?_, ?_, ?_⟩
  · intro later
    obtain ⟨phase', finished', remaining', hgroup, hcontinues⟩ :=
      continues_after (ho events) later h
    rw [← after_append] at hgroup
    exact ⟨phase', finished', remaining', hgroup,
      onSchedule_of_orderly (ho _ place _ hgroup) (hb _ place _ hgroup), hcontinues⟩
  · rintro rfl later
    obtain ⟨robot', habort⟩ := exists_at?_abort (ho events) h
      ((Scene.mk root robot).after events).robot
    rw [abort] at habort
    obtain ⟨phase', finished', remaining', hgroup, hcontinues⟩ :=
      continues_after (orderly_step (ho events) .abort) later habort
    obtain ⟨rfl, rfl, rfl⟩ := hcontinues.ended rfl
    rw [← after_concat, ← after_append, List.append_assoc, List.singleton_append] at hgroup
    exact ⟨_, _, hgroup, onSchedule_of_orderly (ho _ place _ hgroup) (hb _ place _ hgroup),
      length_abortSteps finished robot'⟩
  · exact fun robot' fault hfault => phase_poll_of_fault hfault

/-- A group that waits in its second step of three: an abort leaves it there,
whatever happens later. -/
theorem groups_keep_schedule_waiting :
    let root : Command := .ofSteps "routine" ([.sequential (.action "report" (.print ["go"])),
      .threaded (.timed "tank" ⟨10⟩ (.tank 1 1)) ⟨20⟩, .sequential (.waitUntil "window" ⟨5⟩),
      .sequential (.action "stop" .stopDrive)].foldl Addition.addTo [])
    let scene := Scene.mk root (Robot.ofParameters {})
    let events : List Event := [.poll, .work [.member 0 (.beside 0)]]
    ∃ finished remaining, (root.IsFresh ∧ (scene.after events).root.at? [] =
        some (.group "routine" .running finished remaining)) ∧
      (finished.length = 1 ∧ remaining.length = 2) ∧ OnSchedule .running finished remaining ∧
      ∀ later, ∃ finished' remaining',
        (scene.after (events ++ .abort :: later)).root.at? [] =
          some (.group "routine" .completed finished' remaining') ∧
        OnSchedule .completed finished' remaining' ∧ finished'.length = finished.length := by
  intro root scene events
  have hroot : root.IsFresh := by
    refine Assembled.isFresh (.group _ _ ?_)
    simp only [List.forall_mem_cons, List.not_mem_nil, false_imp_iff, implies_true, and_true]
    exact ⟨.action .., .timed .., .waitUntil .., .action ..⟩
  obtain ⟨finished, remaining, hgroup, hlength⟩ : ∃ finished remaining,
      (scene.after events).root.at? [] = some (.group "routine" .running finished remaining) ∧
      finished.length = 1 ∧ remaining.length = 2 := ⟨_, _, rfl, rfl, rfl⟩
  obtain ⟨hnow, -, habort, -⟩ := groups_keep_schedule hroot scene.robot events hgroup
  exact ⟨finished, remaining, ⟨hroot, hgroup⟩, hlength, hnow, habort rfl⟩

end Scene

end RobotRoutine

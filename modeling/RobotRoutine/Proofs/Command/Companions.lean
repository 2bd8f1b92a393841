import RobotRoutine.Proofs.Command.Footprint
import RobotRoutine.Proofs.Command.Lifecycle

/-!
# Companions that share nothing may change places

The members of a step are polled one after another, the primary first, and all
act on one robot. If no two of them act through a common handle, none of them can
tell whether it was polled before or after another, and the robot comes out the
same: two polls that keep to disjoint handles commute, and a permutation is made
of exchanges of neighbours (`pollAll_perm`, `abortAll_perm`). Whether the step is
complete does not depend on the order either, nor on which member is the primary.

All this is said of polls that do not fail, since the first failure keeps the
members after it from being polled. Without a worker only a sensor can fail, so
the steps are compared as long as both sensors are in order.
-/

namespace RobotRoutine

/-! ## Changes that keep to disjoint handles -/

namespace Robot

variable {own own' : Finset Handle}

/-- Whether a change of the robot keeps to some handles, and to what nobody writes. -/
structure ChangesWithin (own : Finset Handle) (f : Robot → Robot) : Prop where
  graft : ∀ robot other, f (robot.graft own other) = (f robot).graft own other
  conditions : ∀ robot, (f robot).conditions = robot.conditions

variable {f g : Robot → Robot}

theorem ChangesWithin.plant (h : ChangesWithin own f) (robot : Robot) :
    (f robot).plant = robot.plant := by
  have hgraft := h.graft robot robot
  rw [graft_self] at hgraft
  rw [hgraft]
  rfl

theorem ChangesWithin.part (h : ChangesWithin own f) (robot : Robot) {handle : Handle}
    (hhandle : handle ∉ own) : (f robot).part handle = robot.part handle := by
  have hgraft := h.graft robot robot
  rw [graft_self] at hgraft
  rw [hgraft, part_graft, Finset.piecewise_eq_of_notMem own _ _ hhandle]

/-- Who keeps to other handles finds the robot as it was. -/
theorem ChangesWithin.eq_graft (h : ChangesWithin own f) (hdisjoint : Disjoint own own')
    (robot : Robot) : f robot = robot.graft own' (f robot) := by
  refine ext_part rfl (h.conditions robot) fun handle => ?_
  rw [part_graft]
  by_cases hhandle : handle ∈ own'
  · rw [Finset.piecewise_eq_of_mem own' _ _ hhandle,
      h.part robot (Finset.disjoint_right.mp hdisjoint hhandle)]
  · rw [Finset.piecewise_eq_of_notMem own' _ _ hhandle]

/-- Changes that keep to disjoint handles commute. -/
theorem ChangesWithin.comm (hf : ChangesWithin own f) (hg : ChangesWithin own' g)
    (hdisjoint : Disjoint own own') (robot : Robot) : g (f robot) = f (g robot) := by
  have hleft : g (f robot) = (g robot).graft own' (f robot) :=
    (congrArg g (hf.eq_graft hdisjoint robot)).trans (hg.graft robot _)
  have hright : f (g robot) = (f robot).graft own (g robot) :=
    (congrArg f (hg.eq_graft hdisjoint.symm robot)).trans (hf.graft robot _)
  rw [hleft, hright]
  refine ext_part ?_ ?_ fun handle => ?_
  · exact (hf.plant robot).trans (hg.plant robot).symm
  · rw [conditions_graft, conditions_graft, hf.conditions, hg.conditions]
  · rw [part_graft, part_graft]
    by_cases hown : handle ∈ own
    · rw [Finset.piecewise_eq_of_mem own _ _ hown,
        Finset.piecewise_eq_of_notMem own' _ _ (Finset.disjoint_left.mp hdisjoint hown)]
    · rw [Finset.piecewise_eq_of_notMem own _ _ hown]
      by_cases hown' : handle ∈ own'
      · rw [Finset.piecewise_eq_of_mem own' _ _ hown']
      · rw [Finset.piecewise_eq_of_notMem own' _ _ hown', hf.part robot hown,
          hg.part robot hown']

end Robot

namespace Command

variable {own own' : Finset Handle}

theorem changesWithin_poll {command : Command} (h : KeepsTo own command) :
    Robot.ChangesWithin own fun robot => (command.poll robot).robot where
  graft robot other := congrArg Polled.robot (poll_graft h robot other)
  conditions robot := conditions_poll command robot

theorem changesWithin_abort {command : Command} (h : KeepsTo own command) :
    Robot.ChangesWithin own fun robot => (command.abort robot).2 where
  graft robot other := congrArg Prod.snd (abort_graft h robot other)
  conditions robot := (abort_moves command robot).conditions

/-! ## Commands that share no handle -/

/-- Whether two commands keep to handles of which none is common to both. -/
def Apart (first second : Command) : Prop :=
  ∃ own own', Disjoint own own' ∧ KeepsTo own first ∧ KeepsTo own' second

variable {first second : Command}

theorem Apart.of_handles (h : Disjoint first.handles second.handles) : Apart first second :=
  ⟨_, _, h, keepsTo_of_handles_subset (Finset.Subset.refl _),
    keepsTo_of_handles_subset (Finset.Subset.refl _)⟩

theorem Apart.symm (h : Apart first second) : Apart second first := by
  obtain ⟨own, own', hdisjoint, hfirst, hsecond⟩ := h
  exact ⟨own', own, hdisjoint.symm, hsecond, hfirst⟩

theorem Apart.poll_left (h : Apart first second) (robot : Robot) :
    Apart (first.poll robot).item second := by
  obtain ⟨own, own', hdisjoint, hfirst, hsecond⟩ := h
  exact ⟨own, own', hdisjoint, (poll_moves first robot).keepsTo hfirst, hsecond⟩

theorem Apart.poll_right (h : Apart first second) (robot : Robot) :
    Apart first (second.poll robot).item :=
  (h.symm.poll_left robot).symm

/-- What a command becomes does not depend on whether another was polled before it. -/
theorem Apart.poll_after (h : Apart first second) (robot : Robot) :
    (second.poll (first.poll robot).robot).item = (second.poll robot).item := by
  obtain ⟨own, own', hdisjoint, hfirst, hsecond⟩ := h
  have hfound := (changesWithin_poll hfirst).eq_graft hdisjoint robot
  rw [hfound, poll_graft hsecond robot]
  rfl

theorem Apart.poll_comm (h : Apart first second) (robot : Robot) :
    (second.poll (first.poll robot).robot).robot =
      (first.poll (second.poll robot).robot).robot := by
  obtain ⟨own, own', hdisjoint, hfirst, hsecond⟩ := h
  exact (changesWithin_poll hfirst).comm (changesWithin_poll hsecond) hdisjoint robot

theorem Apart.abort_comm (h : Apart first second) (robot : Robot) :
    (second.abort (first.abort robot).2).2 = (first.abort (second.abort robot).2).2 := by
  obtain ⟨own, own', hdisjoint, hfirst, hsecond⟩ := h
  exact (changesWithin_abort hfirst).comm (changesWithin_abort hsecond) hdisjoint robot

/-! ## Polls that do not fail -/

/-- Whether no poll of a command fails under the allowed conditions. -/
def NeverFails (allowed : Conditions → Prop) (command : Command) : Prop :=
  ∀ robot, allowed robot.conditions → (command.poll robot).fault = none

section Faults

variable {allowed : Conditions → Prop}

theorem fault_pollAll_eq_none {commands : List Command}
    (h : ∀ command ∈ commands, NeverFails allowed command) {robot : Robot}
    (hrobot : allowed robot.conditions) : (pollAll commands robot).fault = none := by
  induction commands generalizing robot with
  | nil => rfl
  | cons command rest ih =>
      rw [pollAll, h command List.mem_cons_self robot hrobot]
      exact ih (fun c hc => h c (List.mem_cons_of_mem _ hc)) (by rwa [conditions_poll])

theorem fault_pollStep_eq_none {step : Step Command}
    (h : ∀ command ∈ step.members, NeverFails allowed command) {robot : Robot}
    (hrobot : allowed robot.conditions) : (pollStep step robot).fault = none := by
  obtain ⟨primary, companions, beside⟩ := step
  obtain ⟨hprimary, hcompanions, hbeside⟩ := forall_members_iff.mp h
  have hnext : allowed (primary.poll robot).robot.conditions := by rwa [conditions_poll]
  have hlast : allowed (pollAll companions (primary.poll robot).robot).robot.conditions := by
    rwa [conditions_pollAll]
  rw [pollStep, hprimary robot hrobot]
  simp only
  rw [fault_pollAll_eq_none hcompanions hnext]
  exact fault_pollAll_eq_none hbeside hlast

theorem fault_runSteps_eq_none {steps : List (Step Command)}
    (h : ∀ step ∈ steps, ∀ command ∈ step.members, NeverFails allowed command) {robot : Robot}
    (hrobot : allowed robot.conditions) : (runSteps steps robot).fault = none := by
  induction steps generalizing robot with
  | nil => rfl
  | cons step rest ih =>
      have hstep := fault_pollStep_eq_none (h step List.mem_cons_self) hrobot
      have hrest := ih (fun s hs => h s (List.mem_cons_of_mem _ hs))
        (show allowed (pollStep step robot).robot.conditions by rwa [conditions_pollStep])
      rw [runSteps, hstep]
      simp only
      split
      · exact hrest
      · exact hstep

end Faults

/-- Nothing that is not on a worker gets there. -/
theorem Move.isUnthreaded {command command' : Command} {robot robot' : Robot}
    (h : Move command robot command' robot') (hunthreaded : command.IsUnthreaded) :
    command'.IsUnthreaded := by
  induction h with
  | start | run | check | finish => exact isUnthreaded_leaf _ _ _
  | spawn | respawn | note | cancel | leave => exact nomatch hunthreaded.self.isThreaded
  | enter | close =>
      exact hunthreaded.of_child?_eq (fun turn => by cases turn <;> rfl)
        (isDirect_group hunthreaded.self.isThreadless)
  | advance =>
      have hplain := hunthreaded.self.isThreadless
      exact hunthreaded.of_child?_eq (child?_advance _ _ _ _)
        (isDirect_group (by simpa only [List.append_assoc, List.singleton_append] using hplain))
  | child hrunning hold hadmits hmove ih =>
      exact hunthreaded.setChild (ih (hunthreaded.child hold))
        (isDirect_setChild hunthreaded.self)

theorem Moves.isUnthreaded {before after : Command × Robot} (h : Moves before after)
    (hunthreaded : before.1.IsUnthreaded) : after.1.IsUnthreaded := by
  induction h with
  | refl => exact hunthreaded
  | tail _ hlast ih => exact hlast.isUnthreaded ih

end Command

/-- Whether both sensors can be read. -/
structure Conditions.InOrder (conditions : Conditions) : Prop where
  encoder : conditions.encoder.outOfOrder = none
  gyro : conditions.gyro.outOfOrder = none

namespace Command

theorem fault_pollLeaf_eq_none (name : String) (work : Leaf) {robot : Robot}
    (hrobot : robot.conditions.InOrder) : (pollLeaf name work robot).fault = none := by
  have hread : ∀ mode : ConvergenceMode,
      (mode.sensor robot).read = .ok (mode.sensor robot).value := by
    intro mode
    have hsensor : (mode.sensor robot).outOfOrder = none := by
      cases mode with
      | distance | straight => exact hrobot.encoder
      | turn coefficient => exact hrobot.gyro
    rw [Sensor.read, hsensor]
  have hrun : ∃ after, work.run robot = .ok after := by
    match work with
    | .action _ | .timed _ .idle _ | .timed _ (.tank ..) _ | .waitUntil _ => exact ⟨_, rfl⟩
    | .convergence mode .. =>
        rw [Leaf.run, hread mode]
        exact ⟨_, rfl⟩
  obtain ⟨after, hrun⟩ := hrun
  rw [pollLeaf, hrun]
  exact fault_finishIf _ _

/-- Off the workers, nothing fails while both sensors are in order. -/
theorem neverFails_of_isUnthreaded {command : Command} (h : command.IsUnthreaded) :
    NeverFails Conditions.InOrder command := by
  induction command using childInduction with
  | step command ih =>
  intro robot hrobot
  by_cases hphase : command.phase = .completed
  case pos => rw [poll_of_phase_completed hphase]
  match command with
  | .leaf name .notStarted work =>
      exact fault_pollLeaf_eq_none name _ ((Leaf.conditions_start work robot).symm ▸ hrobot)
  | .leaf name .running work => exact fault_pollLeaf_eq_none name work hrobot
  | .threaded .. => exact nomatch h.self.isThreaded
  | .group name phase finished remaining =>
      have hmembers : ∀ step ∈ finished ++ remaining, ∀ member ∈ step.members,
          NeverFails Conditions.InOrder member :=
        forall_members_of_child? fun turn member hchild =>
          ih turn member hchild (h.child hchild)
      have hplain := h.self.isThreadless
      have hphase : phase ≠ .completed := hphase
      rw [poll_group hphase, fault_finishIf,
        walk_of_isThreadless fun step hstep => hplain step (List.mem_append_left _ hstep)]
      exact fault_runSteps_eq_none (fun step hstep => hmembers step (List.mem_append_right _ hstep))
        hrobot

/-! ## Other orders -/

section Orders

variable {allowed : Conditions → Prop}

theorem pollAll_cons_of_fault_eq_none {command : Command} {rest : List Command} {robot : Robot}
    (h : (command.poll robot).fault = none) :
    pollAll (command :: rest) robot =
      (pollAll rest (command.poll robot).robot).map ((command.poll robot).item :: ·) := by
  rw [pollAll, h]

/-- Commands that are apart from one another may be polled in any order. -/
theorem pollAll_perm {commands commands' : List Command} (h : commands.Perm commands')
    (hapart : commands.Pairwise Apart) (hfails : ∀ command ∈ commands, NeverFails allowed command)
    {robot : Robot} (hrobot : allowed robot.conditions) :
    (pollAll commands robot).Rel List.Perm (pollAll commands' robot) := by
  induction h generalizing robot with
  | nil => exact ⟨.nil, rfl, rfl⟩
  | @cons command rest rest' hrest ih =>
      have hfirst := hfails command List.mem_cons_self robot hrobot
      have hrobot' : allowed (command.poll robot).robot.conditions := by rwa [conditions_poll]
      obtain ⟨hitem, hafter, hfault⟩ := ih hapart.of_cons
        (fun c hc => hfails c (List.mem_cons_of_mem _ hc)) hrobot'
      rw [pollAll_cons_of_fault_eq_none hfirst, pollAll_cons_of_fault_eq_none hfirst]
      exact ⟨hitem.cons _, hafter, hfault⟩
  | swap first second rest =>
      have htwo : Apart second first := List.rel_of_pairwise_cons hapart List.mem_cons_self
      have hfirst := hfails first (List.mem_cons_of_mem _ List.mem_cons_self)
      have hsecond := hfails second List.mem_cons_self
      have hafter : ∀ command : Command, allowed (command.poll robot).robot.conditions :=
        fun command => by rwa [conditions_poll]
      rw [pollAll_cons_of_fault_eq_none (hsecond robot hrobot),
        pollAll_cons_of_fault_eq_none (hfirst _ (hafter second)),
        pollAll_cons_of_fault_eq_none (hfirst robot hrobot),
        pollAll_cons_of_fault_eq_none (hsecond _ (hafter first)),
        htwo.poll_after, htwo.symm.poll_after, htwo.poll_comm]
      exact ⟨.swap .., rfl, rfl⟩
  | trans hleft _ ihleft ihright =>
      obtain ⟨hitem, hafter, hfault⟩ := ihleft hapart hfails hrobot
      obtain ⟨hitem', hafter', hfault'⟩ := ihright (hleft.pairwise hapart Apart.symm)
        (fun c hc => hfails c (hleft.mem_iff.mpr hc)) hrobot
      exact ⟨hitem.trans hitem', hafter.trans hafter', hfault.trans hfault'⟩

/-- They may be ended in any order. -/
theorem abortAll_perm {commands commands' : List Command} (h : commands.Perm commands')
    (hapart : commands.Pairwise Apart) (robot : Robot) :
    (abortAll commands robot).2 = (abortAll commands' robot).2 := by
  induction h generalizing robot with
  | nil => rfl
  | cons command _ ih => exact ih hapart.of_cons (command.abort robot).2
  | swap first second rest =>
      have htwo : Apart second first := List.rel_of_pairwise_cons hapart List.mem_cons_self
      simp only [abortAll]
      rw [htwo.abort_comm]
  | trans hleft _ ihleft ihright =>
      exact (ihleft hapart robot).trans (ihright (hleft.pairwise hapart Apart.symm) robot)

theorem pairwise_apart_pollAll {commands : List Command} (h : commands.Pairwise Apart)
    (robot : Robot) : (pollAll commands robot).item.Pairwise Apart := by
  induction commands generalizing robot with
  | nil => exact .nil
  | cons command rest ih =>
      obtain ⟨hfirst, hrest⟩ := List.pairwise_cons.mp h
      have hpolled : ∀ other ∈ rest, HoldsPolled (Apart (command.poll robot).item) other :=
        fun other hother => ⟨(hfirst other hother).poll_left robot,
          fun robot' => ((hfirst other hother).poll_left robot).poll_right robot'⟩
      rw [pollAll]
      cases (command.poll robot).fault with
      | some error =>
          exact List.pairwise_cons.mpr ⟨fun other hother => (hpolled other hother).1, hrest⟩
      | none => exact List.pairwise_cons.mpr ⟨forall_mem_pollAll hpolled _, ih hrest _⟩

end Orders

/-! ## Steps with their members in another order -/

theorem pollStep_rel_pollAll {step : Step Command} (h : step.threaded = []) (robot : Robot) :
    (pollStep step robot).Rel (fun step members => step.blocking = members ∧ step.threaded = [])
      (pollAll step.blocking robot) := by
  obtain ⟨primary, companions, beside⟩ := step
  obtain rfl := h
  rw [Step.blocking, pollStep, pollAll]
  cases hfault : (primary.poll robot).fault with
  | some error => exact ⟨⟨rfl, rfl⟩, rfl, rfl⟩
  | none =>
      simp only
      cases hfault' : (pollAll companions (primary.poll robot).robot).fault with
      | some error => exact ⟨⟨rfl, rfl⟩, rfl, rfl⟩
      | none => exact ⟨⟨rfl, rfl⟩, rfl, hfault'.symm⟩

theorem abortStep_eq_abortAll {step : Step Command} (h : step.threaded = []) (robot : Robot) :
    (abortStep step robot).2 = (abortAll step.blocking robot).2 := by
  obtain ⟨primary, companions, beside⟩ := step
  obtain rfl := h
  rfl

/-- Two steps with the same members, none of which is on a worker: in the same
order, or in any order if no two of them share a handle. -/
structure Reordered (first second : Step Command) : Prop where
  perm : first.blocking.Perm second.blocking
  firstPlain : first.threaded = []
  secondPlain : second.threaded = []
  unthreaded : ∀ member ∈ first.blocking, member.IsUnthreaded
  apart : first = second ∨ first.blocking.Pairwise Apart

theorem Reordered.refl {step : Step Command} (hplain : step.threaded = [])
    (h : ∀ member ∈ step.blocking, member.IsUnthreaded) : Reordered step step :=
  ⟨.refl _, hplain, hplain, h, Or.inl rfl⟩

section Reorderings

variable {step step' : Step Command} (h : Reordered step step') (robot : Robot)

include h

theorem Reordered.isComplete : step.isComplete = step'.isComplete :=
  h.perm.all_eq

theorem Reordered.neverFails : ∀ member ∈ step.members, NeverFails Conditions.InOrder member := by
  rw [Step.members, h.firstPlain, List.append_nil]
  exact fun member hmember => neverFails_of_isUnthreaded (h.unthreaded member hmember)

theorem Reordered.pollAll (hrobot : robot.conditions.InOrder) :
    (Command.pollAll step.blocking robot).Rel List.Perm (Command.pollAll step'.blocking robot) := by
  rcases h.apart with heq | hapart
  · rw [heq]
    exact ⟨.refl _, rfl, rfl⟩
  · exact pollAll_perm h.perm hapart
      (fun member hmember => neverFails_of_isUnthreaded (h.unthreaded member hmember)) hrobot

theorem Reordered.poll (hrobot : robot.conditions.InOrder) :
    (pollStep step robot).Rel Reordered (pollStep step' robot) := by
  have hmembers := h.pollAll robot hrobot
  obtain ⟨⟨hfirst, hplain⟩, hafter, hfault⟩ := pollStep_rel_pollAll h.firstPlain robot
  obtain ⟨⟨hsecond, hplain'⟩, hafter', hfault'⟩ := pollStep_rel_pollAll h.secondPlain robot
  refine ⟨⟨?_, hplain, hplain', ?_, ?_⟩, ?_, ?_⟩
  · rw [hfirst, hsecond]
    exact hmembers.item
  · rw [hfirst]
    exact forall_mem_pollAll (fun member hmember => ⟨h.unthreaded member hmember, fun robot =>
      (poll_moves member robot).isUnthreaded (h.unthreaded member hmember)⟩) robot
  · rw [hfirst]
    exact h.apart.imp (fun heq => by rw [heq]) (pairwise_apart_pollAll · robot)
  · rw [hafter, hafter', hmembers.robot]
  · rw [hfault, hfault', hmembers.fault]

theorem Reordered.abort : (abortStep step robot).2 = (abortStep step' robot).2 := by
  rcases h.apart with heq | hapart
  · rw [heq]
  · rw [abortStep_eq_abortAll h.firstPlain, abortStep_eq_abortAll h.secondPlain,
      abortAll_perm h.perm hapart]

end Reorderings

theorem runSteps_reordered {steps steps' : List (Step Command)}
    (h : List.Forall₂ Reordered steps steps') {robot : Robot} (hrobot : robot.conditions.InOrder) :
    (runSteps steps robot).Rel (fun run run' => List.Forall₂ Reordered run.1 run'.1 ∧
      List.Forall₂ Reordered run.2 run'.2) (runSteps steps' robot) := by
  induction h generalizing robot with
  | nil => exact ⟨⟨.nil, .nil⟩, rfl, rfl⟩
  | @cons step step' rest rest' hstep hrest ih =>
      obtain ⟨hitem, hafter, hfault⟩ := hstep.poll robot hrobot
      have hnone := fault_pollStep_eq_none hstep.neverFails hrobot
      have hnone' := hfault.symm.trans hnone
      rw [runSteps, runSteps, hnone, hnone', ← hitem.isComplete, ← hafter]
      simp only
      split
      · have hrobot' : (pollStep step robot).robot.conditions.InOrder := by
          rwa [conditions_pollStep]
        obtain ⟨hrun, hafter', hfault'⟩ := ih hrobot'
        exact ⟨⟨.cons hitem hrun.1, hrun.2⟩, hafter', hfault'⟩
      · exact ⟨⟨.nil, .cons hitem hrest⟩, hafter, hfault⟩

theorem abortSteps_reordered {steps steps' : List (Step Command)}
    (h : List.Forall₂ Reordered steps steps') (robot : Robot) :
    (abortSteps steps robot).2 = (abortSteps steps' robot).2 := by
  induction h generalizing robot with
  | nil => rfl
  | cons hstep _ ih =>
      simp only [abortSteps]
      rw [hstep.abort]
      exact ih _

theorem isThreadless_of_reordered {steps steps' : List (Step Command)}
    (h : List.Forall₂ Reordered steps steps') : IsThreadless steps ∧ IsThreadless steps' := by
  induction h with
  | nil => exact ⟨nofun, nofun⟩
  | cons hstep _ ih =>
      exact ⟨List.forall_mem_cons.mpr ⟨hstep.firstPlain, ih.1⟩,
        List.forall_mem_cons.mpr ⟨hstep.secondPlain, ih.2⟩⟩

/-- Two plans whose steps have the same members. -/
def ReorderedPlan (first second : Plan) : Prop :=
  List.Forall₂ Reordered first.1 second.1 ∧ List.Forall₂ Reordered first.2 second.2

theorem ReorderedPlan.abort {first second : Plan} (h : ReorderedPlan first second)
    (robot : Robot) : first.abort robot = second.abort robot := by
  rw [Plan.abort, Plan.abort, abortSteps_reordered h.1, abortSteps_reordered h.2]

theorem isPlanBisimulation_reordered : IsPlanBisimulation Conditions.InOrder ReorderedPlan where
  abort h := h.abort
  walk := by
    intro first second h robot hrobot
    obtain ⟨hplain, hplain'⟩ := isThreadless_of_reordered h.1
    have hrun := runSteps_reordered h.2 hrobot
    rw [walk_of_isThreadless hplain, walk_of_isThreadless hplain']
    have hitem : ReorderedPlan (first.1 ++ (runSteps first.2 robot).item.1,
        (runSteps first.2 robot).item.2) (second.1 ++ (runSteps second.2 robot).item.1,
          (runSteps second.2 robot).item.2) :=
      ⟨List.rel_append h.1 hrun.item.1, hrun.item.2⟩
    exact .of_rel ⟨hitem, hrun.robot, hrun.fault⟩ hitem.abort hitem.2.length_eq

/-! ## Companions that share nothing may change places -/

/-- The members of one step in another order, the primary included, where no two
of them share a handle. -/
inductive Rearranges : Command → Command → Prop
  | step (name : String) (before after : List (Step Command)) {step step' : Step Command}
      (hperm : step.blocking.Perm step'.blocking) (hthreaded : step'.threaded = step.threaded)
      (hdisjoint : step.blocking.Pairwise
        fun first second => Disjoint first.handles second.handles) :
      Rearranges (.ofSteps name (before ++ step :: after))
        (.ofSteps name (before ++ step' :: after))

theorem mem_members_of_perm {step step' : Step Command} (hperm : step.blocking.Perm step'.blocking)
    (hthreaded : step'.threaded = step.threaded) {member : Command} (h : member ∈ step'.members) :
    member ∈ step.members := by
  have hmembers : ∀ step : Step Command, step.members = step.blocking ++ step.threaded :=
    fun _ => rfl
  rw [hmembers, hthreaded, List.mem_append, ← hperm.mem_iff] at h
  rw [hmembers, List.mem_append]
  exact h

section Rearranged

variable {first second : Command} (h : Rearranges first second)
  (hunthreaded : first.IsUnthreaded)

include h hunthreaded

theorem Rearranges.fresh (hfresh : first.IsFresh) : second.IsFresh ∧ second.IsUnthreaded := by
  obtain ⟨name, before, after, hperm, hthreaded, -⟩ := h
  obtain ⟨hbefore, hrest⟩ := List.forall_mem_append.mp (isFresh_ofSteps_iff.mp hfresh)
  obtain ⟨hstep, hafter⟩ := List.forall_mem_cons.mp hrest
  obtain ⟨hbefore', hrest'⟩ := List.forall_mem_append.mp (isUnthreaded_ofSteps_iff.mp hunthreaded)
  obtain ⟨⟨hplain, hstep'⟩, hafter'⟩ := List.forall_mem_cons.mp hrest'
  constructor
  · refine isFresh_ofSteps_iff.mpr (List.forall_mem_append.mpr ⟨hbefore,
      List.forall_mem_cons.mpr ⟨fun member hmember => ?_, hafter⟩⟩)
    exact hstep member (mem_members_of_perm hperm hthreaded hmember)
  · refine isUnthreaded_ofSteps_iff.mpr (List.forall_mem_append.mpr ⟨hbefore',
      List.forall_mem_cons.mpr ⟨⟨hthreaded.trans hplain, fun member hmember => ?_⟩, hafter'⟩⟩)
    exact hstep' member (mem_members_of_perm hperm hthreaded hmember)

theorem Rearranges.equivalent : Equivalent Conditions.InOrder first second := by
  obtain ⟨name, before, after, hperm, hthreaded, hdisjoint⟩ := h
  obtain ⟨hbefore, hrest⟩ := List.forall_mem_append.mp (isUnthreaded_ofSteps_iff.mp hunthreaded)
  obtain ⟨⟨hplain, hstep⟩, hafter⟩ := List.forall_mem_cons.mp hrest
  have hsame : ∀ {steps : List (Step Command)}, (∀ step ∈ steps, step.threaded = [] ∧
      ∀ member ∈ step.members, member.IsUnthreaded) → List.Forall₂ Reordered steps steps :=
    fun hsteps => List.forall₂_same.mpr fun step hstep => .refl (hsteps step hstep).1
      fun member hmember => (hsteps step hstep).2 member (List.mem_append_left _ hmember)
  exact equivalent_group isPlanBisimulation_reordered ([], before ++ _ :: after)
    ([], before ++ _ :: after) name name .notStarted
    ⟨.nil, List.rel_append (hsame hbefore) (.cons
      { perm := hperm
        firstPlain := hplain
        secondPlain := hthreaded.trans hplain
        unthreaded := fun member hmember => hstep member (List.mem_append_left _ hmember)
        apart := Or.inr (hdisjoint.imp Apart.of_handles) } (hsame hafter))⟩

end Rearranged

end Command

namespace Scene

open Command

/-- The members of a step that share no handle may stand in any order, the
primary included, in any of the steps of a tree that is off the workers: as long as no sensor
fails, the host sees the same, whatever it does and whatever the sensors and the
clocks say. -/
theorem disjoint_companions_commute {root root' : Command}
    (h : Relation.ReflTransGen (Within Rearranges) root root') (hfresh : root.IsFresh)
    (hunthreaded : root.IsUnthreaded) {robot : Robot} (hrobot : robot.conditions.InOrder)
    {events : List Event} (hevents : ∀ event ∈ events, event.IsHosted Conditions.InOrder) :
    (Scene.mk root robot).observe events = (Scene.mk root' robot).observe events :=
  observe_eq_of_within (fun h hfresh hunthreaded => h.fresh hunthreaded hfresh)
    (fun h _ hunthreaded => h.equivalent hunthreaded) h hfresh hunthreaded hrobot hevents

/-- A drive command, a group that raises the bucket and prints, and a waiting
one: the group comes first instead of the drive, and its own members trade places. -/
theorem disjoint_companions_commute_nested :
    let drive := Command.convergence "advance" .straight 12 1 3
    let wait := Command.timed "wait" ⟨20⟩ .idle
    let raise := Command.action "bucket" (.send .bucket .extended)
    let say := Command.action "print" (.print ["up"])
    let group := Command.ofSteps "raise" [⟨raise, [say], []⟩]
    let group' := Command.ofSteps "raise" [⟨say, [raise], []⟩]
    let root := Command.ofSteps "routine" [⟨drive, [group, wait], []⟩,
      .ofPrimary (.action "stop" .stopDrive)]
    let root' := Command.ofSteps "routine" [⟨group', [wait, drive], []⟩,
      .ofPrimary (.action "stop" .stopDrive)]
    let robot := Robot.ofParameters {}
    let later : Conditions := { robot.conditions with
      encoder := { robot.distance.sensor with value := 12 }, clock := ⟨30⟩ }
    let events : List Event := [.poll, .change later, .poll, .abort]
    ((root.IsFresh ∧ root.IsUnthreaded) ∧ robot.conditions.InOrder ∧
      ∀ event ∈ events, event.IsHosted Conditions.InOrder) ∧
      (Scene.mk root robot).observe events = (Scene.mk root' robot).observe events := by
  intro drive wait raise say group group' root root' robot later events
  have hfresh : root.IsFresh := by
    simp [root, group, drive, wait, raise, say, isFresh_ofSteps_iff, Step.members,
      Step.ofPrimary, timed, convergence, action, isFresh_leaf]
  have hunthreaded : root.IsUnthreaded := by
    simp [root, group, drive, wait, raise, say, isUnthreaded_ofSteps_iff, Step.members,
      Step.ofPrimary, timed, convergence, action, isUnthreaded_leaf]
  have hrobot : robot.conditions.InOrder := ⟨rfl, rfl⟩
  have hevents : ∀ event ∈ events, event.IsHosted Conditions.InOrder := by
    simp only [events, List.forall_mem_cons, List.not_mem_nil, false_imp_iff, implies_true,
      and_true, Event.IsHosted, true_and]
    exact ⟨rfl, rfl⟩
  have hold : root.child? (.member 0 (.companion 0)) = some group := rfl
  have hinner : Within Rearranges root (.ofSteps "routine" [⟨drive, [group', wait], []⟩,
      .ofPrimary (.action "stop" .stopDrive)]) :=
    .deeper hold (.here (.step "raise" [] [] (.swap ..) rfl (by decide)))
  have houter : Within Rearranges (.ofSteps "routine" [⟨drive, [group', wait], []⟩,
      .ofPrimary (.action "stop" .stopDrive)]) root' :=
    .here (.step "routine" [] _ (@List.perm_append_comm _ [drive] _) rfl (by decide))
  exact ⟨⟨⟨hfresh, hunthreaded⟩, hrobot, hevents⟩, disjoint_companions_commute
    (.head hinner (.single houter)) hfresh hunthreaded hrobot hevents⟩

end Scene

end RobotRoutine

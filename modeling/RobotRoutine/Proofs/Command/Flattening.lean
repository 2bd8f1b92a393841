import RobotRoutine.Proofs.Command.Equivalence

/-!
# A group among the steps of another

A step that is nothing but a group may be replaced by the steps of that group,
and nobody can tell. The steps come in the same order and each starts in the
poll that completes the one before it, whether they stand in a group of their
own or not. What a group of their own adds is that it is ended when its last
step is complete, and by then there is nothing in it to end.

`Inlined` compares the two plans at any time: the inner group is yet ahead, the
run is inside of it, or it is behind. A run over steps put one after another is
a run over the first of them and then over the others (`runSteps_append_of_nil`,
`runSteps_append_of_cons`), and with that each case is followed through one walk.
After an error the two plans differ, as the inner group has been ended already and
the outer one has not; what they agree on is the robot once both have been ended.
-/

namespace RobotRoutine

namespace Command

/-! ## Runs over steps put one after another -/

/-- A run that got through all steps goes on with those that follow. -/
theorem runSteps_append_of_nil {first : List (Step Command)} {robot : Robot}
    (h : (runSteps first robot).item.2 = []) (second : List (Step Command)) :
    runSteps (first ++ second) robot =
      (runSteps second (runSteps first robot).robot).map
        fun run => ((runSteps first robot).item.1 ++ run.1, run.2) := by
  induction first generalizing robot with
  | nil => rfl
  | cons step rest ih =>
      rw [List.cons_append, runSteps, runSteps]
      rw [runSteps] at h
      cases hfault : (pollStep step robot).fault with
      | some error =>
          rw [hfault] at h
          cases h
      | none =>
          rw [hfault] at h
          simp only at h ⊢
          cases hcomplete : (pollStep step robot).item.isComplete with
          | false =>
              rw [hcomplete] at h
              cases h
          | true =>
              rw [hcomplete] at h
              rw [if_pos rfl, if_pos rfl, ih h]
              rfl

/-- A run that stopped does not come to the steps that follow. -/
theorem runSteps_append_of_cons {first : List (Step Command)} {robot : Robot}
    (h : (runSteps first robot).item.2 ≠ []) (second : List (Step Command)) :
    runSteps (first ++ second) robot =
      (runSteps first robot).map fun run => (run.1, run.2 ++ second) := by
  induction first generalizing robot with
  | nil => exact absurd rfl h
  | cons step rest ih =>
      rw [List.cons_append, runSteps, runSteps]
      rw [runSteps] at h
      cases hfault : (pollStep step robot).fault with
      | some error => rfl
      | none =>
          rw [hfault] at h
          simp only at h ⊢
          cases hcomplete : (pollStep step robot).item.isComplete with
          | false => rfl
          | true =>
              rw [hcomplete] at h
              rw [if_pos rfl, if_pos rfl, ih h]
              rfl

theorem fault_eq_none_of_left_eq_nil {steps : List (Step Command)} {robot : Robot}
    (h : (runSteps steps robot).item.2 = []) : (runSteps steps robot).fault = none := by
  induction steps generalizing robot with
  | nil => rfl
  | cons step rest ih =>
      rw [runSteps] at h ⊢
      cases hfault : (pollStep step robot).fault with
      | some error =>
          rw [hfault] at h
          cases h
      | none =>
          rw [hfault] at h
          simp only at h ⊢
          cases hcomplete : (pollStep step robot).item.isComplete with
          | false =>
              rw [hcomplete] at h
              cases h
          | true =>
              rw [hcomplete] at h
              exact ih h

theorem abortSteps_append (first second : List (Step Command)) (robot : Robot) :
    (abortSteps (first ++ second) robot).2 =
      (abortSteps second (abortSteps first robot).2).2 := by
  induction first generalizing robot with
  | nil => rfl
  | cons step rest ih => exact ih (abortStep step robot).2

theorem Plan.abort_of_isSettled {finished : List (Step Command)} (h : IsSettled finished)
    (remaining : List (Step Command)) (robot : Robot) :
    Plan.abort (finished, remaining) robot = (abortSteps remaining robot).2 := by
  rw [Plan.abort, abortSteps_of_isAtRest h.isAtRest]

/-! ## The poll of a step that is a group -/

section InnerGroup

variable {name : String} {phase : Phase} {finished remaining : List (Step Command)}
  {robot : Robot}

theorem pollStep_ofPrimary (command : Command) :
    pollStep (.ofPrimary command) robot = (command.poll robot).map .ofPrimary := by
  rw [Step.ofPrimary, pollStep, pollAll]
  cases hfault : (command.poll robot).fault with
  | some error => rfl
  | none =>
      rw [Polled.map, Polled.map, hfault]
      rfl

/-- Where the inner group gets through its steps, the outer one goes on behind it. -/
theorem exists_runSteps_group_of_nil (hphase : phase ≠ .completed) (h : IsSettled finished)
    (hremaining : IsThreadless remaining) (hleft : (runSteps remaining robot).item.2 = [])
    (after : List (Step Command)) :
    ∃ settled, IsSettled [settled] ∧
      runSteps (.ofPrimary (.group name phase finished remaining) :: after) robot =
        (runSteps after (runSteps remaining robot).robot).map fun run =>
          (settled :: run.1, run.2) := by
  have hfault := fault_eq_none_of_left_eq_nil hleft
  obtain ⟨hdone, -⟩ := isSettled_runSteps hremaining robot
  -- By the time the inner group is ended, nothing in it is running.
  have hpoll : (Command.group name phase finished remaining).poll robot =
      ⟨.group name .completed (finished ++ (runSteps remaining robot).item.1) [],
        (runSteps remaining robot).robot, none⟩ := by
    rw [poll_group_of_isSettled hphase h, hleft, Polled.finishIf_of_ends (by simp)]
    simp only [Polled.map, abort, hleft, hfault,
      abortSteps_of_isAtRest (h.append hdone).isAtRest, abortSteps]
  refine ⟨.ofPrimary (.group name .completed (finished ++ (runSteps remaining robot).item.1) []),
    IsSettled.of_isComplete rfl rfl, ?_⟩
  rw [runSteps, pollStep_ofPrimary, hpoll]
  rfl

/-- Where the inner group stops without an error, the outer one stops with it. -/
theorem runSteps_group_of_cons (hphase : phase ≠ .completed) (h : IsSettled finished)
    (hfault : (runSteps remaining robot).fault = none)
    (hleft : (runSteps remaining robot).item.2 ≠ []) (after : List (Step Command)) :
    runSteps (.ofPrimary (.group name phase finished remaining) :: after) robot =
      (runSteps remaining robot).map fun run =>
        ([], .ofPrimary (.group name .running (finished ++ run.1) run.2) :: after) := by
  have hpoll : (Command.group name phase finished remaining).poll robot =
      (runSteps remaining robot).map fun run =>
        .group name .running (finished ++ run.1) run.2 := by
    rw [poll_group_of_isSettled hphase h, List.isEmpty_eq_false_iff.mpr hleft,
      Polled.finishIf_of_goes_on (by exact hfault)]
  rw [runSteps, pollStep_ofPrimary, hpoll]
  simp only [Polled.map, hfault]
  rfl

/-- Where the inner group fails, it has been ended when the outer one hears of it. -/
theorem runSteps_group_of_fault (hphase : phase ≠ .completed) (h : IsSettled finished)
    (hremaining : IsThreadless remaining) {error : RoutineError}
    (hfault : (runSteps remaining robot).fault = some error) (after : List (Step Command)) :
    ∃ settled, IsSettled [settled] ∧
      runSteps (.ofPrimary (.group name phase finished remaining) :: after) robot =
        ⟨([], settled :: after),
          (abortSteps (runSteps remaining robot).item.2 (runSteps remaining robot).robot).2,
          some error⟩ := by
  obtain ⟨hdone, -⟩ := isSettled_runSteps hremaining robot
  have hpoll : (Command.group name phase finished remaining).poll robot =
      ⟨.group name .completed (finished ++ (runSteps remaining robot).item.1)
          (abortSteps (runSteps remaining robot).item.2 (runSteps remaining robot).robot).1,
        (abortSteps (runSteps remaining robot).item.2 (runSteps remaining robot).robot).2,
        some error⟩ := by
    rw [poll_group_of_isSettled hphase h, Polled.finishIf_of_ends (by simp [Polled.map, hfault])]
    simp only [Polled.map, abort, hfault, abortSteps_of_isAtRest (h.append hdone).isAtRest]
  refine ⟨.ofPrimary (.group name .completed (finished ++ (runSteps remaining robot).item.1)
    (abortSteps (runSteps remaining robot).item.2 (runSteps remaining robot).robot).1),
    IsSettled.of_isComplete rfl rfl, ?_⟩
  rw [runSteps, pollStep_ofPrimary, hpoll]
  rfl

end InnerGroup

/-! ## The two plans at any time -/

/-- A plan with a group among its steps, and the same with the steps of that group. -/
inductive Inlined : Plan → Plan → Prop
  | ahead {finished finished' before steps after : List (Step Command)} (inner : String)
      (hfinished : IsSettled finished) (hfinished' : IsSettled finished')
      (hbefore : IsThreadless before) (hsteps : IsThreadless steps) (hafter : IsThreadless after)
      (hrest : IsAtRest steps) :
      Inlined (finished, before ++ .ofPrimary (.ofSteps inner steps) :: after)
        (finished', before ++ steps ++ after)
  | inside {finished finished' done left after : List (Step Command)} (inner : String)
      (hfinished : IsSettled finished) (hfinished' : IsSettled finished')
      (hdone : IsSettled done) (hleft : IsThreadless left) (hafter : IsThreadless after) :
      Inlined (finished, .ofPrimary (.group inner .running done left) :: after)
        (finished', left ++ after)
  | behind {finished finished' remaining : List (Step Command)}
      (hfinished : IsSettled finished) (hfinished' : IsSettled finished')
      (hremaining : IsThreadless remaining) : Inlined (finished, remaining) (finished', remaining)

section Walks

variable {finished finished' : List (Step Command)} (hfinished : IsSettled finished)
  (hfinished' : IsSettled finished') (robot : Robot)

include hfinished hfinished'

/-- Behind the inner group both plans have the same steps before them. -/
theorem walksAlike_behind {remaining : List (Step Command)} (h : IsThreadless remaining) :
    WalksAlike Inlined ((runSteps remaining robot).map fun run => (finished ++ run.1, run.2))
      ((runSteps remaining robot).map fun run => (finished' ++ run.1, run.2)) := by
  obtain ⟨hdone, hleft⟩ := isSettled_runSteps h robot
  have hrest := hfinished.append hdone
  have hrest' := hfinished'.append hdone
  cases hfault : (runSteps remaining robot).fault with
  | none => exact .on (.behind hrest hrest' hleft) rfl hfault hfault .rfl
  | some error =>
      refine .failed error hfault hfault ?_
      rw [Polled.map, Polled.map, Plan.abort_of_isSettled hrest, Plan.abort_of_isSettled hrest']

/-- A walk that starts with the inner group, and one that starts with its steps. -/
theorem walksAlike_inside (inner : String) {phase : Phase} (hphase : phase ≠ .completed)
    {done left after : List (Step Command)} (hdone : IsSettled done) (hleft : IsThreadless left)
    (hafter : IsThreadless after) :
    WalksAlike Inlined
      ((runSteps (.ofPrimary (.group inner phase done left) :: after) robot).map
        fun run => (finished ++ run.1, run.2))
      ((runSteps (left ++ after) robot).map fun run => (finished' ++ run.1, run.2)) := by
  obtain ⟨hmore, hwaiting⟩ := isSettled_runSteps hleft robot
  by_cases hnone : (runSteps left robot).item.2 = []
  · obtain ⟨settled, hsettled, hrun⟩ := exists_runSteps_group_of_nil hphase hdone hleft hnone after
    have hbehind := walksAlike_behind (hfinished.append hsettled) (hfinished'.append hmore)
      (runSteps left robot).robot hafter
    rw [hrun, runSteps_append_of_nil hnone]
    simpa only [Polled.map, List.append_assoc, List.singleton_append] using hbehind
  · rw [runSteps_append_of_cons hnone]
    cases hfault : (runSteps left robot).fault with
    | none =>
        rw [runSteps_group_of_cons hphase hdone hfault hnone]
        refine .on ?_ rfl hfault hfault ?_
        · rw [Polled.map, Polled.map, List.append_nil]
          exact .inside inner hfinished (hfinished'.append hmore) (hdone.append hmore) hwaiting
            hafter
        · simp [Polled.map, hnone]
    | some error =>
        obtain ⟨settled, hsettled, hrun⟩ :=
          runSteps_group_of_fault hphase hdone hleft hfault after
        rw [hrun]
        refine .failed error rfl hfault ?_
        -- What is left of the inner group was ended in the poll; the rest is ended now.
        simp only [Polled.map, List.append_nil, Plan.abort_of_isSettled hfinished,
          Plan.abort_of_isSettled (hfinished'.append hmore)]
        rw [← List.singleton_append, abortSteps_append, abortSteps_append,
          abortSteps_of_isAtRest hsettled.isAtRest]

/-- A walk that has steps to do before it comes to the inner group. -/
theorem walksAlike_ahead (inner : String) {before steps after : List (Step Command)}
    (hbefore : IsThreadless before) (hsteps : IsThreadless steps) (hafter : IsThreadless after)
    (hrest : IsAtRest steps) :
    WalksAlike Inlined
      ((runSteps (before ++ .ofPrimary (.ofSteps inner steps) :: after) robot).map
        fun run => (finished ++ run.1, run.2))
      ((runSteps (before ++ steps ++ after) robot).map
        fun run => (finished' ++ run.1, run.2)) := by
  obtain ⟨hdone, hwaiting⟩ := isSettled_runSteps hbefore robot
  rw [List.append_assoc]
  by_cases hnone : (runSteps before robot).item.2 = []
  · have hphase : Phase.notStarted ≠ .completed := by decide
    have hinside := walksAlike_inside (hfinished.append hdone) (hfinished'.append hdone)
      (runSteps before robot).robot inner hphase isSettled_nil hsteps hafter
    rw [runSteps_append_of_nil hnone, runSteps_append_of_nil hnone]
    simpa only [Polled.map, List.append_assoc, ofSteps] using hinside
  · rw [runSteps_append_of_cons hnone, runSteps_append_of_cons hnone]
    cases hfault : (runSteps before robot).fault with
    | none =>
        refine .on ?_ rfl hfault hfault ?_
        · simp only [Polled.map, ← List.append_assoc (runSteps before robot).item.2]
          exact .ahead inner (hfinished.append hdone) (hfinished'.append hdone) hwaiting hsteps
            hafter hrest
        · simp [Polled.map, hnone]
    | some error =>
        refine .failed error hfault hfault ?_
        simp only [Polled.map, Plan.abort_of_isSettled (hfinished.append hdone),
          Plan.abort_of_isSettled (hfinished'.append hdone), abortSteps_append,
          abortSteps_of_isAtRest hrest]
        rfl

end Walks

theorem isPlanBisimulation_inlined (allowed : Conditions → Prop) :
    IsPlanBisimulation allowed Inlined where
  walk := by
    intro first second h robot _
    cases h with
    | ahead inner hfinished hfinished' hbefore hsteps hafter hrest =>
        rw [walk_of_isSettled hfinished, walk_of_isSettled hfinished']
        exact walksAlike_ahead hfinished hfinished' robot inner hbefore hsteps hafter hrest
    | inside inner hfinished hfinished' hdone hleft hafter =>
        rw [walk_of_isSettled hfinished, walk_of_isSettled hfinished']
        exact walksAlike_inside hfinished hfinished' robot inner (by decide) hdone hleft hafter
    | behind hfinished hfinished' hremaining =>
        rw [walk_of_isSettled hfinished, walk_of_isSettled hfinished']
        exact walksAlike_behind hfinished hfinished' robot hremaining
  abort := by
    intro first second h robot
    cases h with
    | ahead inner hfinished hfinished' hbefore hsteps hafter hrest =>
        rw [Plan.abort_of_isSettled hfinished, Plan.abort_of_isSettled hfinished']
        simp only [abortSteps_append, abortSteps_of_isAtRest hrest]
        rfl
    | @inside finished finished' done left after inner hfinished hfinished' hdone hleft hafter =>
        rw [Plan.abort_of_isSettled hfinished, Plan.abort_of_isSettled hfinished']
        simp only [abortSteps_append, abortSteps, abortStep, Step.ofPrimary, abortAll, abort,
          abortSteps_of_isAtRest hdone.isAtRest]
    | behind hfinished hfinished' hremaining =>
        rw [Plan.abort_of_isSettled hfinished, Plan.abort_of_isSettled hfinished']

/-! ## Nesting is transparent -/

/-- A step that is nothing but a group, and the steps of that group in its place. -/
inductive Flattens : Command → Command → Prop
  | group (name inner : String) (before steps after : List (Step Command)) :
      Flattens (.ofSteps name (before ++ .ofPrimary (.ofSteps inner steps) :: after))
        (.ofSteps name (before ++ steps ++ after))

section Flattened

variable {first second : Command} (h : Flattens first second) (hunthreaded : first.IsUnthreaded)

include h hunthreaded

theorem Flattens.fresh (hfresh : first.IsFresh) : second.IsFresh ∧ second.IsUnthreaded := by
  obtain ⟨name, inner, before, steps, after⟩ := h
  have hmembers := isFresh_ofSteps_iff.mp hfresh
  have hplain := isUnthreaded_ofSteps_iff.mp hunthreaded
  have hgroup := List.mem_append_right before
    (List.mem_cons_self (a := Step.ofPrimary (Command.ofSteps inner steps)) (l := after))
  have hinner := isFresh_ofSteps_iff.mp (hmembers _ hgroup _ List.mem_cons_self)
  have hinner' := isUnthreaded_ofSteps_iff.mp ((hplain _ hgroup).2 _ List.mem_cons_self)
  have hrest : ∀ step ∈ after,
      step ∈ before ++ Step.ofPrimary (Command.ofSteps inner steps) :: after :=
    fun step hstep => List.mem_append_right _ (List.mem_cons_of_mem _ hstep)
  constructor
  · refine isFresh_ofSteps_iff.mpr
      (List.forall_mem_append.mpr ⟨List.forall_mem_append.mpr ⟨?_, hinner⟩, ?_⟩)
    · exact fun step hstep => hmembers step (List.mem_append_left _ hstep)
    · exact fun step hstep => hmembers step (hrest step hstep)
  · refine isUnthreaded_ofSteps_iff.mpr
      (List.forall_mem_append.mpr ⟨List.forall_mem_append.mpr ⟨?_, hinner'⟩, ?_⟩)
    · exact fun step hstep => hplain step (List.mem_append_left _ hstep)
    · exact fun step hstep => hplain step (hrest step hstep)

theorem Flattens.equivalent (allowed : Conditions → Prop) (hfresh : first.IsFresh) :
    Equivalent allowed first second := by
  obtain ⟨name, inner, before, steps, after⟩ := h
  have hplain := isUnthreaded_ofSteps_iff.mp hunthreaded
  have hgroup := List.mem_append_right before
    (List.mem_cons_self (a := Step.ofPrimary (Command.ofSteps inner steps)) (l := after))
  have hinner := isUnthreaded_ofSteps_iff.mp ((hplain _ hgroup).2 _ List.mem_cons_self)
  have hmembers := isFresh_ofSteps_iff.mp (isFresh_ofSteps_iff.mp hfresh _ hgroup _
    List.mem_cons_self)
  have hrest : IsAtRest steps := fun step hstep member hmember => by
    rw [(hmembers step hstep member hmember).phase]
    decide
  refine equivalent_group (isPlanBisimulation_inlined allowed) _ _ name name .notStarted
    (.ahead inner isSettled_nil isSettled_nil ?_ (fun step hstep => (hinner step hstep).1) ?_ hrest)
  · exact fun step hstep => (hplain step (List.mem_append_left _ hstep)).1
  · exact fun step hstep =>
      (hplain step (List.mem_append_right _ (List.mem_cons_of_mem _ hstep))).1

end Flattened

end Command

namespace Scene

open Command

/-- Steps may be gathered in a group of their own or left where they are: the
host sees the same, whatever it does and whatever the sensors and the clocks say. -/
theorem nested_groups_are_transparent {root root' : Command}
    (h : Relation.ReflTransGen (Within Flattens) root root') (hfresh : root.IsFresh)
    (hunthreaded : root.IsUnthreaded) (robot : Robot) {events : List Event}
    (hevents : ∀ event ∈ events, event.IsHosted fun _ => True) :
    (Scene.mk root robot).observe events = (Scene.mk root' robot).observe events :=
  observe_eq_of_within (fun h hfresh hunthreaded => h.fresh hunthreaded hfresh)
    (fun h hfresh hunthreaded => h.equivalent hunthreaded (fun _ => True) hfresh) h hfresh
    hunthreaded trivial hevents

/-- Two levels of groups, one of them empty, with a sensor that fails while the
inner steps run, and an abort after that. -/
theorem nested_groups_are_transparent_unplugged :
    let approach : List (Step Command) :=
      [⟨.timed "tank" ⟨30⟩ (.tank 1 1), [.convergence "advance" .distance 12 1 3], []⟩]
    let score : List (Step Command) := [.ofPrimary (.action "bucket" (.send .bucket .extended)),
      .ofPrimary (.waitUntil "window" ⟨50⟩)]
    let nested := Command.ofSteps "routine" (.ofPrimary (.ofSteps "approach"
      (.ofPrimary (.ofSteps "nothing" []) :: approach)) :: score)
    let robot := Robot.ofParameters {}
    let unplugged : Conditions := { robot.conditions with
      encoder := { robot.distance.sensor with outOfOrder := some "unplugged" }, clock := ⟨10⟩ }
    let events : List Event := [.poll, .change unplugged, .poll, .abort]
    (nested.IsFresh ∧ nested.IsUnthreaded) ∧
      (Scene.mk nested robot).observe events =
        (Scene.mk (.ofSteps "routine" (approach ++ score)) robot).observe events := by
  intro approach score nested robot unplugged events
  have hfresh : nested.IsFresh := by
    simp [nested, approach, score, isFresh_ofSteps_iff, Step.members, Step.ofPrimary, timed,
      convergence, action, waitUntil, isFresh_leaf]
  have hunthreaded : nested.IsUnthreaded := by
    simp [nested, approach, score, isUnthreaded_ofSteps_iff, Step.members, Step.ofPrimary, timed,
      convergence, action, waitUntil, isUnthreaded_leaf]
  have hold : nested.child? (.member 0 .primary) = some (.ofSteps "approach"
      (.ofPrimary (.ofSteps "nothing" []) :: approach)) := rfl
  have hempty : Within Flattens nested
      (.ofSteps "routine" (.ofPrimary (.ofSteps "approach" approach) :: score)) :=
    .deeper hold (.here (.group "approach" "nothing" [] [] approach))
  have hinner : Within Flattens
      (.ofSteps "routine" (.ofPrimary (.ofSteps "approach" approach) :: score))
      (.ofSteps "routine" (approach ++ score)) :=
    .here (.group "routine" "approach" [] approach score)
  exact ⟨⟨hfresh, hunthreaded⟩, nested_groups_are_transparent (.head hempty (.single hinner)) hfresh
    hunthreaded robot (by simp [events, Event.IsHosted])⟩

end Scene

end RobotRoutine

import Mathlib.Data.List.Nodup
import RobotRoutine.Proofs.Command.Lifecycle
import RobotRoutine.Proofs.Command.Run
import RobotRoutine.Proofs.Command.Visits

/-!
# Each command is polled once

Those whom a group may poll stand in a queue: the threaded companions of its finished
steps, then the members of the remaining steps. No two of them lie at the same place.
However many steps are completed on the way, one poll of the group serves the queue
from its head, in order and each command once, until somebody fails or a step is not
complete (`served_group`).

So nobody is polled twice (`nodup_visits`). In an orderly tree the members that run are
companions of finished steps or belong to the first step that remains, and these are
served in any case as long as nobody fails (`mem_visits`).
-/

namespace RobotRoutine

namespace Command

/-! ## Who is to be polled -/

/-- Commands in a row with the turns that lead to them. -/
def rowQueue (row : Nat → Turn) (index : Nat) (commands : List Command) : List (Turn × Command) :=
  (commands.zipIdx index).map fun (command, i) => (row i, command)

/-- All members of the step at an index. -/
def stepQueue (index : Nat) (step : Step Command) : List (Turn × Command) :=
  (.member index .primary, step.primary)
    :: (rowQueue (fun i => .member index (.companion i)) 0 step.companions
      ++ rowQueue (fun i => .member index (.beside i)) 0 step.threaded)

/-- All members of steps that are numbered from an index on. -/
def stepsQueue (index : Nat) : List (Step Command) → List (Turn × Command)
  | [] => []
  | step :: rest => stepQueue index step ++ stepsQueue (index + 1) rest

/-- The threaded companions among them. -/
def besideQueue (index : Nat) : List (Step Command) → List (Turn × Command)
  | [] => []
  | step :: rest =>
    rowQueue (fun i => .member index (.beside i)) 0 step.threaded ++ besideQueue (index + 1) rest

section Queues

variable {turn : Turn} {command : Command} {index : Nat} {steps : List (Step Command)}

theorem mem_rowQueue_iff {row : Nat → Turn} {commands : List Command} :
    (turn, command) ∈ rowQueue row index commands ↔
      ∃ i, turn = row (index + i) ∧ commands[i]? = some command := by
  induction commands generalizing index with
  | nil => simp [rowQueue]
  | cons first rest ih =>
      rw [show rowQueue row index (first :: rest) =
        (row index, first) :: rowQueue row (index + 1) rest from rfl, List.mem_cons, ih]
      constructor
      · rintro (h | ⟨i, rfl, hi⟩)
        · obtain ⟨rfl, rfl⟩ := Prod.mk.inj h
          exact ⟨0, rfl, rfl⟩
        · exact ⟨i + 1, by rw [Nat.add_right_comm, Nat.add_assoc], hi⟩
      · rintro ⟨i, rfl, hi⟩
        cases i with
        | zero => exact .inl (by rw [Option.some.inj hi]; rfl)
        | succ i => exact .inr ⟨i, by rw [Nat.add_right_comm, Nat.add_assoc], hi⟩

theorem mem_stepQueue_iff {step : Step Command} :
    (turn, command) ∈ stepQueue index step ↔
      ∃ role, turn = .member index role ∧ step.member? role = some command := by
  rw [stepQueue, List.mem_cons, List.mem_append, mem_rowQueue_iff, mem_rowQueue_iff]
  constructor
  · rintro (h | ⟨i, rfl, hi⟩ | ⟨i, rfl, hi⟩)
    · obtain ⟨rfl, rfl⟩ := Prod.mk.inj h
      exact ⟨.primary, rfl, rfl⟩
    · exact ⟨.companion i, by rw [Nat.zero_add], hi⟩
    · exact ⟨.beside i, by rw [Nat.zero_add], hi⟩
  · rintro ⟨role, rfl, hrole⟩
    cases role with
    | primary => exact .inl (by rw [Option.some.inj hrole])
    | companion i => exact .inr (.inl ⟨i, by rw [Nat.zero_add], hrole⟩)
    | beside i => exact .inr (.inr ⟨i, by rw [Nat.zero_add], hrole⟩)

theorem mem_stepsQueue_iff :
    (turn, command) ∈ stepsQueue index steps ↔
      ∃ i role, turn = .member (index + i) role ∧
        steps[i]?.bind (·.member? role) = some command := by
  induction steps generalizing index with
  | nil => simp [stepsQueue]
  | cons step rest ih =>
      rw [stepsQueue, List.mem_append, mem_stepQueue_iff, ih]
      constructor
      · rintro (⟨role, rfl, hrole⟩ | ⟨i, role, rfl, hrole⟩)
        · exact ⟨0, role, rfl, hrole⟩
        · exact ⟨i + 1, role, by rw [Nat.add_right_comm, Nat.add_assoc], hrole⟩
      · rintro ⟨i, role, rfl, hrole⟩
        cases i with
        | zero => exact .inl ⟨role, rfl, hrole⟩
        | succ i => exact .inr ⟨i, role, by rw [Nat.add_right_comm, Nat.add_assoc], hrole⟩

theorem mem_besideQueue {i j : Nat}
    (h : steps[i]?.bind (·.member? (.beside j)) = some command) :
    (.member (index + i) (.beside j), command) ∈ besideQueue index steps := by
  induction steps generalizing index i with
  | nil => simp at h
  | cons step rest ih =>
      rw [besideQueue, List.mem_append]
      cases i with
      | zero => exact .inl (mem_rowQueue_iff.mpr ⟨j, by rw [Nat.zero_add]; rfl, h⟩)
      | succ i =>
          refine .inr ?_
          rw [Nat.add_comm i 1, ← Nat.add_assoc]
          exact ih h

theorem besideQueue_sublist (index : Nat) (steps : List (Step Command)) :
    (besideQueue index steps).Sublist (stepsQueue index steps) := by
  induction steps generalizing index with
  | nil => exact .slnil
  | cons step rest ih =>
      exact List.Sublist.append
        ((List.sublist_append_right _ _).trans (List.sublist_cons_self _ _)) (ih (index + 1))

theorem stepsQueue_append (index : Nat) (first second : List (Step Command)) :
    stepsQueue index (first ++ second) =
      stepsQueue index first ++ stepsQueue (index + first.length) second := by
  induction first generalizing index with
  | nil => rfl
  | cons step rest ih =>
      rw [List.cons_append, stepsQueue, stepsQueue, ih, List.append_assoc, List.length_cons,
        Nat.add_right_comm, Nat.add_assoc]

theorem nodup_rowQueue {row : Nat → Turn} (hrow : Function.Injective row) (index : Nat)
    (commands : List Command) : ((rowQueue row index commands).map Prod.fst).Nodup := by
  have hturns : (rowQueue row index commands).map Prod.fst =
      (List.range' index commands.length).map row := by
    rw [← List.zipIdx_map_snd, List.map_map, rowQueue, List.map_map]
    rfl
  rw [hturns]
  exact (List.nodup_range' ..).map hrow

theorem nodup_stepQueue (index : Nat) (step : Step Command) :
    ((stepQueue index step).map Prod.fst).Nodup := by
  have hcompanion : Function.Injective fun i => Turn.member index (.companion i) :=
    fun i j h => by simpa using h
  have hbeside : Function.Injective fun i => Turn.member index (.beside i) :=
    fun i j h => by simpa using h
  rw [stepQueue, List.map_cons, List.map_append, List.nodup_cons, List.nodup_append']
  refine ⟨?_, nodup_rowQueue hcompanion 0 _, nodup_rowQueue hbeside 0 _, ?_⟩
  · simp [mem_rowQueue_iff]
  · intro turn hfirst hsecond
    obtain ⟨⟨_, c⟩, hc, rfl⟩ := List.mem_map.mp hfirst
    obtain ⟨⟨_, d⟩, hd, heq⟩ := List.mem_map.mp hsecond
    obtain ⟨i, rfl, -⟩ := mem_rowQueue_iff.mp hc
    obtain ⟨j, rfl, -⟩ := mem_rowQueue_iff.mp hd
    simp at heq

/-- No command stands twice among the members of different steps. -/
theorem nodup_stepsQueue (index : Nat) (steps : List (Step Command)) :
    ((stepsQueue index steps).map Prod.fst).Nodup := by
  induction steps generalizing index with
  | nil => exact .nil
  | cons step rest ih =>
      rw [stepsQueue, List.map_append, List.nodup_append']
      refine ⟨nodup_stepQueue index step, ih (index + 1), ?_⟩
      intro turn hfirst hsecond
      obtain ⟨⟨_, c⟩, hc, rfl⟩ := List.mem_map.mp hfirst
      obtain ⟨⟨_, d⟩, hd, heq⟩ := List.mem_map.mp hsecond
      obtain ⟨role, rfl, -⟩ := mem_stepQueue_iff.mp hc
      obtain ⟨i, role', rfl, -⟩ := mem_stepsQueue_iff.mp hd
      have hindex := (Turn.member.inj heq).1
      omega

end Queues

/-! ## How a queue is served -/

/-- Polls of the commands of a queue one after another, until one of them fails or none is
left, and the places that are visited in them. -/
inductive Served : List (Turn × Command) → Option RoutineError → List Place → Prop
  | nil : Served [] none []
  | failed {turn command rest robot error} (h : (command.pollNoted robot).fault = some error) :
      Served ((turn, command) :: rest) (some error) ((command.visits robot).map (turn :: ·))
  | cons {turn command rest robot fault places} (h : (command.pollNoted robot).fault = none)
      (hrest : Served rest fault places) :
      Served ((turn, command) :: rest) fault ((command.visits robot).map (turn :: ·) ++ places)

namespace Served

variable {first second queue : List (Turn × Command)} {fault : Option RoutineError}
  {places later : List Place}

theorem append (h : Served first none places) (hsecond : Served second fault later) :
    Served (first ++ second) fault (places ++ later) := by
  generalize hnone : (none : Option RoutineError) = result at h
  induction h with
  | nil => exact hsecond
  | failed => exact nomatch hnone
  | cons hpoll hrest ih =>
      rw [List.append_assoc]
      exact .cons hpoll (ih hnone)

theorem append_of_failed {error : RoutineError} (h : Served first (some error) places)
    (second : List (Turn × Command)) : Served (first ++ second) (some error) places := by
  generalize hsome : some error = result at h
  induction h with
  | nil => exact nomatch hsome
  | failed hpoll => exact .failed hpoll
  | cons hpoll hrest ih => exact .cons hpoll (ih hsome)

theorem turn_mem (h : Served queue fault places) {place : Place} (hplace : place ∈ places) :
    ∃ turn rest, place = turn :: rest ∧ turn ∈ queue.map Prod.fst := by
  induction h with
  | nil => exact nomatch hplace
  | failed =>
      obtain ⟨rest, -, rfl⟩ := List.mem_map.mp hplace
      exact ⟨_, rest, rfl, List.mem_cons_self⟩
  | cons _ _ ih =>
      rcases List.mem_append.mp hplace with hplace | hplace
      · obtain ⟨rest, -, rfl⟩ := List.mem_map.mp hplace
        exact ⟨_, rest, rfl, List.mem_cons_self⟩
      · obtain ⟨turn, rest, rfl, hturn⟩ := ih hplace
        exact ⟨turn, rest, rfl, List.mem_cons_of_mem _ hturn⟩

/-- What holds of every place below, and of the way there, holds of the places that are visited. -/
theorem forall_mem {p : Place → Prop} (h : Served queue fault places)
    (hqueue : ∀ turn command, (turn, command) ∈ queue → ∀ robot, ∀ place ∈ command.visits robot,
      p (turn :: place)) : ∀ place ∈ places, p place := by
  intro place hplace
  induction h with
  | nil => exact nomatch hplace
  | failed =>
      obtain ⟨rest, hrest, rfl⟩ := List.mem_map.mp hplace
      exact hqueue _ _ List.mem_cons_self _ rest hrest
  | cons _ _ ih =>
      rcases List.mem_append.mp hplace with hplace | hplace
      · obtain ⟨rest, hrest, rfl⟩ := List.mem_map.mp hplace
        exact hqueue _ _ List.mem_cons_self _ rest hrest
      · exact ih (fun turn command hmem => hqueue turn command (List.mem_cons_of_mem _ hmem)) hplace

theorem nodup (h : Served queue fault places) (hturns : (queue.map Prod.fst).Nodup)
    (hqueue : ∀ turn command, (turn, command) ∈ queue → ∀ robot, (command.visits robot).Nodup) :
    places.Nodup := by
  have hinjective (turn : Turn) : Function.Injective (turn :: · : Place → Place) :=
    fun _ _ h => (List.cons.inj h).2
  induction h with
  | nil => exact .nil
  | failed => exact (hqueue _ _ List.mem_cons_self _).map (hinjective _)
  | @cons turn command rest robot _ later _ hrest ih =>
      obtain ⟨hnew, hturns⟩ := List.nodup_cons.mp hturns
      refine List.nodup_append'.mpr ⟨(hqueue _ _ List.mem_cons_self _).map (hinjective _),
        ih hturns fun t c hmem => hqueue t c (List.mem_cons_of_mem _ hmem), ?_⟩
      -- What is visited later begins with another turn.
      intro place hplace hlater
      obtain ⟨below, -, rfl⟩ := List.mem_map.mp hplace
      obtain ⟨_, _, heq, hturn⟩ := hrest.turn_mem hlater
      exact hnew ((List.cons.inj heq).1 ▸ hturn)

/-- If nobody failed, everybody in the queue was polled and did not fail. -/
theorem exists_visits (h : Served queue none places) {turn : Turn} {command : Command}
    (hmem : (turn, command) ∈ queue) :
    ∃ robot, (command.pollNoted robot).fault = none ∧
      ∀ place ∈ command.visits robot, turn :: place ∈ places := by
  generalize hnone : (none : Option RoutineError) = result at h
  induction h with
  | nil => exact nomatch hmem
  | failed => exact nomatch hnone
  | cons hpoll _ ih =>
      rcases List.mem_cons.mp hmem with heq | hmem
      · obtain ⟨rfl, rfl⟩ := Prod.mk.inj heq
        exact ⟨_, hnone ▸ hpoll, fun place hplace =>
          List.mem_append_left _ (List.mem_map_of_mem hplace)⟩
      · obtain ⟨robot, hfault, hplaces⟩ := ih hmem hnone
        exact ⟨robot, hfault, fun place hplace => List.mem_append_right _ (hplaces place hplace)⟩

end Served

theorem served_pollAll (row : Nat → Turn) (index : Nat) (commands : List Command) (robot : Robot) :
    Served (rowQueue row index commands) (pollAllNoted row index commands robot).fault
      (pollAllNoted row index commands robot).item.2 := by
  induction commands generalizing index robot with
  | nil => exact .nil
  | cons command rest ih =>
      rw [pollAllNoted]
      cases hfault : (command.pollNoted robot).fault with
      | some error =>
          simp only [Polled.under, hfault]
          exact .failed hfault
      | none =>
          simp only [Polled.under, hfault]
          exact .cons hfault (ih (index + 1) _)

theorem served_pollStep (index : Nat) (step : Step Command) (robot : Robot) :
    Served (stepQueue index step) (pollStepNoted index step robot).fault
      (pollStepNoted index step robot).item.2 := by
  obtain ⟨primary, companions, beside⟩ := step
  rw [pollStepNoted]
  cases hprimary : (primary.pollNoted robot).fault with
  | some error =>
      simp only [Polled.under, hprimary]
      exact .failed hprimary
  | none =>
      simp only [Polled.under, hprimary]
      have hcompanions := served_pollAll (fun i => .member index (.companion i)) 0 companions
        (primary.pollNoted robot).robot
      generalize pollAllNoted (fun i => .member index (.companion i)) 0 companions
        (primary.pollNoted robot).robot = second at hcompanions ⊢
      obtain ⟨⟨item, places⟩, robot', fault⟩ := second
      cases fault with
      | some error => exact .cons hprimary (hcompanions.append_of_failed _)
      | none =>
          simp only [Polled.following, List.append_assoc]
          exact .cons hprimary (hcompanions.append (served_pollAll _ 0 beside _))

theorem served_pollFinished (index : Nat) (steps : List (Step Command)) (robot : Robot) :
    Served (besideQueue index steps) (pollFinishedNoted index steps robot).fault
      (pollFinishedNoted index steps robot).item.2 := by
  induction steps generalizing index robot with
  | nil => exact .nil
  | cons step rest ih =>
      obtain ⟨primary, companions, beside⟩ := step
      rw [pollFinishedNoted]
      have hbeside := served_pollAll (fun i => .member index (.beside i)) 0 beside robot
      generalize pollAllNoted (fun i => .member index (.beside i)) 0 beside robot = first
        at hbeside ⊢
      obtain ⟨⟨item, places⟩, robot', fault⟩ := first
      cases fault with
      | some error => exact hbeside.append_of_failed _
      | none => exact hbeside.append (ih (index + 1) _)

/-- The steps that are run are the first ones, one at least if there are any. -/
theorem served_runSteps (index : Nat) (steps : List (Step Command)) (robot : Robot) :
    ∃ reached later, steps = reached ++ later ∧ (steps ≠ [] → reached ≠ []) ∧
      Served (stepsQueue index reached) (runStepsNoted index steps robot).fault
        (runStepsNoted index steps robot).item.2 := by
  induction steps generalizing index robot with
  | nil => exact ⟨[], [], rfl, fun h => h, .nil⟩
  | cons step rest ih =>
      have hstep := served_pollStep index step robot
      have hone : stepsQueue index [step] = stepQueue index step := List.append_nil _
      rw [runStepsNoted]
      generalize pollStepNoted index step robot = first at hstep ⊢
      obtain ⟨⟨item, places⟩, robot', fault⟩ := first
      cases fault with
      | some error => exact ⟨[step], rest, rfl, fun _ => List.cons_ne_nil _ _, hone ▸ hstep⟩
      | none =>
          simp only
          split
          · obtain ⟨reached, later, rfl, -, hrest⟩ := ih (index + 1) robot'
            exact ⟨step :: reached, later, rfl, fun _ => List.cons_ne_nil _ _, hstep.append hrest⟩
          · exact ⟨[step], rest, rfl, fun _ => List.cons_ne_nil _ _, hone ▸ hstep⟩

theorem served_walk (finished remaining : List (Step Command)) (robot : Robot) :
    ∃ reached later, remaining = reached ++ later ∧ (remaining ≠ [] → reached ≠ []) ∧
      Served (besideQueue 0 finished ++ stepsQueue finished.length reached)
        (walkNoted finished remaining robot).fault (walkNoted finished remaining robot).item.2 := by
  have hbeside := served_pollFinished 0 finished robot
  rw [walkNoted]
  generalize pollFinishedNoted 0 finished robot = beside at hbeside ⊢
  obtain ⟨⟨item, places⟩, robot', fault⟩ := beside
  cases fault with
  | some error =>
      exact ⟨remaining, [], (List.append_nil _).symm, fun h => h, hbeside.append_of_failed _⟩
  | none =>
      obtain ⟨reached, later, hsteps, hsome, hreached⟩ :=
        served_runSteps finished.length remaining robot'
      exact ⟨reached, later, hsteps, hsome, hbeside.append hreached⟩

/-- A poll of a group that is not completed visits the group, then the threaded
companions of finished steps, then the members of the next steps. -/
theorem served_group (name : String) {phase : Phase} (h : phase ≠ .completed)
    (finished remaining : List (Step Command)) (robot : Robot) :
    let group := Command.group name phase finished remaining
    ∃ reached later places, remaining = reached ++ later ∧ (remaining ≠ [] → reached ≠ []) ∧
      Served (besideQueue 0 finished ++ stepsQueue finished.length reached)
        (group.pollNoted robot).fault places ∧
      group.visits robot = [] :: places := by
  intro group
  obtain ⟨reached, later, hsteps, hsome, hserved⟩ := served_walk finished remaining robot
  have hfault : (group.pollNoted robot).fault = (walkNoted finished remaining robot).fault := by
    rw [pollNoted_group h]
    exact fault_finishIf _ _
  have hvisits : group.visits robot = [] :: (walkNoted finished remaining robot).item.2 := by
    rw [visits, pollNoted_group h]
    rfl
  exact ⟨reached, later, _, hsteps, hsome, hfault ▸ hserved, hvisits⟩

/-! ## A whole tree -/

theorem mem_child?_of_mem_queue (name : String) (phase : Phase)
    {finished reached : List (Step Command)} (later : List (Step Command)) {turn : Turn}
    {command : Command}
    (h : (turn, command) ∈ besideQueue 0 finished ++ stepsQueue finished.length reached) :
    (Command.group name phase finished (reached ++ later)).child? turn = some command := by
  have hsublist := (besideQueue_sublist 0 finished).append_right
    (stepsQueue finished.length reached)
  have hall : (turn, command) ∈ stepsQueue 0 (finished ++ reached) := by
    rw [stepsQueue_append, Nat.zero_add]
    exact hsublist.subset h
  obtain ⟨i, role, rfl, hrole⟩ := mem_stepsQueue_iff.mp hall
  rw [Nat.zero_add, child?, ← List.append_assoc]
  obtain ⟨step, hstep, hmember⟩ := Option.bind_eq_some_iff.mp hrole
  obtain ⟨hlt, -⟩ := List.getElem?_eq_some_iff.mp hstep
  rw [List.getElem?_append_left hlt]
  exact hrole

theorem nil_mem_visits (command : Command) (robot : Robot) : [] ∈ command.visits robot := by
  match command with
  | .leaf .. | .threaded .. => exact List.mem_cons_self
  | .group name phase finished remaining =>
      by_cases hphase : phase = .completed
      · subst hphase
        exact List.mem_cons_self
      · obtain ⟨_, _, _, -, -, -, hvisits⟩ := served_group name hphase finished remaining robot
        rw [hvisits]
        exact List.mem_cons_self

/-- No command is polled twice in one poll of the root. -/
theorem nodup_visits (command : Command) (robot : Robot) : (command.visits robot).Nodup := by
  induction command using childInduction generalizing robot with
  | step command ih =>
  match command with
  | .leaf .. | .threaded .. => exact List.nodup_singleton _
  | .group name phase finished remaining =>
      by_cases hphase : phase = .completed
      · subst hphase
        exact List.nodup_singleton _
      · obtain ⟨reached, later, places, rfl, -, hserved, hvisits⟩ :=
          served_group name hphase finished remaining robot
        rw [hvisits, List.nodup_cons]
        refine ⟨fun hself => ?_, hserved.nodup ?_ fun turn child hmem =>
          ih turn child (mem_child?_of_mem_queue name phase later hmem)⟩
        · obtain ⟨_, _, hcons, -⟩ := hserved.turn_mem hself
          exact nomatch hcons
        · have hsublist := (besideQueue_sublist 0 finished).append_right
            (stepsQueue finished.length reached)
          have hnodup := nodup_stepsQueue 0 (finished ++ reached)
          rw [stepsQueue_append, Nat.zero_add] at hnodup
          exact hnodup.sublist (hsublist.map Prod.fst)

/-- What a wrapper hands to its worker is not polled by anybody else. -/
theorem inner_notMem_of_mem_visits {command : Command} {robot : Robot} {place : Place}
    (h : place ∈ command.visits robot) : .inner ∉ place := by
  induction command using childInduction generalizing robot place with
  | step command ih =>
  match command with
  | .leaf .. | .threaded .. =>
      obtain rfl := List.mem_singleton.mp h
      exact List.not_mem_nil
  | .group name phase finished remaining =>
      by_cases hphase : phase = .completed
      · subst hphase
        obtain rfl := List.mem_singleton.mp h
        exact List.not_mem_nil
      · obtain ⟨reached, later, places, rfl, -, hserved, hvisits⟩ :=
          served_group name hphase finished remaining robot
        rw [hvisits] at h
        rcases List.mem_cons.mp h with rfl | h
        · exact List.not_mem_nil
        · refine hserved.forall_mem (p := (.inner ∉ ·)) ?_ place h
          intro turn child hmem robot' below hbelow
          have hchild := mem_child?_of_mem_queue name phase later hmem
          intro hinner
          rcases List.mem_cons.mp hinner with rfl | hinner
          · exact nomatch hchild
          · exact ih turn child hchild hbelow hinner

/-- A running member of a running group is among those to be polled: what it belongs to
is a finished step that did not wait for it, or the first of the steps that are run. -/
theorem mem_queue_of_running {name : String} {finished reached later : List (Step Command)}
    {index : Nat} {role : Role} {child : Command}
    (ho : Orderly (.group name .running finished (reached ++ later)))
    (hsome : reached ++ later ≠ [] → reached ≠ [])
    (hchild : (Command.group name .running finished (reached ++ later)).child?
      (.member index role) = some child)
    (hrunning : child.phase = .running) :
    (.member index role, child) ∈
      besideQueue 0 finished ++ stepsQueue finished.length reached := by
  have hfinished := ho.finished index role child
  have hahead := ho.ahead index role child
  rw [current] at hfinished hahead
  have hmember := hchild
  rw [child?] at hmember
  rw [List.mem_append]
  rcases Nat.lt_trichotomy index finished.length with hlt | rfl | hgt
  · cases role with
    | primary | companion =>
        have hcompleted := hfinished hlt rfl hchild
        exact absurd (hrunning.symm.trans hcompleted) (by decide)
    | beside i =>
        rw [List.getElem?_append_left hlt] at hmember
        have hqueue : (.member (0 + index) (.beside i), child) ∈ besideQueue 0 finished :=
          mem_besideQueue hmember
        rw [Nat.zero_add] at hqueue
        exact .inl hqueue
  · rw [List.getElem?_append_right (Nat.le_refl _), Nat.sub_self] at hmember
    cases reached with
    | nil =>
        obtain rfl : later = [] := Classical.byContradiction fun h => hsome h rfl
        cases hmember
    | cons step rest => exact .inr (mem_stepsQueue_iff.mpr ⟨0, role, rfl, hmember⟩)
  · exact absurd (hrunning.symm.trans (hahead hgt hchild).phase) (by decide)

/-- What runs in an orderly tree is polled unless somebody fails. -/
theorem mem_visits {command part : Command} {place : Place} {robot : Robot}
    (ho : Everywhere Orderly command) (hfault : (command.pollNoted robot).fault = none)
    (hplace : .inner ∉ place) (hat : command.at? place = some part)
    (hrunning : part.phase = .running) : place ∈ command.visits robot := by
  induction place generalizing command robot with
  | nil => exact nil_mem_visits command robot
  | cons turn rest ih =>
      obtain ⟨child, hchild, hbelow⟩ := Option.bind_eq_some_iff.mp hat
      have hself : command.phase = .running := Classical.byContradiction fun h =>
        (isQuiet_of_orderly ho h (turn :: rest) part hat).1 hrunning
      have hchildRunning : child.phase = .running := Classical.byContradiction fun h =>
        (isQuiet_of_orderly (ho.child hchild) h rest part hbelow).1 hrunning
      match command, turn with
      | .group name phase finished remaining, .member index role =>
          obtain rfl : phase = .running := hself
          obtain ⟨reached, later, places, rfl, hsome, hserved, hvisits⟩ :=
            served_group name (nofun : Phase.running ≠ .completed) finished remaining robot
          have hmem := mem_queue_of_running ho.self hsome hchild hchildRunning
          rw [hfault] at hserved
          obtain ⟨robot', hchildFault, hplaces⟩ := hserved.exists_visits hmem
          rw [hvisits]
          refine List.mem_cons_of_mem _ (hplaces rest ?_)
          exact ih (ho.child hchild) hchildFault (fun h => hplace (List.mem_cons_of_mem _ h)) hbelow
      | .threaded .., .inner => exact absurd List.mem_cons_self hplace
      | .leaf .., _ | .threaded .., .member .. | .group .., .inner => exact nomatch hchild

end Command

namespace Scene

open Command

/-- Wherever a run has come to, a poll of the root calls the poll of no command twice,
and that of every command which was running once, unless it fails. What is handed to
workers is left to them. -/
theorem polled_once {root : Command} (hroot : root.IsFresh) (robot : Robot)
    (events : List Event) :
    let scene := (Scene.mk root robot).after events
    let noted := scene.root.pollNoted scene.robot
    noted.map Prod.fst = scene.root.poll scene.robot ∧
      (∀ place, noted.item.2.count place ≤ 1) ∧
      (∀ place, .inner ∈ place → noted.item.2.count place = 0) ∧
      (noted.fault = none → ∀ place part, .inner ∉ place → scene.root.at? place = some part →
        part.phase = .running → noted.item.2.count place = 1) := by
  intro scene noted
  have ho : Everywhere Orderly scene.root := orderly_after hroot.orderly events
  have hnodup : noted.item.2.Nodup := nodup_visits scene.root scene.robot
  refine ⟨pollNoted_fst _ _, List.nodup_iff_count_le_one.mp hnodup, fun place hinner => ?_,
    fun hfault place part hplace hat hrunning => ?_⟩
  · exact List.count_eq_zero.mpr fun hmem => inner_notMem_of_mem_visits hmem hinner
  · exact List.count_eq_one_of_mem hnodup (mem_visits ho hfault hplace hat hrunning)

/-- The first poll completes two steps. In the second one the approach beside the first
of them is polled, and so are all parts of the third step. -/
theorem polled_once_beside_finished :
    let pause : Command := .ofSteps "pause" ([.sequential (.timed "wait" ⟨50⟩ .idle),
      .concurrent (.waitUntil "window" ⟨70⟩)].foldl Addition.addTo [])
    let root : Command := .ofSteps "routine" ([.sequential (.action "stop" .stopDrive),
      .threaded (.convergence "approach" .distance 10 1 3) ⟨20⟩,
      .sequential (.action "stop again" .stopDrive), .sequential pause].foldl Addition.addTo [])
    let scene := (Scene.mk root (Robot.ofParameters {})).after [.poll]
    let noted := scene.root.pollNoted scene.robot
    (root.IsFresh ∧ noted.fault = none ∧
        (scene.root.at? [.member 0 (.beside 0)]).map phase = some .running ∧
        (scene.root.at? [.member 2 .primary, .member 0 (.companion 0)]).map phase =
          some .running) ∧
      noted.item.2.count [.member 0 (.beside 0)] = 1 ∧
      noted.item.2.count [.member 2 .primary, .member 0 (.companion 0)] = 1 := by
  intro pause root scene noted
  have hpause : Assembled pause := by
    refine .group _ _ ?_
    simp only [List.forall_mem_cons, List.not_mem_nil, false_imp_iff, implies_true, and_true]
    exact ⟨.timed .., .waitUntil ..⟩
  have hroot : root.IsFresh := by
    refine Assembled.isFresh (.group _ _ ?_)
    simp only [List.forall_mem_cons, List.not_mem_nil, false_imp_iff, implies_true, and_true]
    exact ⟨.action .., .convergence .., .action .., hpause⟩
  have hfault : noted.fault = none := by decide +kernel
  have hbeside : (scene.root.at? [.member 0 (.beside 0)]).map phase = some .running := by
    decide +kernel
  have hnested : (scene.root.at? [.member 2 .primary, .member 0 (.companion 0)]).map phase =
      some .running := by decide +kernel
  obtain ⟨approach, happroach, happroachRunning⟩ := Option.map_eq_some_iff.mp hbeside
  obtain ⟨window, hwindow, hwindowRunning⟩ := Option.map_eq_some_iff.mp hnested
  obtain ⟨-, -, -, hpolled⟩ := polled_once hroot (Robot.ofParameters {}) [.poll]
  subst noted scene
  exact ⟨⟨hroot, hfault, hbeside, hnested⟩,
    hpolled hfault _ approach (by decide) happroach happroachRunning,
    hpolled hfault _ window (by decide) hwindow hwindowRunning⟩

end Scene

end RobotRoutine

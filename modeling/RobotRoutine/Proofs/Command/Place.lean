import RobotRoutine.Command.Worker

/-!
# Places in a command tree

A place says how to get from a command to one below it: into the wrapper's
inner command, or to a member of one of the group's steps. Steps are counted
over finished and remaining ones alike, so a place goes on meaning the same
command while the group advances.

`child?` and `setChild` read and replace one command directly below another,
and the two lens laws `child?_setChild_self` and `child?_setChild_ne` are all
that later files know about them. `Everywhere` says that something holds of a
command and of all below it.
-/

namespace RobotRoutine

/-- The part that a command plays in its step. -/
inductive Role where
  | primary
  | companion (index : Nat)
  | beside (index : Nat)
deriving DecidableEq

namespace Role

/-- Whether the step waits for the command. -/
def isBlocking : Role → Bool
  | .primary | .companion _ => true
  | .beside _ => false

end Role

namespace Step

variable {α : Type}

/-- The command that plays a part in the step. -/
def member? (step : Step α) : Role → Option α
  | .primary => some step.primary
  | .companion index => step.companions[index]?
  | .beside index => step.threaded[index]?

/-- The step with another command in a part. -/
def setMember (step : Step α) (role : Role) (member : α) : Step α :=
  match role with
  | .primary => { step with primary := member }
  | .companion index => { step with companions := step.companions.set index member }
  | .beside index => { step with threaded := step.threaded.set index member }

theorem member?_setMember_self {step : Step α} {role : Role} {old : α} (new : α)
    (h : step.member? role = some old) :
    (step.setMember role new).member? role = some new := by
  cases role with
  | primary => rfl
  | companion index | beside index =>
      obtain ⟨hlt, -⟩ := List.getElem?_eq_some_iff.mp h
      exact List.getElem?_set_self hlt

theorem setMember_self {step : Step α} {role : Role} {member : α}
    (h : step.member? role = some member) : step.setMember role member = step := by
  cases role with
  | primary =>
      obtain rfl := Option.some.inj h
      rfl
  | companion index =>
      obtain ⟨hlt, rfl⟩ := List.getElem?_eq_some_iff.mp h
      exact congrArg (Step.mk step.primary · step.threaded) (List.set_getElem_self hlt)
  | beside index =>
      obtain ⟨hlt, rfl⟩ := List.getElem?_eq_some_iff.mp h
      exact congrArg (Step.mk step.primary step.companions ·) (List.set_getElem_self hlt)

theorem setMember_setMember (step : Step α) (role : Role) (first second : α) :
    (step.setMember role first).setMember role second = step.setMember role second := by
  cases role <;> simp [setMember]

theorem member?_setMember_none {step : Step α} {role : Role} (new : α)
    (h : step.member? role = none) : (step.setMember role new).member? role = none := by
  cases role with
  | primary => simp [member?] at h
  | companion index | beside index => simpa [member?, setMember] using h

theorem member?_setMember_ne {step : Step α} {role other : Role} (new : α) (h : other ≠ role) :
    (step.setMember role new).member? other = step.member? other := by
  cases role <;> cases other <;>
    simp_all [member?, setMember, List.getElem?_set_ne, eq_comm]

theorem mem_members_of_member? {step : Step α} {role : Role} {member : α}
    (h : step.member? role = some member) : member ∈ step.members := by
  cases role with
  | primary =>
      obtain rfl := Option.some.inj h
      exact List.mem_cons_self
  | companion index =>
      exact List.mem_cons_of_mem _ (List.mem_append_left _ (List.mem_of_getElem? h))
  | beside index =>
      exact List.mem_cons_of_mem _ (List.mem_append_right _ (List.mem_of_getElem? h))

theorem exists_member?_of_mem_members {step : Step α} {member : α} (h : member ∈ step.members) :
    ∃ role, step.member? role = some member := by
  rcases List.mem_cons.mp h with rfl | h
  · exact ⟨.primary, rfl⟩
  · rcases List.mem_append.mp h with h | h
    · obtain ⟨index, h⟩ := List.mem_iff_getElem?.mp h
      exact ⟨.companion index, h⟩
    · obtain ⟨index, h⟩ := List.mem_iff_getElem?.mp h
      exact ⟨.beside index, h⟩

theorem mem_blocking_iff {step : Step α} {member : α} :
    member ∈ step.blocking ↔ ∃ role, role.isBlocking ∧ step.member? role = some member := by
  constructor
  · intro h
    rcases List.mem_cons.mp h with rfl | h
    · exact ⟨.primary, rfl, rfl⟩
    · obtain ⟨index, h⟩ := List.mem_iff_getElem?.mp h
      exact ⟨.companion index, rfl, h⟩
  · rintro ⟨role, hrole, h⟩
    cases role with
    | primary =>
        obtain rfl := Option.some.inj h
        exact List.mem_cons_self
    | companion index => exact List.mem_cons_of_mem _ (List.mem_of_getElem? h)
    | beside index => simp [Role.isBlocking] at hrole

end Step

/-- One step down in a command tree. -/
inductive Turn where
  /-- Into what a wrapper hands to its worker. -/
  | inner
  /-- To a member of one of a group's steps. -/
  | member (step : Nat) (role : Role)
deriving DecidableEq

/-- The way from a command to one below it. -/
abbrev Place := List Turn

namespace Command

/-- The command directly below another in some direction. -/
def child? : Command → Turn → Option Command
  | .threaded _ _ _ _ inner, .inner => some inner
  | .group _ _ finished remaining, .member step role =>
    (finished ++ remaining)[step]?.bind (·.member? role)
  | _, _ => none

/-- The command with another one directly below it in some direction. -/
def setChild : Command → Turn → Command → Command
  | .threaded name phase cadence task _, .inner, child => .threaded name phase cadence task child
  | .group name phase finished remaining, .member step role, child =>
    if step < finished.length then
      .group name phase (finished.modify step (·.setMember role child)) remaining
    else
      .group name phase finished
        (remaining.modify (step - finished.length) (·.setMember role child))
  | command, _, _ => command

/-- The command at a place. -/
def at? : Place → Command → Option Command
  | [], command => some command
  | turn :: rest, command => (command.child? turn).bind (at? rest)

/-- Does something to the command at a place, if there is one. -/
def visit (act : Command → Robot → Command × Robot) : Place → Command → Robot → Command × Robot
  | [], command, robot => act command robot
  | turn :: rest, command, robot =>
    match command.child? turn with
    | none => (command, robot)
    | some child =>
      let (child, robot) := visit act rest child robot
      (command.setChild turn child, robot)

/-- One round of the worker that the command was handed to. -/
def iterateWorker : Command → Robot → Command × Robot
  | .threaded name phase cadence (some task) inner, robot =>
    let (worker, robot) := Worker.iterate ⟨task, inner⟩ robot
    (.threaded name phase cadence (some worker.task) worker.command, robot)
  | command, robot => (command, robot)

/-- The worker's side of a wrapper, if the worker was started. -/
def task? : Command → Option Task
  | .threaded _ _ _ task _ => task
  | _ => none

/-- How many steps of a group are finished. -/
def current : Command → Nat
  | .group _ _ finished _ => finished.length
  | _ => 0

/-! ## The lens laws -/

theorem modify_append_of_lt {α : Type} (f : α → α) {xs ys : List α} {i : Nat}
    (h : i < xs.length) : xs.modify i f ++ ys = (xs ++ ys).modify i f := by
  apply List.ext_getElem?
  intro j
  simp only [List.getElem?_append, List.getElem?_modify, List.length_modify]
  grind

theorem modify_append_of_ge {α : Type} (f : α → α) {xs ys : List α} {i : Nat}
    (h : xs.length ≤ i) : xs ++ ys.modify (i - xs.length) f = (xs ++ ys).modify i f := by
  apply List.ext_getElem?
  intro j
  simp only [List.getElem?_append, List.getElem?_modify]
  grind

/-- Replacing a member of a group leaves the number of finished steps alone,
and changes one step of the whole row. -/
theorem setChild_group (name : String) (phase : Phase) (finished remaining : List (Step Command))
    (step : Nat) (role : Role) (child : Command) :
    ∃ finished' remaining',
      setChild (.group name phase finished remaining) (.member step role) child =
        .group name phase finished' remaining' ∧
      finished'.length = finished.length ∧ remaining'.length = remaining.length ∧
      finished' ++ remaining' = (finished ++ remaining).modify step (·.setMember role child) := by
  rw [setChild]
  split
  · next h => exact ⟨_, _, rfl, List.length_modify .., rfl, modify_append_of_lt _ h⟩
  · next h => exact ⟨_, _, rfl, rfl, List.length_modify .., modify_append_of_ge _ (by omega)⟩

theorem child?_setChild_self {command child : Command} {turn : Turn} (new : Command)
    (h : command.child? turn = some child) :
    (command.setChild turn new).child? turn = some new := by
  match command, turn with
  | .threaded .., .inner => rfl
  | .group name phase finished remaining, .member step role =>
      obtain ⟨finished', remaining', hset, -, -, hrow⟩ :=
        setChild_group name phase finished remaining step role new
      rw [hset, child?, hrow, List.getElem?_modify_eq]
      rw [child?, Option.bind_eq_some_iff] at h
      obtain ⟨row, hrow, hmember⟩ := h
      rw [hrow]
      exact Step.member?_setMember_self new hmember
  | .leaf .., _ | .threaded .., .member .. | .group .., .inner => simp [child?] at h

theorem child?_setChild_ne {command new : Command} {turn other : Turn} (h : other ≠ turn) :
    (command.setChild turn new).child? other = command.child? other := by
  match command, turn with
  | .threaded .., .inner =>
      cases other with
      | inner => exact absurd rfl h
      | member step role => rfl
  | .group name phase finished remaining, .member step role =>
      obtain ⟨finished', remaining', hset, -, -, hrow⟩ :=
        setChild_group name phase finished remaining step role new
      rw [hset]
      cases other with
      | inner => rfl
      | member step' role' =>
          rw [child?, child?, hrow, List.getElem?_modify]
          split
          · next hstep =>
              subst hstep
              have hrole : role' ≠ role := fun hrole => h (by rw [hrole])
              cases (finished ++ remaining)[step]? with
              | none => rfl
              | some row => exact Step.member?_setMember_ne new hrole
          · next hstep => cases (finished ++ remaining)[step']? <;> rfl
  | .leaf .., _ | .threaded .., .member .. | .group .., .inner => rfl

theorem setChild_self {command child : Command} {turn : Turn}
    (h : command.child? turn = some child) : command.setChild turn child = command := by
  match command, turn with
  | .threaded .., .inner =>
      obtain rfl := Option.some.inj h
      rfl
  | .group name phase finished remaining, .member step role =>
      rw [child?, Option.bind_eq_some_iff] at h
      obtain ⟨row, hrow, hmember⟩ := h
      have hself : ∀ (steps : List (Step Command)) (i : Nat), steps[i]? = some row →
          steps.modify i (·.setMember role child) = steps := by
        intro steps i hi
        apply List.ext_getElem?
        intro j
        rw [List.getElem?_modify]
        split
        · next hij =>
            rw [← hij, hi, Option.map_eq_map, Option.map_some, Step.setMember_self hmember]
        · exact Option.map_id'
      rw [setChild]
      split
      · next hlt => rw [hself _ _ (by rwa [List.getElem?_append_left hlt] at hrow)]
      · next hge => rw [hself _ _ (by rwa [List.getElem?_append_right (by omega)] at hrow)]
  | .leaf .., _ | .threaded .., .member .. | .group .., .inner => rfl

theorem setChild_setChild (command first second : Command) (turn : Turn) :
    (command.setChild turn first).setChild turn second = command.setChild turn second := by
  match command, turn with
  | .group name phase finished remaining, .member step role =>
      have htwice : ((·.setMember role second) ∘ (·.setMember role first) :
          Step Command → Step Command) = (·.setMember role second) :=
        funext fun row => Step.setMember_setMember row role first second
      by_cases hlt : step < finished.length
      · simp only [setChild, if_pos hlt, List.length_modify, List.modify_modify_eq, htwice]
      · simp only [setChild, if_neg hlt, List.modify_modify_eq, htwice]
  | .threaded .., .inner | .leaf .., _ | .threaded .., .member .. | .group .., .inner => rfl

theorem child?_setChild_none {command new : Command} {turn : Turn}
    (h : command.child? turn = none) : (command.setChild turn new).child? turn = none := by
  match command, turn with
  | .group name phase finished remaining, .member step role =>
      obtain ⟨finished', remaining', hset, -, -, hrow⟩ :=
        setChild_group name phase finished remaining step role new
      rw [hset, child?, hrow, List.getElem?_modify_eq]
      rw [child?] at h
      cases hold : (finished ++ remaining)[step]? with
      | none => rfl
      | some row =>
          rw [hold] at h
          exact Step.member?_setMember_none new h
  | .threaded .., .inner => simp [child?] at h
  | .leaf .., _ | .threaded .., .member .. | .group .., .inner => rfl

@[simp]
theorem phase_setChild (command child : Command) (turn : Turn) :
    (command.setChild turn child).phase = command.phase := by
  match command, turn with
  | .group name phase finished remaining, .member step role =>
      obtain ⟨_, _, hset, -⟩ := setChild_group name phase finished remaining step role child
      rw [hset]
      rfl
  | .threaded .., .inner | .leaf .., _ | .threaded .., .member .. | .group .., .inner => rfl

@[simp]
theorem current_setChild (command child : Command) (turn : Turn) :
    (command.setChild turn child).current = command.current := by
  match command, turn with
  | .group name phase finished remaining, .member step role =>
      obtain ⟨_, _, hset, hlength, -⟩ :=
        setChild_group name phase finished remaining step role child
      rw [hset]
      exact hlength
  | .threaded .., .inner | .leaf .., _ | .threaded .., .member .. | .group .., .inner => rfl

@[simp]
theorem task?_setChild (command child : Command) (turn : Turn) :
    (command.setChild turn child).task? = command.task? := by
  match command, turn with
  | .group name phase finished remaining, .member step role =>
      obtain ⟨_, _, hset, -⟩ := setChild_group name phase finished remaining step role child
      rw [hset]
      rfl
  | .threaded .., .inner | .leaf .., _ | .threaded .., .member .. | .group .., .inner => rfl

@[simp]
theorem isThreaded_setChild (command child : Command) (turn : Turn) :
    (command.setChild turn child).isThreaded = command.isThreaded := by
  match command, turn with
  | .group name phase finished remaining, .member step role =>
      obtain ⟨_, _, hset, -⟩ := setChild_group name phase finished remaining step role child
      rw [hset]
      rfl
  | .threaded .., .inner | .leaf .., _ | .threaded .., .member .. | .group .., .inner => rfl

/-- A worker's round leaves the phase of everything above the worker alone. -/
theorem phase_visit_iterateWorker (command : Command) (place : Place) (robot : Robot) :
    (command.visit iterateWorker place robot).1.phase = command.phase := by
  cases place with
  | nil =>
      match command with
      | .threaded _ _ _ (some _) _ | .leaf .. | .threaded _ _ _ none _ | .group .. => rfl
  | cons turn rest =>
      rw [visit]
      split
      · rfl
      · exact phase_setChild _ _ _

/-! ## Everything below a command -/

theorem exists_child?_of_mem {name : String} {phase : Phase}
    {finished remaining : List (Step Command)} {step : Step Command} {member : Command}
    (hstep : step ∈ finished ++ remaining) (hmember : member ∈ step.members) :
    ∃ turn, (Command.group name phase finished remaining).child? turn = some member := by
  obtain ⟨index, hstep⟩ := List.mem_iff_getElem?.mp hstep
  obtain ⟨role, hrole⟩ := Step.exists_member?_of_mem_members hmember
  exact ⟨.member index role, by rw [child?, hstep]; exact hrole⟩

/-- What holds directly below a group holds of the members of its steps. -/
theorem forall_members_of_child? {property : Command → Prop} {name : String} {phase : Phase}
    {finished remaining : List (Step Command)}
    (h : ∀ turn member, (Command.group name phase finished remaining).child? turn = some member →
      property member) :
    ∀ step ∈ finished ++ remaining, ∀ member ∈ step.members, property member := by
  intro step hstep member hmember
  obtain ⟨turn, hchild⟩ := exists_child?_of_mem hstep hmember
  exact h turn member hchild

theorem mem_of_child? {name : String} {phase : Phase} {finished remaining : List (Step Command)}
    {turn : Turn} {member : Command}
    (h : (Command.group name phase finished remaining).child? turn = some member) :
    ∃ step ∈ finished ++ remaining, member ∈ step.members := by
  match turn with
  | .inner => simp [child?] at h
  | .member index role =>
      obtain ⟨step, hstep, hrole⟩ := Option.bind_eq_some_iff.mp h
      exact ⟨step, List.mem_of_getElem? hstep, Step.mem_members_of_member? hrole⟩

theorem sizeOf_lt_of_mem_members {step : Step Command} {member : Command}
    (h : member ∈ step.members) : sizeOf member < sizeOf step := by
  obtain ⟨primary, companions, beside⟩ := step
  rw [Step.mk.sizeOf_spec]
  rcases List.mem_cons.mp h with rfl | h
  · exact Nat.lt_of_lt_of_le (Nat.lt_succ_self _) (by simp only [Nat.succ_eq_add_one]; omega)
  · rcases List.mem_append.mp h with h | h
    · have hlt : sizeOf member < sizeOf companions := List.sizeOf_lt_of_mem h
      omega
    · have hlt : sizeOf member < sizeOf beside := List.sizeOf_lt_of_mem h
      omega

theorem sizeOf_lt_of_child? {command child : Command} {turn : Turn}
    (h : command.child? turn = some child) : sizeOf child < sizeOf command := by
  match command, turn with
  | .threaded name phase cadence task inner, .inner =>
      obtain rfl := Option.some.inj h
      rw [Command.threaded.sizeOf_spec]
      omega
  | .group name phase finished remaining, turn =>
      obtain ⟨step, hstep, hmember⟩ := mem_of_child? h
      have hchild := sizeOf_lt_of_mem_members hmember
      rw [Command.group.sizeOf_spec]
      rcases List.mem_append.mp hstep with hstep | hstep
      · have := List.sizeOf_lt_of_mem hstep
        omega
      · have := List.sizeOf_lt_of_mem hstep
        omega
  | .leaf .., _ | .threaded .., .member .. => simp [child?] at h

/-- Induction over a tree: what holds of a command as soon as it holds of all
directly below it holds of every command. -/
theorem childInduction {motive : Command → Prop}
    (step : ∀ command : Command,
      (∀ turn child, command.child? turn = some child → motive child) → motive command)
    (command : Command) : motive command :=
  step command fun _ child h =>
    have := sizeOf_lt_of_child? h
    childInduction step child
termination_by sizeOf command

theorem at?_append (first second : Place) (command : Command) :
    command.at? (first ++ second) = (command.at? first).bind (at? second) := by
  induction first generalizing command with
  | nil => rfl
  | cons turn rest ih =>
      rw [List.cons_append, at?, at?]
      cases command.child? turn with
      | none => rfl
      | some child => exact ih child

theorem at?_concat (place : Place) (turn : Turn) (command : Command) :
    command.at? (place ++ [turn]) = (command.at? place).bind (·.child? turn) := by
  rw [at?_append]
  congr 1
  funext part
  rw [at?]
  cases part.child? turn <;> rfl

/-- A property of a command and of every one below it. -/
def Everywhere (property : Command → Prop) (command : Command) : Prop :=
  ∀ place part, command.at? place = some part → property part

theorem everywhere_iff {property : Command → Prop} {command : Command} :
    Everywhere property command ↔
      property command ∧
        ∀ turn child, command.child? turn = some child → Everywhere property child := by
  constructor
  · intro h
    refine ⟨h [] command rfl, fun turn child hchild place part hpart => ?_⟩
    exact h (turn :: place) part (by rw [at?, hchild]; exact hpart)
  · rintro ⟨hself, hbelow⟩ place part hpart
    cases place with
    | nil =>
        obtain rfl := Option.some.inj hpart
        exact hself
    | cons turn rest =>
        obtain ⟨child, hchild, hpart⟩ := Option.bind_eq_some_iff.mp hpart
        exact hbelow turn child hchild rest part hpart

theorem Everywhere.self {property : Command → Prop} {command : Command}
    (h : Everywhere property command) : property command :=
  (everywhere_iff.mp h).1

theorem Everywhere.child {property : Command → Prop} {command child : Command} {turn : Turn}
    (h : Everywhere property command) (hchild : command.child? turn = some child) :
    Everywhere property child :=
  (everywhere_iff.mp h).2 turn child hchild

/-- What holds everywhere goes on holding when one child is replaced by a
command of which it holds, provided it holds of the parent. -/
theorem Everywhere.setChild {property : Command → Prop} {command new : Command} {turn : Turn}
    (h : Everywhere property command) (hnew : Everywhere property new)
    (hself : property (command.setChild turn new)) :
    Everywhere property (command.setChild turn new) := by
  refine everywhere_iff.mpr ⟨hself, fun other child hchild => ?_⟩
  by_cases hother : other = turn
  · subst hother
    cases hold : command.child? other with
    | none => exact absurd hchild (by rw [child?_setChild_none hold]; simp)
    | some old =>
        rw [child?_setChild_self new hold] at hchild
        obtain rfl := Option.some.inj hchild
        exact hnew
  · rw [child?_setChild_ne hother] at hchild
    exact h.child hchild

end Command

end RobotRoutine

import RobotRoutine.Proofs.Command.Run

/-!
# What becomes of a command in a run

Moves change a tree in place, so a place that leads to a command goes on
leading to it, and what becomes of that command is again a sequence of moves:
`Move.at?` for one move, `Scene.evolves_at?` for a run. Everything that is said
below of one command of a tree over time is said of `Evolves`, whichever
commands stand above it.

Of an abort more can be said than that it is made of moves: it ends whatever
runs, where it stands (`exists_at?_abort`).
-/

namespace RobotRoutine

namespace Command

/-- What a command becomes by moves, under whatever robot each of them was made. -/
abbrev Evolves : Command → Command → Prop :=
  Relation.ReflTransGen fun command command' => ∃ robot robot', Move command robot command' robot'

theorem at?_cons_of_child?_eq {command command' part : Command} {turn : Turn} {rest : Place}
    (hchild : ∀ turn, command'.child? turn = command.child? turn)
    (h : command.at? (turn :: rest) = some part) : command'.at? (turn :: rest) = some part := by
  rw [at?, hchild]
  exact h

/-- After a move the command at a place is the one that was there, or what one
move has made of it. -/
theorem Move.at? {command command' part : Command} {robot robot' : Robot} {place : Place}
    (h : Move command robot command' robot') (hpart : command.at? place = some part) :
    ∃ part', command'.at? place = some part' ∧ Evolves part part' := by
  cases place with
  | nil =>
      obtain rfl := Option.some.inj hpart
      exact ⟨command', rfl, .single ⟨robot, robot', h⟩⟩
  | cons turn rest =>
      induction h generalizing turn rest with
      | start | run | check | finish => exact nomatch hpart
      | spawn | respawn | note | cancel | leave | enter | close =>
          exact ⟨part, at?_cons_of_child?_eq (fun turn => by cases turn <;> rfl) hpart, .refl⟩
      | advance => exact ⟨part, at?_cons_of_child?_eq (child?_advance _ _ _ _) hpart, .refl⟩
      | @child command old new turn' robot robot' hrunning hold hadmits hmove ih =>
          obtain ⟨child, hchild, hpart⟩ := Option.bind_eq_some_iff.mp hpart
          by_cases hturn : turn = turn'
          · subst hturn
            obtain rfl := Option.some.inj (hold.symm.trans hchild)
            have hnew : (command.setChild turn new).child? turn = some new :=
              child?_setChild_self new hold
            cases rest with
            | nil =>
                obtain rfl := Option.some.inj hpart
                exact ⟨new, by rw [Command.at?, hnew]; rfl, .single ⟨robot, robot', hmove⟩⟩
            | cons next rest =>
                obtain ⟨part', hpart', hevolves⟩ := ih next rest hpart
                exact ⟨part', by rw [Command.at?, hnew]; exact hpart', hevolves⟩
          · refine ⟨part, ?_, .refl⟩
            rw [Command.at?, child?_setChild_ne hturn, hchild]
            exact hpart

theorem Moves.evolves_at? {before after : Command × Robot} {place : Place} {part : Command}
    (h : Moves before after) (hpart : before.1.at? place = some part) :
    ∃ part', after.1.at? place = some part' ∧ Evolves part part' := by
  induction h with
  | refl => exact ⟨part, hpart, .refl⟩
  | tail _ hlast ih =>
      obtain ⟨middle, hmiddle, hevolves⟩ := ih
      obtain ⟨part', hpart', hlast⟩ := hlast.at? hmiddle
      exact ⟨part', hpart', hevolves.trans hlast⟩

/-! ## One command over time -/

theorem Evolves.eq_of_completed {command command' : Command} (h : Evolves command command')
    (hphase : command.phase = .completed) : command' = command := by
  rcases Relation.ReflTransGen.cases_head h with heq | ⟨_, ⟨_, _, hfirst⟩, _⟩
  · exact heq.symm
  · exact absurd hphase hfirst.phase_ne_completed

/-- A group keeps its name and its number of steps, and finishes more and more
of these. -/
theorem Evolves.group {name : String} {phase : Phase} {finished remaining : List (Step Command)}
    {command : Command} (h : Evolves (.group name phase finished remaining) command) :
    ∃ phase' finished' remaining', command = .group name phase' finished' remaining' ∧
      finished.length ≤ finished'.length ∧
      finished'.length + remaining'.length = finished.length + remaining.length := by
  induction h with
  | refl => exact ⟨phase, finished, remaining, rfl, Nat.le_refl _, rfl⟩
  | tail _ hlast ih =>
      obtain ⟨phase', finished', remaining', rfl, hle, hlength⟩ := ih
      obtain ⟨robot, robot', hlast⟩ := hlast
      cases hlast with
      | enter => exact ⟨_, _, _, rfl, hle, hlength⟩
      | close => exact ⟨_, _, _, rfl, hle, hlength⟩
      | advance =>
          refine ⟨_, _, _, rfl, ?_, ?_⟩
          · rw [List.length_append]
            omega
          · rw [List.length_append, List.length_singleton, ← hlength, List.length_cons]
            omega
      | @child _ old new turn _ _ _ hold =>
          match turn with
          | .inner => exact nomatch hold
          | .member step role =>
              obtain ⟨finished'', remaining'', hset, hfinished, hremaining, -⟩ :=
                setChild_group name phase' finished' remaining' step role new
              rw [hset]
              exact ⟨_, _, _, rfl, by omega, by omega⟩

/-! ## An abort reaches everything that runs

An abort ends each command where it stands: no group advances on the way. -/

theorem exists_getElem?_abortAll {commands : List Command} {robot : Robot} {index : Nat}
    {command : Command} (h : commands[index]? = some command) :
    ∃ robot', (abortAll commands robot).1[index]? = some (command.abort robot').1 := by
  induction commands generalizing robot index with
  | nil => exact nomatch h
  | cons first rest ih =>
      cases index with
      | zero =>
          obtain rfl := Option.some.inj h
          exact ⟨robot, rfl⟩
      | succ index => exact ih h

theorem exists_member?_abortStep {step : Step Command} {role : Role} {member : Command}
    (robot : Robot) (h : step.member? role = some member) :
    ∃ robot', (abortStep step robot).1.member? role = some (member.abort robot').1 := by
  obtain ⟨primary, companions, beside⟩ := step
  cases role with
  | primary =>
      obtain rfl := Option.some.inj h
      exact ⟨robot, rfl⟩
  | companion index | beside index => exact exists_getElem?_abortAll h

theorem exists_getElem?_abortSteps {steps : List (Step Command)} {robot : Robot} {index : Nat}
    {step : Step Command} (h : steps[index]? = some step) :
    ∃ robot', (abortSteps steps robot).1[index]? = some (abortStep step robot').1 := by
  induction steps generalizing robot index with
  | nil => exact nomatch h
  | cons first rest ih =>
      cases index with
      | zero =>
          obtain rfl := Option.some.inj h
          exact ⟨robot, rfl⟩
      | succ index => exact ih h

@[simp]
theorem length_abortSteps (steps : List (Step Command)) (robot : Robot) :
    (abortSteps steps robot).1.length = steps.length := by
  induction steps generalizing robot with
  | nil => rfl
  | cons step rest ih => exact congrArg Nat.succ (ih _)

theorem exists_getElem?_abortSteps_append {finished remaining : List (Step Command)}
    {index : Nat} {step : Step Command} (h : (finished ++ remaining)[index]? = some step)
    (robot : Robot) :
    ∃ robot', ((abortSteps finished robot).1 ++
      (abortSteps remaining (abortSteps finished robot).2).1)[index]? =
        some (abortStep step robot').1 := by
  rcases Nat.lt_or_ge index finished.length with hlt | hge
  · rw [List.getElem?_append_left hlt] at h
    rw [List.getElem?_append_left (by rwa [length_abortSteps])]
    exact exists_getElem?_abortSteps h
  · rw [List.getElem?_append_right hge] at h
    rw [List.getElem?_append_right (by rwa [length_abortSteps]), length_abortSteps]
    exact exists_getElem?_abortSteps h

theorem exists_child?_abort {command child : Command} {turn : Turn} (ho : Orderly command)
    (hrunning : command.phase = .running) (hchild : command.child? turn = some child)
    (robot : Robot) :
    ∃ robot', (command.abort robot).1.child? turn = some (child.abort robot').1 := by
  cases command with
  | leaf name phase work => simp [child?] at hchild
  | threaded name phase cadence task inner =>
      obtain rfl : phase = .running := hrunning
      cases turn with
      | inner =>
          obtain ⟨task, htask, hcancelled⟩ := ho.working rfl rfl
          obtain rfl : _ = some task := htask
          obtain rfl := Option.some.inj hchild
          rw [abort, if_neg (by rw [hcancelled]; decide)]
          exact ⟨robot, rfl⟩
      | member index role => simp [child?] at hchild
  | group name phase finished remaining =>
      obtain rfl : phase = .running := hrunning
      cases turn with
      | inner => simp [child?] at hchild
      | member index role =>
          obtain ⟨step, hstep, hmember⟩ := Option.bind_eq_some_iff.mp hchild
          obtain ⟨robot', habort⟩ := exists_getElem?_abortSteps_append hstep robot
          obtain ⟨robot'', hmember⟩ := exists_member?_abortStep robot' hmember
          exact ⟨robot'', by rw [abort, child?, habort]; exact hmember⟩

/-- An abort of an orderly tree aborts every command in it. -/
theorem exists_at?_abort {command part : Command} {place : Place}
    (ho : Everywhere Orderly command) (hpart : command.at? place = some part) (robot : Robot) :
    ∃ robot', (command.abort robot).1.at? place = some (part.abort robot').1 := by
  induction place generalizing command robot with
  | nil =>
      obtain rfl := Option.some.inj hpart
      exact ⟨robot, rfl⟩
  | cons turn rest ih =>
      by_cases hrunning : command.phase = .running
      · obtain ⟨child, hchild, hrest⟩ := Option.bind_eq_some_iff.mp hpart
        obtain ⟨robot', habort⟩ := exists_child?_abort ho.self hrunning hchild robot
        obtain ⟨robot'', hpart⟩ := ih (ho.child hchild) hrest robot'
        exact ⟨robot'', by rw [at?, habort]; exact hpart⟩
      · have hidle := (isQuiet_of_orderly ho hrunning _ _ hpart).phase
        refine ⟨robot, ?_⟩
        rw [abort_of_phase_ne_running hrunning, abort_of_phase_ne_running hidle]
        exact hpart

end Command

namespace Scene

open Command

theorem evolves_at?_step {scene : Scene} (ho : Everywhere Orderly scene.root) (event : Event)
    {place : Place} {part : Command} (hpart : scene.root.at? place = some part) :
    ∃ part', (scene.step event).root.at? place = some part' ∧ Evolves part part' := by
  rcases step_cases ho event with h | ⟨conditions, h⟩
  · exact h.evolves_at? hpart
  · rw [h]
    exact ⟨part, hpart, .refl⟩

/-- In a run the command at a place becomes what moves make of it. -/
theorem evolves_at? {scene : Scene} (ho : Everywhere Orderly scene.root) (events : List Event)
    {place : Place} {part : Command} (hpart : scene.root.at? place = some part) :
    ∃ part', (scene.after events).root.at? place = some part' ∧ Evolves part part' := by
  induction events generalizing scene part with
  | nil => exact ⟨part, hpart, .refl⟩
  | cons event rest ih =>
      obtain ⟨middle, hmiddle, hfirst⟩ := evolves_at?_step ho event hpart
      obtain ⟨part', hpart', hrest⟩ := ih (orderly_step ho event) hmiddle
      exact ⟨part', hpart', hfirst.trans hrest⟩

end Scene

end RobotRoutine

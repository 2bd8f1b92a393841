import RobotRoutine.Proofs.Command.Fresh
import RobotRoutine.Proofs.Command.Members

/-!
# The order in which the hooks of a command are called

A command is started, is run and then asked whether it goes on for as long as
it does, and is ended. `Stage.next` is that order as a machine with one state
for each of the calls that may have come last, and a command that is at rest is
in the state that its phase names. `lives_abort` and `lives_poll` say that the
calls which an abort and a poll make to each command of a tree lead that
machine from the phase before to the phase after.

A command can be ended by its own poll or by whoever is above it, in the middle
of the poll of a group. What comes of both is the same: a poll takes a command
that has run or was asked (`Reaches`), and `lives_finish` ends it.

A poll is spoken of only in a tree in which no command that has yet to start has
a worker. Otherwise the start hook of a wrapper would fail.
-/

namespace RobotRoutine

/-! ## The machine -/

/-- How far the hooks of a command have come, by the last one that was called. -/
inductive Stage where
  | idle
  | started
  | ran
  | asked
  | ended
deriving DecidableEq

namespace Stage

/-- The calls that may come next. -/
def next : Stage → Call → Option Stage
  | .idle, .start => some .started
  | .started, .run | .asked, .run => some .ran
  | .ran, .check => some .asked
  | .ran, .finish | .asked, .finish => some .ended
  | _, _ => none

/-- Where one call after another leads; nowhere if one of them is out of order. -/
def follow (stage : Stage) (calls : List Call) : Option Stage :=
  calls.foldlM next stage

theorem follow_append (stage : Stage) (first second : List Call) :
    stage.follow (first ++ second) = (stage.follow first).bind (follow · second) :=
  List.foldlM_append

theorem follow_ended {calls : List Call} {stage : Stage} (h : ended.follow calls = some stage) :
    calls = [] ∧ stage = .ended := by
  cases calls with
  | nil => exact ⟨rfl, (Option.some.inj h).symm⟩
  | cons call rest => cases call <;> exact nomatch h

theorem follow_eq_idle {calls : List Call} {stage : Stage} (h : stage.follow calls = some .idle) :
    stage = .idle ∧ calls = [] := by
  induction calls generalizing stage with
  | nil => exact ⟨Option.some.inj h, rfl⟩
  | cons call rest ih =>
      obtain ⟨middle, hnext, hrest⟩ := Option.bind_eq_some_iff.mp h
      obtain ⟨rfl, -⟩ := ih hrest
      cases stage <;> cases call <;> exact nomatch hnext

end Stage

/-- How far the hooks of a command have come that is at rest in a phase. -/
def Phase.stage : Phase → Stage
  | .notStarted => .idle
  | .running => .asked
  | .completed => .ended

theorem Phase.stage_injective : Function.Injective Phase.stage := by
  intro first second h
  cases first <;> cases second <;> first | rfl | exact nomatch h

/-- Whether the error comes from a sensor. -/
def RoutineError.IsSensor (error : RoutineError) : Prop :=
  ∃ command fault, error = .sensor command fault

namespace Command

/-! ## What happens to a command while it lives -/

/-- What calls may make of one command, whatever is below it. -/
structure Law (calls : List Call) (before after : Command) : Prop where
  follow : before.phase.stage.follow calls = some after.phase.stage
  task? : after.phase = .notStarted → after.task? = before.task?
  fault : ∀ task ∈ after.task?, ∀ error ∈ task.fault,
    error.IsSensor ∨ ∃ old ∈ before.task?, error ∈ old.fault

theorem Law.refl (command : Command) : Law [] command command where
  follow := rfl
  task? _ := rfl
  fault task htask _ herror := Or.inr ⟨task, htask, herror⟩

theorem Law.phase_eq {calls : List Call} {before after : Command} (h : Law calls before after)
    (hphase : after.phase = .notStarted) : before.phase = .notStarted ∧ calls = [] := by
  have hfollow := h.follow
  rw [hphase] at hfollow
  obtain ⟨hstage, hcalls⟩ := Stage.follow_eq_idle hfollow
  exact ⟨Phase.stage_injective hstage, hcalls⟩

theorem Law.trans {first second : List Call} {before middle after : Command}
    (hfirst : Law first before middle) (hsecond : Law second middle after) :
    Law (first ++ second) before after where
  follow := by
    rw [Stage.follow_append, hfirst.follow]
    exact hsecond.follow
  task? hphase :=
    (hsecond.task? hphase).trans (hfirst.task? (hsecond.phase_eq hphase).1)
  fault task htask error herror := by
    rcases hsecond.fault task htask error herror with hsensor | ⟨old, hold, herror⟩
    · exact Or.inl hsensor
    · exact hfirst.fault old hold error herror

/-- Whether everything that a tree has become is what the calls in the record
may make of it, command by command. -/
def Lives (command : Command) (recorded : Recorded) : Prop :=
  ∀ place, Option.Rel (Law (recorded.2.callsAt place)) (command.at? place) (recorded.1.at? place)

section Options

variable {α β γ : Type} {old : Option α} {middle : Option β} {new : Option γ}

theorem rel_imp {relation relation' : α → β → Prop} (h : Option.Rel relation old middle)
    (himp : ∀ a, old = some a → ∀ b, relation a b → relation' a b) :
    Option.Rel relation' old middle := by
  cases h with
  | none => exact .none
  | some hrel => exact .some (himp _ rfl _ hrel)

theorem rel_refl {relation : α → α → Prop} (h : ∀ a, relation a a) (old : Option α) :
    Option.Rel relation old old := by
  cases old with
  | none => exact .none
  | some a => exact .some (h a)

theorem rel_trans {first : α → β → Prop} {second : β → γ → Prop} {both : α → γ → Prop}
    (hfirst : Option.Rel first old middle) (hsecond : Option.Rel second middle new)
    (h : ∀ a b c, first a b → second b c → both a c) : Option.Rel both old new := by
  cases hfirst with
  | none =>
      cases hsecond
      exact .none
  | some hab =>
      cases hsecond with
      | some hbc => exact .some (h _ _ _ hab hbc)

end Options

theorem Lives.refl (command : Command) : Lives command command.untouched :=
  fun place => rel_refl Law.refl (command.at? place)

/-- A call of a hook of a wrapper is not one of a hook of what it wraps. -/
theorem rel_wrapped {name : String} {phase phase' : Phase} {cadence : Duration}
    {task task' : Option Task} {inner : Command} {trace : Trace}
    (h : ∀ turn, trace.below turn = []) (turn : Turn) :
    Option.Rel (fun old new => Lives old (new, trace.below turn))
      ((Command.threaded name phase cadence task inner).child? turn)
      ((Command.threaded name phase' cadence task' inner).child? turn) := by
  rw [h turn]
  cases turn with
  | inner => exact .some (Lives.refl inner)
  | member => exact .none

theorem Lives.trans {before middle : Command} {after : Recorded} {trace : Trace}
    (hfirst : Lives before (middle, trace)) (hsecond : Lives middle after) :
    Lives before (after.1, trace ++ after.2) := by
  intro place
  rw [Trace.callsAt_append]
  exact rel_trans (hfirst place) (hsecond place) fun _ _ _ => Law.trans

theorem lives_iff {before after : Command} {trace : Trace} :
    Lives before (after, trace) ↔
      Law (trace.callsAt []) before after ∧
        ∀ turn, Option.Rel (fun old new => Lives old (new, trace.below turn))
          (before.child? turn) (after.child? turn) := by
  constructor
  · intro h
    refine ⟨?_, fun turn => ?_⟩
    · obtain ⟨hlaw⟩ := h []
      exact hlaw
    · cases hold : before.child? turn with
      | none =>
          have hnone := h [turn]
          cases hnew : after.child? turn with
          | none => exact .none
          | some new =>
              rw [at?, at?, hold, hnew] at hnone
              cases hnone
      | some old =>
          have hsome := h [turn]
          cases hnew : after.child? turn with
          | none =>
              rw [at?, at?, hold, hnew] at hsome
              cases hsome
          | some new =>
              refine .some fun place => ?_
              have hplace := h (turn :: place)
              rw [at?, at?, hold, hnew, Trace.callsAt_cons] at hplace
              exact hplace
  · rintro ⟨hlaw, hbelow⟩ place
    cases place with
    | nil => exact .some hlaw
    | cons turn rest =>
        have hturn := hbelow turn
        rw [at?, at?, Trace.callsAt_cons]
        revert hturn
        generalize before.child? turn = old, after.child? turn = new
        rintro (hlives | _)
        · exact hlives rest
        · exact .none

/-- In order: no command that has yet to start has a worker, and no worker has
met anything but the error of a sensor. -/
structure Tidy (command : Command) : Prop where
  task? : command.phase = .notStarted → command.task? = none
  fault : ∀ task ∈ command.task?, ∀ error ∈ task.fault, error.IsSensor

theorem IsFresh.tidy {command : Command} (h : command.IsFresh) : Everywhere Tidy command := by
  intro place part hpart
  obtain ⟨-, htask, -⟩ := h place part hpart
  exact ⟨fun _ => htask, fun task hmem => by rw [htask] at hmem; exact nomatch hmem⟩

theorem Lives.exists_after {command before : Command} {recorded : Recorded} {place : Place}
    (h : Lives command recorded) (hbefore : command.at? place = some before) :
    ∃ after, recorded.1.at? place = some after ∧ Law (recorded.2.callsAt place) before after := by
  have hplace := h place
  rw [hbefore] at hplace
  cases hafter : recorded.1.at? place with
  | none =>
      rw [hafter] at hplace
      exact nomatch hplace
  | some after =>
      rw [hafter] at hplace
      obtain ⟨hlaw⟩ := hplace
      exact ⟨after, rfl, hlaw⟩

theorem Lives.exists_before {command after : Command} {recorded : Recorded} {place : Place}
    (h : Lives command recorded) (hafter : recorded.1.at? place = some after) :
    ∃ before, command.at? place = some before ∧ Law (recorded.2.callsAt place) before after := by
  have hplace := h place
  cases hbefore : command.at? place with
  | none =>
      rw [hafter, hbefore] at hplace
      exact nomatch hplace
  | some before =>
      obtain ⟨_, hsame, hlaw⟩ := h.exists_after hbefore
      obtain rfl := Option.some.inj (hafter.symm.trans hsame)
      exact ⟨before, rfl, hlaw⟩

theorem Lives.tidy {command : Command} {recorded : Recorded} (h : Lives command recorded)
    (htidy : Everywhere Tidy command) : Everywhere Tidy recorded.1 := by
  intro place after hafter
  obtain ⟨before, hbefore, hlaw⟩ := h.exists_before hafter
  obtain ⟨htask, hfault⟩ := htidy place before hbefore
  refine ⟨fun hphase => ?_, fun task hmem error herror => ?_⟩
  · rw [hlaw.task? hphase, htask (hlaw.phase_eq hphase).1]
  · rcases hlaw.fault task hmem error herror with hsensor | ⟨old, hold, herror⟩
    · exact hsensor
    · exact hfault old hold error herror

/-! ## Aborting -/

theorem abortRecorded_of_phase_ne_running {command : Command} (h : command.phase ≠ .running)
    (robot : Robot) : command.abortRecorded robot = (command.untouched, robot) := by
  cases command with
  | leaf name phase work => cases phase <;> first | rfl | exact absurd rfl h
  | threaded name phase cadence task inner => cases phase <;> first | rfl | exact absurd rfl h
  | group name phase finished remaining => cases phase <;> first | rfl | exact absurd rfl h

/-- An abort calls the end hook of a command that runs, and of no other. -/
theorem callsAt_nil_abort {command : Command} (h : command.phase = .running) (robot : Robot) :
    (command.abortRecorded robot).1.2.callsAt [] = [.finish] := by
  match command with
  | .leaf .. | .threaded _ _ _ none _ =>
      cases h
      rfl
  | .threaded name phase cadence (some task) inner =>
      cases h
      rw [abortRecorded]
      split
      · rfl
      · exact congrArg (.finish :: ·) (Trace.callsAt_under_nil _)
  | .group name phase finished remaining =>
      cases h
      rw [abortRecorded]
      exact congrArg (.finish :: ·) (Trace.callsAt_ofSteps_nil 0 _)

theorem fault_abort {command : Command} {robot : Robot} {task : Task}
    (h : task ∈ (command.abort robot).1.task?) :
    ∃ old ∈ command.task?, old.fault = task.fault := by
  by_cases hphase : command.phase = .running
  case neg =>
    rw [abort_of_phase_ne_running hphase] at h
    exact ⟨task, h, rfl⟩
  match command with
  | .leaf .. | .threaded _ _ _ none _ | .group .. =>
      cases hphase
      exact nomatch h
  | .threaded name phase cadence (some old) inner =>
      cases hphase
      rw [abort] at h
      split at h
      · exact ⟨task, h, rfl⟩
      · obtain rfl := Option.some.inj h
        exact ⟨old, rfl, rfl⟩

theorem law_abort {command : Command} (h : command.phase = .running) (robot : Robot) :
    Law [.finish] command (command.abort robot).1 := by
  have hphase : (command.abort robot).1.phase = .completed := by rw [phase_abort, if_pos h]
  refine ⟨?_, fun hstarted => ?_, fun task htask error herror => ?_⟩
  · rw [h, hphase]
    rfl
  · rw [hphase] at hstarted
    exact nomatch hstarted
  · obtain ⟨old, hold, hfault⟩ := fault_abort htask
    exact Or.inr ⟨old, hold, hfault ▸ herror⟩

/-- An abort ends each command of a tree that runs, and leaves the others alone. -/
theorem lives_abort (command : Command) (robot : Robot) :
    Lives command (command.abortRecorded robot).1 := by
  induction command using childInduction generalizing robot with
  | step command ih =>
  by_cases hphase : command.phase = .running
  case neg =>
    rw [abortRecorded_of_phase_ne_running hphase]
    exact Lives.refl command
  refine lives_iff.mpr ⟨?_, fun turn => ?_⟩
  · rw [callsAt_nil_abort hphase, item_abortRecorded]
    exact law_abort hphase robot
  match command with
  | .leaf .. =>
      cases hphase
      exact .none
  | .threaded name phase cadence none inner =>
      cases hphase
      exact rel_wrapped (fun _ => rfl) turn
  | .threaded name phase cadence (some task) inner =>
      cases hphase
      rw [abortRecorded]
      split
      · exact rel_wrapped (fun _ => rfl) turn
      · cases turn with
        | inner =>
            -- The one call that an abort makes to the wrapper itself is its own end hook.
            refine .some ?_
            rw [Trace.below_own, Trace.below_under]
            exact ih .inner inner rfl robot
        | member => exact .none
  | .group name phase finished remaining =>
      cases hphase
      rw [abortRecorded]
      refine rel_imp (rel_child? (List.rel_append (forall₂_abortSteps finished robot)
        (forall₂_abortSteps remaining _)) (bare_append _ _).symm turn) ?_
      rintro old hold new ⟨robot', hnew⟩
      have hlives := ih turn old hold robot'
      rwa [← hnew] at hlives

/-! ## Polling -/

/-- What a running command has become in a poll, before it is ended or left:
its hooks have come to `stage`. -/
structure Reaches (stage : Stage) (before : Command) (recorded : Recorded) : Prop where
  follow : before.phase.stage.follow (recorded.2.callsAt []) = some stage
  phase : recorded.1.phase = .running
  fault : ∀ task ∈ recorded.1.task?, ∀ error ∈ task.fault,
    error.IsSensor ∨ ∃ old ∈ before.task?, error ∈ old.fault
  below : ∀ turn, Option.Rel (fun old new => Lives old (new, recorded.2.below turn))
    (before.child? turn) (recorded.1.child? turn)

theorem Reaches.lives {before : Command} {recorded : Recorded}
    (h : Reaches .asked before recorded) : Lives before recorded := by
  refine lives_iff.mpr ⟨⟨?_, fun hphase => ?_, h.fault⟩, h.below⟩
  · rw [h.phase]
    exact h.follow
  · rw [h.phase] at hphase
    exact nomatch hphase

/-- A command that has run, or was asked after that, can be ended. -/
theorem Reaches.lives_abort {stage : Stage} {before : Command} {recorded : Recorded}
    (h : Reaches stage before recorded) (hstage : stage = .ran ∨ stage = .asked) (robot : Robot) :
    Lives before ((recorded.1.abortRecorded robot).1.1,
      recorded.2 ++ (recorded.1.abortRecorded robot).1.2) := by
  have habort := lives_iff.mp (Command.lives_abort recorded.1 robot)
  have hlaw := law_abort h.phase robot
  refine lives_iff.mpr ⟨⟨?_, fun hphase => ?_, fun task htask error herror => ?_⟩, fun turn => ?_⟩
  · rw [Trace.callsAt_append, callsAt_nil_abort h.phase, Stage.follow_append, h.follow,
      item_abortRecorded, phase_abort, if_pos h.phase]
    rcases hstage with rfl | rfl <;> rfl
  · rw [item_abortRecorded, phase_abort, if_pos h.phase] at hphase
    exact nomatch hphase
  · rw [item_abortRecorded] at htask
    rcases hlaw.fault task htask error herror with hsensor | ⟨old, hold, herror⟩
    · exact Or.inl hsensor
    · exact h.fault old hold error herror
  · rw [Trace.below_append]
    exact rel_trans (h.below turn) (habort.2 turn) fun _ _ _ => Lives.trans

/-- The end of a poll: a command that failed or is done is ended, one that was
asked and goes on is left. -/
theorem lives_finish (stage : Stage) {before : Command} {polled : Polled Recorded} {isDone : Bool}
    (h : Reaches stage before polled.item) (hstage : stage = .ran ∨ stage = .asked)
    (hasked : polled.fault = none → stage = .asked) :
    Lives before (polled.finishRecorded isDone).item := by
  rw [Polled.finishRecorded]
  split
  · exact h.lives_abort hstage polled.robot
  · next hcontinues =>
      obtain ⟨hfault, -⟩ := Polled.not_ends_iff.mp hcontinues
      obtain rfl := hasked hfault
      exact h.lives

theorem follow_opening {phase : Phase} (h : phase ≠ .completed) (calls : List Call) :
    phase.stage.follow ((opening phase).callsAt [] ++ .run :: calls) = Stage.ran.follow calls := by
  cases phase with
  | notStarted | running => rfl
  | completed => exact absurd rfl h

theorem below_opening (phase : Phase) (turn : Turn) (trace : Trace) :
    Trace.below turn (opening phase ++ trace) = trace.below turn := by
  cases phase <;> rfl

/-- What a group itself does at a poll is not done by a member. -/
theorem below_pollGroup (phase : Phase) (turn : Turn) (trace : Trace)
    (fault : Option RoutineError) :
    Trace.below turn (opening phase ++ .own .run :: trace ++ asked fault) = trace.below turn := by
  rw [List.append_assoc, below_opening, List.cons_append, Trace.below_own, Trace.below_append]
  cases fault <;> exact List.append_nil _

theorem lives_pollLeaf {phase : Phase} (h : phase ≠ .completed) (name : String)
    (before work : Leaf) (robot : Robot) :
    Lives (.leaf name phase before) (pollLeafRecorded (opening phase) name work robot).item := by
  unfold pollLeafRecorded
  split
  · refine lives_finish .ran ⟨?_, rfl, nofun, fun _ => .none⟩ (Or.inl rfl) nofun
    rw [Trace.callsAt_append, Trace.callsAt_own_nil]
    exact follow_opening h _
  · refine lives_finish .asked ⟨?_, rfl, nofun, fun _ => .none⟩ (Or.inr rfl) fun _ => rfl
    rw [Trace.callsAt_append, Trace.callsAt_ran_nil]
    exact follow_opening h _

theorem lives_pollThreaded {phase : Phase} (h : phase ≠ .completed) (name : String)
    (cadence : Duration) (before : Option Task) (task : Task) (inner : Command) (robot : Robot) :
    Lives (.threaded name phase cadence before inner)
      (pollThreadedRecorded (opening phase) name cadence task inner robot).item := by
  rw [pollThreadedRecorded]
  refine lives_finish .asked ⟨?_, rfl, ?_, fun turn => ?_⟩ (Or.inr rfl) fun _ => rfl
  · rw [Trace.callsAt_append]
    exact follow_opening h _
  · intro _ htask _ herror
    obtain rfl := Option.some.inj htask
    exact nomatch herror
  · exact rel_wrapped (fun turn => below_opening phase turn _) turn

theorem lives_pollGroup {phase : Phase} (hphase : phase ≠ .completed) (name : String)
    (finished remaining : List (Step Command)) (robot : Robot)
    (h : ∀ turn member, (Command.group name phase finished remaining).child? turn = some member →
      ∀ robot, Lives member (member.pollRecorded robot).item) :
    Lives (.group name phase finished remaining)
      ((Command.group name phase finished remaining).pollRecorded robot).item := by
  have hwalk := forall₂_walk finished remaining robot
  rw [pollRecorded_group hphase]
  generalize walkRecorded finished remaining robot = polled at hwalk ⊢
  obtain ⟨⟨done, left⟩, robot', fault⟩ := polled
  have hcalls : Trace.callsAt [] (opening phase ++ .own .run :: Trace.ofSteps 0 (done ++ left)
      ++ asked fault) = (opening phase).callsAt [] ++ .run :: (asked fault).callsAt [] := by
    simp only [Trace.callsAt_append, Trace.callsAt_own_nil, Trace.callsAt_ofSteps_nil,
      List.append_assoc, List.cons_append, List.nil_append]
  have hmembers : ∀ turn, Option.Rel (fun old new => Lives old (new,
      Trace.below turn (Trace.ofSteps 0 (done ++ left))))
      ((Command.group name phase finished remaining).child? turn)
      ((Command.group name .running (bare done) (bare left)).child? turn) := by
    intro turn
    refine rel_imp (rel_child? hwalk (bare_append _ _).symm turn) ?_
    rintro old hold new (hnew | ⟨robot'', hnew⟩)
    · have hlives := Lives.refl old
      rwa [← hnew] at hlives
    · have hlives := h turn old hold robot''
      rwa [← hnew] at hlives
  -- A group that failed is ended without having been asked whether to go on.
  cases fault with
  | none =>
      refine lives_finish .asked ⟨?_, rfl, nofun, fun turn => ?_⟩ (Or.inr rfl) fun _ => rfl
      · exact (congrArg phase.stage.follow hcalls).trans (follow_opening hphase _)
      · exact below_pollGroup phase turn (Trace.ofSteps 0 (done ++ left)) _ ▸ hmembers turn
  | some fault =>
      refine lives_finish .ran ⟨?_, rfl, nofun, fun turn => ?_⟩ (Or.inl rfl) nofun
      · exact (congrArg phase.stage.follow hcalls).trans (follow_opening hphase _)
      · exact below_pollGroup phase turn (Trace.ofSteps 0 (done ++ left)) _ ▸ hmembers turn

/-- The calls that a poll of a tidy tree makes to each command of it are in order. -/
theorem lives_poll {command : Command} (h : Everywhere Tidy command) (robot : Robot) :
    Lives command (command.pollRecorded robot).item := by
  induction command using childInduction generalizing robot with
  | step command ih =>
  match command with
  | .leaf name .notStarted work => exact lives_pollLeaf (by decide) name work _ _
  | .leaf name .running work => exact lives_pollLeaf (by decide) name work work robot
  | .threaded name .notStarted cadence none inner =>
      exact lives_pollThreaded (by decide) name cadence none .started inner robot
  | .threaded name .notStarted cadence (some task) inner => exact nomatch h.self.task? rfl
  | .threaded name .running cadence (some task) inner =>
      exact lives_pollThreaded (by decide) name cadence (some task) task inner robot
  | .threaded name .running cadence none inner =>
      refine lives_finish .asked ⟨rfl, rfl, nofun, fun turn => ?_⟩ (Or.inr rfl) fun _ => rfl
      exact rel_wrapped (fun _ => rfl) turn
  | .group name .notStarted finished remaining | .group name .running finished remaining =>
      exact lives_pollGroup (by decide) name finished remaining robot
        fun turn member hmember => ih turn member hmember (h.child hmember)
  | .leaf name .completed work | .threaded name .completed cadence task inner =>
      exact Lives.refl _
  | .group name .completed finished remaining =>
      rw [pollRecorded, if_pos rfl]
      exact Lives.refl _

/-! ## No start hook fails -/

theorem fault_pollAll {commands : List Command} {robot : Robot} {error : RoutineError}
    (h : error ∈ (pollAll commands robot).fault) :
    ∃ command ∈ commands, ∃ robot', error ∈ (command.poll robot').fault := by
  induction commands generalizing robot with
  | nil => exact nomatch h
  | cons command rest ih =>
      rw [pollAll] at h
      split at h
      · exact ⟨command, List.mem_cons_self, robot, h⟩
      · obtain ⟨member, hmember, hfault⟩ := ih h
        exact ⟨member, List.mem_cons_of_mem _ hmember, hfault⟩

theorem fault_pollStep {step : Step Command} {robot : Robot} {error : RoutineError}
    (h : error ∈ (pollStep step robot).fault) :
    ∃ command ∈ step.members, ∃ robot', error ∈ (command.poll robot').fault := by
  rw [pollStep] at h
  split at h
  · exact ⟨step.primary, List.mem_cons_self, robot, h⟩
  · simp only at h
    split at h
    · obtain ⟨member, hmember, hfault⟩ := fault_pollAll h
      exact ⟨member, List.mem_cons_of_mem _ (List.mem_append_left _ hmember), hfault⟩
    · obtain ⟨member, hmember, hfault⟩ := fault_pollAll h
      exact ⟨member, List.mem_cons_of_mem _ (List.mem_append_right _ hmember), hfault⟩

theorem fault_pollFinished {steps : List (Step Command)} {robot : Robot} {error : RoutineError}
    (h : error ∈ (pollFinished steps robot).fault) :
    ∃ step ∈ steps, ∃ command ∈ step.members, ∃ robot', error ∈ (command.poll robot').fault := by
  induction steps generalizing robot with
  | nil => exact nomatch h
  | cons step rest ih =>
      rw [pollFinished] at h
      split at h
      · obtain ⟨member, hmember, hfault⟩ := fault_pollAll h
        exact ⟨step, List.mem_cons_self, member,
          List.mem_cons_of_mem _ (List.mem_append_right _ hmember), hfault⟩
      · obtain ⟨other, hother, hfault⟩ := ih h
        exact ⟨other, List.mem_cons_of_mem _ hother, hfault⟩

theorem fault_runSteps {steps : List (Step Command)} {robot : Robot} {error : RoutineError}
    (h : error ∈ (runSteps steps robot).fault) :
    ∃ step ∈ steps, ∃ command ∈ step.members, ∃ robot', error ∈ (command.poll robot').fault := by
  induction steps generalizing robot with
  | nil => exact nomatch h
  | cons step rest ih =>
      rw [runSteps] at h
      split at h
      · exact ⟨step, List.mem_cons_self, fault_pollStep h⟩
      · next hfault =>
          split at h
          · obtain ⟨other, hother, hfault⟩ := ih h
            exact ⟨other, List.mem_cons_of_mem _ hother, hfault⟩
          · rw [Polled.map, hfault] at h
            cases h

theorem fault_walk {finished remaining : List (Step Command)} {robot : Robot}
    {error : RoutineError} (h : error ∈ (walk finished remaining robot).fault) :
    ∃ step ∈ finished ++ remaining, ∃ command ∈ step.members, ∃ robot',
      error ∈ (command.poll robot').fault := by
  rw [walk] at h
  split at h
  · obtain ⟨step, hstep, hfault⟩ := fault_pollFinished h
    exact ⟨step, List.mem_append_left _ hstep, hfault⟩
  · obtain ⟨step, hstep, hfault⟩ := fault_runSteps h
    exact ⟨step, List.mem_append_right _ hstep, hfault⟩

theorem fault_finishIf (isDone : Bool) (polled : Polled Command) :
    (polled.finishIf isDone).fault = polled.fault := by
  rw [Polled.finishIf]
  split
  · rfl
  · rfl

theorem isSensor_of_fault_pollLeaf {name : String} {work : Leaf} {robot : Robot}
    {error : RoutineError} (h : error ∈ (pollLeaf name work robot).fault) : error.IsSensor := by
  rw [pollLeaf] at h
  split at h
  · rw [fault_finishIf] at h
    exact ⟨name, _, (Option.some.inj h).symm⟩
  · rw [fault_finishIf] at h
    cases h

/-- A poll of a tidy tree fails with the error of a sensor only. -/
theorem isSensor_of_fault_poll {command : Command} (h : Everywhere Tidy command) {robot : Robot}
    {error : RoutineError} (herror : error ∈ (command.poll robot).fault) : error.IsSensor := by
  induction command using childInduction generalizing robot with
  | step command ih =>
  match command with
  | .leaf name .notStarted work | .leaf name .running work =>
      exact isSensor_of_fault_pollLeaf herror
  | .threaded name .notStarted cadence none inner =>
      rw [poll, pollThreaded, fault_finishIf] at herror
      cases herror
  | .threaded name .notStarted cadence (some task) inner =>
      have htask := h.self.task? rfl
      cases htask
  | .threaded name .running cadence (some task) inner =>
      rw [poll, pollThreaded, fault_finishIf] at herror
      exact h.self.fault task rfl error herror
  | .threaded name .running cadence none inner =>
      rw [poll, fault_finishIf] at herror
      cases herror
  | .group name .notStarted finished remaining | .group name .running finished remaining =>
      rw [poll_group (by decide), fault_finishIf] at herror
      obtain ⟨step, hstep, member, hmember, robot', hfault⟩ := fault_walk herror
      obtain ⟨turn, hchild⟩ := exists_child?_of_mem hstep hmember
      exact ih turn member hchild (h.child hchild) hfault
  | .leaf name .completed work | .threaded name .completed cadence task inner
  | .group name .completed finished remaining => cases herror

end Command

end RobotRoutine

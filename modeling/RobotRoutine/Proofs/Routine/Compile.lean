import RobotRoutine.Proofs.Registry.Registration
import RobotRoutine.Proofs.Routine.Layout
import RobotRoutine.Proofs.Script.Reading

/-!
# Compiling is all or nothing

A script is compiled in three passes, each over the whole script: its lines are
read, its commands are built, and only then is a step put together. So the first
malformed line is the error even if a command on a line before it cannot be
built, the first command that cannot be built is the error whatever follows it,
and a routine comes out with every command in it or not at all.
-/

namespace RobotRoutine

namespace Routine

/-! ## Building -/

/-- Why an invocation cannot be built: there is no such command, or it does not
take so many arguments, or, if it does, its factory refuses the arguments. -/
inductive Refuses (registry : Registry) (tuning : Tuning) (invocation : Script.Invocation) :
    ScriptError → Prop
  | unknown (h : registry.get? invocation.name = none) :
      Refuses registry tuning invocation (.unknownCommand invocation.name)
  | count {spec : CommandSpec} (h : registry.get? invocation.name = some spec)
      (hcount : spec.arity.accepts invocation.arguments.length = false) :
      Refuses registry tuning invocation
        (.argument spec.name (.wrongCount spec.arity invocation.arguments.length))
  | arguments {spec : CommandSpec} {error : ScriptError}
      (h : registry.get? invocation.name = some spec)
      (hcount : spec.arity.accepts invocation.arguments.length = true)
      (hfactory : spec.factory invocation.arguments tuning = .error error) :
      Refuses registry tuning invocation error

variable {registry : Registry} {tuning : Tuning}

theorem build_eq_error_iff {invocation : Script.Invocation} {error : ScriptError} :
    registry.build invocation tuning = .error error ↔ Refuses registry tuning invocation error := by
  constructor
  · intro h
    cases hspec : registry.get? invocation.name with
    | none =>
        rw [Registry.build_of_unknown hspec] at h
        obtain rfl := Except.error.inj h
        exact .unknown hspec
    | some spec =>
        rw [Registry.build_of_known hspec] at h
        cases hcount : spec.arity.accepts invocation.arguments.length with
        | true =>
            rw [CommandSpec.build_of_accepts hcount] at h
            exact .arguments hspec hcount h
        | false =>
            rw [CommandSpec.build_of_not_accepts hcount] at h
            obtain rfl := Except.error.inj h
            exact .count hspec hcount
  · intro h
    cases h with
    | unknown hspec => exact Registry.build_of_unknown hspec tuning
    | count hspec hcount =>
        rw [Registry.build_of_known hspec, CommandSpec.build_of_not_accepts hcount]
    | arguments hspec hcount hfactory =>
        rw [Registry.build_of_known hspec, CommandSpec.build_of_accepts hcount, hfactory]

/-- Whether an invocation can be built. -/
def Builds (registry : Registry) (tuning : Tuning) (invocation : Script.Invocation) : Prop :=
  ∃ command, registry.build invocation tuning = .ok command

theorem buildAll_of_refuses {before : List Script.Invocation} {invocation : Script.Invocation}
    {error : ScriptError} (hbefore : ∀ i ∈ before, Builds registry tuning i)
    (h : Refuses registry tuning invocation error) (after : List Script.Invocation) :
    buildAll registry tuning (before ++ invocation :: after) = .error error := by
  induction before with
  | nil =>
      rw [List.nil_append, buildAll, build_eq_error_iff.mpr h]
      rfl
  | cons first rest ih =>
      obtain ⟨command, hcommand⟩ := hbefore first List.mem_cons_self
      rw [List.cons_append, buildAll, hcommand,
        ih fun i hi => hbefore i (List.mem_cons_of_mem _ hi)]
      rfl

/-- Whether commands are what invocations build, in the same order and placed alike. -/
def AreBuilt (registry : Registry) (tuning : Tuning) (invocations : List Script.Invocation)
    (commands : List Placed) : Prop :=
  invocations.map (fun i => (i.placement, registry.build i tuning)) =
    commands.map fun command => (command.1, .ok command.2)

theorem exists_buildAll {invocations : List Script.Invocation}
    (h : ∀ i ∈ invocations, Builds registry tuning i) :
    ∃ commands, buildAll registry tuning invocations = .ok commands ∧
      AreBuilt registry tuning invocations commands := by
  induction invocations with
  | nil => exact ⟨[], rfl, rfl⟩
  | cons first rest ih =>
      obtain ⟨command, hcommand⟩ := h first List.mem_cons_self
      obtain ⟨commands, hbuild, hbuilt⟩ := ih fun i hi => h i (List.mem_cons_of_mem _ hi)
      refine ⟨(first.placement, command) :: commands, ?_, ?_⟩
      · rw [buildAll, hcommand, hbuild]
        rfl
      · rw [AreBuilt, List.map_cons, List.map_cons, hcommand, hbuilt]

/-- What was built is what the invocations build, one by one. -/
theorem areBuilt_of_buildAll {invocations : List Script.Invocation} {commands : List Placed}
    (h : buildAll registry tuning invocations = .ok commands) :
    AreBuilt registry tuning invocations commands := by
  induction invocations generalizing commands with
  | nil =>
      obtain rfl := Except.ok.inj h
      rfl
  | cons first rest ih =>
      rw [buildAll] at h
      cases hfirst : registry.build first tuning with
      | error error =>
          rw [hfirst] at h
          cases h
      | ok command =>
          cases hrest : buildAll registry tuning rest with
          | error error =>
              rw [hfirst, hrest] at h
              cases h
          | ok others =>
              rw [hfirst, hrest] at h
              obtain rfl := Except.ok.inj h
              rw [AreBuilt, List.map_cons, List.map_cons, hfirst, ih hrest]

/-! ## Compiling -/

/-- How the commands of a script stand in the steps of its routine. -/
structure IsLaidOut (cadence : Duration) (commands : List Placed) (blocks : List Block)
    (steps : Steps) : Prop where
  cut : IsCut commands blocks
  /-- Each step is what its block becomes. -/
  eachStep : steps = blocks.map (Block.step cadence)
  /-- No command is lost and none stands twice. -/
  once : (steps.flatMap Step.members).Perm (commands.map (·.attach cadence))
  /-- Where no command is threaded in itself, the concurrent ones are the companions and the
  threaded ones are those that the step does not wait for, both in the order of the script. -/
  byPlacement : ∀ block ∈ blocks,
    (∀ follower ∈ block.followers, follower.2.isThreaded = false) →
      (block.step cadence).companions =
          (block.followers.filter (·.1 = .concurrent)).map Prod.snd ∧
        (block.step cadence).threaded =
          (block.followers.filter (·.1 = .threaded)).map (·.2.onWorker cadence)

theorem exists_isLaidOut (cadence : Duration) (commands : List Placed) :
    ∃ blocks, IsLaidOut cadence commands blocks (layOut cadence commands) := by
  obtain ⟨blocks, hcut, hsteps⟩ := layOut_eq cadence commands
  refine ⟨blocks, hcut, hsteps, ?_, fun block hblock h => ?_⟩
  · rw [hsteps]
    exact flatMap_members_perm hcut
  · exact Block.step_of_not_threaded h (hcut.follows block hblock)

theorem compile_of_parse {text : String} {entries : List Script.Entry}
    (h : Script.parse text = .ok entries) :
    compile text registry tuning =
      (buildAll registry tuning (Script.invocations entries)).map fun commands =>
        .ofSteps rootName (layOut tuning.cadence commands) := by
  rw [compile, h]

/-- A routine is what was laid out of all that was built. -/
theorem exists_of_compile {text : String} {root : Command}
    (h : compile text registry tuning = .ok root) :
    ∃ entries commands, Script.parse text = .ok entries ∧
      buildAll registry tuning (Script.invocations entries) = .ok commands ∧
      root = .ofSteps rootName (layOut tuning.cadence commands) := by
  cases hparse : Script.parse text with
  | error line =>
      rw [compile, hparse] at h
      cases h
  | ok entries =>
      rw [compile_of_parse hparse] at h
      cases hbuild : buildAll registry tuning (Script.invocations entries) with
      | error error =>
          rw [hbuild] at h
          cases h
      | ok commands =>
          rw [hbuild] at h
          exact ⟨entries, commands, rfl, hbuild, (Except.ok.inj h).symm⟩

/-- Compiling a script is all or nothing. The first malformed line is the error,
whatever the other lines are. If there is none, the first invocation that cannot
be built is the error, whatever follows it. If all can be built, the routine is
a group that has yet to start, and its steps are the cut of the commands in
front of the sequential ones: every command stands in the steps once, each
opener as a primary and its followers beside it in their order. -/
theorem compile_all_or_nothing (text : String) (registry : Registry) (tuning : Tuning) :
    (∀ before raw after, Script.lines text = before ++ raw :: after →
      (∀ line ∈ before, ¬ Script.IsMalformed line) → Script.IsMalformed raw →
        compile text registry tuning =
          .error (.malformed ⟨before.length + 1, String.ofList (Text.trim raw)⟩)) ∧
    ((∀ line ∈ Script.lines text, ¬ Script.IsMalformed line) →
      ∃ entries, Script.parse text = .ok entries ∧
        (∀ before invocation after error,
          Script.invocations entries = before ++ invocation :: after →
          (∀ i ∈ before, Builds registry tuning i) → Refuses registry tuning invocation error →
            compile text registry tuning = .error error) ∧
        ((∀ i ∈ Script.invocations entries, Builds registry tuning i) →
          ∃ commands blocks steps,
            compile text registry tuning = .ok (.group "routine" .notStarted [] steps) ∧
            AreBuilt registry tuning (Script.invocations entries) commands ∧
            IsLaidOut tuning.cadence commands blocks steps)) := by
  constructor
  · intro before raw after hlines hbefore hraw
    have hparse : Script.parse text =
        .error ⟨1 + before.length, String.ofList (Text.trim raw)⟩ := by
      rw [Script.parse, ← Script.lines, hlines]
      exact Script.readLines_of_malformed hbefore hraw 1 after
    rw [compile, hparse, Nat.add_comm]
  · intro hlines
    obtain ⟨entries, hparse⟩ := Script.exists_readLines hlines 1
    refine ⟨entries, hparse, ?_, fun hall => ?_⟩
    · intro before invocation after error hinvocations hbefore hrefuses
      rw [compile_of_parse hparse, hinvocations, buildAll_of_refuses hbefore hrefuses]
      rfl
    · obtain ⟨commands, hbuild, hbuilt⟩ := exists_buildAll hall
      obtain ⟨blocks, hlaid⟩ := exists_isLaidOut tuning.cadence commands
      refine ⟨commands, blocks, _, ?_, hbuilt, hlaid⟩
      rw [compile_of_parse hparse, hbuild]
      rfl

end Routine

end RobotRoutine

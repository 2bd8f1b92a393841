import RobotRoutine.Proofs.Registry.Arguments
import RobotRoutine.Proofs.Routine.Compile

/-!
# Routines are well formed

The runtime relies on a shape that nothing enforces: a group at the root and
nowhere else, workers that hand on leaves only, none of them among the commands
that a step waits for, and leaves whose numbers are within bounds. The shape comes
from three sides. What the built-in registry builds is a sound leaf
(`Registry.isSoundOutcome_build`); the placement of an invocation decides whether a
worker is put around it (`isMemberFor_attach`); and laying out keeps the commands as
they are, each once, with the workers apart from the companions
(`isWellFormed_layOut`).

A factory on its own does reach for arguments that are not there, but only where
its arity refuses the arguments; and they are counted before it is called.
-/

namespace RobotRoutine

/-! ## Building -/

/-- What comes of building a built-in command, whatever its arguments are. -/
theorem Builtin.isSoundOutcome_build {spec : CommandSpec} (hspec : spec ∈ all)
    (arguments : List String) (tuning : Tuning) :
    IsSoundOutcome tuning arguments (spec.build arguments tuning) := by
  cases haccepts : spec.arity.accepts arguments.length with
  | true =>
      rw [CommandSpec.build_of_accepts haccepts]
      exact trustsArity_of_mem spec hspec arguments tuning haccepts
  | false =>
      rw [CommandSpec.build_of_not_accepts haccepts]
      intro name position heq
      cases (ScriptError.argument.inj heq).2

theorem Registry.isSoundOutcome_build (invocation : Script.Invocation) (tuning : Tuning) :
    Builtin.IsSoundOutcome tuning invocation.arguments (builtins.build invocation tuning) := by
  cases hspec : builtins.get? invocation.name with
  | none =>
      rw [build_of_unknown hspec]
      intro name position heq
      cases heq
  | some spec =>
      rw [build_of_known hspec]
      exact Builtin.isSoundOutcome_build (mem_of_get?_builtins hspec).1 invocation.arguments tuning

namespace Routine

variable {tuning : Tuning}

/-! ## Members of steps -/

/-- What an invocation stands as in its step: a sound leaf that has yet to start, or a worker on
the tuned cadence that has yet to start and hands such a leaf on. -/
inductive IsMemberFor (tuning : Tuning) (invocation : Script.Invocation) : Command → Prop
  | leaf {name : String} {work : Leaf} (hplacement : invocation.placement ≠ .threaded)
      (hsound : work.IsSound tuning invocation.arguments) :
      IsMemberFor tuning invocation (.leaf name .notStarted work)
  | worker {name : String} {work : Leaf} {cadence : Duration}
      (hplacement : invocation.placement = .threaded)
      (hsound : work.IsSound tuning invocation.arguments) (hcadence : cadence = tuning.cadence)
      (hleast : Duration.ofMillis 1 ≤ cadence) :
      IsMemberFor tuning invocation
        (.threaded name .notStarted cadence none (.leaf name .notStarted work))

theorem isMemberFor_attach (valid : tuning.validate = .ok ()) {invocation : Script.Invocation}
    {command : Command} (h : Registry.builtins.build invocation tuning = .ok command) :
    IsMemberFor tuning invocation (Placed.attach tuning.cadence (invocation.placement, command)) := by
  have houtcome := Registry.isSoundOutcome_build invocation tuning
  rw [h] at houtcome
  obtain ⟨name, work, rfl, hsound⟩ := houtcome
  cases hplacement : invocation.placement with
  | sequential => exact .leaf (by rw [hplacement]; decide) (hsound valid)
  | concurrent => exact .leaf (by rw [hplacement]; decide) (hsound valid)
  | threaded =>
      have hcadence := (tuning.validate_eq_ok_iff.mp valid).2.2
      exact .worker hplacement (hsound valid) rfl (Duration.ofMillis_one_le hcadence)

/-- Whether steps hold what invocations stand as, each once, and the workers of a step are not
among its companions. -/
structure IsWellFormed (tuning : Tuning) (invocations : List Script.Invocation) (steps : Steps) :
    Prop where
  members : ∀ step ∈ steps, ∀ member ∈ step.members,
    ∃ invocation ∈ invocations, IsMemberFor tuning invocation member
  once : ∃ commands, List.Forall₂ (IsMemberFor tuning) invocations commands ∧
    (steps.flatMap Step.members).Perm commands
  companions : ∀ step ∈ steps, ∀ companion ∈ step.companions, companion.isThreaded = false

theorem forall₂_isMemberFor (valid : tuning.validate = .ok ())
    {invocations : List Script.Invocation} {commands : List Placed}
    (h : AreBuilt .builtins tuning invocations commands) :
    List.Forall₂ (IsMemberFor tuning) invocations (commands.map (·.attach tuning.cadence)) := by
  rw [AreBuilt, ← List.forall₂_eq_eq_eq, List.forall₂_map_left_iff, List.forall₂_map_right_iff] at h
  refine List.forall₂_map_right_iff.mpr (h.imp fun invocation placed heq => ?_)
  obtain ⟨hplacement, hbuild⟩ := Prod.mk.inj heq
  have hmember := isMemberFor_attach valid hbuild
  rwa [hplacement] at hmember

theorem isWellFormed_layOut {invocations : List Script.Invocation} {commands : List Placed}
    (h : List.Forall₂ (IsMemberFor tuning) invocations (commands.map (·.attach tuning.cadence))) :
    IsWellFormed tuning invocations (layOut tuning.cadence commands) := by
  obtain ⟨blocks, hlaid⟩ := exists_isLaidOut tuning.cadence commands
  refine ⟨fun step hstep member hmember => ?_, ⟨_, h, hlaid.once⟩, fun step hstep => ?_⟩
  · have hcommand := hlaid.once.mem_iff.mp (List.mem_flatMap.mpr ⟨step, hstep, hmember⟩)
    rw [← List.map_snd_zip h.length_eq.ge] at hcommand
    obtain ⟨⟨invocation, _⟩, hpair, rfl⟩ := List.mem_map.mp hcommand
    exact ⟨invocation, (List.of_mem_zip hpair).1, List.forall₂_zip h hpair⟩
  · rw [hlaid.eachStep] at hstep
    obtain ⟨block, -, rfl⟩ := List.mem_map.mp hstep
    intro companion hcompanion
    exact (Bool.not_eq_true' _).mp (List.mem_filter.mp hcompanion).2

/-- Whatever a script is, if it compiles with the built-in registry and a valid
tuning, it compiles into a group that is well formed. And whatever arguments a
built-in command is given, building it does not reach for one that is not there:
where its factory would, the arity has refused the arguments. -/
theorem compile_builtins_wellFormed (tuning : Tuning) :
    (tuning.validate = .ok () → ∀ text routine, compile text .builtins tuning = .ok routine →
      ∃ entries steps, Script.parse text = .ok entries ∧
        routine = .group "routine" .notStarted [] steps ∧
        IsWellFormed tuning (Script.invocations entries) steps) ∧
    (∀ invocation name position,
      Registry.builtins.build invocation tuning ≠ .error (.argument name (.absent position))) ∧
    ∀ spec ∈ Builtin.all, ∀ arguments name position,
      spec.factory arguments tuning = .error (.argument name (.absent position)) →
        spec.arity.accepts arguments.length = false := by
  refine ⟨fun valid text routine h => ?_, fun invocation name position h => ?_,
    fun spec hspec arguments name position h => ?_⟩
  · obtain ⟨entries, commands, hparse, hbuild, rfl⟩ := exists_of_compile h
    have hmembers := forall₂_isMemberFor valid (areBuilt_of_buildAll hbuild)
    exact ⟨entries, _, hparse, rfl, isWellFormed_layOut hmembers⟩
  · have houtcome := Registry.isSoundOutcome_build invocation tuning
    rw [h] at houtcome
    exact houtcome name position rfl
  · by_contra haccepts
    have houtcome := Builtin.trustsArity_of_mem spec hspec arguments tuning
      (Bool.not_eq_false _ ▸ haccepts)
    rw [h] at houtcome
    exact houtcome name position rfl

/-- Powers, a threshold of the script's own and one that it leaves open, a companion and a
worker. -/
theorem compile_builtins_wellFormed_three_commands :
    let text := "drive(0.5, -1, 100)\n!turn(90)\n&driveDistance(10, 3)"
    ({} : Tuning).validate = .ok () ∧ ∃ routine, compile text .builtins {} = .ok routine ∧
      ∃ entries steps, Script.parse text = .ok entries ∧
        routine = .group "routine" .notStarted [] steps ∧
        IsWellFormed {} (Script.invocations entries) steps := by
  intro text
  have valid : ({} : Tuning).validate = .ok () := by decide +kernel
  have hcompiles : (compile text .builtins {}).toOption.isSome = true := by decide +kernel
  cases hroutine : compile text .builtins {} with
  | error error =>
      rw [hroutine] at hcompiles
      cases hcompiles
  | ok routine =>
      exact ⟨valid, routine, rfl, (compile_builtins_wellFormed {}).1 valid text routine hroutine⟩

end Routine

end RobotRoutine

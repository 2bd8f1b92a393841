import RobotRoutine.Proofs.Command.Effects
import RobotRoutine.Proofs.Registry.Registration

/-!
# What the built-in commands build

A registry finds nothing but what was registered, under its own name and without
regard to case (`getElem?_of_reached`). So a command that is built with the
built-in registry comes from one of the twelve specs. All of them build leaves
that have yet to start, and `Builtin.effect?` says by name which of them are
actions and what these do with their arguments.
-/

namespace RobotRoutine

theorem Registry.mem_of_get?_builtins {found : CommandSpec} {name : String}
    (h : builtins.get? name = some found) :
    found ∈ Builtin.all ∧ Text.lowercase found.name = Text.lowercase name :=
  key_of_lastUnder ((getElem?_of_reached .builtins _).symm.trans h)

/-! ## What is built -/

namespace Builtin

/-- What a built-in action does, by its name; nothing for any other command. -/
def effect? (name : String) (arguments : List String) : Option Effect :=
  match Text.lowercase name with
  | "print" => some (.print arguments)
  | "stop" => some .stopDrive
  | "deploybucket" => some (.send .bucket .extended)
  | "retractbucket" => some (.send .bucket .retracted)
  | "closeguard" => some (.send .gearGuard .extended)
  | "openguard" => some (.send .gearGuard .retracted)
  | _ => none

theorem effect?_congr {first second : String}
    (h : Text.lowercase first = Text.lowercase second) : effect? first = effect? second := by
  funext arguments
  rw [effect?, effect?, h]

/-- Whether a spec builds nothing but leaves that have yet to start, and actions
only under the names of actions. -/
def MakesLeaf (spec : CommandSpec) : Prop :=
  ∀ arguments tuning command, spec.factory arguments tuning = .ok command →
    ∃ name work, command = .leaf name .notStarted work ∧
      work.effect? = effect? spec.name arguments

theorem makesLeaf_reading {α : Type} {spec : CommandSpec} {name : String}
    {read : List String → Except ArgumentProblem α} {make : α → Tuning → Command}
    (hfactory : spec.factory = reading name read make)
    (heffect : effect? spec.name = fun _ => none)
    (hmake : ∀ value tuning, ∃ name work, make value tuning = .leaf name .notStarted work ∧
      work.effect? = none) :
    MakesLeaf spec := by
  intro arguments tuning command h
  rw [hfactory, reading] at h
  split at h
  · exact nomatch h
  · next value _ =>
      obtain rfl := Except.ok.inj h
      rw [heffect]
      exact hmake value tuning

theorem makesLeaf_effect {spec : CommandSpec} {name : String} {effect : List String → Effect}
    (hfactory : spec.factory = fun arguments _ => .ok (.action name (effect arguments)))
    (heffect : effect? spec.name = fun arguments => some (effect arguments)) :
    MakesLeaf spec := by
  intro arguments tuning command h
  rw [hfactory] at h
  obtain rfl := Except.ok.inj h
  rw [heffect]
  exact ⟨name, _, rfl, rfl⟩

/-- The built-in commands are leaves, and by their names it is known which are actions. -/
theorem makesLeaf_of_mem : ∀ spec ∈ all, MakesLeaf spec := by
  simp only [all, List.forall_mem_cons, List.not_mem_nil, false_imp_iff, implies_true, and_true]
  exact ⟨makesLeaf_reading rfl rfl fun _ _ => ⟨_, _, rfl, rfl⟩,
    makesLeaf_reading rfl rfl fun _ _ => ⟨_, _, rfl, rfl⟩,
    makesLeaf_reading rfl rfl fun _ _ => ⟨_, _, rfl, rfl⟩,
    makesLeaf_reading rfl rfl fun _ _ => ⟨_, _, rfl, rfl⟩,
    makesLeaf_effect rfl rfl,
    makesLeaf_reading rfl rfl fun _ _ => ⟨_, _, rfl, rfl⟩,
    makesLeaf_reading rfl rfl fun _ _ => ⟨_, _, rfl, rfl⟩,
    makesLeaf_effect rfl rfl, makesLeaf_effect rfl rfl, makesLeaf_effect rfl rfl,
    makesLeaf_effect rfl rfl, makesLeaf_effect rfl rfl⟩

end Builtin

theorem Registry.leaf_of_build_builtins {invocation : Script.Invocation} {tuning : Tuning}
    {command : Command} (h : builtins.build invocation tuning = .ok command) :
    ∃ name work, command = .leaf name .notStarted work ∧
      work.effect? = Builtin.effect? invocation.name invocation.arguments := by
  cases hspec : builtins.get? invocation.name with
  | none =>
      rw [build_of_unknown hspec] at h
      cases h
  | some spec =>
      obtain ⟨hmem, hname⟩ := mem_of_get?_builtins hspec
      rw [build_of_known hspec] at h
      cases haccepts : spec.arity.accepts invocation.arguments.length with
      | true =>
          rw [CommandSpec.build_of_accepts haccepts] at h
          rw [← Builtin.effect?_congr hname]
          exact Builtin.makesLeaf_of_mem spec hmem _ _ _ h
      | false =>
          rw [CommandSpec.build_of_not_accepts haccepts] at h
          cases h

end RobotRoutine

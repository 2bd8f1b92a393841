import RobotRoutine.Proofs.Engine.History
import RobotRoutine.Proofs.Registry.Builtins
import RobotRoutine.Proofs.Routine.Compile
import RobotRoutine.Proofs.Script.Marks

/-!
# The actions of a script are done once and in the order of its lines

What a script has to be performed is read off its invocations: `Script.actions`
goes through them in order and keeps those that name a built-in action. If no
line of the script begins with `&`, the built-in registry makes a flat routine of
it, in which exactly these actions are ahead. What an engine performs of a flat
routine was said in `History.lean`.

That the commands stand in the routine as they stood in the script, whichever of
them are companions, is `flatMap_members_layOut`; it fails where something is
threaded, since a step polls its threaded companions last.
-/

namespace RobotRoutine

/-- The actions among invocations, with their arguments, in order. -/
def Script.actions (invocations : List Script.Invocation) : List Effect :=
  invocations.filterMap fun invocation =>
    Builtin.effect? invocation.name invocation.arguments

namespace Routine

open Command

variable {tuning : Tuning}

/-- What the built-in registry makes of invocations of which none is threaded: leaves that
have yet to start, none of them on a worker, and with the actions of the script ahead. -/
theorem buildAll_builtins {invocations : List Script.Invocation} {commands : List Placed}
    (hplacements : ∀ invocation ∈ invocations, invocation.placement ≠ .threaded)
    (h : buildAll .builtins tuning invocations = .ok commands) :
    (∀ placed ∈ commands, placed.1 ≠ .threaded ∧
      ∃ name work, placed.2 = .leaf name .notStarted work) ∧
    pendingOf (commands.map Prod.snd) = Script.actions invocations := by
  induction invocations generalizing commands with
  | nil =>
      obtain rfl := Except.ok.inj h
      exact ⟨List.forall_mem_nil _, rfl⟩
  | cons first rest ih =>
      rw [buildAll] at h
      cases hfirst : Registry.builtins.build first tuning with
      | error error =>
          rw [hfirst] at h
          cases h
      | ok command =>
          cases hrest : buildAll .builtins tuning rest with
          | error error =>
              rw [hfirst, hrest] at h
              cases h
          | ok others =>
              rw [hfirst, hrest] at h
              obtain rfl := Except.ok.inj h
              obtain ⟨hleaves, hactions⟩ :=
                ih (fun i hi => hplacements i (List.mem_cons_of_mem _ hi)) hrest
              obtain ⟨name, work, rfl, heffect⟩ := Registry.leaf_of_build_builtins hfirst
              refine ⟨List.forall_mem_cons.mpr
                ⟨⟨hplacements first List.mem_cons_self, name, work, rfl⟩, hleaves⟩, ?_⟩
              have hpending : pendingOf ((first.placement, leaf name .notStarted work) ::
                  others |>.map Prod.snd) =
                    work.effect?.toList ++ pendingOf (others.map Prod.snd) := List.flatMap_cons
              rw [hpending, hactions, heffect, Script.actions, Script.actions,
                List.filterMap_cons]
              cases Builtin.effect? first.name first.arguments <;> rfl

theorem pendingIn_eq (steps : List (Step Command)) :
    pendingIn steps = pendingOf (steps.flatMap Step.members) :=
  List.flatMap_assoc.symm

/-- A routine without threaded commands is flat, and has the actions of its commands ahead. -/
theorem ofSteps_layOut {commands : List Placed} (cadence : Duration)
    (h : ∀ placed ∈ commands, placed.1 ≠ .threaded ∧
      ∃ name work, placed.2 = .leaf name .notStarted work) :
    let root := Command.ofSteps rootName (layOut cadence commands)
    root.IsFresh ∧ root.IsFlat ∧ root.ahead = pendingOf (commands.map Prod.snd) := by
  have hattach : ∀ placed ∈ commands, placed.attach cadence = placed.2 := fun placed hplaced => by
    obtain ⟨placement, command⟩ := placed
    cases placement with
    | sequential | concurrent => rfl
    | threaded => exact absurd rfl (h _ hplaced).1
  have hmembers : (layOut cadence commands).flatMap Step.members = commands.map Prod.snd := by
    refine (flatMap_members_layOut fun placed hplaced => ?_).trans (List.map_congr_left hattach)
    obtain ⟨-, name, work, hwork⟩ := h placed hplaced
    rw [hattach placed hplaced, hwork]
    rfl
  have hleaf : ∀ step ∈ layOut cadence commands, ∀ member ∈ step.members,
      ∃ name work, member = .leaf name .notStarted work := by
    intro step hstep member hmember
    have hmember : member ∈ commands.map Prod.snd :=
      hmembers ▸ List.mem_flatMap.mpr ⟨step, hstep, hmember⟩
    obtain ⟨placed, hplaced, rfl⟩ := List.mem_map.mp hmember
    exact (h placed hplaced).2
  refine ⟨isFresh_ofSteps _ fun step hstep member hmember => ?_,
    ⟨fun step hstep member hmember => ?_, rfl⟩, (pendingIn_eq _).trans (congrArg _ hmembers)⟩
  · obtain ⟨name, work, rfl⟩ := hleaf step hstep member hmember
    exact isFresh_leaf name work
  · obtain ⟨name, work, rfl⟩ := hleaf step hstep member hmember
    exact nofun

/-- Actions run at most once and in the order of the script. Whatever a script
without a line that begins with `&` compiles into with the built-in registry, and
however the engine is ticked, aborted and dropped while clocks and sensors read
anything at all, the effects of what was done so far are the first of the script's
actions, each with its expanded arguments, and they are all of them if the engine
says that it completed the routine. Each was done in full to the robot of its time,
with nothing else written between them but orders to the drive, and can be seen on
the robot that there is now. -/
theorem actions_in_order {text : String} {root : Command}
    (hlines : ∀ line ∈ Script.lines text, (Text.trim line).head? ≠ some '&')
    (h : compile text .builtins tuning = .ok root) (robot : Robot)
    (incidents : List Incident) :
    ∃ entries, Script.parse text = .ok entries ∧
      let actions := Script.actions (Script.invocations entries)
      let mission := (Mission.start root robot).after incidents
      let deeds := (Mission.start root robot).deeds incidents
      let performed := deeds.map Deed.effect
      performed <+: actions ∧
        (mission.engine.status = .completed → performed = actions) ∧
        Deed.Lead robot deeds mission.robot ∧ Effect.Shown performed robot mission.robot := by
  cases hparse : Script.parse text with
  | error line =>
      rw [compile, hparse] at h
      cases h
  | ok entries =>
      refine ⟨entries, rfl, ?_⟩
      rw [compile_of_parse hparse] at h
      cases hbuild : buildAll .builtins tuning (Script.invocations entries) with
      | error error =>
          rw [hbuild] at h
          cases h
      | ok commands =>
          rw [hbuild] at h
          obtain rfl := Except.ok.inj h
          obtain ⟨hleaves, hactions⟩ :=
            buildAll_builtins (Script.placement_ne_threaded hlines hparse) hbuild
          obtain ⟨hfresh, hflat, hahead⟩ := ofSteps_layOut tuning.cadence hleaves
          rw [← hactions, ← hahead]
          exact Mission.performs_flat hfresh hflat robot incidents

/-- A sensor fails between two members of the third step: the bucket that was deployed in it stays
deployed and the drive has had an order to stop, but the bucket is not retracted. -/
theorem actions_in_order_unplugged :
    let text := "print(go, x)\nstop()\ndeployBucket()\n!turn(x)\nx = 90\nretractBucket()"
    let robot := Robot.ofParameters {}
    let unplugged : Conditions :=
      ⟨robot.distance.sensor, { robot.heading.sensor with outOfOrder := some "unplugged" }, ⟨6⟩,
        none⟩
    let done : List Effect := [.print ["go", "90"], .stopDrive, .send .bucket .extended]
    (∀ line ∈ Script.lines text, (Text.trim line).head? ≠ some '&') ∧
      ∃ root, compile text .builtins {} = .ok root ∧
        let mission := (Mission.start root robot).after [.change unplugged, .tick]
        let deeds := (Mission.start root robot).deeds [.change unplugged, .tick]
        deeds.map Deed.effect = done ∧
          deeds.map Deed.effect <+: done ++ [.send .bucket .retracted] ∧
          Deed.Lead robot deeds mission.robot ∧
          mission.robot.messages = ["[go, 90]"] ∧
          (mission.robot.actuator .bucket).position = some .extended ∧
          (mission.robot.actuator .bucket).writes = 1 ∧ 1 ≤ mission.robot.drive.writes := by
  intro text robot unplugged done
  have hlines : ∀ line ∈ Script.lines text, (Text.trim line).head? ≠ some '&' := by
    decide +kernel
  have hactions : (Script.parse text).map (Script.actions ∘ Script.invocations) =
      .ok (done ++ [.send .bucket .retracted]) := by decide +kernel
  have hperformed : ((compile text .builtins {}).toOption.map fun root =>
      ((Mission.start root robot).deeds [.change unplugged, .tick]).map Deed.effect) =
        some done := by decide +kernel
  cases hcompile : compile text .builtins {} with
  | error error =>
      rw [hcompile] at hperformed
      cases hperformed
  | ok root =>
      rw [hcompile] at hperformed
      have hdone : ((Mission.start root robot).deeds [.change unplugged, .tick]).map Deed.effect =
          done := Option.some.inj hperformed
      obtain ⟨entries, hparse, hordered, -, hlead, hshown⟩ :=
        actions_in_order hlines hcompile robot [.change unplugged, .tick]
      rw [hparse] at hactions
      have hlisted : Script.actions (Script.invocations entries) =
          done ++ [.send .bucket .retracted] := Except.ok.inj hactions
      rw [hlisted] at hordered
      rw [hdone] at hshown
      exact ⟨hlines, root, rfl, hdone, hordered, hlead, hshown.messages,
        hshown.position .bucket, hshown.sent .bucket, hshown.stopped⟩

end Routine

end RobotRoutine

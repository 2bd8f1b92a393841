import RobotRoutine.Proofs.Command.Trace

/-!
# Deeds and the robots that they lead to

A deed is entered in a trace with the robot that the action found and the robot
that it left. It was done if these differ by what the effect says and by nothing
else (`Deed.IsDone`): one message more, one more order to the drive, which is to
stop, or one more position of a mechanism. Deeds that follow one another lead
from a robot to another one (`Deed.Lead`) if all that happens between them leaves
messages and mechanisms alone and takes no order back that the drive was given.

What a robot shows in the end can then be read off the effects of the deeds
(`Lead.shown`).
-/

namespace RobotRoutine

/-- Whether nothing was emitted and no mechanism was sent anywhere, and the drive is as it was if
it was not given more orders. -/
structure Robot.Keeps (before after : Robot) : Prop where
  messages : after.messages = before.messages
  actuator : ∀ mechanism, after.actuator mechanism = before.actuator mechanism
  drive : after.drive = before.drive ∨ before.drive.writes < after.drive.writes

namespace Robot.Keeps

variable {before middle after : Robot}

theorem refl (robot : Robot) : robot.Keeps robot :=
  ⟨rfl, fun _ => rfl, Or.inl rfl⟩

theorem writes_le (h : before.Keeps after) : before.drive.writes ≤ after.drive.writes := by
  rcases h.drive with hsame | hmore
  · exact Nat.le_of_eq (congrArg Drive.writes hsame.symm)
  · exact Nat.le_of_lt hmore

theorem trans (hfirst : before.Keeps middle) (hsecond : middle.Keeps after) :
    before.Keeps after where
  messages := hsecond.messages.trans hfirst.messages
  actuator mechanism := (hsecond.actuator mechanism).trans (hfirst.actuator mechanism)
  drive := by
    rcases hsecond.drive with hsame | hmore
    · rw [hsame]
      exact hfirst.drive
    · exact Or.inr (Nat.lt_of_le_of_lt hfirst.writes_le hmore)

theorem of_order {order : DriveOrder} (hmessages : after.messages = before.messages)
    (hactuator : ∀ mechanism, after.actuator mechanism = before.actuator mechanism)
    (hdrive : after.drive = before.drive.give order) : before.Keeps after :=
  ⟨hmessages, hactuator, Or.inr (by rw [hdrive]; exact Nat.lt_succ_self _)⟩

end Robot.Keeps

/-! ## What a robot shows of effects -/

namespace Effect

/-- The message that an effect emits. -/
def message? : Effect → Option String
  | .print words => some ("[" ++ ", ".intercalate words ++ "]")
  | .stopDrive | .send .. => none

/-- The position that an effect sends a mechanism to. -/
def position? (mechanism : Mechanism) : Effect → Option Position
  | .send sent position => if sent = mechanism then some position else none
  | .print _ | .stopDrive => none

/-- Whether effects can be seen on a robot that could not be on another one: their messages behind
the others, each mechanism at the last position that they send it to and sent somewhere as often as
they do, and the drive with an order more, at least, for each time that they stop it. -/
structure Shown (effects : List Effect) (before after : Robot) : Prop where
  messages : after.messages = before.messages ++ effects.filterMap message?
  position : ∀ mechanism, (after.actuator mechanism).position =
    (effects.filterMap (position? mechanism)).getLast?.or (before.actuator mechanism).position
  sent : ∀ mechanism, (after.actuator mechanism).writes =
    (before.actuator mechanism).writes + (effects.filterMap (position? mechanism)).length
  stopped : before.drive.writes + effects.count .stopDrive ≤ after.drive.writes

variable {before middle after : Robot} {first second : List Effect}

theorem Shown.of_keeps (h : before.Keeps after) : Shown [] before after where
  messages := by rw [h.messages, List.filterMap_nil, List.append_nil]
  position mechanism := by rw [h.actuator]; rfl
  sent mechanism := by rw [h.actuator]; rfl
  stopped := h.writes_le

theorem Shown.append (hfirst : Shown first before middle) (hsecond : Shown second middle after) :
    Shown (first ++ second) before after where
  messages := by
    rw [hsecond.messages, hfirst.messages, List.filterMap_append, List.append_assoc]
  position mechanism := by
    rw [hsecond.position, hfirst.position, List.filterMap_append, List.getLast?_append,
      Option.or_assoc]
  sent mechanism := by
    rw [hsecond.sent, hfirst.sent, List.filterMap_append, List.length_append, Nat.add_assoc]
  stopped := by
    have hfirst := hfirst.stopped
    have hsecond := hsecond.stopped
    rw [List.count_append]
    omega

end Effect

/-! ## Deeds, one after the other -/

namespace Deed

/-- Whether the robot after a deed is as its effect makes it, and otherwise as it was before. -/
inductive IsDone : Deed → Prop
  | print (words : List String) (robot : Robot) :
      IsDone ⟨.print words, robot,
        { robot with messages := robot.messages ++ ["[" ++ ", ".intercalate words ++ "]"] }⟩
  | stopDrive (robot : Robot) :
      IsDone ⟨.stopDrive, robot, { robot with drive := ⟨some .stop, robot.drive.writes + 1⟩ }⟩
  | bucket (position : Position) (robot : Robot) :
      IsDone ⟨.send .bucket position, robot,
        { robot with bucket := ⟨some position, robot.bucket.writes + 1⟩ }⟩
  | gearGuard (position : Position) (robot : Robot) :
      IsDone ⟨.send .gearGuard position, robot,
        { robot with gearGuard := ⟨some position, robot.gearGuard.writes + 1⟩ }⟩

/-- Whether deeds lead from one robot to another: all are done, each after those before it, and
nothing besides is written but orders to the drive. -/
inductive Lead : Robot → List Deed → Robot → Prop
  | nil {before after : Robot} (h : before.Keeps after) : Lead before [] after
  | cons {before after : Robot} {deed : Deed} {rest : List Deed} (h : before.Keeps deed.before)
      (hdone : deed.IsDone) (hrest : Lead deed.after rest after) : Lead before (deed :: rest) after

theorem isDone_perform (effect : Effect) (robot : Robot) :
    IsDone ⟨effect, robot, effect.perform robot⟩ := by
  cases effect with
  | print words => exact .print words robot
  | stopDrive => exact .stopDrive robot
  | send mechanism position =>
      cases mechanism with
      | bucket => exact .bucket position robot
      | gearGuard => exact .gearGuard position robot

theorem IsDone.shown {deed : Deed} (h : deed.IsDone) :
    Effect.Shown [deed.effect] deed.before deed.after := by
  cases h with
  | print words robot => exact ⟨rfl, fun _ => rfl, fun _ => rfl, Nat.le_refl _⟩
  | stopDrive robot =>
      exact ⟨(List.append_nil _).symm, fun _ => rfl, fun _ => rfl, Nat.le_refl _⟩
  | bucket position robot | gearGuard position robot =>
      refine ⟨(List.append_nil _).symm, fun mechanism => ?_, fun mechanism => ?_, Nat.le_refl _⟩
      · cases mechanism <;> rfl
      · cases mechanism <;> rfl

namespace Lead

variable {before middle after : Robot} {first second : List Deed}

theorem refl (robot : Robot) : Lead robot [] robot :=
  .nil (.refl robot)

theorem of_keeps (hfirst : before.Keeps middle) (hsecond : Lead middle second after) :
    Lead before second after := by
  cases hsecond with
  | nil h => exact .nil (hfirst.trans h)
  | cons h hdone hrest => exact .cons (hfirst.trans h) hdone hrest

theorem trans (hfirst : Lead before first middle) (hsecond : Lead middle second after) :
    Lead before (first ++ second) after := by
  induction hfirst with
  -- What keeps the robot behind the first deeds goes in front of the second.
  | nil h => exact hsecond.of_keeps h
  | cons h hdone _ ih => exact .cons h hdone (ih hsecond)

theorem trans_keeps (hfirst : Lead before first middle) (hsecond : middle.Keeps after) :
    Lead before first after := by
  have h := hfirst.trans (.nil hsecond)
  rwa [List.append_nil] at h

/-- Where deeds lead, their effects can be read off the robot. -/
theorem shown (h : Lead before first after) :
    Effect.Shown (first.map Deed.effect) before after := by
  induction h with
  | nil h => exact .of_keeps h
  | cons h hdone _ ih => exact (Effect.Shown.of_keeps h).append (hdone.shown.append ih)

end Lead

end Deed

end RobotRoutine

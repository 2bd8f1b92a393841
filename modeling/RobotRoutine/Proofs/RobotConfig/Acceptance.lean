import RobotRoutine.Proofs.Json.Reread

/-!
# Valid configurations saved and loaded

A configuration is validated when it is loaded, but the parameters of the robot are not looked at.
One that is infinite, or no number, is saved as `null`, which is no double to the reader. Every
other double is read as a double, and a positive one as a positive one. So what was valid is loaded
again unless it has such a parameter.
-/

namespace RobotRoutine

open Decimal

/-! ## Parameters -/

/-- The doubles among the parameters of a robot: all of them. -/
def PlantParameters.doubles (plant : PlantParameters) : List Float :=
  [plant.maxSpeed, plant.maxTurnRate, plant.distanceGain, plant.headingGain]

theorem PlantParameters.isSome_reread? (plant : PlantParameters) :
    plant.reread?.isSome = plant.doubles.all Float.isFinite := by
  simp only [doubles, List.all_cons, List.all_nil, Bool.and_true, ← Json.isSome_reread?, reread?]
  cases Json.reread? plant.maxSpeed <;> cases Json.reread? plant.maxTurnRate <;>
    cases Json.reread? plant.distanceGain <;> cases Json.reread? plant.headingGain <;> rfl

/-! ## Validity -/

theorem Duration.ofMillis_one_le {millis : UInt64} (h : millis ≠ 0) :
    ofMillis 1 ≤ ofMillis millis.toNat := by
  have hpositive : millis.toNat ≠ 0 := fun hzero => h (UInt64.toNat_inj.mp hzero)
  exact Nat.mul_le_mul_right perMilli (Nat.one_le_iff_ne_zero.mpr hpositive)

theorem Tuning.validate_eq_ok_iff (tuning : Tuning) :
    tuning.validate = .ok () ↔ tuning.defaultThreshold ≠ 0 ∧
      isPositive tuning.turnCoefficient = true ∧ tuning.cadenceMillis ≠ 0 := by
  rw [validate]
  split
  · simp [*]
  · split
    · simp_all
    · split <;> simp_all

theorem Tuning.exists_reread?_of_valid {tuning : Tuning} (h : tuning.validate = .ok ()) :
    ∃ again, tuning.reread? = some again ∧ again.validate = .ok () := by
  obtain ⟨hthreshold, hcoefficient, hcadence⟩ := tuning.validate_eq_ok_iff.mp h
  obtain ⟨coefficient, hread, hpositive⟩ := Json.exists_reread?_of_isPositive hcoefficient
  refine ⟨{ tuning with turnCoefficient := coefficient }, ?_, ?_⟩
  · rw [reread?, hread]
    rfl
  · exact (validate_eq_ok_iff _).mpr ⟨hthreshold, hpositive, hcadence⟩

namespace RobotConfig

variable {config : RobotConfig}

theorem validate_eq_ok_iff (config : RobotConfig) :
    config.validate = .ok () ↔ Text.isAllBlank config.routine.toList = false ∧
      config.routine.toList.any (fun c => c = '/' ∨ c = '\\') = false ∧
        config.periodMillis ≠ 0 ∧ isPositive config.budgetSeconds = true ∧
          config.tuning.validate = .ok () := by
  rw [validate]
  generalize config.routine.toList.any (fun c => c = '/' ∨ c = '\\') = separated
  split
  · simp [*]
  · split
    · simp_all
    · split
      · simp_all
      · split
        · simp_all
        · cases config.tuning.validate <;> simp_all [Except.mapError]

/-- A valid configuration is printed as what is read as a valid one, if it can be read at all. -/
theorem exists_reread?_of_valid (valid : config.validate = .ok ()) :
    if config.plant.doubles.all Float.isFinite then
      ∃ again, config.reread? = some again ∧ again.validate = .ok ()
    else config.reread? = none := by
  obtain ⟨hblank, hseparator, hperiod, hbudget, htuning⟩ := config.validate_eq_ok_iff.mp valid
  obtain ⟨budget, hbudget', hpositive⟩ := Json.exists_reread?_of_isPositive hbudget
  obtain ⟨tuning, htuning', hvalid⟩ := Tuning.exists_reread?_of_valid htuning
  rw [reread?, hbudget', htuning', ← PlantParameters.isSome_reread?]
  cases hplant : config.plant.reread? with
  | none => rfl
  | some plant =>
      exact ⟨{ config with budgetSeconds := budget, tuning, plant }, rfl,
        (validate_eq_ok_iff _).mpr ⟨hblank, hseparator, hperiod, hpositive, hvalid⟩⟩

/-! ## Files -/

/-- A valid configuration that was saved is loaded again, the same but for what became of its
doubles, unless a parameter of the robot is infinite or no number. Then what was saved is refused
as no configuration. -/
theorem load_of_save_of_valid {files saved : FileTree} {path : String}
    (valid : config.validate = .ok ())
    (written : (config.save FileTree.access path).run files = (.ok (), saved)) :
    if config.plant.doubles.all Float.isFinite then
      ∃ again, ((load FileTree.access path).run saved).1 = .ok again ∧
        config.AgreesButForDoubles again
    else ((load FileTree.access path).run saved).1 = .error .malformed := by
  have hread := exists_reread?_of_valid valid
  rw [load_of_save written]
  split at hread
  · rw [if_pos ‹_›]
    obtain ⟨again, hagain, hvalid⟩ := hread
    exact ⟨again, read_eq_ok_iff.mpr ⟨(ofText?_toText config).trans hagain, hvalid⟩,
      ((reread?_eq_some_iff config again).mp hagain).1⟩
  · rw [if_neg ‹_›, read, ofText?_toText, hread]

/-- A valid configuration with an infinite speed is saved, and refused when it is loaded. -/
theorem load_of_save_infinite_speed :
    ∃ (files saved : FileTree) (config : RobotConfig),
      config.validate = .ok () ∧ config.plant.maxSpeed = 1 / 0 ∧
        (config.save FileTree.access "config.json").run files = (.ok (), saved) ∧
        ((load FileTree.access "config.json").run saved).1 = .error .malformed := by
  let files : FileTree := ⟨[], [], []⟩
  let config : RobotConfig := { plant := { maxSpeed := 1 / 0 } }
  have hwrite (content : ByteArray) : files.write "config.json" content =
      .ok (files.putFile ["config.json"] content) := rfl
  have written : (config.save FileTree.access "config.json").run files =
      (.ok (), files.putFile ["config.json"] config.toText.toUTF8) := by
    rw [save, StateT.run_bind, FileTree.run_write_access, hwrite]
    rfl
  have valid : config.validate = .ok () := by decide +kernel
  have hinfinite : ¬ config.plant.doubles.all Float.isFinite = true := by decide +kernel
  have hload := load_of_save_of_valid valid written
  rw [if_neg hinfinite] at hload
  exact ⟨files, _, config, valid, rfl, written, hload⟩

end RobotConfig

end RobotRoutine

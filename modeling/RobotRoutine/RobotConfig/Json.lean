import RobotRoutine.Json.Number
import RobotRoutine.Json.Printer
import RobotRoutine.Json.Reader
import RobotRoutine.Json.Record
import RobotRoutine.RobotConfig

/-!
# The configuration in JSON

A configuration is a record of its parts, of which the constants of commands and robot are records
themselves. What is not given has its default.
-/

namespace RobotRoutine

open Json

/-- An alliance, by its name or as an object with the name for its only key and nothing under it. -/
def Alliance.ofJson? (value : Json) : Option Alliance :=
  let named : Option String → Option Alliance
    | some "red" => some .red
    | some "blue" => some .blue
    | _ => none
  match value with
  | .string codes => named (textOf? codes)
  | .object [(key, .null)] => named (textOf? key)
  | _ => none

namespace Tuning

/-- The names of the constants. -/
def fieldNames : List String :=
  ["default_threshold", "turn_speed_coefficient", "threaded_cadence_ms"]

/-- The constants as a JSON value. -/
def toJson (tuning : Tuning) : Json :=
  .object [
    member "default_threshold" (.ofNat tuning.defaultThreshold.toNat),
    member "turn_speed_coefficient" (.ofFloat tuning.turnCoefficient),
    member "threaded_cadence_ms" (.ofNat tuning.cadenceMillis.toNat)]

/-- The constants that a JSON value describes. -/
def ofJson? (value : Json) : Option Tuning := do
  let usual : Tuning := {}
  let fields ← fields? fieldNames value
  let threshold ← fieldOr fields "default_threshold" usual.defaultThreshold.toNat
    (natBelow? (Decimal.twoTo 32))
  let turnCoefficient ← fieldOr fields "turn_speed_coefficient" usual.turnCoefficient float?
  let cadence ← fieldOr fields "threaded_cadence_ms" usual.cadenceMillis.toNat (natBelow? (Decimal.twoTo 64))
  return { defaultThreshold := .ofNat threshold, turnCoefficient, cadenceMillis := .ofNat cadence }

end Tuning

namespace PlantParameters

/-- The names of the parameters. -/
def fieldNames : List String :=
  ["max_speed", "max_turn_rate", "distance_gain", "heading_gain"]

/-- The parameters as a JSON value. -/
def toJson (plant : PlantParameters) : Json :=
  .object [
    member "max_speed" (.ofFloat plant.maxSpeed),
    member "max_turn_rate" (.ofFloat plant.maxTurnRate),
    member "distance_gain" (.ofFloat plant.distanceGain),
    member "heading_gain" (.ofFloat plant.headingGain)]

/-- The parameters that a JSON value describes. -/
def ofJson? (value : Json) : Option PlantParameters := do
  let usual : PlantParameters := {}
  let fields ← fields? fieldNames value
  let maxSpeed ← fieldOr fields "max_speed" usual.maxSpeed float?
  let maxTurnRate ← fieldOr fields "max_turn_rate" usual.maxTurnRate float?
  let distanceGain ← fieldOr fields "distance_gain" usual.distanceGain float?
  let headingGain ← fieldOr fields "heading_gain" usual.headingGain float?
  return { maxSpeed, maxTurnRate, distanceGain, headingGain }

end PlantParameters

namespace RobotConfig

/-- The names of the parts. -/
def fieldNames : List String :=
  ["script_dir", "routine", "alliance", "period_ms", "budget_secs", "tuning", "sim"]

/-- The configuration as a JSON value. -/
def toJson (config : RobotConfig) : Json :=
  .object [
    member "script_dir" (.ofText config.scriptDirectory),
    member "routine" (.ofText config.routine),
    member "alliance" (.ofText config.alliance.toText),
    member "period_ms" (.ofNat config.periodMillis.toNat),
    member "budget_secs" (.ofFloat config.budgetSeconds),
    member "tuning" config.tuning.toJson,
    member "sim" config.plant.toJson]

/-- The configuration that a JSON value describes. -/
def ofJson? (value : Json) : Option RobotConfig := do
  let usual : RobotConfig := {}
  let fields ← fields? fieldNames value
  let scriptDirectory ← fieldOr fields "script_dir" usual.scriptDirectory text?
  let routine ← fieldOr fields "routine" usual.routine text?
  let alliance ← fieldOr fields "alliance" usual.alliance Alliance.ofJson?
  let period ← fieldOr fields "period_ms" usual.periodMillis.toNat (natBelow? (Decimal.twoTo 64))
  let budgetSeconds ← fieldOr fields "budget_secs" usual.budgetSeconds float?
  let tuning ← fieldOr fields "tuning" usual.tuning Tuning.ofJson?
  let plant ← fieldOr fields "sim" usual.plant PlantParameters.ofJson?
  return { scriptDirectory, routine, alliance, periodMillis := .ofNat period, budgetSeconds, tuning
           plant }

/-- The text that a configuration is saved as. -/
def toText (config : RobotConfig) : String :=
  config.toJson.pretty

/-- The configuration that a text describes. -/
def ofText? (text : String) : Option RobotConfig :=
  (Json.parse? text).bind ofJson?

end RobotConfig

end RobotRoutine

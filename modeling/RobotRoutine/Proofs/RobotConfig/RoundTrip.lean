import Mathlib.Data.List.Forall2
import RobotRoutine.Proofs.Files.Tree
import RobotRoutine.Proofs.Json.RoundTrip
import RobotRoutine.RobotConfig.File

/-!
# Configurations saved and loaded

A configuration that was saved is read back with its texts, its alliance and its whole numbers as
they were. A double is printed with the fewest digits that stand for it alone, but the two steps in
which these are read can miss it by a neighbour. So the configuration is the same as before exactly
if each of its doubles survives being printed and read.
-/

namespace RobotRoutine

namespace Json

/-! ## Records -/

theorem isPrintable_ofFloat (x : Float) : (ofFloat x).IsPrintable := by
  unfold ofFloat
  split
  · exact .number (isWellFormed_numeral_numbers _ _ _)
  · exact .null

theorem isPrintable_ofNat (n : Nat) : (ofNat n).IsPrintable :=
  .number (isWellFormed_ofNat n)

/-- A record as a value, field by field. -/
def ofFields (fields : List (String × Json)) : Json :=
  .object (fields.map fun field => member field.1 field.2)

theorem isPrintable_ofFields {fields : List (String × Json)}
    (h : ∀ field ∈ fields, field.2.IsPrintable) : (ofFields fields).IsPrintable := by
  refine .object ?_ ?_
  · intro m hm
    obtain ⟨field, -, rfl⟩ := List.mem_map.mp hm
    exact ⟨field.1, rfl⟩
  · intro m hm
    obtain ⟨field, hfield, rfl⟩ := List.mem_map.mp hm
    exact h field hfield

theorem named?_map_member (fields : List (String × Json)) :
    named? (fields.map fun field => member field.1 field.2) = some fields := by
  induction fields with
  | nil => rfl
  | cons field rest ih =>
    rw [List.map_cons, member, named?, textOf?_codesOf, ih]
    rfl

/-- A record that has each field once is read field by field. -/
theorem fields?_ofFields {names : List String} {fields : List (String × Json)}
    (h : fields.map Prod.fst = names) (hnodup : names.Nodup) :
    fields? names (ofFields fields) = some fields := by
  have hall : fields.filter (fun field => decide (field.1 ∈ names)) = fields := by
    refine List.filter_eq_self.mpr fun field hfield => ?_
    rw [← h]
    exact decide_eq_true (List.mem_map_of_mem hfield)
  simp only [fields?, ofFields, named?_map_member, Option.bind_eq_bind, Option.bind_some, hall, h,
    if_pos hnodup]

theorem fieldOr_of_lookup {α : Type} {fields : List (String × Json)} {name : String} {value : Json}
    (h : fields.lookup name = some value) (default : α) (read : Json → Option α) :
    fieldOr fields name default read = read value := by
  rw [fieldOr, h]

theorem text?_ofText (text : String) : (ofText text).text? = some text :=
  textOf?_codesOf text

/-- The double that is read where `x` was printed. -/
def reread? (x : Float) : Option Float :=
  (ofFloat x).float?

end Json

open Json

theorem Alliance.ofJson?_ofText (alliance : Alliance) :
    Alliance.ofJson? (.ofText alliance.toText) = some alliance := by
  cases alliance <;> rfl

/-! ## The parts -/

namespace Tuning

/-- The constants as the fields of a record. -/
def fields (tuning : Tuning) : List (String × Json) :=
  [("default_threshold", .ofNat tuning.defaultThreshold.toNat),
    ("turn_speed_coefficient", .ofFloat tuning.turnCoefficient),
    ("threaded_cadence_ms", .ofNat tuning.cadenceMillis.toNat)]

theorem toJson_eq (tuning : Tuning) : tuning.toJson = ofFields tuning.fields :=
  rfl

theorem isPrintable_toJson (tuning : Tuning) : tuning.toJson.IsPrintable := by
  rw [toJson_eq]
  apply isPrintable_ofFields
  simp [fields, isPrintable_ofNat, isPrintable_ofFloat]

/-- The constants that are read where these were printed. -/
def reread? (tuning : Tuning) : Option Tuning := do
  let turnCoefficient ← Json.reread? tuning.turnCoefficient
  return { tuning with turnCoefficient }

theorem ofJson?_toJson (tuning : Tuning) : ofJson? tuning.toJson = tuning.reread? := by
  have hnames : tuning.fields.map Prod.fst = fieldNames := rfl
  have hfields : fields? fieldNames tuning.toJson = some tuning.fields :=
    fields?_ofFields hnames (by decide)
  have hthreshold (default : Nat) : fieldOr tuning.fields "default_threshold" default
      (natBelow? (Decimal.twoTo 32)) = some tuning.defaultThreshold.toNat :=
    (fieldOr_of_lookup rfl default _).trans (natBelow?_ofNat tuning.defaultThreshold.toNat_lt)
  have hturn (default : Float) : fieldOr tuning.fields "turn_speed_coefficient" default float? =
      Json.reread? tuning.turnCoefficient := fieldOr_of_lookup rfl default _
  have hcadence (default : Nat) : fieldOr tuning.fields "threaded_cadence_ms" default
      (natBelow? (Decimal.twoTo 64)) = some tuning.cadenceMillis.toNat :=
    (fieldOr_of_lookup rfl default _).trans (natBelow?_ofNat tuning.cadenceMillis.toNat_lt)
  rw [ofJson?, hfields]
  simp only [Option.bind_eq_bind, Option.bind_some, hthreshold, hturn, hcadence,
    UInt32.ofNat_toNat, UInt64.ofNat_toNat]
  rfl

end Tuning

namespace PlantParameters

/-- The parameters as the fields of a record. -/
def fields (plant : PlantParameters) : List (String × Json) :=
  [("max_speed", .ofFloat plant.maxSpeed), ("max_turn_rate", .ofFloat plant.maxTurnRate),
    ("distance_gain", .ofFloat plant.distanceGain), ("heading_gain", .ofFloat plant.headingGain)]

theorem toJson_eq (plant : PlantParameters) : plant.toJson = ofFields plant.fields :=
  rfl

theorem isPrintable_toJson (plant : PlantParameters) : plant.toJson.IsPrintable := by
  rw [toJson_eq]
  apply isPrintable_ofFields
  simp [fields, isPrintable_ofFloat]

/-- The parameters that are read where these were printed. -/
def reread? (plant : PlantParameters) : Option PlantParameters := do
  let maxSpeed ← Json.reread? plant.maxSpeed
  let maxTurnRate ← Json.reread? plant.maxTurnRate
  let distanceGain ← Json.reread? plant.distanceGain
  let headingGain ← Json.reread? plant.headingGain
  return { maxSpeed, maxTurnRate, distanceGain, headingGain }

theorem ofJson?_toJson (plant : PlantParameters) : ofJson? plant.toJson = plant.reread? := by
  have hnames : plant.fields.map Prod.fst = fieldNames := rfl
  have hfields : fields? fieldNames plant.toJson = some plant.fields :=
    fields?_ofFields hnames (by decide)
  have hfield {name : String} {x : Float} (h : plant.fields.lookup name = some (.ofFloat x))
      (default : Float) : fieldOr plant.fields name default float? = Json.reread? x :=
    fieldOr_of_lookup h default _
  rw [ofJson?, hfields]
  simp only [Option.bind_eq_bind, Option.bind_some]
  rw [hfield rfl, hfield rfl, hfield rfl, hfield rfl]
  rfl

end PlantParameters

namespace RobotConfig

/-- The configuration as the fields of a record. -/
def fields (config : RobotConfig) : List (String × Json) :=
  [("script_dir", .ofText config.scriptDirectory), ("routine", .ofText config.routine),
    ("alliance", .ofText config.alliance.toText), ("period_ms", .ofNat config.periodMillis.toNat),
    ("budget_secs", .ofFloat config.budgetSeconds), ("tuning", config.tuning.toJson),
    ("sim", config.plant.toJson)]

theorem toJson_eq (config : RobotConfig) : config.toJson = ofFields config.fields :=
  rfl

theorem isPrintable_toJson (config : RobotConfig) : config.toJson.IsPrintable := by
  rw [toJson_eq]
  apply isPrintable_ofFields
  simp [fields, IsPrintable.text, isPrintable_ofNat, isPrintable_ofFloat,
    Tuning.isPrintable_toJson, PlantParameters.isPrintable_toJson]

/-- The configuration that is read where this one was printed. -/
def reread? (config : RobotConfig) : Option RobotConfig := do
  let budgetSeconds ← Json.reread? config.budgetSeconds
  let tuning ← config.tuning.reread?
  let plant ← config.plant.reread?
  return { config with budgetSeconds, tuning, plant }

theorem ofJson?_toJson (config : RobotConfig) : ofJson? config.toJson = config.reread? := by
  have hnames : config.fields.map Prod.fst = fieldNames := rfl
  have hfields : fields? fieldNames config.toJson = some config.fields :=
    fields?_ofFields hnames (by decide)
  have hdirectory (default : String) : fieldOr config.fields "script_dir" default text? =
      some config.scriptDirectory := (fieldOr_of_lookup rfl default _).trans (text?_ofText _)
  have hroutine (default : String) : fieldOr config.fields "routine" default text? =
      some config.routine := (fieldOr_of_lookup rfl default _).trans (text?_ofText _)
  have halliance (default : Alliance) : fieldOr config.fields "alliance" default Alliance.ofJson? =
      some config.alliance := (fieldOr_of_lookup rfl default _).trans (Alliance.ofJson?_ofText _)
  have hperiod (default : Nat) : fieldOr config.fields "period_ms" default
      (natBelow? (Decimal.twoTo 64)) = some config.periodMillis.toNat :=
    (fieldOr_of_lookup rfl default _).trans (natBelow?_ofNat config.periodMillis.toNat_lt)
  have hbudget (default : Float) : fieldOr config.fields "budget_secs" default float? =
      Json.reread? config.budgetSeconds := fieldOr_of_lookup rfl default _
  have htuning (default : Tuning) : fieldOr config.fields "tuning" default Tuning.ofJson? =
      config.tuning.reread? := (fieldOr_of_lookup rfl default _).trans config.tuning.ofJson?_toJson
  have hplant (default : PlantParameters) : fieldOr config.fields "sim" default
      PlantParameters.ofJson? = config.plant.reread? :=
    (fieldOr_of_lookup rfl default _).trans config.plant.ofJson?_toJson
  rw [ofJson?, hfields]
  simp only [Option.bind_eq_bind, Option.bind_some, hdirectory, hroutine, halliance, hperiod,
    hbudget, htuning, hplant, UInt64.ofNat_toNat]
  rfl

/-- What a saved configuration is read as. -/
theorem ofText?_toText (config : RobotConfig) : ofText? config.toText = config.reread? := by
  rw [ofText?, toText, parse?_pretty config.isPrintable_toJson, Option.bind_some, ofJson?_toJson]

/-! ## The whole -/

/-- The doubles of a configuration. -/
def doubles (config : RobotConfig) : List Float :=
  [config.budgetSeconds, config.tuning.turnCoefficient, config.plant.maxSpeed,
    config.plant.maxTurnRate, config.plant.distanceGain, config.plant.headingGain]

/-- The same configuration but for its doubles. -/
structure AgreesButForDoubles (config again : RobotConfig) : Prop where
  scriptDirectory : again.scriptDirectory = config.scriptDirectory
  routine : again.routine = config.routine
  alliance : again.alliance = config.alliance
  periodMillis : again.periodMillis = config.periodMillis
  threshold : again.tuning.defaultThreshold = config.tuning.defaultThreshold
  cadenceMillis : again.tuning.cadenceMillis = config.tuning.cadenceMillis

theorem reread?_eq_some_iff (config again : RobotConfig) :
    config.reread? = some again ↔ config.AgreesButForDoubles again ∧
      List.Forall₂ (fun x y => Json.reread? x = some y) config.doubles again.doubles := by
  constructor
  · intro h
    simp only [reread?, Tuning.reread?, PlantParameters.reread?, Option.bind_eq_bind,
      Option.bind_eq_some_iff, Option.pure_def, Option.some.injEq] at h
    obtain ⟨budget, hbudget, _, ⟨turn, hturn, rfl⟩, _, ⟨speed, hspeed, rate, hrate, distance,
      hdistance, heading, hheading, rfl⟩, rfl⟩ := h
    refine ⟨⟨rfl, rfl, rfl, rfl, rfl, rfl⟩, ?_⟩
    simp only [doubles, List.forall₂_cons, hbudget, hturn, hspeed, hrate, hdistance, hheading,
      List.Forall₂.nil, and_self]
  · rintro ⟨agrees, hdoubles⟩
    simp only [doubles, List.forall₂_cons] at hdoubles
    obtain ⟨hbudget, hturn, hspeed, hrate, hdistance, hheading, -⟩ := hdoubles
    obtain ⟨h₁, h₂, h₃, h₄, h₅, h₆⟩ := agrees
    simp only [reread?, Tuning.reread?, PlantParameters.reread?, hbudget, hturn, hspeed, hrate,
      hdistance, hheading, ← h₁, ← h₂, ← h₃, ← h₄, ← h₅, ← h₆]
    rfl

theorem reread?_eq_self_iff (config : RobotConfig) :
    config.reread? = some config ↔ ∀ x ∈ config.doubles, Json.reread? x = some x := by
  rw [reread?_eq_some_iff, and_iff_right ⟨rfl, rfl, rfl, rfl, rfl, rfl⟩, List.forall₂_same]

example : ∀ x ∈ ({} : RobotConfig).doubles, Json.reread? x = some x := by
  decide +kernel

/-! ## Files -/

theorem read_eq_ok_iff {text : String} {config : RobotConfig} :
    read text = .ok config ↔ ofText? text = some config ∧ config.validate = .ok () := by
  unfold read
  cases ofText? text with
  | none => simp
  | some c =>
    cases hvalid : c.validate with
    | error problem =>
      simp only [hvalid, Option.some.injEq]
      constructor
      · intro h
        cases h
      · rintro ⟨rfl, hok⟩
        rw [hvalid] at hok
        cases hok
    | ok _ =>
      simp only [hvalid, Option.some.injEq, Except.ok.injEq]
      constructor
      · rintro rfl
        exact ⟨rfl, hvalid⟩
      · exact And.left

theorem validate_of_load {files : FileTree} {path : String} {config : RobotConfig}
    (h : ((load FileTree.access path).run files).1 = .ok config) : config.validate = .ok () := by
  rw [load, StateT.run_bind] at h
  generalize (FileTree.access.readText path).run files = outcome at h
  obtain ⟨outcome, after⟩ := outcome
  cases outcome with
  | error failure => cases h
  | ok text => exact (read_eq_ok_iff.mp h).2

theorem write_of_save {files saved : FileTree} {path : String} {config : RobotConfig}
    (h : (config.save FileTree.access path).run files = (.ok (), saved)) :
    files.write path config.toText.toUTF8 = .ok saved := by
  rw [save, StateT.run_bind, FileTree.run_write_access] at h
  cases hfiles : files.write path config.toText.toUTF8 with
  | error failure =>
    rw [hfiles] at h
    cases h
  | ok tree =>
    rw [hfiles] at h
    cases h
    rfl

/-- What is loaded from a file that a configuration was saved to. -/
theorem load_of_save {files saved : FileTree} {path : String} {config : RobotConfig}
    (h : (config.save FileTree.access path).run files = (.ok (), saved)) :
    (load FileTree.access path).run saved = (read config.toText, saved) := by
  have hread := FileTree.read_of_write (write_of_save h)
  rw [load, StateT.run_bind, FileTree.readText_of_read hread]
  rfl

/-- A configuration that was loaded and saved is loaded again as it was exactly if each of its
doubles is read from what it is printed as. Whatever is loaded in its place differs in nothing but
those doubles that are read as others. -/
theorem load_save_iff {files saved : FileTree} {source target : String} {config : RobotConfig}
    (loaded : ((load FileTree.access source).run files).1 = .ok config)
    (written : (config.save FileTree.access target).run files = (.ok (), saved)) :
    (((load FileTree.access target).run saved).1 = .ok config ↔
        ∀ x ∈ config.doubles, Json.reread? x = some x) ∧
      ∀ again, ((load FileTree.access target).run saved).1 = .ok again →
        config.AgreesButForDoubles again ∧
          List.Forall₂ (fun x y => Json.reread? x = some y) config.doubles again.doubles := by
  rw [load_of_save written]
  constructor
  · rw [read_eq_ok_iff, ofText?_toText, reread?_eq_self_iff,
      and_iff_left (validate_of_load loaded)]
  · intro again hagain
    rw [read_eq_ok_iff, ofText?_toText] at hagain
    exact (reread?_eq_some_iff config again).mp hagain.1

/-- A budget that is loaded as one double, saved, and loaded as its neighbour below. -/
theorem load_save_drifts :
    ∃ (files saved : FileTree) (config : RobotConfig),
      files.files = [(["config.json"], "\x7b\"budget_secs\":91.49482495093958\x7d".toUTF8)] ∧
        ((load FileTree.access "config.json").run files).1 = .ok config ∧
        (config.save FileTree.access "config.json").run files = (.ok (), saved) ∧
        ((load FileTree.access "config.json").run saved).1 ≠ .ok config := by
  let text := "\x7b\"budget_secs\":91.49482495093958\x7d"
  let files : FileTree := ⟨[(["config.json"], text.toUTF8)], [], []⟩
  let config : RobotConfig := { budgetSeconds := 91.49482495093957 }
  have hread : read text = .ok config :=
    read_eq_ok_iff.mpr ⟨by decide +kernel, by decide +kernel⟩
  have hwrite (content : ByteArray) : files.write "config.json" content =
      .ok (files.putFile ["config.json"] content) := rfl
  have loaded : ((load FileTree.access "config.json").run files).1 = .ok config := by
    have htext : files.read "config.json" = .ok text.toUTF8 := rfl
    rw [load, StateT.run_bind, FileTree.readText_of_read htext]
    exact hread
  have written : (config.save FileTree.access "config.json").run files =
      (.ok (), files.putFile ["config.json"] config.toText.toUTF8) := by
    rw [save, StateT.run_bind, FileTree.run_write_access, hwrite]
    rfl
  refine ⟨files, _, config, rfl, loaded, written, ?_⟩
  rw [Ne, (load_save_iff loaded written).1]
  decide +kernel

end RobotConfig

end RobotRoutine

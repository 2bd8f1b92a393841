import RobotRoutine.Proofs.Registry.Builtins
import RobotRoutine.Proofs.RobotConfig.Acceptance

/-!
# Arguments that are there and within bounds

A factory takes its arguments by position and trusts an arity that is declared
elsewhere. `Gives` says of a reading both things that are to be known: it does not
end at an argument that is not there, and a value that it gives is a good one. It
goes through sequencing (`Gives.bind`), so each reader has one lemma, put together
from those of what it reads; only the three readers of whole argument lists ask
for a length.

The built-in commands come in two forms, those that read their arguments and
those that take them as they are; for either, the least number of its arity is as
many as its reader asks for (`trustsArity_of_mem`).
-/

namespace RobotRoutine

namespace Argument

variable {α β : Type}

/-- Whether a reading gives a good value, or fails on an argument that is there. -/
def Gives (good : α → Prop) : Except ArgumentProblem α → Prop
  | .ok value => good value
  | .error problem => ∀ position, problem ≠ .absent position

theorem Gives.bind {good : α → Prop} {good' : β → Prop} {first : Except ArgumentProblem α}
    {next : α → Except ArgumentProblem β} (hfirst : Gives good first)
    (hnext : ∀ value, good value → Gives good' (next value)) : Gives good' (first >>= next) := by
  cases first with
  | error problem => exact hfirst
  | ok value => exact hnext value hfirst

theorem gives_nth {arguments : List String} {position : Nat} (h : position < arguments.length) :
    Gives (fun text => arguments[position]? = some text) (nth arguments position) := by
  rw [nth, List.getElem?_eq_getElem h]
  exact rfl

theorem gives_number (parameter text : String) :
    Gives (fun value => Decimal.readFloat text.toList = some value) (number parameter text) := by
  rw [number]
  split
  · next value hread =>
      split
      · exact hread
      · exact nofun
  · exact nofun

theorem gives_integer (parameter text : String) :
    Gives (fun value => Decimal.readSigned text.toList = some value) (integer parameter text) := by
  rw [integer]
  split
  · next value hread =>
      split
      · exact hread
      · exact nofun
  · exact nofun

/-- Whether a motor can be driven at a power. -/
def IsPower (power : Float) : Prop :=
  -1 ≤ power ∧ power ≤ 1

theorem gives_power (parameter text : String) : Gives IsPower (power parameter text) := by
  refine (gives_number parameter text).bind fun value _ => ?_
  split
  · next hrange => exact hrange
  · exact nofun

theorem gives_millis (parameter text : String) :
    Gives (fun _ => True) (millis parameter text) := by
  rw [millis]
  split
  · split
    · trivial
    · exact nofun
  · exact nofun

theorem gives_seconds (parameter text : String) :
    Gives (fun _ => True) (seconds parameter text) := by
  refine (gives_number parameter text).bind fun value _ => ?_
  split
  · trivial
  · exact nofun

/-- Whether a threshold is positive and a text is its numeral. -/
def IsThreshold (text : String) (threshold : UInt32) : Prop :=
  1 ≤ threshold.toNat ∧ Decimal.readSigned text.toList = some (threshold.toNat : Int)

theorem gives_threshold (text : String) : Gives (IsThreshold text) (threshold text) := by
  refine (gives_integer "threshold" text).bind fun value hread => ?_
  split
  · next hrange =>
      have hsize : value.toNat < UInt32.size := (Int.toNat_lt (by omega)).mpr hrange.2
      have hvalue : (UInt32.ofNat value.toNat).toNat = value.toNat :=
        UInt32.toNat_ofNat_of_lt' hsize
      refine ⟨by omega, ?_⟩
      rw [hvalue, hread, Int.toNat_of_nonneg (by omega)]
  · exact nofun

end Argument

open Argument

theorem DriveArguments.gives_read {arguments : List String} (h : 3 ≤ arguments.length) :
    Gives (fun drive => IsPower drive.left ∧ IsPower drive.right) (read arguments) := by
  refine (gives_nth (by omega)).bind fun first _ => ?_
  refine (gives_power "left" first).bind fun left hleft => ?_
  refine (gives_nth (by omega)).bind fun second _ => ?_
  refine (gives_power "right" second).bind fun right hright => ?_
  refine (gives_nth (by omega)).bind fun third _ => ?_
  exact (gives_millis "duration" third).bind fun duration _ => ⟨hleft, hright⟩

/-- Whether a threshold is the script's, or there is none and the script gives none. -/
def TargetArguments.IsFrom (arguments : List String) (target : TargetArguments) : Prop :=
  match arguments[1]? with
  | none => target.threshold = none
  | some text => ∃ threshold, target.threshold = some threshold ∧ IsThreshold text threshold

theorem TargetArguments.gives_read {arguments : List String} (h : 1 ≤ arguments.length) :
    Gives (IsFrom arguments) (read arguments) := by
  refine (gives_nth (by omega)).bind fun first _ => ?_
  refine (gives_integer "target" first).bind fun target _ => ?_
  cases hsecond : arguments[1]? with
  | none => simp [Gives, IsFrom, hsecond, pure, Except.pure]
  | some second =>
      refine (gives_threshold second).bind fun threshold hthreshold => ?_
      simp only [pure, Except.pure, Gives, IsFrom, hsecond]
      exact ⟨threshold, rfl, hthreshold⟩

theorem WaitArguments.gives_read {arguments : List String} (h : 1 ≤ arguments.length) :
    Gives (fun _ => True) (read arguments) :=
  (gives_nth (by omega)).bind fun first _ => gives_seconds "seconds" first

/-! ## Sound leaves -/

/-- Whether a convergence command takes as many polls as the script says, or as is tuned if the
script does not say. -/
def Takes (tuning : Tuning) (arguments : List String) (required : UInt32) : Prop :=
  1 ≤ required.toNat ∧ match arguments[1]? with
    | none => required = tuning.defaultThreshold
    | some text => Decimal.readSigned text.toList = some (required.toNat : Int)

theorem TargetArguments.IsFrom.takes {arguments : List String} {target : TargetArguments}
    {tuning : Tuning} (h : target.IsFrom arguments) (valid : tuning.validate = .ok ()) :
    Takes tuning arguments (target.thresholdOr tuning) := by
  rw [IsFrom] at h
  rw [Takes, thresholdOr]
  cases hsecond : arguments[1]? with
  | none =>
      rw [hsecond] at h
      have hdefault := (tuning.validate_eq_ok_iff.mp valid).1
      have hpositive : tuning.defaultThreshold.toNat ≠ 0 :=
        fun hzero => hdefault (UInt32.toNat_inj.mp hzero)
      rw [h]
      exact ⟨Nat.one_le_iff_ne_zero.mpr hpositive, rfl⟩
  | some text =>
      rw [hsecond] at h
      obtain ⟨threshold, hthreshold, hfrom⟩ := h
      rw [hthreshold]
      exact hfrom

/-- What is to be known of a leaf that was built from arguments: it has not started, powers are
within their range, and a feedback loop has to settle for as many polls as its tolerance says. -/
def Leaf.IsSound (tuning : Tuning) (arguments : List String) : Leaf → Prop
  | .action _ | .waitUntil _ => True
  | .timed _ .idle startedAt => startedAt = none
  | .timed _ (.tank left right) startedAt => startedAt = none ∧ IsPower left ∧ IsPower right
  | .convergence _ _ count _ =>
    count.streak = 0 ∧ Takes tuning arguments count.required ∧
      count.tolerance = Float.ofNat count.required.toNat

/-! ## The built-in commands -/

namespace Builtin

/-- Whether building came to a sound leaf, or failed on arguments that are there. -/
def IsSoundOutcome (tuning : Tuning) (arguments : List String) : Except ScriptError Command → Prop
  | .ok command => ∃ name work, command = .leaf name .notStarted work ∧
      (tuning.validate = .ok () → work.IsSound tuning arguments)
  | .error error => ∀ name position, error ≠ .argument name (.absent position)

/-- Whether a factory comes to a sound outcome for all arguments of the right number. -/
def TrustsArity (spec : CommandSpec) : Prop :=
  ∀ arguments tuning, spec.arity.accepts arguments.length = true →
    IsSoundOutcome tuning arguments (spec.factory arguments tuning)

theorem trustsArity_reading {α : Type} {spec : CommandSpec} {name : String}
    {read : List String → Except ArgumentProblem α} {make : α → Tuning → Command}
    {good : List String → α → Prop} (hfactory : spec.factory = reading name read make)
    (hread : ∀ arguments, spec.arity.least ≤ arguments.length →
      Gives (good arguments) (read arguments))
    (hmake : ∀ arguments value tuning, good arguments value →
      IsSoundOutcome tuning arguments (.ok (make value tuning))) :
    TrustsArity spec := by
  intro arguments tuning haccepts
  have hgives := hread arguments (of_decide_eq_true (Bool.and_eq_true_iff.mp haccepts).1)
  rw [hfactory, reading]
  cases hvalue : read arguments with
  | error problem =>
      rw [hvalue] at hgives
      intro name position heq
      exact hgives position (ScriptError.argument.inj heq).2
  | ok value =>
      rw [hvalue] at hgives
      exact hmake arguments value tuning hgives

theorem trustsArity_converging {spec : CommandSpec} {name : String} {mode : Tuning → ConvergenceMode}
    (hfactory : spec.factory = reading name TargetArguments.read (converging name mode))
    (hleast : spec.arity.least = 1) : TrustsArity spec :=
  trustsArity_reading hfactory (fun _ h => TargetArguments.gives_read (hleast ▸ h))
    fun _ _ _ hfrom => ⟨_, _, rfl, fun valid => ⟨rfl, hfrom.takes valid, rfl⟩⟩

theorem trustsArity_action {spec : CommandSpec} {name : String} {effect : List String → Effect}
    (hfactory : spec.factory = fun arguments _ => .ok (.action name (effect arguments))) :
    TrustsArity spec := by
  intro arguments tuning _
  rw [hfactory]
  exact ⟨name, _, rfl, fun _ => trivial⟩

/-- No factory of a built-in command needs more arguments than its arity asks for. -/
theorem trustsArity_of_mem : ∀ spec ∈ all, TrustsArity spec := by
  simp only [all, List.forall_mem_cons, List.not_mem_nil, false_imp_iff, implies_true, and_true]
  exact ⟨trustsArity_reading rfl (fun _ h => DriveArguments.gives_read h)
      fun _ _ _ hpowers => ⟨_, _, rfl, fun _ => ⟨rfl, hpowers⟩⟩,
    trustsArity_converging rfl rfl, trustsArity_converging rfl rfl, trustsArity_converging rfl rfl,
    trustsArity_action rfl,
    trustsArity_reading rfl (fun _ h => WaitArguments.gives_read h)
      fun _ _ _ _ => ⟨_, _, rfl, fun _ => rfl⟩,
    trustsArity_reading rfl (fun _ h => WaitArguments.gives_read h)
      fun _ _ _ _ => ⟨_, _, rfl, fun _ => trivial⟩,
    trustsArity_action rfl, trustsArity_action rfl, trustsArity_action rfl,
    trustsArity_action rfl, trustsArity_action rfl⟩

end Builtin

end RobotRoutine

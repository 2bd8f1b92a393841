import Mathlib.Data.Finset.Card
import Mathlib.Data.String.Basic
import Mathlib.Order.Compare
import RobotRoutine.Registry

/-!
# A registry and what was registered in it

A registry is reached by registering one spec after another, and the specs that
were registered, in their order, are all there is to it: what is under a key is the
last of those with that name in lower case (`getElem?_of_reached`). Everything
else is read off that: what a look-up finds under any spelling of a name and what a
command is built from, how many specs there are, and that the list of them holds
each once and in order, since a spec stands nowhere but under its own key.
-/

namespace RobotRoutine

/-! ## Building -/

theorem CommandSpec.build_of_accepts {spec : CommandSpec} {arguments : List String}
    (h : spec.arity.accepts arguments.length = true) (tuning : Tuning) :
    spec.build arguments tuning = spec.factory arguments tuning := by
  simp only [build, Arity.check, h, if_true]

theorem CommandSpec.build_of_not_accepts {spec : CommandSpec} {arguments : List String}
    (h : spec.arity.accepts arguments.length = false) (tuning : Tuning) :
    spec.build arguments tuning =
      .error (.argument spec.name (.wrongCount spec.arity arguments.length)) := by
  simp [build, Arity.check, h]

namespace Registry

theorem build_of_unknown {registry : Registry} {invocation : Script.Invocation}
    (h : registry.get? invocation.name = none) (tuning : Tuning) :
    registry.build invocation tuning = .error (.unknownCommand invocation.name) := by
  rw [build, h]

theorem build_of_known {registry : Registry} {invocation : Script.Invocation} {spec : CommandSpec}
    (h : registry.get? invocation.name = some spec) (tuning : Tuning) :
    registry.build invocation tuning = spec.build invocation.arguments tuning := by
  rw [build, h]

end Registry

/-! ## What was registered -/

/-- The key that a spec is registered under. -/
def CommandSpec.key (spec : CommandSpec) : String :=
  Text.lowercase spec.name

namespace Registry

/-- A registry, and all that was registered on the way to it. -/
inductive Reached : Registry → List CommandSpec → Prop
  | empty : Reached .empty []
  | builtins : Reached .builtins Builtin.all
  | register {registry : Registry} {history : List CommandSpec} (h : Reached registry history)
      (spec : CommandSpec) : Reached (registry.register spec).2 (history ++ [spec])

/-- The last spec of a history with a key. -/
def lastUnder (key : String) (history : List CommandSpec) : Option CommandSpec :=
  (history.filter (·.key = key)).getLast?

variable {registry : Registry} {history : List CommandSpec} {spec : CommandSpec} {key : String}

theorem key_of_lastUnder (h : lastUnder key history = some spec) :
    spec ∈ history ∧ spec.key = key := by
  obtain ⟨hmem, hkey⟩ := List.mem_filter.mp (List.mem_of_getLast? h)
  exact ⟨hmem, of_decide_eq_true hkey⟩

theorem isSome_lastUnder_iff :
    (lastUnder key history).isSome ↔ key ∈ history.map CommandSpec.key := by
  rw [lastUnder, List.getLast?_isSome, List.mem_map, ne_eq, List.filter_eq_nil_iff]
  push Not
  simp only [decide_eq_true_eq]

theorem lastUnder_concat (key : String) (history : List CommandSpec) (spec : CommandSpec) :
    lastUnder key (history ++ [spec]) =
      if spec.key = key then some spec else lastUnder key history := by
  rw [lastUnder, List.filter_append, List.getLast?_append]
  split
  · next h => simp [h]
  · next h => simp [h, lastUnder]

theorem getElem?_register (registry : Registry) (spec : CommandSpec) (key : String) :
    (registry.register spec).2.specs[key]? =
      if spec.key = key then some spec else registry.specs[key]? := by
  rw [register, Std.TreeMap.getElem?_insert]
  simp only [Std.LawfulEqCmp.compare_eq_iff_eq]
  rfl

theorem getElem?_foldl_register (specs : List CommandSpec)
    (h : ∀ key, registry.specs[key]? = lastUnder key history) (key : String) :
    (specs.foldl (fun registry spec => (registry.register spec).2) registry).specs[key]? =
      lastUnder key (history ++ specs) := by
  induction specs generalizing registry history with
  | nil => rw [List.append_nil]; exact h key
  | cons spec rest ih =>
      rw [List.append_cons]
      refine ih fun key => ?_
      rw [getElem?_register, lastUnder_concat, h key]

/-- Under a key stands the last spec that was registered under it. -/
theorem getElem?_of_reached (h : Reached registry history) (key : String) :
    registry.specs[key]? = lastUnder key history := by
  have hempty : ∀ key, Registry.empty.specs[key]? = lastUnder key [] :=
    fun key => Std.TreeMap.getElem?_emptyc
  induction h with
  | empty => exact hempty key
  | builtins => exact getElem?_foldl_register Builtin.all hempty key
  | register _ spec ih => rw [getElem?_register, lastUnder_concat, ih]

theorem get?_of_reached (h : Reached registry history) (name : String) :
    registry.get? name = lastUnder (Text.lowercase name) history :=
  getElem?_of_reached h _

/-! ## The list of the specs -/

theorem toList_eq_map_snd (registry : Registry) :
    registry.toList = registry.specs.toList.map Prod.snd := by
  have hvalues : registry.toList =
      registry.specs.foldr (fun _ spec specs => spec :: specs) [] := rfl
  rw [hvalues, Std.TreeMap.foldr_eq_foldr_toList, List.foldr_cons_eq_append, List.append_nil]

/-- A spec stands nowhere but under its own key. -/
theorem mem_entries_iff (h : Reached registry history) :
    (key, spec) ∈ registry.specs.toList ↔ key = spec.key ∧ registry.get? spec.name = some spec := by
  rw [Std.TreeMap.mem_toList_iff_getElem?_eq_some]
  constructor
  · intro hfound
    obtain ⟨-, rfl⟩ := key_of_lastUnder ((getElem?_of_reached h key).symm.trans hfound)
    exact ⟨rfl, hfound⟩
  · rintro ⟨rfl, hfound⟩
    exact hfound

theorem mem_toList_iff (h : Reached registry history) :
    spec ∈ registry.toList ↔ registry.get? spec.name = some spec := by
  rw [toList_eq_map_snd, List.mem_map]
  constructor
  · rintro ⟨⟨key, spec⟩, hmem, rfl⟩
    exact ((mem_entries_iff h).mp hmem).2
  · intro hfound
    exact ⟨(spec.key, spec), (mem_entries_iff h).mpr ⟨rfl, hfound⟩, rfl⟩

theorem map_key_toList (h : Reached registry history) :
    registry.toList.map CommandSpec.key = registry.specs.keys := by
  rw [toList_eq_map_snd, List.map_map, ← Std.TreeMap.map_fst_toList_eq_keys]
  refine List.map_congr_left fun entry hentry => ?_
  exact ((mem_entries_iff h).mp hentry).1.symm

theorem pairwise_key_toList (h : Reached registry history) :
    registry.toList.Pairwise fun earlier later => earlier.key < later.key := by
  rw [← List.pairwise_map (f := CommandSpec.key) (R := fun a b => a < b), map_key_toList h]
  exact Std.TreeMap.ordered_keys.imp compare_lt_iff_lt.mp

/-- The keys are those of the history, each of them once. -/
theorem size_of_reached (h : Reached registry history) :
    registry.size = (history.map CommandSpec.key).toFinset.card := by
  have hkeys : registry.specs.keys.toFinset = (history.map CommandSpec.key).toFinset := by
    ext key
    rw [List.mem_toFinset, List.mem_toFinset, Std.TreeMap.mem_keys,
      Std.TreeMap.mem_iff_isSome_getElem?, getElem?_of_reached h, isSome_lastUnder_iff]
  rw [← hkeys, List.toFinset_card_of_nodup Std.TreeMap.nodup_keys, Std.TreeMap.length_keys, size]

/-- A registry is a map without regard to case. Under a name it finds, and builds from, the spec
that was registered last under any spelling of the name; a registration answers with what was
found before it. There are as many specs as spellings in lower case were registered, and each
spec that can be found is listed once, in the order of these spellings. -/
theorem finds_last_registered (h : Reached registry history) :
    (∀ name, registry.get? name = lastUnder (Text.lowercase name) history) ∧
    (∀ name, registry.contains name = (lastUnder (Text.lowercase name) history).isSome) ∧
    (∀ invocation tuning, registry.build invocation tuning =
      (lastUnder (Text.lowercase invocation.name) history).elim
        (.error (.unknownCommand invocation.name)) (·.build invocation.arguments tuning)) ∧
    (∀ spec, (registry.register spec).1 = registry.get? spec.name) ∧
    registry.size = (history.map CommandSpec.key).toFinset.card ∧
    (∀ spec, spec ∈ registry.toList ↔ ∃ name, registry.get? name = some spec) ∧
    registry.names = registry.toList.map CommandSpec.name ∧
    registry.toList.Pairwise fun earlier later => earlier.key < later.key := by
  have hget := get?_of_reached h
  refine ⟨hget, fun name => ?contains, fun invocation tuning => ?build, fun _ => rfl,
    size_of_reached h, fun spec => ?listed, rfl, pairwise_key_toList h⟩
  case contains => rw [contains, hget]
  case build =>
    cases hfound : lastUnder (Text.lowercase invocation.name) history with
    | none => exact build_of_unknown ((hget _).trans hfound) tuning
    | some spec => exact build_of_known ((hget _).trans hfound) tuning
  case listed =>
    rw [mem_toList_iff h]
    refine ⟨fun hfound => ⟨_, hfound⟩, fun ⟨name, hfound⟩ => ?_⟩
    -- the spelling that it was found by has the same key
    obtain ⟨-, hkey⟩ := key_of_lastUnder ((hget name).symm.trans hfound)
    rwa [get?, ← CommandSpec.key, hkey]

/-- A spec with the name of a built-in one in capitals takes its place, and is
then found by any spelling. -/
theorem finds_last_registered_in_capitals :
    let shouted := Builtin.acting "STOP" "Zero drive output at once" "STOP()" .stopDrive
    let registry := (builtins.register shouted).2
    Reached registry (Builtin.all ++ [shouted]) ∧
    (builtins.register shouted).1.map CommandSpec.name = some "stop" ∧
    registry.get? "sToP" = some shouted ∧ registry.contains "halt" = false ∧
    registry.size = 12 ∧ shouted ∈ registry.toList := by
  intro shouted registry
  have hfacts : shouted.key = Text.lowercase "sToP" ∧
      (lastUnder shouted.key Builtin.all).map CommandSpec.name = some "stop" ∧
      (lastUnder (Text.lowercase "halt") (Builtin.all ++ [shouted])).isSome = false ∧
      ((Builtin.all ++ [shouted]).map CommandSpec.key).toFinset.card = 12 := by
    decide +kernel
  obtain ⟨hkey, hreplaced, hother, hcard⟩ := hfacts
  have hreached : Reached registry (Builtin.all ++ [shouted]) := .register .builtins shouted
  obtain ⟨hget, hcontains, -, -, hsize, hlisted, -⟩ := finds_last_registered hreached
  obtain ⟨hbuiltin, -, -, hanswer, -⟩ := finds_last_registered .builtins
  have hfound : registry.get? "sToP" = some shouted := by
    rw [hget, lastUnder_concat, if_pos hkey]
  refine ⟨hreached, ?_, hfound, (hcontains _).trans hother, hsize.trans hcard,
    (hlisted _).mpr ⟨_, hfound⟩⟩
  rw [hanswer, hbuiltin]
  exact hreplaced

end Registry

end RobotRoutine

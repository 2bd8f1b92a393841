import Mathlib.Data.List.Induction
import Mathlib.Data.List.Nodup
import RobotRoutine.Script

/-!
# The variables of a script

A script's assignments come to a table, and `Tabulates` says of a table what it is
to list: each name that is assigned once, in the order of the first assignments,
with the value of the last one. There is exactly one such table, and scanning the
entries and updating it in place arrives at it (`tabulates_ofEntries`).

Invocations are cut into arguments before any variable is replaced. So the number
of the arguments, the name, the placement and the line are the entry's own
(`heading_invocation`), and whatever assignments stand around an invocation come
to its arguments through the table alone (`invocations_eq_map`).
-/

namespace RobotRoutine.Script

/-- The entries that assign. -/
def assigning (entries : List Entry) : List Entry :=
  entries.filter (·.kind = .assignment)

/-- The entries that invoke. -/
def invoking (entries : List Entry) : List Entry :=
  entries.filter (·.kind = .invocation)

/-- The value that a name was assigned last. -/
def lastValue? (name : String) (assignments : List Entry) : Option String :=
  (assignments.filter (·.key = name)).getLast?.map Entry.value

/-- Whether a table is the one that assignments come to. -/
structure Tabulates (table : Variables) (assignments : List Entry) : Prop where
  /-- No name is listed twice. -/
  nodup : (table.map Prod.fst).Nodup
  /-- The names are listed in the order of their first assignments. -/
  names : table.map Prod.fst = (assignments.map Entry.key).eraseDups
  /-- Each is listed with the value that it was assigned last. -/
  values : ∀ binding ∈ table, lastValue? binding.1 assignments = some binding.2

/-! ## Tables -/

variable {name value : String} {table other : Variables} {assignments : List Entry}
  {binding : String × String}

theorem Tabulates.eq_map (h : Tabulates table assignments) :
    table = (assignments.map Entry.key).eraseDups.map fun name =>
      (name, (lastValue? name assignments).getD "") := by
  rw [← h.names, List.map_map]
  refine (List.map_id table).symm.trans (List.map_congr_left fun binding hbinding => ?_)
  rw [Function.comp_apply, h.values binding hbinding]
  rfl

/-- Assignments come to one table only. -/
theorem Tabulates.unique (h : Tabulates table assignments) (hother : Tabulates other assignments) :
    other = table :=
  hother.eq_map.trans h.eq_map.symm

theorem map_fst_define (name value : String) (table : Variables) :
    (table.define name value).map Prod.fst =
      if name ∈ table.map Prod.fst then table.map Prod.fst else table.map Prod.fst ++ [name] := by
  fun_induction Variables.define name value table with
  | case1 => rfl
  | case2 first rest hfirst => simp [hfirst]
  | case3 first rest hfirst ih =>
      rw [List.map_cons, ih, List.map_cons]
      by_cases hrest : name ∈ rest.map Prod.fst
      · rw [if_pos hrest, if_pos (List.mem_cons_of_mem _ hrest)]
      · have hname : name ∉ first.1 :: rest.map Prod.fst := by
          rw [List.mem_cons, not_or]
          exact ⟨Ne.symm hfirst, hrest⟩
        rw [if_neg hrest, if_neg hname]
        rfl

/-- An assignment puts its own value under its name and leaves all others. -/
theorem eq_or_mem_of_mem_define (hnodup : (table.map Prod.fst).Nodup)
    (h : binding ∈ table.define name value) :
    binding = (name, value) ∨ binding ∈ table ∧ binding.1 ≠ name := by
  fun_induction Variables.define name value table with
  | case1 => exact Or.inl (List.mem_singleton.mp h)
  | case2 first rest hfirst =>
      rcases List.mem_cons.mp h with rfl | hmem
      · exact Or.inl rfl
      · refine Or.inr ⟨List.mem_cons_of_mem _ hmem, fun hname => ?_⟩
        rw [List.map_cons, List.nodup_cons, hfirst, ← hname] at hnodup
        exact hnodup.1 (List.mem_map_of_mem hmem)
  | case3 first rest hfirst ih =>
      rcases List.mem_cons.mp h with rfl | hmem
      · exact Or.inr ⟨List.mem_cons_self, hfirst⟩
      · exact (ih (List.nodup_cons.mp hnodup).2 hmem).imp_right
          (And.imp_left (List.mem_cons_of_mem _))

theorem eraseDups_concat (names : List String) (name : String) :
    (names ++ [name]).eraseDups =
      if name ∈ names then names.eraseDups else names.eraseDups ++ [name] := by
  rw [List.eraseDups_append]
  split
  · next h => simp [List.removeAll, h]
  · next h => simp [List.removeAll, h, List.eraseDups_cons]

/-- One more assignment. -/
theorem Tabulates.define (h : Tabulates table assignments) (entry : Entry) :
    Tabulates (table.define entry.key entry.value) (assignments ++ [entry]) where
  nodup := by
    rw [map_fst_define]
    split
    · exact h.nodup
    · next hname => exact List.concat_eq_append ▸ h.nodup.concat hname
  names := by
    rw [map_fst_define, h.names, List.map_append, List.map_singleton, eraseDups_concat]
    simp only [List.mem_eraseDups]
  values := by
    intro binding hbinding
    rw [lastValue?, List.filter_append]
    rcases eq_or_mem_of_mem_define h.nodup hbinding with rfl | ⟨hold, hname⟩
    · simp
    · have hother : [entry].filter (·.key = binding.1) = [] := by simp [Ne.symm hname]
      rw [hother, List.append_nil]
      exact h.values binding hold

/-- What scanning the entries arrives at. -/
theorem tabulates_ofEntries (entries : List Entry) :
    Tabulates (Variables.ofEntries entries) (assigning entries) := by
  induction entries using List.reverseRecOn with
  | nil => exact ⟨.nil, rfl, fun _ h => nomatch h⟩
  | append_singleton entries entry ih =>
      rw [Variables.ofEntries, List.foldl_concat, ← Variables.ofEntries, assigning,
        List.filter_append, ← assigning, Variables.addEntry]
      cases hkind : entry.kind with
      | assignment =>
          rw [List.filter_cons_of_pos (by simp [hkind]), List.filter_nil]
          exact ih.define entry
      | invocation =>
          rw [List.filter_cons_of_neg (by simp [hkind]), List.filter_nil, List.append_nil]
          exact ih

/-- Every variable of a script is named by one of its assignments. -/
theorem exists_assignment {entries : List Entry} (h : binding ∈ Variables.ofEntries entries) :
    ∃ entry ∈ entries, entry.kind = .assignment ∧ entry.key = binding.1 := by
  have hname : binding.1 ∈ (assigning entries).map Entry.key := by
    rw [← List.mem_eraseDups, ← (tabulates_ofEntries entries).names]
    exact List.mem_map_of_mem h
  obtain ⟨entry, hentry, hkey⟩ := List.mem_map.mp hname
  obtain ⟨hmem, hkind⟩ := List.mem_filter.mp hentry
  exact ⟨entry, hmem, of_decide_eq_true hkind, hkey⟩

/-! ## Invocations -/

/-- What an invocation has whatever its arguments are: placement, name, line and number of
arguments. -/
def Invocation.heading (invocation : Invocation) : Placement × String × Nat × Nat :=
  (invocation.placement, invocation.name, invocation.line, invocation.arguments.length)

/-- The heading that an invoking entry asks for. -/
def Entry.heading (entry : Entry) : Placement × String × Nat × Nat :=
  let (placement, name) := splitKey entry.key.toList
  (placement, String.ofList name, entry.line, (splitArguments entry.value.toList).length)

/-- The invocation that an invoking entry makes with a table. -/
def Entry.invocation (table : Variables) (entry : Entry) : Invocation where
  placement := (splitKey entry.key.toList).1
  name := String.ofList (splitKey entry.key.toList).2
  arguments := (splitArguments entry.value.toList).map fun argument =>
    table.expand (String.ofList argument)
  line := entry.line

theorem heading_invocation (table : Variables) (entry : Entry) :
    (entry.invocation table).heading = entry.heading :=
  congrArg (fun count => ((splitKey entry.key.toList).1,
    String.ofList (splitKey entry.key.toList).2, entry.line, count)) (List.length_map _)

theorem ofEntry?_of_invocation {entry : Entry} (h : entry.kind = .invocation) (table : Variables) :
    (Invocation.ofEntry? entry).map
      (fun invocation => { invocation with arguments := invocation.arguments.map table.expand }) =
        some (entry.invocation table) := by
  rw [Invocation.ofEntry?, h, Option.map_some, Entry.invocation, List.map_map]
  rfl

/-- Each invoking entry makes one invocation, in order, with the table of all assignments. -/
theorem invocations_eq_map (entries : List Entry) :
    invocations entries =
      (invoking entries).map (Entry.invocation (Variables.ofEntries entries)) := by
  rw [invocations]
  generalize Variables.ofEntries entries = table
  rw [List.map_filterMap]
  induction entries with
  | nil => rfl
  | cons entry rest ih =>
      rw [List.filterMap_cons, invoking, List.filter_cons, ← invoking]
      cases hkind : entry.kind with
      | assignment =>
          rw [Invocation.ofEntry?, hkind]
          exact ih
      | invocation =>
          rw [ofEntry?_of_invocation hkind]
          exact congrArg (entry.invocation table :: ·) ih

/-- Variables are global. Each invoking entry makes one invocation, in order, whose placement,
name, line and number of arguments are the entry's own. Its arguments are those of the entry
expanded by the one table that lists each assigned name once, in the order of the first
assignments, with the last value: entries with the same invoking ones among them, and with
assignments that come to the same table wherever they stand, make the same invocations. -/
theorem variables_are_global (entries : List Entry) :
    (invocations entries).map Invocation.heading = (invoking entries).map Entry.heading ∧
    (∃! table, Tabulates table (assigning entries)) ∧
    ∀ table, Tabulates table (assigning entries) →
      invocations entries = (invoking entries).map (Entry.invocation table) ∧
      ∀ others, invoking others = invoking entries → Tabulates table (assigning others) →
        invocations others = invocations entries := by
  have htable := tabulates_ofEntries entries
  refine ⟨?_, ⟨_, htable, fun _ => htable.unique⟩, fun table h => ?_⟩
  · rw [invocations_eq_map, List.map_map]
    exact List.map_congr_left fun entry _ => heading_invocation _ entry
  · obtain rfl := htable.unique h
    refine ⟨invocations_eq_map entries, fun others hinvoking hothers => ?_⟩
    rw [invocations_eq_map, invocations_eq_map, hinvoking,
      (tabulates_ofEntries others).unique hothers]

/-- A value with a comma, a name that is assigned twice, and a value that another variable's
name occurs in; and the same with every assignment in another place. -/
theorem variables_are_global_moved :
    let turn : Entry := ⟨"&turn", "far, -b", .invocation, 3⟩
    let print : Entry := ⟨"print", "b", .invocation, 6⟩
    let entries : List Entry := [⟨"far", "1", .assignment, 1⟩, turn,
      ⟨"b", "far,2", .assignment, 4⟩, ⟨"far", "90", .assignment, 5⟩, print]
    let others : List Entry := [turn, print, ⟨"far", "7", .assignment, 8⟩,
      ⟨"far", "90", .assignment, 9⟩, ⟨"b", "x", .assignment, 10⟩, ⟨"b", "far,2", .assignment, 11⟩]
    let table : Variables := [("far", "90"), ("b", "far,2")]
    Tabulates table (assigning entries) ∧ Tabulates table (assigning others) ∧
      invocations entries = [⟨.threaded, "turn", ["90", "-far,2"], 3⟩,
        ⟨.sequential, "print", ["far,2"], 6⟩] ∧
      invocations others = invocations entries := by
  intro turn print entries others table
  have hfacts : (Variables.ofEntries entries = table ∧ Variables.ofEntries others = table) ∧
      invoking others = invoking entries ∧
      invocations entries = [⟨.threaded, "turn", ["90", "-far,2"], 3⟩,
        ⟨.sequential, "print", ["far,2"], 6⟩] := by
    decide +kernel
  obtain ⟨⟨hentries, hothers⟩, hinvoking, hmade⟩ := hfacts
  have htable : Tabulates table (assigning entries) := hentries ▸ tabulates_ofEntries entries
  have hmoved : Tabulates table (assigning others) := hothers ▸ tabulates_ofEntries others
  obtain ⟨-, -, hglobal⟩ := variables_are_global entries
  exact ⟨htable, hmoved, hmade, (hglobal table htable).2 others hinvoking hmoved⟩

end RobotRoutine.Script

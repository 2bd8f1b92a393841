import Mathlib.Data.List.Induction
import Mathlib.Data.List.Perm.Basic
import RobotRoutine.Routine

/-!
# How placed commands become steps

`layOut` puts one command after another into the steps, and each of the three
placements asks what the last step is. What comes out does not look like that
any more: the row of commands is cut in front of every sequential one, and each
piece is one step, with its first command as the primary and the others beside
it in their order.

A `Block` is such a piece. `IsCut` says that some blocks are the cut of a row,
`step` what a block becomes, and `layOut_eq` that laying out does no more than
cut and turn each block into its step. The proof goes along the row from the
left, as `layOut` does, so the induction is on the row with a command added at
its end; a command that follows joins the last block, and `step_concat` says
that this is what `Step.join` does to the last step.
-/

namespace RobotRoutine

namespace Routine

/-- A command together with how it is attached to the routine. -/
abbrev Placed := Script.Placement × Command

namespace Placed

/-- The command as it stands in its step: on a worker if its placement asks for one. -/
def attach (cadence : Duration) (placed : Placed) : Command :=
  match placed.1 with
  | .sequential | .concurrent => placed.2
  | .threaded => placed.2.onWorker cadence

@[simp]
theorem attach_sequential (cadence : Duration) (command : Command) :
    attach cadence (.sequential, command) = command :=
  rfl

@[simp]
theorem attach_concurrent (cadence : Duration) (command : Command) :
    attach cadence (.concurrent, command) = command :=
  rfl

@[simp]
theorem attach_threaded (cadence : Duration) (command : Command) :
    attach cadence (.threaded, command) = command.onWorker cadence :=
  rfl

@[simp]
theorem isThreaded_onWorker (cadence : Duration) (command : Command) :
    (command.onWorker cadence).isThreaded = true :=
  rfl

end Placed

/-- A command that opens a step and those that follow up to the next opener. -/
structure Block where
  opener : Placed
  followers : List Placed

namespace Block

/-- Every command of the block, in order. -/
def toList (block : Block) : List Placed :=
  block.opener :: block.followers

/-- The step that a block becomes. -/
def step (cadence : Duration) (block : Block) : Step Command where
  primary := block.opener.attach cadence
  companions := (block.followers.map (·.attach cadence)).filter (!·.isThreaded)
  threaded := (block.followers.map (·.attach cadence)).filter (·.isThreaded)

theorem step_singleton (cadence : Duration) (opener : Placed) :
    (Block.mk opener []).step cadence = .ofPrimary (opener.attach cadence) :=
  rfl

theorem step_concat (cadence : Duration) (opener follower : Placed) (followers : List Placed) :
    (Block.mk opener (followers ++ [follower])).step cadence =
      ((Block.mk opener followers).step cadence).join (follower.attach cadence) := by
  cases h : (follower.attach cadence).isThreaded <;>
    simp [step, Step.join, h]

/-- Where no follower is threaded in itself, what the step waits for and what it
does not is told by the placements alone. -/
theorem step_of_not_threaded {cadence : Duration} {block : Block}
    (h : ∀ follower ∈ block.followers, follower.2.isThreaded = false)
    (hcut : ∀ follower ∈ block.followers, follower.1 ≠ .sequential) :
    (block.step cadence).companions =
        (block.followers.filter (·.1 = .concurrent)).map Prod.snd ∧
      (block.step cadence).threaded =
        (block.followers.filter (·.1 = .threaded)).map (·.2.onWorker cadence) := by
  obtain ⟨opener, followers⟩ := block
  simp only [step]
  induction followers with
  | nil => exact ⟨rfl, rfl⟩
  | cons follower rest ih =>
      obtain ⟨hcompanions, hthreaded⟩ := ih
        (fun f hf => h f (List.mem_cons_of_mem _ hf))
        (fun f hf => hcut f (List.mem_cons_of_mem _ hf))
      obtain ⟨placement, command⟩ := follower
      have hcommand : command.isThreaded = false := h _ List.mem_cons_self
      cases placement with
      | sequential => exact absurd rfl (hcut _ List.mem_cons_self)
      | concurrent => simp [hcommand, hcompanions, hthreaded]
      | threaded => simp [List.filter_cons, hcompanions, hthreaded]

/-- The commands of the step are those of the block, each once. -/
theorem members_step_perm (cadence : Duration) (block : Block) :
    (block.step cadence).members.Perm (block.toList.map (·.attach cadence)) := by
  rw [Step.members, toList, List.map_cons]
  refine List.Perm.cons _ ?_
  exact (List.perm_append_comm).trans (List.filter_append_perm _ _)

end Block

/-- Whether blocks are the cut of a row of commands in front of its sequential
ones. The first command opens the first block whatever its placement is. -/
structure IsCut (commands : List Placed) (blocks : List Block) : Prop where
  /-- Put together again, the blocks are the row. -/
  whole : blocks.flatMap Block.toList = commands
  /-- No sequential command follows another within a block. -/
  follows : ∀ block ∈ blocks, ∀ follower ∈ block.followers, follower.1 ≠ .sequential
  /-- Every block but the first is opened by a sequential command. -/
  opens : ∀ block ∈ blocks.tail, block.opener.1 = .sequential

theorem isCut_nil : IsCut [] [] where
  whole := rfl
  follows _ h := nomatch h
  opens _ h := nomatch h

/-- A sequential command, or the first one, opens a block. -/
theorem IsCut.open {commands : List Placed} {blocks : List Block} (h : IsCut commands blocks)
    {command : Placed} (hopens : blocks = [] ∨ command.1 = .sequential) :
    IsCut (commands ++ [command]) (blocks ++ [⟨command, []⟩]) where
  whole := by rw [List.flatMap_append, h.whole]; rfl
  follows block hblock follower hfollower := by
    rcases List.mem_append.mp hblock with hblock | hblock
    · exact h.follows block hblock follower hfollower
    · obtain rfl := List.mem_singleton.mp hblock
      exact nomatch hfollower
  opens block hblock := by
    cases blocks with
    | nil => exact nomatch hblock
    | cons first rest =>
        rcases List.mem_append.mp hblock with hblock | hblock
        · exact h.opens block hblock
        · obtain rfl := List.mem_singleton.mp hblock
          exact hopens.resolve_left (List.cons_ne_nil first rest)

/-- Any other command joins the last block. -/
theorem IsCut.join {commands : List Placed} {blocks : List Block} {last : Block}
    (h : IsCut commands (blocks ++ [last])) {command : Placed} (hjoins : command.1 ≠ .sequential) :
    IsCut (commands ++ [command])
      (blocks ++ [⟨last.opener, last.followers ++ [command]⟩]) where
  whole := by
    rw [← h.whole]
    simp [Block.toList]
  follows block hblock follower hfollower := by
    rcases List.mem_append.mp hblock with hblock | hblock
    · exact h.follows block (List.mem_append_left _ hblock) follower hfollower
    · obtain rfl := List.mem_singleton.mp hblock
      rcases List.mem_append.mp hfollower with hfollower | hfollower
      · exact h.follows last (List.mem_append_right _ List.mem_cons_self) follower hfollower
      · obtain rfl := List.mem_singleton.mp hfollower
        exact hjoins
  opens block hblock := by
    cases blocks with
    | nil => exact nomatch hblock
    | cons first rest =>
        rcases List.mem_append.mp hblock with hblock | hblock
        · exact h.opens block (List.mem_append_left _ hblock)
        · obtain rfl := List.mem_singleton.mp hblock
          exact h.opens last (List.mem_append_right _ List.mem_cons_self)

/-! ## Laying out is cutting -/

theorem appendConcurrent_concat (steps : Steps) (step : Step Command) (command : Command) :
    Steps.appendConcurrent (steps ++ [step]) command = steps ++ [step.join command] := by
  induction steps with
  | nil => rfl
  | cons first rest ih =>
      obtain ⟨next, others, hrest⟩ := List.exists_cons_of_ne_nil
        (List.append_ne_nil_of_right_ne_nil rest (List.cons_ne_nil step []))
      rw [hrest] at ih
      rw [List.cons_append, hrest, Steps.appendConcurrent, ih]
      · rfl
      · exact List.cons_ne_nil next others

/-- What a command that does not open a step of its own does to the steps. -/
theorem place_of_ne_sequential (cadence : Duration) (steps : Steps) {command : Placed}
    (h : command.1 ≠ .sequential) :
    place cadence steps command = steps.appendConcurrent (command.attach cadence) := by
  obtain ⟨placement, command⟩ := command
  cases placement with
  | sequential => exact absurd rfl h
  | concurrent => rfl
  | threaded => rfl

theorem layOut_concat (cadence : Duration) (commands : List Placed) (command : Placed) :
    layOut cadence (commands ++ [command]) = place cadence (layOut cadence commands) command :=
  List.foldl_append ..

/-- The steps of a routine are the blocks of its commands. -/
theorem layOut_eq (cadence : Duration) (commands : List Placed) :
    ∃ blocks, IsCut commands blocks ∧
      layOut cadence commands = blocks.map (Block.step cadence) := by
  -- `layOut` is a fold from the left, so what is known is known of the commands before the last.
  induction commands using List.reverseRecOn with
  | nil => exact ⟨[], isCut_nil, rfl⟩
  | append_singleton commands command ih =>
      obtain ⟨blocks, hcut, hsteps⟩ := ih
      rw [layOut_concat, hsteps]
      by_cases hplacement : command.1 = .sequential
      · refine ⟨blocks ++ [⟨command, []⟩], hcut.open (Or.inr hplacement), ?_⟩
        rw [List.map_append, place, hplacement]
        simp only [Steps.appendSequential, List.map_cons, List.map_nil, Block.step_singleton]
        rw [Placed.attach, hplacement]
      · rw [place_of_ne_sequential cadence _ hplacement]
        rcases List.eq_nil_or_concat' blocks with rfl | ⟨before, last, rfl⟩
        · exact ⟨[⟨command, []⟩], hcut.open (Or.inl rfl), rfl⟩
        · refine ⟨before ++ [⟨last.opener, last.followers ++ [command]⟩],
            hcut.join hplacement, ?_⟩
          rw [List.map_append, List.map_append, List.map_singleton, List.map_singleton,
            appendConcurrent_concat, Block.step_concat]

/-- Whatever the placements are, every command gets into the steps once. -/
theorem flatMap_members_perm {cadence : Duration} {commands : List Placed} {blocks : List Block}
    (h : IsCut commands blocks) :
    ((blocks.map (Block.step cadence)).flatMap Step.members).Perm
      (commands.map (·.attach cadence)) := by
  rw [← h.whole, List.map_flatMap, List.flatMap_map]
  exact List.Perm.flatMap_left _ fun block _ => block.members_step_perm cadence

/-- Where nothing is threaded, the commands of a step stand as those of its block. -/
theorem Block.members_step {cadence : Duration} {block : Block}
    (h : ∀ follower ∈ block.followers, (follower.attach cadence).isThreaded = false) :
    (block.step cadence).members = block.toList.map (·.attach cadence) := by
  have hcompanions : (block.step cadence).companions = block.followers.map (·.attach cadence) :=
    List.filter_eq_self.mpr <| List.forall_mem_map.mpr fun follower hfollower => by
      rw [h follower hfollower]
      rfl
  have hthreaded : (block.step cadence).threaded = [] :=
    List.filter_eq_nil_iff.mpr <| List.forall_mem_map.mpr fun follower hfollower => by
      rw [h follower hfollower]
      decide
  rw [Step.members, hcompanions, hthreaded, List.append_nil]
  rfl

/-- Where nothing is threaded, the commands of a routine stand in the order of the script. -/
theorem flatMap_members_layOut {cadence : Duration} {commands : List Placed}
    (h : ∀ command ∈ commands, (command.attach cadence).isThreaded = false) :
    (layOut cadence commands).flatMap Step.members = commands.map (·.attach cadence) := by
  obtain ⟨blocks, hcut, hsteps⟩ := layOut_eq cadence commands
  rw [hsteps, ← hcut.whole, List.map_flatMap, List.flatMap_map]
  refine List.flatMap_congr fun block hblock => block.members_step fun follower hfollower => ?_
  refine h follower ?_
  rw [← hcut.whole]
  exact List.mem_flatMap.mpr ⟨block, hblock, List.mem_cons_of_mem _ hfollower⟩

end Routine

end RobotRoutine

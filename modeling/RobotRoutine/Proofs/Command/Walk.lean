import RobotRoutine.Proofs.Command.Move

/-!
# Polls, aborts and workers' rounds are made of moves

`abort_moves` and `poll_moves` say that an abort and a poll come down to a
sequence of the moves of `Move.lean`, from the command and the robot they are
given to the command and the robot they answer with. The proofs are
inductions over the tree whose only content is in the last few moves of each
command; the rest is carrying the moves of the members up to the group.

That is done in two layers. A `Spot` is a group with one step left open, a
`Row` a command with a list of commands directly below it left open; a walk
over either replaces the entries one by one, and the moves of each entry are
moves of the whole by `Moves.child`.
-/

namespace RobotRoutine

namespace Command

variable {robot : Robot}

/-! ## Rows and spots -/

/-- A running command with a list of commands directly below it left open. -/
structure Row (fill : List Command → Command) (turn : Nat → Turn) : Prop where
  running : ∀ row, (fill row).phase = .running
  child? : ∀ row index, (fill row).child? (turn index) = row[index]?
  setChild : ∀ row index new, (fill row).setChild (turn index) new = fill (row.set index new)

theorem Row.moves {fill : List Command → Command} {turn : Nat → Turn} (hrow : Row fill turn)
    {done : List Command} (rest : List Command) {command : Command} {after : Command × Robot}
    (hadmits : (fill (done ++ command :: rest)).Admits (turn done.length) command)
    (h : Moves (command, robot) after) :
    Moves (fill (done ++ command :: rest), robot) (fill (done ++ after.1 :: rest), after.2) := by
  have hchild : (fill (done ++ command :: rest)).child? (turn done.length) = some command := by
    rw [hrow.child?, List.getElem?_append_right (Nat.le_refl _), Nat.sub_self]
    rfl
  have hmoves := Moves.child (hrow.running _) hchild hadmits h
  rwa [hrow.setChild, List.set_append_right _ _ (Nat.le_refl _), Nat.sub_self] at hmoves

/-- A running group with one of its steps left open. -/
structure Spot (fill : Step Command → Command) (index : Nat) : Prop where
  running : ∀ step, (fill step).phase = .running
  child? : ∀ step role, (fill step).child? (.member index role) = step.member? role
  setChild : ∀ step role new,
    (fill step).setChild (.member index role) new = fill (step.setMember role new)
  admits : ∀ step role (child : Command), child.phase ≠ .notStarted →
    (fill step).Admits (.member index role) child

/-- A spot whose step the group has reached. -/
def Spot.Open (fill : Step Command → Command) (index : Nat) : Prop :=
  ∀ step role child, (fill step).Admits (.member index role) child

section Spots

variable {fill : Step Command → Command} {index : Nat}

theorem Spot.companions (hspot : Spot fill index) (primary : Command) (beside : List Command) :
    Row (fun row => fill ⟨primary, row, beside⟩) (fun i => .member index (.companion i)) where
  running _ := hspot.running _
  child? _ _ := hspot.child? _ _
  setChild _ _ _ := hspot.setChild _ _ _

theorem Spot.beside (hspot : Spot fill index) (primary : Command) (companions : List Command) :
    Row (fun row => fill ⟨primary, companions, row⟩) (fun i => .member index (.beside i)) where
  running _ := hspot.running _
  child? _ _ := hspot.child? _ _
  setChild _ _ _ := hspot.setChild _ _ _

theorem Spot.primary_moves (hspot : Spot fill index) {primary : Command}
    (companions beside : List Command) {after : Command × Robot}
    (hadmits : (fill ⟨primary, companions, beside⟩).Admits (.member index .primary) primary)
    (h : Moves (primary, robot) after) :
    Moves (fill ⟨primary, companions, beside⟩, robot)
      (fill ⟨after.1, companions, beside⟩, after.2) := by
  have hmoves := Moves.child (hspot.running _) (hspot.child? _ .primary) hadmits h
  rwa [hspot.setChild] at hmoves

end Spots

theorem modify_append_cons {α : Type} (f : α → α) (before after : List α) (a : α) :
    (before ++ a :: after).modify before.length f = before ++ f a :: after := by
  apply List.ext_getElem?
  intro j
  rw [List.getElem?_modify]
  grind

theorem spot_finished (name : String) (remaining before after : List (Step Command)) :
    Spot (fun step => .group name .running (before ++ step :: after) remaining)
      before.length where
  running _ := rfl
  child? _ _ := by
    rw [Command.child?, List.append_assoc, List.cons_append,
      List.getElem?_append_right (Nat.le_refl _), Nat.sub_self]
    rfl
  setChild step _ _ := by
    have hlt : before.length < (before ++ step :: after).length := by simp
    rw [Command.setChild, if_pos hlt, modify_append_cons]
  admits _ _ _ h := Or.inr h

theorem spot_remaining (name : String) (finished before after : List (Step Command)) :
    Spot (fun step => .group name .running finished (before ++ step :: after))
      (finished.length + before.length) where
  running _ := rfl
  child? _ _ := by
    rw [Command.child?, List.getElem?_append_right (Nat.le_add_right _ _), Nat.add_sub_cancel_left,
      List.getElem?_append_right (Nat.le_refl _), Nat.sub_self]
    rfl
  setChild _ _ _ := by
    rw [Command.setChild, if_neg (by omega), Nat.add_sub_cancel_left, modify_append_cons]
  admits _ _ _ h := Or.inr h

theorem open_finished (name : String) (remaining before after : List (Step Command)) :
    Spot.Open (fun step => .group name .running (before ++ step :: after) remaining)
      before.length :=
  fun _ _ _ => Or.inl (by simp)

theorem open_current (name : String) (finished after : List (Step Command)) :
    Spot.Open (fun step => .group name .running finished ([] ++ step :: after))
      (finished.length + ([] : List (Step Command)).length) :=
  fun _ _ _ => Or.inl (Nat.le_refl _)

/-! ## Aborting -/

theorem abort_of_phase_ne_running {command : Command} (h : command.phase ≠ .running)
    (robot : Robot) : command.abort robot = (command, robot) := by
  cases command with
  | leaf name phase work => cases phase <;> simp_all [abort, phase]
  | threaded name phase cadence task inner => cases phase <;> simp_all [abort, phase]
  | group name phase finished remaining => cases phase <;> simp_all [abort, phase]

theorem phase_abort (command : Command) (robot : Robot) :
    (command.abort robot).1.phase =
      if command.phase = .running then .completed else command.phase := by
  by_cases h : command.phase = .running
  · rw [if_pos h]
    cases command with
    | leaf name phase work => cases h; rfl
    | threaded name phase cadence task inner =>
        cases h
        cases task with
        | none => rfl
        | some task => rw [abort]; split <;> rfl
    | group name phase finished remaining => cases h; rfl
  · rw [if_neg h, abort_of_phase_ne_running h]

theorem phase_abort_ne_running (command : Command) (robot : Robot) :
    (command.abort robot).1.phase ≠ .running := by
  rw [phase_abort]
  split
  · decide
  · next h => exact h

/-! The walks of an abort. Each is given the moves of the commands it comes
across, so that the induction over the tree is made once, in `abort_moves`. -/

theorem Row.abortAll_moves {fill : List Command → Command} {turn : Nat → Turn}
    (hrow : Row fill turn)
    (hadmits : ∀ row index (child : Command), child.phase ≠ .notStarted →
      (fill row).Admits (turn index) child)
    (done todo : List Command) (robot : Robot)
    (h : ∀ command ∈ todo, ∀ robot, Moves (command, robot) (command.abort robot)) :
    Moves (fill (done ++ todo), robot)
      (fill (done ++ (abortAll todo robot).1), (abortAll todo robot).2) := by
  induction todo generalizing done robot with
  | nil => exact .refl
  | cons command rest ih =>
      have hfirst : Moves (fill (done ++ command :: rest), robot)
          (fill (done ++ (command.abort robot).1 :: rest), (command.abort robot).2) := by
        by_cases hphase : command.phase = .running
        · exact hrow.moves _ (hadmits _ _ _ (by rw [hphase]; decide))
            (h command List.mem_cons_self robot)
        · rw [abort_of_phase_ne_running hphase]
      have hrest := ih (done ++ [(command.abort robot).1]) (command.abort robot).2
        fun c hc => h c (List.mem_cons_of_mem _ hc)
      simp only [List.append_assoc, List.cons_append, List.nil_append] at hrest
      exact hfirst.trans hrest

theorem Spot.abortStep_moves {fill : Step Command → Command} {index : Nat}
    (hspot : Spot fill index) (step : Step Command) (robot : Robot)
    (h : ∀ command ∈ step.members, ∀ robot, Moves (command, robot) (command.abort robot)) :
    Moves (fill step, robot) (fill (abortStep step robot).1, (abortStep step robot).2) := by
  obtain ⟨primary, companions, beside⟩ := step
  have hfirst : Moves (fill ⟨primary, companions, beside⟩, robot)
      (fill ⟨(primary.abort robot).1, companions, beside⟩, (primary.abort robot).2) := by
    by_cases hphase : primary.phase = .running
    · exact hspot.primary_moves _ _ (hspot.admits _ _ _ (by rw [hphase]; decide))
        (h primary List.mem_cons_self robot)
    · rw [abort_of_phase_ne_running hphase]
  have hsecond := (hspot.companions (primary.abort robot).1 beside).abortAll_moves
    (fun _ _ => hspot.admits _ _) [] companions (primary.abort robot).2
    fun c hc => h c (List.mem_cons_of_mem _ (List.mem_append_left _ hc))
  have hthird := (hspot.beside (primary.abort robot).1
      (abortAll companions (primary.abort robot).2).1).abortAll_moves
    (fun _ _ => hspot.admits _ _) [] beside (abortAll companions (primary.abort robot).2).2
    fun c hc => h c (List.mem_cons_of_mem _ (List.mem_append_right _ hc))
  exact (hfirst.trans hsecond).trans hthird

theorem abortSteps_moves (fill : List (Step Command) → Command)
    (index : List (Step Command) → Nat)
    (hspot : ∀ before after, Spot (fun step => fill (before ++ step :: after)) (index before))
    (done todo : List (Step Command)) (robot : Robot)
    (h : ∀ step ∈ todo, ∀ command ∈ step.members, ∀ robot,
      Moves (command, robot) (command.abort robot)) :
    Moves (fill (done ++ todo), robot)
      (fill (done ++ (abortSteps todo robot).1), (abortSteps todo robot).2) := by
  induction todo generalizing done robot with
  | nil => exact .refl
  | cons step rest ih =>
      have hfirst := (hspot done rest).abortStep_moves step robot (h step List.mem_cons_self)
      have hrest := ih (done ++ [(abortStep step robot).1]) (abortStep step robot).2
        fun s hs => h s (List.mem_cons_of_mem _ hs)
      simp only [List.append_assoc, List.cons_append, List.nil_append] at hrest
      exact hfirst.trans hrest

theorem phase_ne_running_of_mem_abortAll {commands : List Command} {robot : Robot}
    {command : Command} (h : command ∈ (abortAll commands robot).1) :
    command.phase ≠ .running := by
  induction commands generalizing robot with
  | nil => cases h
  | cons first rest ih =>
      rcases List.mem_cons.mp h with rfl | h
      · exact phase_abort_ne_running first robot
      · exact ih h

theorem phase_ne_running_of_mem_abortSteps {steps : List (Step Command)} {robot : Robot}
    {step : Step Command} {command : Command} (hstep : step ∈ (abortSteps steps robot).1)
    (h : command ∈ step.members) : command.phase ≠ .running := by
  induction steps generalizing robot with
  | nil => cases hstep
  | cons first rest ih =>
      rcases List.mem_cons.mp hstep with rfl | hstep
      · obtain ⟨primary, companions, beside⟩ := first
        rcases List.mem_cons.mp h with rfl | h
        · exact phase_abort_ne_running primary robot
        · rcases List.mem_append.mp h with h | h
          · exact phase_ne_running_of_mem_abortAll h
          · exact phase_ne_running_of_mem_abortAll h
      · exact ih hstep

/-- An abort is made of moves. -/
theorem abort_moves (command : Command) (robot : Robot) :
    Moves (command, robot) (command.abort robot) := by
  induction command using childInduction generalizing robot with
  | step command ih =>
  by_cases hphase : command.phase = .running
  case neg => rw [abort_of_phase_ne_running hphase]
  match command with
  | .leaf name phase work =>
      cases hphase
      exact .single .finish
  | .threaded name phase cadence none inner =>
      cases hphase
      exact .single (.leave (by simp))
  | .threaded name phase cadence (some task) inner =>
      cases hphase
      rw [abort]
      by_cases hcancelled : task.cancelled = true
      · rw [if_pos hcancelled]
        exact .single (.leave (by simpa using hcancelled))
      · rw [if_neg hcancelled]
        have hold : (Command.threaded name .running cadence (some task) inner).child? .inner =
          some inner := rfl
        have hinner := Moves.child rfl hold (by simpa [Admits] using hcancelled)
          (ih .inner inner rfl robot)
        exact hinner.tail (.cancel (phase_abort_ne_running inner robot))
  | .group name phase finished remaining =>
      cases hphase
      rw [abort]
      have hmember : ∀ step ∈ finished ++ remaining, ∀ member ∈ step.members, ∀ robot,
          Moves (member, robot) (member.abort robot) := by
        intro step hstep member hmember
        obtain ⟨turn, hchild⟩ := exists_child?_of_mem hstep hmember
        exact ih turn member hchild
      have hfirst := abortSteps_moves (.group name .running · remaining) List.length
        (spot_finished name remaining) [] finished robot
        fun step hstep => hmember step (List.mem_append_left _ hstep)
      have hsecond := abortSteps_moves (.group name .running (abortSteps finished robot).1 ·) _
        (spot_remaining name (abortSteps finished robot).1) [] remaining
        (abortSteps finished robot).2
        fun step hstep => hmember step (List.mem_append_right _ hstep)
      refine (hfirst.trans hsecond).tail (.close fun turn child hchild => ?_)
      obtain ⟨step, hstep, hmember⟩ := mem_of_child? hchild
      rcases List.mem_append.mp hstep with hstep | hstep
      · exact phase_ne_running_of_mem_abortSteps hstep hmember
      · exact phase_ne_running_of_mem_abortSteps hstep hmember

/-! ## Polling -/

/-- The command, or commands, and the robot that a poll leaves behind. -/
def Polled.after {α : Type} (polled : Polled α) : α × Robot :=
  (polled.item, polled.robot)

theorem Polled.finishIf_moves {before : Command × Robot} {polled : Polled Command}
    (isDone : Bool) (h : Moves before polled.after) :
    Moves before (polled.finishIf isDone).after := by
  rw [finishIf]
  split
  · exact h.trans (abort_moves polled.item polled.robot)
  · exact h

theorem pollLeaf_moves (name : String) (work : Leaf) (robot : Robot) :
    Moves (.leaf name .running work, robot) (pollLeaf name work robot).after := by
  rw [pollLeaf]
  split
  · exact Polled.finishIf_moves _ .refl
  · next work' robot' hrun =>
      exact Polled.finishIf_moves _ ((Move.run hrun).moves.trans Move.check.moves)

theorem pollThreaded_moves (name : String) (cadence : Duration) (task : Task) (inner : Command)
    (robot : Robot) :
    Moves (.threaded name .running cadence (some task) inner, robot)
      (pollThreaded name cadence task inner robot).after :=
  Polled.finishIf_moves _ (.single (.note none))

theorem Row.pollAll_moves {fill : List Command → Command} {turn : Nat → Turn}
    (hrow : Row fill turn)
    (hadmits : ∀ row index (child : Command), (fill row).Admits (turn index) child)
    (done todo : List Command) (robot : Robot)
    (h : ∀ command ∈ todo, ∀ robot, Moves (command, robot) (command.poll robot).after) :
    Moves (fill (done ++ todo), robot)
      (fill (done ++ (pollAll todo robot).item), (pollAll todo robot).robot) := by
  induction todo generalizing done robot with
  | nil => exact .refl
  | cons command rest ih =>
      have hfirst := hrow.moves rest (hadmits _ done.length command)
        (h command List.mem_cons_self robot)
      rw [pollAll]
      cases hfault : (command.poll robot).fault with
      | some fault => exact hfirst
      | none =>
          have hrest := ih (done ++ [(command.poll robot).item]) (command.poll robot).robot
            fun c hc => h c (List.mem_cons_of_mem _ hc)
          simp only [List.append_assoc, List.cons_append, List.nil_append] at hrest
          exact hfirst.trans hrest

theorem Spot.pollStep_moves {fill : Step Command → Command} {index : Nat}
    (hspot : Spot fill index) (hopen : Spot.Open fill index) (step : Step Command)
    (robot : Robot)
    (h : ∀ command ∈ step.members, ∀ robot, Moves (command, robot) (command.poll robot).after) :
    Moves (fill step, robot) (fill (pollStep step robot).item, (pollStep step robot).robot) := by
  obtain ⟨primary, companions, beside⟩ := step
  have hfirst := hspot.primary_moves companions beside
    (hopen _ .primary primary) (h primary List.mem_cons_self robot)
  rw [pollStep]
  cases hfault : (primary.poll robot).fault with
  | some fault => exact hfirst
  | none =>
      have hsecond := (hspot.companions (primary.poll robot).item beside).pollAll_moves
        (fun _ _ => hopen _ _) [] companions (primary.poll robot).robot
        fun c hc => h c (List.mem_cons_of_mem _ (List.mem_append_left _ hc))
      simp only
      cases hfault : (pollAll companions (primary.poll robot).robot).fault with
      | some fault => exact hfirst.trans hsecond
      | none =>
          have hthird := (hspot.beside (primary.poll robot).item
              (pollAll companions (primary.poll robot).robot).item).pollAll_moves
            (fun _ _ => hopen _ _) [] beside (pollAll companions (primary.poll robot).robot).robot
            fun c hc => h c (List.mem_cons_of_mem _ (List.mem_append_right _ hc))
          exact (hfirst.trans hsecond).trans hthird

theorem pollFinished_moves (name : String) (remaining done todo : List (Step Command))
    (robot : Robot)
    (h : ∀ step ∈ todo, ∀ command ∈ step.members, ∀ robot,
      Moves (command, robot) (command.poll robot).after) :
    Moves (.group name .running (done ++ todo) remaining, robot)
      (.group name .running (done ++ (pollFinished todo robot).item) remaining,
        (pollFinished todo robot).robot) := by
  induction todo generalizing done robot with
  | nil => exact .refl
  | cons step rest ih =>
      obtain ⟨primary, companions, beside⟩ := step
      have hfirst := ((spot_finished name remaining done rest).beside primary
        companions).pollAll_moves (fun _ _ => open_finished name remaining done rest _ _) [] beside
        robot fun c hc => h _ List.mem_cons_self c
          (List.mem_cons_of_mem _ (List.mem_append_right _ hc))
      rw [pollFinished]
      cases hfault : (pollAll beside robot).fault with
      | some fault => exact hfirst
      | none =>
          have hrest := ih (done ++ [⟨primary, companions, (pollAll beside robot).item⟩])
            (pollAll beside robot).robot fun s hs => h s (List.mem_cons_of_mem _ hs)
          simp only [List.append_assoc, List.cons_append, List.nil_append] at hrest
          exact hfirst.trans hrest

theorem runSteps_moves (name : String) (finished todo : List (Step Command)) (robot : Robot)
    (h : ∀ step ∈ todo, ∀ command ∈ step.members, ∀ robot,
      Moves (command, robot) (command.poll robot).after) :
    Moves (.group name .running finished todo, robot)
      (.group name .running (finished ++ (runSteps todo robot).item.1) (runSteps todo robot).item.2,
        (runSteps todo robot).robot) := by
  induction todo generalizing finished robot with
  | nil =>
      rw [runSteps, List.append_nil]
  | cons step rest ih =>
      have hfirst := (spot_remaining name finished [] rest).pollStep_moves
        (open_current name finished rest) step robot (h step List.mem_cons_self)
      rw [runSteps]
      cases hfault : (pollStep step robot).fault with
      | some fault =>
          simp only [Polled.map, List.append_nil]
          exact hfirst
      | none =>
          simp only
          split
          · next hcomplete =>
              have hrest := ih (finished ++ [(pollStep step robot).item])
                (pollStep step robot).robot fun s hs => h s (List.mem_cons_of_mem _ hs)
              simp only [List.append_assoc, List.cons_append, List.nil_append] at hrest
              exact (hfirst.tail (.advance hcomplete)).trans hrest
          · simp only [Polled.map, List.append_nil]
            exact hfirst

theorem pollGroup_moves {phase : Phase} (name : String)
    (finished remaining : List (Step Command)) (robot : Robot)
    (h : ∀ turn member, (Command.group name phase finished remaining).child? turn = some member →
      ∀ robot, Moves (member, robot) (member.poll robot).after) :
    Moves (.group name .running finished remaining, robot)
      ((Command.group name .running finished remaining).poll robot).after := by
  have hmember : ∀ step ∈ finished ++ remaining, ∀ member ∈ step.members, ∀ robot,
      Moves (member, robot) (member.poll robot).after := by
    intro step hstep member hmember
    obtain ⟨turn, hchild⟩ := exists_child?_of_mem hstep hmember
    exact h turn member hchild
  have hfirst := pollFinished_moves name remaining [] finished robot
    fun step hstep => hmember step (List.mem_append_left _ hstep)
  have hsecond := runSteps_moves name (pollFinished finished robot).item remaining
    (pollFinished finished robot).robot
    fun step hstep => hmember step (List.mem_append_right _ hstep)
  rw [poll]
  apply Polled.finishIf_moves
  cases (pollFinished finished robot).fault with
  | some fault => exact hfirst
  | none => exact hfirst.trans hsecond

/-- A poll is made of moves. -/
theorem poll_moves (command : Command) (robot : Robot) :
    Moves (command, robot) (command.poll robot).after := by
  induction command using childInduction generalizing robot with
  | step command ih =>
  match command with
  | .leaf name .notStarted work =>
      exact Move.start.moves.trans (pollLeaf_moves name _ _)
  | .leaf name .running work => exact pollLeaf_moves name work robot
  | .threaded name .notStarted cadence none inner =>
      exact Move.spawn.moves.trans (pollThreaded_moves name cadence .started inner robot)
  | .threaded name .notStarted cadence (some task) inner =>
      exact Polled.finishIf_moves _ (.single .respawn)
  | .threaded name .running cadence (some task) inner =>
      exact pollThreaded_moves name cadence task inner robot
  | .threaded name .running cadence none inner => exact Polled.finishIf_moves _ .refl
  | .group name .notStarted finished remaining =>
      exact Move.enter.moves.trans (pollGroup_moves name finished remaining robot ih)
  | .group name .running finished remaining =>
      exact pollGroup_moves name finished remaining robot ih
  | .leaf name .completed work | .threaded name .completed cadence task inner
  | .group name .completed finished remaining => exact .refl

end Command

end RobotRoutine

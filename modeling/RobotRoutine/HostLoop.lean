import RobotRoutine.Engine

/-!
# The host loop

The host ticks an engine at a fixed period for as long as the budget of the phase lasts, and in
between does what it has to: let time pass, let workers work, take note of a request to stop. Before
every tick it looks for such a request first and at the budget second.

Nothing forces a host to let time pass, so a run is given a limit of ticks besides. A host that
moves the clock by the period between ticks never reaches `HostLoop.tickLimit`.
-/

namespace RobotRoutine

/-- How a run of the host loop ended. -/
inductive RunOutcome where
  | completed
  | budgetExpired
  | interrupted
deriving DecidableEq, Repr

namespace RunOutcome

/-- The outcome in words. -/
def toText : RunOutcome → String
  | .completed => "completed"
  | .budgetExpired => "budget expired"
  | .interrupted => "interrupted"

end RunOutcome

/-- What there is to say about a run. -/
structure RunSummary where
  outcome : RunOutcome
  /-- How often the engine has ticked in its life. -/
  ticks : Nat
  /-- The time from the start of the run to its end. -/
  elapsed : Duration
deriving DecidableEq, Repr

/-- Why a run has no summary. -/
inductive RunFailure where
  | routine (error : RoutineError)
  /-- The clock would have left its range. -/
  | clockOverflow
  /-- The limit of ticks was reached. -/
  | unfinished
deriving DecidableEq, Repr

/-- Everything that changes in a run; `state` is the host's own. -/
structure Session (σ : Type) where
  engine : Engine
  robot : Robot
  state : σ

/-- What a host does besides ticking. -/
structure Host (σ : Type) where
  /-- Whether somebody asked for the run to stop. -/
  stopRequested : σ → Bool
  /-- What happens in the period between two ticks; nothing if the clock would leave its range. -/
  between : Duration → Session σ → Option (Session σ)

/-- A host loop's period and the budget of the phase. -/
structure HostLoop where
  period : Duration
  budget : Duration
deriving DecidableEq, Repr

namespace HostLoop

variable {σ : Type}

/-- The session with its routine aborted, and the summary of a run that ends with it. -/
def breakOff (started : Duration) (outcome : RunOutcome) (session : Session σ) :
    Session σ × Except RunFailure RunSummary :=
  let (engine, robot) := session.engine.abort session.robot
  ({ session with engine, robot },
    .ok { outcome, ticks := engine.ticks, elapsed := robot.clock.since started })

/-- The rest of a run that started at the time `started`. -/
def runFrom (loop : HostLoop) (host : Host σ) (started : Duration) :
    (limit : Nat) → Session σ → Session σ × Except RunFailure RunSummary
  | 0, session => (session, .error .unfinished)
  | limit + 1, session =>
    if host.stopRequested session.state then
      breakOff started .interrupted session
    else if loop.budget ≤ session.robot.clock.since started then
      breakOff started .budgetExpired session
    else
      let ticked := session.engine.tick session.robot
      let session := { session with engine := ticked.engine, robot := ticked.robot }
      let summary (outcome : RunOutcome) : RunSummary :=
        { outcome, ticks := ticked.engine.ticks, elapsed := ticked.robot.clock.since started }
      match ticked.result with
      | .error error => (session, .error (.routine error))
      | .ok .completed => (session, .ok (summary .completed))
      | .ok .aborted => (session, .ok (summary .interrupted))
      | .ok .running =>
        match host.between loop.period session with
        | none => (session, .error .clockOverflow)
        | some session => runFrom loop host started limit session

/-- Ticks the engine until the routine or the budget ends, somebody asks to stop, or `limit` rounds
were made. -/
def run (loop : HostLoop) (host : Host σ) (limit : Nat) (session : Session σ) :
    Session σ × Except RunFailure RunSummary :=
  loop.runFrom host session.robot.clock limit session

/-- More rounds than a run makes whose clock moves by the period between ticks. -/
def tickLimit (loop : HostLoop) : Nat :=
  loop.budget.nanos / loop.period.nanos + 2

end HostLoop

end RobotRoutine

import RobotRoutine.Files.Tree
import RobotRoutine.Main
import RobotRoutine.Proofs.Command.Move
import RobotRoutine.Proofs.Command.Walk
import RobotRoutine.Proofs.Command.Fresh
import RobotRoutine.Proofs.Command.Order
import RobotRoutine.Proofs.Command.Ownership
import RobotRoutine.Proofs.Command.Evolution
import RobotRoutine.Proofs.Command.Schedule
import RobotRoutine.Proofs.Engine.SafeStop
import RobotRoutine.Proofs.Command.Hooks
import RobotRoutine.Proofs.Worker.Cancellation
import RobotRoutine.Proofs.Routine.Compile
import RobotRoutine.Proofs.Command.Conditions
import RobotRoutine.Proofs.Engine.HostRun
import RobotRoutine.Proofs.Command.Trace
import RobotRoutine.Proofs.Command.Members
import RobotRoutine.Proofs.Command.Lifecycle
import RobotRoutine.Proofs.Command.Chronicle
import RobotRoutine.Proofs.Command.Deeds
import RobotRoutine.Proofs.Command.Effects
import RobotRoutine.Proofs.Command.Actions
import RobotRoutine.Proofs.Engine.History
import RobotRoutine.Proofs.Script.Marks
import RobotRoutine.Proofs.Registry.Builtins
import RobotRoutine.Proofs.Routine.Actions
import RobotRoutine.Proofs.Script.Grammar
import RobotRoutine.Proofs.Script.Literals
import RobotRoutine.Proofs.RobotConfig.RoundTrip
import RobotRoutine.Proofs.Command.Answers
import RobotRoutine.Proofs.Command.Steps
import RobotRoutine.Proofs.Command.Equivalence
import RobotRoutine.Proofs.Command.Flattening
import RobotRoutine.Proofs.Command.Footprint
import RobotRoutine.Proofs.Command.Companions
import RobotRoutine.Proofs.Command.Timetable
import RobotRoutine.Proofs.Text.Casing
import RobotRoutine.Proofs.Script.Surface
import RobotRoutine.Proofs.Routine.Surface
import RobotRoutine.Proofs.RobotConfig.Acceptance
import RobotRoutine.Proofs.Command.Debounce
import RobotRoutine.Proofs.Command.Convergence
import RobotRoutine.Proofs.Command.Visits
import RobotRoutine.Proofs.Command.Queue
import RobotRoutine.Proofs.Command.Symmetry
import RobotRoutine.Proofs.Engine.Origin
import RobotRoutine.Proofs.Script.Balance
import RobotRoutine.Proofs.Script.Rendering
import RobotRoutine.Proofs.Registry.Arguments
import RobotRoutine.Proofs.Routine.WellFormed
import RobotRoutine.Proofs.RobotConfig.Budget
import RobotRoutine.Proofs.Script.Variables
import RobotRoutine.Proofs.Script.Joining
import RobotRoutine.Proofs.Command.Blueprint
import RobotRoutine.Proofs.Registry.Registration
import RobotRoutine.Proofs.Registry.Targets
import RobotRoutine.Proofs.RobotConfig.Scripts
import RobotRoutine.Proofs.RobotConfig.Clock

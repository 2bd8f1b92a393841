/-!
# The drive

The drive base takes one order at a time: to stop, or to run its two sides at some power. It keeps
the last order and counts them all. Power is limited to the unit range; what is not a number passes
the limit as it is.
-/

namespace RobotRoutine

/-- The power nearest to `x` between -1 and 1. -/
def clampUnit (x : Float) : Float :=
  if x < -1 then -1 else if 1 < x then 1 else x

/-- What the drive was told to do. -/
inductive DriveOrder where
  | stop
  | power (left right : Float)
deriving DecidableEq

/-- The state of the drive base. -/
structure Drive where
  /-- The last order; none if there was no order yet. -/
  order : Option DriveOrder
  /-- How many orders there were. -/
  writes : Nat
deriving DecidableEq

namespace Drive

/-- A drive base that was given no order yet. -/
def untouched : Drive := ⟨none, 0⟩

/-- Gives the drive an order. -/
def give (drive : Drive) (order : DriveOrder) : Drive :=
  ⟨some order, drive.writes + 1⟩

/-- Runs each side at its own power. -/
def tank (drive : Drive) (left right : Float) : Drive :=
  drive.give (.power (clampUnit left) (clampUnit right))

/-- Runs at a speed while turning. -/
def arcade (drive : Drive) (speed turn : Float) : Drive :=
  drive.tank (speed + turn) (speed - turn)

/-- Stops both sides. -/
def stop (drive : Drive) : Drive :=
  drive.give .stop

/-- The power of the left and of the right side. -/
def output (drive : Drive) : Float × Float :=
  match drive.order with
  | some (.power left right) => (left, right)
  | _ => (0, 0)

/-- Whether the drive stands still by its last order, or for want of any. -/
def IsStopped (drive : Drive) : Prop :=
  drive.order = none ∨ drive.order = some .stop

instance (drive : Drive) : Decidable drive.IsStopped :=
  inferInstanceAs (Decidable (_ ∨ _))

end Drive

end RobotRoutine

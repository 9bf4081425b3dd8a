import Mathlib.Data.Rat.Defs
import Mathlib.Data.Sign.Defs
import Mathlib.Algebra.Order.Ring.Rat
import LiTimeGateway.Lib.Runs
/-!
# The runtime estimator

`RuntimeEstimator` of the remote dashboard over exact rationals, times in
milliseconds. `update` is the state after a poll; what it returns is the
`snapshot` of that state. A quotient by zero has no value (`divide`).
-/

namespace LiTimeGateway.Dashboard

def WINDOW_MS : ℚ := 120000
def WARMUP_MS : ℚ := 15000
def STALE_MS : ℚ := 15000
def IDLE_AMPS : ℚ := 1 / 20

/-- A battery object as it arrives. `connected` and `valid` are their truth
values; a field is `none` when it is missing, not a number, or not finite. -/
structure Battery where
  connected : Bool := false
  valid : Bool := false
  current : Option ℚ := none
  remainingAh : Option ℚ := none
  capacityAh : Option ℚ := none
  updatedAt : Option ℚ := none

/-- A battery object that passed the checks of `update`. -/
structure Reading where
  current : ℚ
  remainingAh : ℚ
  capacityAh : ℚ
  updatedAt : ℚ
  capacity_pos : 0 < capacityAh
  remaining_nonneg : 0 ≤ remainingAh
  remaining_le : remainingAh ≤ capacityAh

/-- The checks of `update`; the object may be missing too. -/
def checked : Option Battery → Option Reading
  | some ⟨true, true, some current, some remainingAh, some capacityAh, some updatedAt⟩ =>
    if h : 0 < capacityAh ∧ 0 ≤ remainingAh ∧ remainingAh ≤ capacityAh then
      some ⟨current, remainingAh, capacityAh, updatedAt, h.1, h.2.1, h.2.2⟩
    else none
  | _ => none

/-- `1` while charging, `-1` while discharging, `0` while idle. -/
def Reading.direction (reading : Reading) : SignType :=
  if IDLE_AMPS < |reading.current| then SignType.sign reading.current else 0

/-- An accepted reading and the time it arrived. -/
structure Arrival where
  time : ℚ
  battery : Reading

structure Segment where
  start : ℚ
  stop : ℚ
  current : ℚ

structure RuntimeEstimator where
  segments : List Segment := []
  last : Option Arrival := none
  direction : SignType := 0
  idleSince : Option ℚ := none

inductive Direction where
  | charging
  | discharging
  deriving DecidableEq, Repr

inductive Snapshot where
  | unavailable
  | idle
  | warming (direction : Direction)
  | ready (direction : Direction) (hours averageAmps windowSeconds : ℚ)
  deriving DecidableEq

namespace RuntimeEstimator

/-! ## Updates -/

def reset : RuntimeEstimator := {}

def isDuplicate (e : RuntimeEstimator) (reading : Reading) : Bool :=
  e.last.any fun last => reading.updatedAt = last.battery.updatedAt

/-- The reading is too late for the window, or comes from a restarted device. -/
def isBroken (e : RuntimeEstimator) (reading : Reading) (now : ℚ) : Bool :=
  e.last.any fun last => STALE_MS ≤ now - last.time || reading.updatedAt < last.battery.updatedAt

/-- It has been idle for a warm-up time. -/
def idleLong (e : RuntimeEstimator) (now : ℚ) : Bool := e.idleSince.any fun since => WARMUP_MS ≤ now - since

/-- The direction and the idle timer after a reading of this direction. -/
def turn (e : RuntimeEstimator) (direction : SignType) (now : ℚ) : RuntimeEstimator :=
  if direction ≠ 0 then { e with direction, idleSince := none }
  else if e.idleSince.isNone then { e with idleSince := some now }
  else e

/-- The span since the last reading joins the window, which moves up to `now`. -/
def push (e : RuntimeEstimator) (reading : Reading) (now : ℚ) : RuntimeEstimator :=
  let segments : List Segment := match e.last with
    | some last => e.segments ++ [⟨last.time, now, last.battery.current⟩]
    | none => e.segments
  { e with
    -- A segment is dropped whole once it lies before the window.
    segments := segments.filter fun segment => now - WINDOW_MS < segment.stop
    last := some ⟨now, reading⟩ }

def update (e : RuntimeEstimator) (battery : Option Battery) (now : ℚ) : RuntimeEstimator :=
  match checked battery with
  | none => reset
  | some reading =>
    if e.isDuplicate reading then e
    else
      -- Three reasons to start again, each judged on what the one before has left.
      let e := if e.isBroken reading now then reset else e
      let direction := reading.direction
      let e := if direction ≠ 0 && e.idleLong now then reset else e
      let e := if direction ≠ 0 && e.direction ≠ 0 && direction ≠ e.direction then reset else e
      (e.turn direction now).push reading now

/-! ## Snapshots -/

/-- The quotient, when it is a number. -/
def divide (x y : ℚ) : Option ℚ := if y = 0 then none else some (x / y)

/-- One pass of the loop over the segments: `duration` and `ampMs`. -/
def addSegment (windowStart : ℚ) (sums : ℚ × ℚ) (segment : Segment) : ℚ × ℚ :=
  let ms := max 0 (segment.stop - max segment.start windowStart)
  (sums.1 + ms, sums.2 + segment.current * ms)

/-- What the page shows at `now`; `none` if it would divide by zero. -/
def snapshot (e : RuntimeEstimator) (now : ℚ) : Option Snapshot :=
  match e.last with
  | none => some .unavailable
  | some last =>
    if STALE_MS ≤ now - last.time then some .unavailable
    else if e.direction = 0 || e.idleLong now then some .idle
    else
      let sums := e.segments.foldl (addSegment (last.time - WINDOW_MS)) (0, 0)
      let duration := sums.1
      let ampMs := sums.2
      let direction := if 0 < e.direction then Direction.charging else .discharging
      if duration < WARMUP_MS then some (.warming direction)
      else do
        let averageAmps ← divide ampMs duration
        if |averageAmps| ≤ IDLE_AMPS then return .idle
        let remainingAh := last.battery.remainingAh
        let capacityAh := last.battery.capacityAh
        let hours ← divide (if direction = .charging then capacityAh - remainingAh else remainingAh) |averageAmps|
        let windowSeconds ← divide duration 1000
        return .ready direction hours averageAmps windowSeconds

end RuntimeEstimator

/-! ## Calls -/

inductive Call where
  | update (battery : Option Battery) (now : ℚ)
  | reset

/-- When the calls are made; `reset` does not read the clock. -/
def times (calls : List Call) : List ℚ :=
  calls.filterMap fun
    | .update _ now => some now
    | .reset => none

def RuntimeEstimator.call (e : RuntimeEstimator) : Call → RuntimeEstimator
  | .update battery now => e.update battery now
  | .reset => .reset

/-- A new estimator after the calls. -/
def run (calls : List Call) : RuntimeEstimator := Lib.Runs.run RuntimeEstimator.call .reset calls

end LiTimeGateway.Dashboard

import LiTimeGateway.Ble.LiTimeBLEProvider
/-!
# The battery in the firmware loop

What `setup` and `loop` do with the battery: each pass updates it, and scans for
one when it is not connected and the last scan is long enough ago. `passOps`
lists the provider's operations of one pass.
-/

namespace LiTimeGateway

open Lib

def BATTERY_RESCAN_INTERVAL_MS : UInt32 := 60000

/-- A scan: when it starts, the events during it, the address of the first
battery found, and how connecting to it goes. -/
structure ScanIo where
  now : UInt32
  whileScanning : List HostEvent := []
  found : Option Bytes := none
  connect : ConnectIo := {}
  sync : SyncIo

/-- One pass: its update, the events after it, the clock read that decides
about a scan, and the scan. -/
structure PassIo where
  sync : SyncIo
  afterUpdate : List HostEvent := []
  rescan : UInt32
  scan : ScanIo

structure BatteryLoop where
  battery : LiTimeBLEProvider := {}
  lastBatteryScanAt : UInt32 := 0

namespace BatteryLoop

/-- The provider's part of a scan. -/
def scanOps (io : ScanIo) : List LiTimeBLEProvider.Op :=
  io.whileScanning.map .host ++ (io.found.map fun address => .connect address io.connect io.sync).toList

def attemptBatteryConnection (g : BatteryLoop) (io : ScanIo) : BatteryLoop where
  battery := Runs.run LiTimeBLEProvider.step g.battery (scanOps io)
  lastBatteryScanAt := io.now

/-- `setup`; without a scanner it stops before the first scan. -/
def setup (scanner : Bool) (io : ScanIo) : BatteryLoop :=
  let g : BatteryLoop := { battery := LiTimeBLEProvider.begin {} }
  if scanner then g.attemptBatteryConnection io else g

/-- The battery is not connected after its update, and a scan is due. -/
def rescans (g : BatteryLoop) (io : PassIo) : Bool :=
  !(g.battery.update io.sync).data.connected && io.rescan - g.lastBatteryScanAt ≥ BATTERY_RESCAN_INTERVAL_MS

def pass (g : BatteryLoop) (io : PassIo) : BatteryLoop :=
  let updated := { g with
    battery := Runs.run LiTimeBLEProvider.step (g.battery.update io.sync) (io.afterUpdate.map .host) }
  if g.rescans io then updated.attemptBatteryConnection io.scan else updated

/-- A pass, or an event while the loop is busy elsewhere. -/
inductive Event where
  | pass (io : PassIo)
  | host (event : HostEvent)

def step (g : BatteryLoop) : Event → BatteryLoop
  | .pass io => g.pass io
  | .host event => { g with battery := g.battery.step (.host event) }

/-- The provider's operations of one step. -/
def stepOps (g : BatteryLoop) : Event → List LiTimeBLEProvider.Op
  | .pass io => .update io.sync :: (io.afterUpdate.map .host ++ if g.rescans io then scanOps io.scan else [])
  | .host event => [.host event]

theorem step_battery (g : BatteryLoop) (e : Event) :
    (g.step e).battery = Runs.run LiTimeBLEProvider.step g.battery (g.stepOps e) := by
  cases e with
  | pass io =>
    rw [step, pass, stepOps, Runs.run_cons, Runs.run_append]
    split
    · rfl
    · rfl
  | host event => rfl

/-- The provider's operations of the steps, one after the other. -/
def runOps (g : BatteryLoop) : List Event → List LiTimeBLEProvider.Op
  | [] => []
  | e :: es => g.stepOps e ++ (g.step e).runOps es

theorem runOps_append (g : BatteryLoop) (es later : List Event) :
    g.runOps (es ++ later) = g.runOps es ++ (Runs.run step g es).runOps later := by
  induction es generalizing g with
  | nil => rfl
  | cons e es ih => rw [List.cons_append, runOps, ih, runOps, Runs.run_cons, List.append_assoc]

theorem run_battery (g : BatteryLoop) (es : List Event) :
    (Runs.run step g es).battery = Runs.run LiTimeBLEProvider.step g.battery (g.runOps es) := by
  induction es generalizing g with
  | nil => rfl
  | cons e es ih => rw [Runs.run_cons, ih, runOps, Runs.run_append, step_battery]

/-- The provider's operations from the boot on. -/
def firmwareOps (scanner : Bool) (io : ScanIo) (es : List Event) : List LiTimeBLEProvider.Op :=
  .begin :: ((if scanner then scanOps io else []) ++ (setup scanner io).runOps es)

/-- The battery in a run of the firmware. -/
theorem firmware_battery (scanner : Bool) (io : ScanIo) (es : List Event) :
    (Runs.run step (setup scanner io) es).battery = Runs.run LiTimeBLEProvider.step {} (firmwareOps scanner io es) := by
  rw [run_battery, firmwareOps, Runs.run_cons, Runs.run_append]
  cases scanner <;> rfl

end BatteryLoop

end LiTimeGateway

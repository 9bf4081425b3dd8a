import LiTimeGateway.Arduino
/-!
# Battery data and the lines written for it

`BatteryData` is the record the provider publishes, with exact rationals for
its floats. `telemetryCsv` and `telemetryJson` are the two lines recorded for
one sample; neither holds any white space, so a stored sample reads back as it
was written.
-/

namespace LiTimeGateway

def MAX_BATTERY_CELLS : Nat := 16

structure BatteryData where
  voltage : ℚ := 0
  current : ℚ := 0
  power : ℚ := 0
  soc : UInt8 := 0
  remainingAh : ℚ := 0
  capacityAh : ℚ := 0
  cellTemp : ℚ := 0
  mosfetTemp : ℚ := 0
  cells : Fin MAX_BATTERY_CELLS → ℚ := fun _ => 0
  cellCount : Nat := 0
  minCell : ℚ := 0
  maxCell : ℚ := 0
  cellDeltaMv : ℚ := 0
  connected : Bool := false
  simulated : Bool := false
  valid : Bool := false
  updatedAt : UInt32 := 0

def csvValue (value : ℚ) (decimals : Nat) : Bytes := floatText value decimals

/-- The `/telemetry.csv` line; `uptime` is what `millis()` returns. -/
def telemetryCsv (data : BatteryData) (uptime : UInt32) : Bytes :=
  decimal uptime.toNat ++
  ascii "," ++ csvValue data.voltage 2 ++
  ascii "," ++ csvValue data.current 2 ++
  ascii "," ++ decimal data.soc.toNat ++
  ascii "," ++ csvValue data.power 1 ++
  ascii "," ++ csvValue data.cellTemp 1 ++
  ascii "," ++ csvValue data.mosfetTemp 1 ++
  ascii "," ++ csvValue data.cellDeltaMv 1

/-- The `timestamp` member: seconds as a 32-bit `unsigned long`, once the clock is set. -/
def timestampText (now : Int) : Bytes :=
  if now > 1700000000 then decimal (now % 2 ^ 32).toNat else ascii "null"

/-- The `/remote.ndjson` line; `now` is what `time(nullptr)` returns. -/
def telemetryJson (data : BatteryData) (uptime : UInt32) (now : Int) : Bytes :=
  ascii "\x7b\"uptime_ms\":" ++ decimal uptime.toNat ++
  ascii ",\"timestamp\":" ++ timestampText now ++
  ascii ",\"voltage\":" ++ csvValue data.voltage 2 ++
  ascii ",\"current\":" ++ csvValue data.current 2 ++
  ascii ",\"soc\":" ++ decimal data.soc.toNat ++
  ascii ",\"power\":" ++ csvValue data.power 1 ++
  ascii ",\"cell_temp\":" ++ csvValue data.cellTemp 1 ++
  ascii ",\"mosfet_temp\":" ++ csvValue data.mosfetTemp 1 ++
  ascii ",\"cell_delta_mv\":" ++ csvValue data.cellDeltaMv 1 ++
  ascii "\x7d"

theorem plain_csvValue (value : ℚ) (decimals : Nat) : Plain (csvValue value decimals) :=
  plain_floatText value decimals

theorem plain_timestampText (now : Int) : Plain (timestampText now) := by
  unfold timestampText
  split
  · exact plain_decimal _
  · decide

theorem plain_telemetryJson (data : BatteryData) (uptime : UInt32) (now : Int) :
    Plain (telemetryJson data uptime now) := by
  unfold telemetryJson
  simp only [plain_append, plain_csvValue, plain_decimal, plain_timestampText, and_true]
  decide

theorem telemetryJson_ne_nil (data : BatteryData) (uptime : UInt32) (now : Int) :
    telemetryJson data uptime now ≠ [] := by
  intro h
  unfold telemetryJson at h
  exact absurd (List.append_eq_nil_iff.1 h).2 (by decide)

end LiTimeGateway

import LiTimeGateway.Firmware
import LiTimeGateway.Local.LocalPage
import LiTimeGateway.Storage.HistoryRuns
/-!
# From the samples to the history panel

Beside the account of the remote queue a session yields the rows it records. The
telemetry file holds the last of them, so the panel of the gateway's page lists
the last of them too: the newest first, and twelve at most.
-/

namespace LiTimeGateway.Firmware

open Lib Lib.Json Lib.Binary64 JavaScript StorageManager HistoryRuns Dashboard LocalPage

variable (config : RemoteConfig)

/-! ## The rows that are recorded -/

/-- The telemetry file holds these rows, or there is none yet. -/
def Holds (files : Files) (kept : List StorageManager.Sample) : Prop :=
  (∃ header, files .telemetryCsv = some (telemetryFile header kept)) ∨ files .telemetryCsv = none ∧ kept = []

theorem Holds.congr {files files' : Files} {kept : List StorageManager.Sample} (h : Holds files kept)
    (hsame : files' .telemetryCsv = files .telemetryCsv) : Holds files' kept := by
  rw [Holds, hsame]
  exact h

/-- The file holds the last of the rows, at least the last one. -/
def Keeps (u : RemoteQueue.Uplink) (recorded : List StorageManager.Sample) : Prop :=
  ∃ kept, kept <:+ recorded ∧ (recorded ≠ [] → kept ≠ []) ∧ Holds u.storage.files kept

theorem Keeps.congr {u v : RemoteQueue.Uplink} {recorded : List StorageManager.Sample} (h : Keeps u recorded)
    (hsame : v.storage.files .telemetryCsv = u.storage.files .telemetryCsv) : Keeps v recorded := by
  obtain ⟨kept, hsuffix, hne, hholds⟩ := h
  exact ⟨kept, hsuffix, hne, hholds.congr hsame⟩

variable (js : Conversions)

theorem parse_history (samples : List StorageManager.Sample) :
    parse (jsonArray (samples.map fun x => rowObject x.texts)) = some (.array (samples.map fun x => rowValue x.texts)) := by
  have hrows := @parse_rows (samples.map StorageManager.Sample.texts) (by
    intro fields hfields
    obtain ⟨x, -, rfl⟩ := List.mem_map.1 hfields
    exact ⟨rfl, isNumber_texts x⟩)
  rwa [List.map_map, List.map_map] at hrows

end LiTimeGateway.Firmware

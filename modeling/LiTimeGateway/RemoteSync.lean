import LiTimeGateway.Storage.Acknowledge
/-!
# Remote sync

`publishNextBatch`, in a build with `GATEWAY_ENABLE_REMOTE_SYNC`, and the `loop`
that calls it. `Http` holds what the network answers: whether `http.begin`
succeeds and what `http.POST` returns (a status, or a negative client error).
`AckIo` says how the calls of the acknowledgement end.
-/

namespace LiTimeGateway

open StorageManager (AckIo)

structure Http where
  begin : Bool
  status : Int
  deriving Repr

def Http.accepted (http : Http) : Bool := 200 ≤ http.status && http.status < 300

/-- The storage after `publishNextBatch`, the body it posted, and its result. -/
structure Published where
  storage : StorageManager
  posted : Option Bytes
  result : Bool

/-- The build's `GATEWAY_ENABLE_REMOTE_SYNC`, `GATEWAY_REMOTE_ENDPOINT`,
`GATEWAY_REMOTE_TOKEN` and `GATEWAY_REMOTE_CA_CERT`. -/
structure RemoteConfig where
  enableRemoteSync : Bool := false
  endpoint : Bytes := []
  token : Bytes := []
  caCert : Bytes := []

def REMOTE_SYNC_INTERVAL_MS : UInt32 := 300000

/-- `hasStorage`: the pointer to the storage manager is set. -/
structure RemoteSync where
  hasStorage : Bool := false
  lastAttemptAt : UInt32 := 0

/-- What one `loop` meets: whether the Wi-Fi is connected, `millis()` in the
throttle and when the instant is stored, the network's answers, and how the calls
of the acknowledgement end. -/
structure RemoteLoopIo where
  connected : Bool
  check : UInt32
  stored : UInt32
  http : Http
  acknowledge : AckIo := .ok

namespace RemoteSync

def batchSize : Nat := 8

def publishNextBatch (storage : StorageManager) (http : Http) (io : AckIo) : Published :=
  let (batch, itemCount) := storage.nextRemoteBatch batchSize
  if itemCount = 0 then ⟨storage, none, true⟩
  -- A request that cannot begin is not sent, and counts as a failure.
  else if !http.begin then ⟨storage, none, false⟩
  else if http.accepted then
    let (after, result) := storage.acknowledgeRemoteBatch itemCount io
    ⟨after, some batch, result = some true⟩
  else ⟨storage, some batch, false⟩

def begin (r : RemoteSync) : RemoteSync := { r with hasStorage := true }

def enabled (config : RemoteConfig) : Bool :=
  config.enableRemoteSync && ((ascii "https://").isPrefixOf config.endpoint && config.token.length > 0 &&
    config.caCert.length > 0)

/-- The loop neither returns early nor is throttled. -/
def attempts (config : RemoteConfig) (r : RemoteSync) (io : RemoteLoopIo) : Bool :=
  enabled config && r.hasStorage && io.connected && !(io.check - r.lastAttemptAt < REMOTE_SYNC_INTERVAL_MS)

/-- The members afterwards, and the batch published, if one was. -/
def loop (config : RemoteConfig) (r : RemoteSync) (storage : StorageManager) (io : RemoteLoopIo) :
    RemoteSync × Option Published :=
  if !r.attempts config io then (r, none)
  else ({ r with lastAttemptAt := io.stored }, some (publishNextBatch storage io.http io.acknowledge))

theorem loop_held {config : RemoteConfig} {r : RemoteSync} {io : RemoteLoopIo} (h : r.attempts config io = false)
    (storage : StorageManager) : r.loop config storage io = (r, none) := by simp [loop, h]

theorem loop_attempts {config : RemoteConfig} {r : RemoteSync} {io : RemoteLoopIo} (h : r.attempts config io = true)
    (storage : StorageManager) :
    r.loop config storage io =
      ({ r with lastAttemptAt := io.stored }, some (publishNextBatch storage io.http io.acknowledge)) := by
  simp [loop, h]

end RemoteSync

end LiTimeGateway

import LiTimeGateway.Ble.Decoding
import LiTimeGateway.Ble.FirstBattery
import LiTimeGateway.Ble.Lifecycle
import LiTimeGateway.Ble.LiveData
import LiTimeGateway.Ble.Provenance
import LiTimeGateway.Dashboard.FormatRuntime
import LiTimeGateway.Dashboard.PollingTheorems
import LiTimeGateway.Dashboard.Recovery
import LiTimeGateway.Dashboard.RuntimeSafety
import LiTimeGateway.Local.HistoryPanel
import LiTimeGateway.Network.ConfigureRequest
import LiTimeGateway.Network.SetupApi
import LiTimeGateway.Network.SetupPage
import LiTimeGateway.Network.SsidDocuments
import LiTimeGateway.Relay.Delivery
import LiTimeGateway.Relay.DeviceSecret
import LiTimeGateway.Remote.StatusProtocol
import LiTimeGateway.Remote.StatusView
import LiTimeGateway.Staleness
import LiTimeGateway.Storage.DamagedRows
import LiTimeGateway.Storage.FileSizes
import LiTimeGateway.Storage.FlashSpace
import LiTimeGateway.Storage.HistoryRuns
import LiTimeGateway.Storage.OnlineQueue
import LiTimeGateway.Throttles

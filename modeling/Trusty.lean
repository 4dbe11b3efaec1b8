import Trusty.Gatekeeper.HandleProperties
import Trusty.Gatekeeper.HistoryProperties
import Trusty.Ipc.PairProperties
import Trusty.Ipc.PipeProperties
import Trusty.Keymaster.DeduplicateProperties
import Trusty.Keymaster.EcdsaData
import Trusty.Keymaster.OperationLifeProperties
import Trusty.Keymaster.RateLimitProperties
import Trusty.Keymaster.ReencodingProperties
import Trusty.Keymaster.TokenKeyProperties
import Trusty.Monitor.MemlogProperties
import Trusty.Monitor.StdcallDriverProperties
import Trusty.Storage.AllocatorQueueProperties
import Trusty.Storage.BlockSetProperties
import Trusty.Storage.CommitFrameProperties
import Trusty.Storage.RpmbCounterProperties
import Trusty.Storage.RpmbReadProperties
import Trusty.Storage.RpmbSizeProperties
import Trusty.Storage.RpmbWriteProperties
import Trusty.Storage.SuperHistoryProperties
import Trusty.Tipc.DeviceNode
import Trusty.Tipc.EndpointProperties
import Trusty.Tipc.Probe
import Trusty.UserSpace.RangeProperties
import Trusty.Virtio.ExchangeProperties
import Trusty.Virtio.WalkProperties

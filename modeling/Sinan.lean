import Sinan.Breaker.Epoch
import Sinan.Breaker.Recovery
import Sinan.Core.Committed
import Sinan.Protocol.Binding
import Sinan.Protocol.Chunks
import Sinan.Core.Written
import Sinan.Gateway.Drained
import Sinan.Gateway.Replay
import Sinan.Gateway.Fenced
import Sinan.Reconciliation.Loaded
import Sinan.Inbound.Order
import Sinan.Inbound.Unrepeated
import Sinan.Projection.Records
import Sinan.Projection.Repeated
import Sinan.Projection.Permuted
import Sinan.Breaker.Polling
import Sinan.Events.Retention
import Sinan.Events.Seam
import Sinan.Core.Priced
import Sinan.Risk.Compared
import Sinan.Execution.Reprojected
import Sinan.Execution.Topology
import Sinan.Execution.Watermark
import Sinan.Store.Closing
import Sinan.Core.Intake
import Sinan.Core.Collision
import Sinan.Store.Canonical
import Sinan.Risk.RequestBinding

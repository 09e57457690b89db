import Iris.Broadcaster.Delay
import Iris.Broadcaster.Loss
import Iris.FailClosed
import Iris.IngressBound
import Iris.SlotEvents
import Iris.PolicyAccount
import Iris.Broadcaster.Unprotected
import Iris.Broadcaster.Workers
import Iris.AdminRpc
import Iris.IngressLedger
import Iris.MevLedger
import Iris.Relay
import Iris.Delivery
import Iris.Report
import Iris.Canonical
import Iris.Process
import Iris.DeliveryLedger
import Iris.Lib.BoundedChannel
import Iris.SlotFeed
import Iris.BoundedRelay
import Iris.Lib.Population
import Iris.QuicConnections
import Iris.Main
import Iris.Lib.RoundRobin
import Iris.Runtime
import Iris.AdminHistory
import Iris.Lib.PeriodicTask
import Iris.RefreshClock
import Iris.SlotClock

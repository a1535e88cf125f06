import VirtualHidDevice.Transition
import VirtualHidDevice.Dispatcher
import VirtualHidDevice.Dispatcher.Thread
import VirtualHidDevice.Dispatcher.Order
import VirtualHidDevice.Dispatcher.Queues
import VirtualHidDevice.Dispatcher.Detach
import VirtualHidDevice.Dispatcher.Wakeup
import VirtualHidDevice.LittleEndian
import VirtualHidDevice.HidReport
import VirtualHidDevice.KeySet
import VirtualHidDevice.HidDescriptor
import VirtualHidDevice.ReportDescriptor
import VirtualHidDevice.Driver
import VirtualHidDevice.Led
import VirtualHidDevice.Protocol
import VirtualHidDevice.IoServiceClient
import VirtualHidDevice.Connection
import VirtualHidDevice.ReadyPoll
import VirtualHidDevice.UserClient
import VirtualHidDevice.RefCount
import VirtualHidDevice.ExternalMethod
import VirtualHidDevice.References
import VirtualHidDevice.ClientEntry
import VirtualHidDevice.Peer
import VirtualHidDevice.ServiceMonitor
import VirtualHidDevice.Lifecycle
import VirtualHidDevice.StepCases
import VirtualHidDevice.ReadyCheck
import VirtualHidDevice.Objects
import VirtualHidDevice.Status
import VirtualHidDevice.Identity
import VirtualHidDevice.ServiceClient
import VirtualHidDevice.ClientRestart
import VirtualHidDevice.Session
import VirtualHidDevice.LastCall
import VirtualHidDevice.StatusDelivery
import VirtualHidDevice.Manager
import VirtualHidDevice.Noninterference
import VirtualHidDevice.Forwarding
import VirtualHidDevice.Server
import VirtualHidDevice.Retry
import VirtualHidDevice.OneShot
import VirtualHidDevice.TextLines
import VirtualHidDevice.UpdateVersion
import VirtualHidDevice.UnixDomainStream.Protocol
import VirtualHidDevice.UnixDomainStream.Peer
import VirtualHidDevice.UnixDomainStream.PeerSignals
import VirtualHidDevice.UnixDomainStream.PeerWriter
import VirtualHidDevice.UnixDomainStream.PeerReader
import VirtualHidDevice.UnixDomainStream.Link
import VirtualHidDevice.UnixDomainStream.RequestManager
import VirtualHidDevice.UnixDomainStream.Client
import VirtualHidDevice.Pending
import VirtualHidDevice.UnixDomainStream.ClientInv
import VirtualHidDevice.UnixDomainStream.ClientIo
import VirtualHidDevice.UnixDomainStream.Reconnect
import VirtualHidDevice.UnixDomainStream.Requests
import VirtualHidDevice.UnixDomainStream.Server
import VirtualHidDevice.Relay
import VirtualHidDevice.UnixDomainStream.PeerMarks
import VirtualHidDevice.UnixDomainStream.PeerMoves
import VirtualHidDevice.UnixDomainStream.PeerTasks
import VirtualHidDevice.UnixDomainStream.PeerEvents
import VirtualHidDevice.UnixDomainStream.ListenInv
import VirtualHidDevice.UnixDomainStream.ListenIo
import VirtualHidDevice.UnixDomainStream.Listening
import VirtualHidDevice.UnixDomainStream.ServerOrigin
import VirtualHidDevice.UnixDomainStream.PeersStep
import VirtualHidDevice.UnixDomainStream.ClientOrigin
import VirtualHidDevice.UnixDomainStream.Network

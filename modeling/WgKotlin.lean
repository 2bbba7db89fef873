import WgKotlin.Util.IpText
import WgKotlin.Translate
import WgKotlin.Crypto.PathIndependence
import WgKotlin.Crypto.Ingress
import WgKotlin.Crypto.Interference
import WgKotlin.Crypto.Flush
import WgKotlin.Crypto.Handshake
import WgKotlin.Crypto.Statistics
import WgKotlin.Crypto.AddressText
import WgKotlin.Uniffi.Keys
import WgKotlin.Uniffi.Buffer
import WgKotlin.Ipc.Agreement
import WgKotlin.Ipc.WindowsPipe
import WgKotlin.Daemon.SplitRouting
import WgKotlin.Daemon.SharedTable
import WgKotlin.Daemon.Macos.Sessions
import WgKotlin.Daemon.Macos.Scan
import WgKotlin.Daemon.Reservations
import WgKotlin.Daemon.Shutdown
import WgKotlin.Daemon.Teardown
import WgKotlin.Daemon.SessionProtocol
import WgKotlin.Daemon.Packets
import WgKotlin.Daemon.InterfaceName
import WgKotlin.Library.Lifetimes
import WgKotlin.Daemon.Owner
import WgKotlin.Daemon.OwnerPinned
import WgKotlin.Daemon.SessionStart
import WgKotlin.Daemon.Dns
import WgKotlin.Daemon.Nrpt
import WgKotlin.Iface.SessionAgreement
import WgKotlin.Iface.PacketOrder
import WgKotlin.Iface.InterfaceManager
import WgKotlin.Vpn.Rejection
import WgKotlin.Vpn.FailedOpen
import WgKotlin.Vpn.Callbacks
import WgKotlin.Vpn.Isolation
import WgKotlin.Vpn.Stop
import WgKotlin.Vpn.Flow
import WgKotlin.Iface.DaemonProcess
import WgKotlin.Iface.DaemonRegistry
import WgKotlin.Daemon.NrptSessions
import WgKotlin.Library.Pipe
import WgKotlin.Daemon.Command
import WgKotlin.Library.SharedDirectory
import WgKotlin.Daemon.UnixListener
import WgKotlin.Vpn.PacketPath
import WgKotlin.Vpn.Acceptance
import WgKotlin.Daemon.Macos.DnsStore
import WgKotlin.Daemon.Macos.Faults
import WgKotlin.Daemon.Macos.Configure
import WgKotlin.Library.TaggedFields
import WgKotlin.Ipc.Wire
import WgKotlin.Ipc.Messages

import EtClient.Lib.Transition
import EtClient.Lib.LittleEndian
import EtClient.Proto.Crypto
import EtClient.Proto.Packet
import EtClient.Proto.Wire
import EtClient.Backed.Actor
import EtClient.Backed.Task
import EtClient.Backed.Steps
import EtClient.Backed.Backup
import EtClient.Backed.Reading
import EtClient.Backed.Nonce
import EtClient.Backed.Delivery
import EtClient.Backed.Authentic
import EtClient.Backed.Sockets
import EtClient.Backed.WriteQueue
import EtClient.Backed.Link
import EtClient.Backed.Uplink
import EtClient.Backed.Downlink
import EtClient.Backed.Recovery
import EtClient.Backed.Notice
import EtClient.Client.Supervisor
import EtClient.Client.ExactlyOnce
import EtClient.Session.Pump
import EtClient.Forward.Engine
import EtClient.Lib.Pipe
import EtClient.Session.CancelSafety
import EtClient.Forward.Steps
import EtClient.Forward.Isolation
import EtClient.Forward.Sending
import EtClient.Forward.Receiving
import EtClient.Forward.Ledger
import EtClient.Forward.Tunnel
import EtClient.Backed.Moves
import EtClient.Backed.Offline
import EtClient.Backed.Rounds
import EtClient.Backed.Budget
import EtClient.Backed.Inbound
import EtClient.Backed.Restore
import EtClient.Backed.Sequence
import EtClient.Backed.Keepalive
import EtClient.Backed.Ending
import EtClient.Client.Hub
import EtClient.Client.Serving
import EtClient.Client.Dead
import EtClient.Client.Stopping
import EtClient.Forward.Echo
import EtClient.Forward.Ring
import EtClient.Session.Flow
import EtClient.Session.Waiting
import EtClient.Session.Freeing
import EtClient.Forward.Tunnels
import EtClient.Forward.Grammar
import EtClient.Forward.Rendering
import EtClient.Backed.Framing
import EtClient.Forward.Bookkeeping
import EtClient.Forward.Answers
import EtClient.Forward.Silence
import EtClient.Forward.Tasks
import EtClient.Forward.Feeding
import EtClient.Forward.Descriptors
import EtClient.Forward.Commands
import EtClient.Forward.Refused
import EtClient.Forward.Binding
import EtClient.Lib.Chunks
import EtClient.Lib.Frames
import EtClient.Proto.Framing
import EtClient.Backed.Streams
import EtClient.Backed.Idle
import EtClient.Lib.Search
import EtClient.Lib.Utf8
import EtClient.Ssh.Credentials
import EtClient.Ssh.Handshake
import EtClient.Backed.Exchange
import EtClient.Backed.Mutual
import EtClient.Client.Connect
import EtClient.Client.Reconnect
import EtClient.Session.Start
import EtClient.Forward.Accepting
import EtClient.Lib.Relabel
import EtClient.Session.Terminal
import EtClient.Ssh.Command
import EtClient.Client.Dropped
import EtClient.Session.Over
import EtClient.Session.Relay
import EtClient.Forward.Encoding
import EtClient.Forward.TunnelStreams

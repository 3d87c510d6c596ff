import UMqtt.Lib.Loop
import UMqtt.Lib.History
import UMqtt.Lib.Polling
import UMqtt.Lib.Ledger
import UMqtt.Lib.Base128
import UMqtt.Lib.Memory
import UMqtt.Lib.Chain
import UMqtt.Wire.Frames
import UMqtt.Wire.Connect
import UMqtt.Wire.Packets
import UMqtt.Crt.Buffer
import UMqtt.Crt.ByteLists
import UMqtt.Crt.Strings
import UMqtt.Crt.SinglyLinkedList
import UMqtt.Codec.Decode
import UMqtt.Codec.Framing
import UMqtt.Codec.Bounds
import UMqtt.Codec.LengthField
import UMqtt.Codec.Residue
import UMqtt.Codec.Misframing
import UMqtt.Codec.ZeroLength
import UMqtt.Codec.Encode
import UMqtt.Codec.Lengths
import UMqtt.Codec.Connect
import UMqtt.Codec.Packets
import UMqtt.Codec.PublishSize
import UMqtt.Codec.Payload
import UMqtt.Codec.TypeByte
import UMqtt.Io.SocketIo
import UMqtt.Io.SocketOpen
import UMqtt.Io.Transmit
import UMqtt.Io.Losses
import UMqtt.Io.TlsIo
import UMqtt.Io.ReadBuffer
import UMqtt.Io.TlsOpen
import UMqtt.Io.TlsSend
import UMqtt.Io.TlsRead
import UMqtt.Io.OwnCert
import UMqtt.Io.Pointers
import UMqtt.Io.OptionHandlers
import UMqtt.Io.Lives
import UMqtt.Io.Reopen
import UMqtt.Client.Message
import UMqtt.Client.Clone
import UMqtt.Client.Basic
import UMqtt.Client.Receive
import UMqtt.Client.Api
import UMqtt.Client.Rules
import UMqtt.Client.Surroundings
import UMqtt.Client.Options
import UMqtt.Client.OverSocket
import UMqtt.Client.Silence
import UMqtt.Client.SocketSilence
import UMqtt.Client.AllocFailure
import UMqtt.Client.DisconnectCallback
import UMqtt.Client.Opening
import UMqtt.Client.Deliveries
import UMqtt.Client.Flags
import UMqtt.Client.PingTimeout
import UMqtt.Client.KeepAlive
import UMqtt.Client.TwoClocks
import UMqtt.Client.TickShift
import UMqtt.Client.Reads
import UMqtt.Client.Dispatch
import UMqtt.Client.RoundTrip
import UMqtt.Client.Reconnect
import UMqtt.Comm.Communicator
import UMqtt.Comm.Handles
import UMqtt.Comm.Agreement
import UMqtt.Comm.PacketIds
import UMqtt.Comm.Retry
import UMqtt.Comm.Refusal
import UMqtt.App.Tasks
import UMqtt.Codec.MidFrame
import UMqtt.Io.Alone
import UMqtt.Io.PointerRuns
import UMqtt.Client.Peers
import UMqtt.Client.Handshake
import UMqtt.Client.Drain
import UMqtt.Client.Prompts
import UMqtt.Client.Stream
import UMqtt.Lib.Supply
import UMqtt.Codec.AllOrNothing
import UMqtt.Wire.Server
import UMqtt.Codec.Conforming

/-
  UMqtt.Client.OverSocket — the client over plain sockets, and an application that calls in.

  The sockets' callbacks are the client's and the client's transport is the sockets:
  `transport n` unfolds that knot `n` times, and one unfolded 0 times neither opens nor sends
  nor receives. The application answers each callback with calls of its own, `perform n` lets
  them nest `n` deep. Any handle may be connected to; behind each stands a socket.

  `past` and `notes` are ghosts: the trace of the client starts anew with every call of
  `mqtt_client_connect`, and `past` holds the traces before it. A note is what happens beside
  the trace, with the `Moment` it happens at: `Note.Meets` is what it takes for a connection to
  stay silent behind an error report.
-/

import UMqtt.Client.Surroundings

namespace UMqtt.Client.OverSocket

open UMqtt.Lib UMqtt.Crt UMqtt.Codec UMqtt.Io

/-! ## Silence -/

def isError : Event → Bool
  | .error _ => true
  | _ => false

/-- A callback of the application, or a packet that is passed to `xio_send`. -/
def reports : Event → Bool
  | .operation _ => true
  | .message _ => true
  | .error _ => true
  | .send _ _ => true
  | _ => false

/-- Behind an error report, nothing is reported and nothing is sent. -/
def SilentTrace (trace : List Event) : Prop := trace.Pairwise fun e e' => isError e = true → reports e' = false

/-! ## The world of a client over sockets -/

structure Moment where
  client : MqttClient
  mallocs : Mallocs
  ticks : List (Option UInt32)
  sockets : XioHandle → SocketIoInstance Unit
  /-- The error callback was invoked since the last `mqtt_client_connect`. -/
  reported : Bool

inductive Note where
  | called (c : ApiCall) (m : Moment)
  /-- The application returns from a callback. -/
  | returned (x : Exit) (m : Moment)
  /-- The error callback is invoked. -/
  | reporting (m : Moment)
  /-- `socketio_dowork`, with what `recv()` is going to return. -/
  | working (h : XioHandle) (received : List RecvAnswer) (m : Moment)
  | worked (m : Moment)
  /-- Behind an item `socketio_dowork` comes to the others. -/
  | behind (pending : List (PendingSocketIo Unit)) (m : Moment)
  /-- `mqtt_codec_bytesReceived` comes to a byte. -/
  | byte (iterator : UInt8) (m : Moment)

/-- `opens`, `sends` and `doworks` answer the coming calls of the sockets; past the end no
    connection is made and nothing is sent or received. -/
structure Outside where
  sockets : XioHandle → SocketIoInstance Unit
  opens : List Bool
  sends : List SendAnswer
  doworks : List (List SendAnswer × List RecvAnswer)
  application : List (List ApiCall)
  past : List (List Event)
  notes : List Note

abbrev Sys := World Outside

def reported (w : Sys) : Bool := w.trace.any isError

def moment (w : Sys) : Moment := ⟨w.client, w.mallocs, w.ticks, w.out.sockets, reported w⟩

def writeNotes (ns : List Note) (w : Sys) : Sys := { w with out := { w.out with notes := w.out.notes ++ ns } }

def Silent (w : Sys) : Prop := ∀ trace ∈ w.out.past ++ [w.trace], SilentTrace trace

/-! ## The application -/

section Application

variable (perform : ApiCall → Sys → Sys)

def respond (x : Exit) (w : Sys) : Sys :=
  let v := (w.out.application.headD []).foldl (fun w c => perform c w)
    { w with out := { w.out with application := w.out.application.tail } }
  writeNotes [.returned x (moment v)] v

def application : App Outside where
  operation o := respond perform (.operation o)
  message m := respond perform (.message m)
  error e w := respond perform (.error e) (writeNotes [.reporting (moment w)] w)
  disconnected callback := respond perform (.disconnected callback)

end Application

/-! ## The sockets -/

def socketSlot (h : XioHandle) : Slot Sys (SocketIoInstance Unit × Mallocs) :=
  ⟨fun w => (w.out.sockets h, w.mallocs),
    fun x w => { w with mallocs := x.2, out := { w.out with sockets := Function.update w.out.sockets h x.1 } },
    fun _ _ => by simp, fun _ _ _ => by simp, fun _ => by simp⟩

def takeOpen (w : Sys) : Bool × Sys :=
  (w.out.opens.headD false, { w with out := { w.out with opens := w.out.opens.tail } })

def takeSend (w : Sys) : SendAnswer × Sys :=
  (w.out.sends.headD .again, { w with out := { w.out with sends := w.out.sends.tail } })

def takeDowork (w : Sys) : (List SendAnswer × List RecvAnswer) × Sys :=
  (w.out.doworks.headD ([], []), { w with out := { w.out with doworks := w.out.doworks.tail } })

section Sockets

variable (xio : Xio Outside) (app : App Outside)

/-- The loop of `mqtt_codec_bytesReceived`, looked at in front of every byte that it comes to. -/
def byteNotes : List UInt8 → Sys → List Note
  | [], _ => []
  | b :: bs, w =>
    let r := receiveByte World.codecSlot (recvCompleteCallback xio app) b w
    .byte b (moment w) :: if r.1 = 0 then byteNotes bs r.2 else []

/-- The callbacks that `mqtt_client_connect` gives to `xio_open`, `close_connection` to
    `xio_close` and `sendPacketItem` to `xio_send`. -/
def socketCallbacks (h : XioHandle) : SocketCallbacks Unit Sys where
  onIoOpenComplete := onOpenComplete xio app
  onBytesReceived received w := writeNotes (byteNotes xio app received w) (onBytesReceived xio app received w)
  onIoError w :=
    let v := onIoError xio app w
    -- A failed `send()` has left the state in error, a failed `recv()` has not.
    if (w.out.sockets h).ioState = .error then writeNotes [.behind (v.out.sockets h).pendingIoList (moment v)] v else v
  onSendComplete _ w :=
    let v := sendComplete xio app .ok w
    -- The item itself is still in front.
    if (w.out.sockets h).pendingIoList = [] then v
    else writeNotes [.behind (v.out.sockets h).pendingIoList.tail (moment v)] v
  onIoCloseComplete := onConnectionClosed app

def worked (w : Sys) : Sys := writeNotes [.worked (moment w)] w

/-- The sockets, with callbacks that see the transport `xio`. -/
def socketXio : Xio Outside where
  openIo h w := socketioOpen (socketSlot h) (socketCallbacks xio app h) (takeOpen w).1 (takeOpen w).2
  close h callback w := socketioClose (socketSlot h) (socketCallbacks xio app h) callback w
  send h bytes w := socketioSend (socketSlot h) (socketCallbacks xio app h) bytes (some ()) (takeSend w).1 (takeSend w).2
  dowork h w :=
    let ((answers, received), w) := takeDowork w
    worked (socketioDowork (socketSlot h) (socketCallbacks xio app h) answers received
      (writeNotes [.working h received (moment w)] w))

end Sockets

def transport (app : App Outside) : Nat → Xio Outside
  | 0 => { socketXio (.inert Outside) app with
      openIo := fun _ w => (failure, w), send := fun _ _ w => (failure, w), dowork := fun _ w => w }
  | n + 1 => socketXio (transport app n) app

/-! ## Runs -/

/-- With a call of `mqtt_client_connect` the trace starts anew. -/
def arrive (c : ApiCall) (w : Sys) : Sys :=
  let w := writeNotes [.called c (moment w)] w
  match c with
  | .connect _ _ => { w with trace := [], out := { w.out with past := w.out.past ++ [w.trace] } }
  | _ => w

def perform : Nat → ApiCall → Sys → Sys
  | 0, _, w => w
  | n + 1, c, w =>
    let app := application (perform n)
    let xio := transport app (n + 1)
    match c with
    | .connect h mqttOptions => (mqttClientConnect xio (some h) mqttOptions (arrive c w)).2
    | .publish msgHandle => (mqttClientPublish xio msgHandle (arrive c w)).2
    | .subscribe packetId subscribeList => (mqttClientSubscribe xio packetId subscribeList (arrive c w)).2
    | .unsubscribe packetId unsubscribeList => (mqttClientUnsubscribe xio packetId unsubscribeList (arrive c w)).2
    | .disconnect callback => (mqttClientDisconnect xio app callback (arrive c w)).2
    | .dowork => mqttClientDowork xio app (arrive c w)

def performAll (n : Nat) (calls : List ApiCall) (w : Sys) : Sys := calls.foldl (fun w c => perform n c w) w

structure Answers where
  mallocs : Mallocs
  ticks : List (Option UInt32)
  opens : List Bool
  sends : List SendAnswer
  doworks : List (List SendAnswer × List RecvAnswer)
  application : List (List ApiCall)

def created (client : MqttClient) (a : Answers) : Sys :=
  { client := client, mallocs := a.mallocs, ticks := a.ticks, crashed := false, trace := [],
    out := { sockets := fun _ => .create Unit, opens := a.opens, sends := a.sends, doworks := a.doworks,
             application := a.application, past := [], notes := [] } }

/-! ## What it takes -/

/-- The client holds its connection, and no other socket is open. -/
structure Owns (client : MqttClient) (sockets : XioHandle → SocketIoInstance Unit) : Prop where
  held : client.socketConnected = true → client.xioHandle ≠ none
  own : ∀ h, (sockets h).ioState = .opened → client.socketConnected = true ∧ client.xioHandle = some h

/-- Nothing comes of the packet. -/
def Unheard (client : MqttClient) : Verdict → Prop
  | .ignored => True
  | .nullWrite => True
  | .pingresp => client.fnOperationCallback = false
  | _ => False

/-- The codec takes the byte, and no packet is complete with it that the client hands on. -/
def Harmless (iterator : UInt8) (m : Moment) : Prop :=
  let a := advance m.client.codec m.mallocs iterator
  a.result = 0 ∧
    (a.complete = true → Unheard m.client (decode { m.client with codec := a.codec } a.codec.packet a.mallocs).verdict)

def Moment.now (m : Moment) : Option UInt32 := m.ticks.headD (some 0)

/-- `mqtt_client_dowork` is going to report a missing PINGRESP, or to ping. -/
def Due (m : Moment) : Prop :=
  m.client.socketConnected = true ∧ m.client.clientConnected = true ∧ 0 < m.client.keepAliveInterval ∧
    ∃ now, m.now = some now ∧
      ((0 < m.client.timeSincePing ∧ m.client.maxPingRespTime.toUInt32 < (now - m.client.timeSincePing) / 1000) ∨
        m.client.keepAliveInterval.toUInt32 ≤ (now - m.client.packetSendTimeMs) / 1000)

/-- A packet can be built, and the clock read. -/
def Sends (c : ApiCall) (m : Moment) : Prop :=
  match c with
  | .publish msgHandle =>
    m.now ≠ none ∧ (mqttCodecPublish msgHandle.qosInfo msgHandle.isDuplicateMsg msgHandle.isMessageRetained
      msgHandle.packetId msgHandle.getTopicName msgHandle.payload m.mallocs).1 ≠ none
  | .subscribe packetId subscribeList =>
    m.now ≠ none ∧ ¬ (subscribeList.length = 0 ∨ packetId = 0) ∧
      (mqttCodecSubscribe packetId subscribeList m.mallocs).1 ≠ none
  | .unsubscribe packetId unsubscribeList =>
    m.now ≠ none ∧ ¬ (unsubscribeList.length = 0 ∨ packetId = 0) ∧
      (mqttCodecUnsubscribe packetId unsubscribeList m.mallocs).1 ≠ none
  | .disconnect _ => m.client.clientConnected = true
  | _ => False

/-- The client sends a packet when the application has returned. -/
def Replies : Exit → Prop
  | .message m => m.qosInfo = .deliverExactlyOnce ∨ m.qosInfo = .deliverAtLeastOnce
  | .operation (.publishRecv _) => True
  | .operation (.publishRel _) => True
  | _ => False

def Note.Meets : Note → Prop
  | .called c m => m.reported = true → ¬ Sends c m
  | .returned x m => m.reported = true → ¬ Replies x
  | .reporting m => Owns m.client m.sockets
  | .working h received m => m.reported = true →
    (m.sockets h).pendingIoList = [] ∧ ((m.sockets h).ioState = .opened → .failed ∉ received)
  | .worked m => m.reported = true → ¬ Due m
  | .behind pending m => m.reported = true → pending = []
  | .byte iterator m => m.reported = true → Harmless iterator m

end UMqtt.Client.OverSocket

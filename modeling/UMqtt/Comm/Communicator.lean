/-
  UMqtt.Comm.Communicator — the communicator (apps/mqtt/mqtt_comm.c) over its MQTT client
  and plain sockets, of one that was created without `security`.

  A communicator keeps a connection state of its own beside the client's flags and changes
  it from the client's callbacks and from return codes. `Outside` holds it, the sockets that
  `xio_create` has made and what the operating system will answer; the allocator is the
  client's. The sockets' callbacks are the client's and the client's transport is the
  sockets: `systemXio n` unfolds that knot `n` times, and one unfolded 0 times neither opens
  nor sends nor receives.

  `steps` and `sent` are ghosts. A `Step` notes the client's `socketConnected` where the
  communicator acts on its own state alone; `sent` are the packets with an identifier that
  the client has sent for it.
-/

import UMqtt.Client.Api

namespace UMqtt.Comm

open UMqtt.Lib UMqtt.Crt UMqtt.Codec UMqtt.Io UMqtt.Client

/-! ## The communicator and its surroundings -/

inductive Status where
  | connected
  | disconnected
  | connecting
  | error
  deriving DecidableEq, Repr

/-- `MQTT_COMMUNICATOR`; of a callback only whether it is NULL is kept. -/
structure Communicator where
  host : CString
  mqttOptions : MqttClientOptions
  xioHandle : Option XioHandle
  packetId : UInt16
  state : Status
  fnConnectedCallback : Bool
  fnSubCallback : Bool
  fnReceivedCallback : Bool
  fnPubCallback : Bool
  deriving DecidableEq, Repr

inductive Step where
  | errorBranch (socketConnected : Bool)
  | connect (socketConnected : Bool)
  | connack (socketConnected : Bool)
  deriving DecidableEq, Repr

/-- A packet with an identifier, and the packet that acknowledges it. -/
structure Sent where
  ack : ControlPacketType
  packetId : UInt16
  deriving DecidableEq, Repr

/-- `opens`, `sends` and `doworks` answer the coming calls of the sockets; past the end no
    connection is made and nothing is sent or received. `live` are the handles not yet
    destroyed, `freed` says that the client or the communicator is. -/
structure Outside where
  comm : Communicator
  sockets : XioHandle → SocketIoInstance Unit
  live : List XioHandle
  created : Nat
  freed : Bool
  opens : List Bool
  sends : List SendAnswer
  doworks : List (List SendAnswer × List RecvAnswer)
  steps : List Step
  sent : List Sent

abbrev Sys := World Outside

def onComm (f : Communicator → Communicator) (w : Sys) : Sys := { w with out := { w.out with comm := f w.out.comm } }

def setState (state : Status) : Sys → Sys := onComm fun c => { c with state := state }

def note (s : Step) (w : Sys) : Sys := { w with out := { w.out with steps := w.out.steps ++ [s] } }

/-! ## Transports -/

def socketSlot (h : XioHandle) : Slot Sys (SocketIoInstance Unit × Mallocs) :=
  ⟨fun w => (w.out.sockets h, w.mallocs),
    fun x w => { w with mallocs := x.2, out := { w.out with sockets := Function.update w.out.sockets h x.1 } },
    fun _ _ => by simp, fun _ _ _ => by simp, fun _ => by simp⟩

/-- The callbacks that `mqtt_client_connect` gives to `xio_open`, `close_connection` to
    `xio_close` and `sendPacketItem` to `xio_send`. -/
def socketCallbacks (xio : Xio Outside) (app : App Outside) : SocketCallbacks Unit Sys where
  onIoOpenComplete := onOpenComplete xio app
  onBytesReceived := onBytesReceived xio app
  onIoError := onIoError xio app
  onSendComplete _ := sendComplete xio app .ok
  onIoCloseComplete := onConnectionClosed app

/-- A call on a handle that was destroyed is a use after free. -/
def whenLive (h : XioHandle) (call : Sys → Nat × Sys) (w : Sys) : Nat × Sys :=
  if h ∈ w.out.live then call w else (failure, { w with crashed := true })

def takeOpen (w : Sys) : Bool × Sys :=
  (w.out.opens.headD false, { w with out := { w.out with opens := w.out.opens.tail } })

def takeSend (w : Sys) : SendAnswer × Sys :=
  (w.out.sends.headD .again, { w with out := { w.out with sends := w.out.sends.tail } })

def takeDowork (w : Sys) : (List SendAnswer × List RecvAnswer) × Sys :=
  (w.out.doworks.headD ([], []), { w with out := { w.out with doworks := w.out.doworks.tail } })

/-- The sockets, with callbacks that see the transport `xio`. -/
def socketXio (xio : Xio Outside) (app : App Outside) : Xio Outside where
  openIo h := whenLive h fun w => socketioOpen (socketSlot h) (socketCallbacks xio app) (takeOpen w).1 (takeOpen w).2
  close h callback := whenLive h fun w => socketioClose (socketSlot h) (socketCallbacks xio app) callback w
  send h bytes := whenLive h fun w =>
    socketioSend (socketSlot h) (socketCallbacks xio app) bytes (some ()) (takeSend w).1 (takeSend w).2
  dowork h w := (whenLive h (fun w =>
    (0, socketioDowork (socketSlot h) (socketCallbacks xio app) (takeDowork w).1.1 (takeDowork w).1.2 (takeDowork w).2)) w).2

def systemXio (app : App Outside) : Nat → Xio Outside
  | 0 => { socketXio (.inert Outside) app with
      openIo := fun _ w => (failure, w), send := fun _ _ w => (failure, w), dowork := fun _ w => w }
  | n + 1 => socketXio (systemXio app n) app

/-- Allocate blocks until one is refused. -/
def mallocAll : List Nat → Mallocs → Bool × Mallocs
  | [], ms => (true, ms)
  | n :: ns, ms =>
    match malloc n ms with
    | (none, ms) => (false, ms)
    | (some _, ms) => mallocAll ns ms

/-- `xio_create` with `socketio_create`: the io, the instance, its list and the host name. -/
def xioCreate (w : Sys) : Option XioHandle × Sys :=
  let r := mallocAll [8, 56, 4, w.out.comm.host.strlen + 1] w.mallocs
  if r.1 then
    (some w.out.created, { w with mallocs := r.2, out := { w.out with
      created := w.out.created + 1, live := w.out.created :: w.out.live,
      sockets := Function.update w.out.sockets w.out.created (SocketIoInstance.create Unit) } })
  else (none, { w with mallocs := r.2 })

def xioDestroy (h : Option XioHandle) (w : Sys) : Sys :=
  match h with
  | none => w
  | some h =>
    if h ∈ w.out.live then { w with out := { w.out with live := w.out.live.erase h } }
    else { w with crashed := true }

/-! ## Callbacks of the client -/

structure CommCallbacks where
  connected : Sys → Sys
  sub : Sys → Sys
  received : Message → Sys → Sys
  pub : Sys → Sys

def CommCallbacks.inert : CommCallbacks := ⟨id, id, fun _ => id, id⟩

section Callbacks

variable (cbs : CommCallbacks)

def mqttCommOnRecvCallback (msgHandle : Message) (w : Sys) : Sys :=
  if w.out.comm.fnReceivedCallback then cbs.received msgHandle w else w

def mqttCommOnOperationComplete (actionResult : Operation) (w : Sys) : Sys :=
  match actionResult with
  | .connack _ _ =>
    let w := setState .connected (note (.connack w.client.socketConnected) w)
    if w.out.comm.fnConnectedCallback then cbs.connected w else w
  | .subscribeAck _ _ => if w.out.comm.fnSubCallback then cbs.sub w else w
  | .publishComp _ => if w.out.comm.fnPubCallback then cbs.pub w else w
  | .disconnect => setState .disconnected w
  | _ => w

/-- `MQTT_Comm_OnErrorComplete`: every error is listed. -/
def mqttCommOnErrorComplete (_error : EventError) (w : Sys) : Sys := setState .error w

/-- What `MQTT_Comm_Create` registers. It never passes a disconnect callback. -/
def commApp : App Outside where
  operation := mqttCommOnOperationComplete cbs
  message := mqttCommOnRecvCallback cbs
  error := mqttCommOnErrorComplete
  disconnected _ w := w

end Callbacks

/-! ## Creation -/

def Communicator.init (host : CString) (clientId userName password : Option CString) : Communicator :=
  { host := host,
    mqttOptions := { clientId := clientId, willMessage := none, username := userName, password := password,
                     keepAliveInterval := 30, useCleanSession := true, qualityOfServiceValue := .deliverExactlyOnce },
    xioHandle := none, packetId := 0, state := .connected, fnConnectedCallback := false, fnSubCallback := false,
    fnReceivedCallback := false, fnPubCallback := false }

structure Answers where
  mallocs : Mallocs
  ticks : List (Option UInt32)
  opens : List Bool
  sends : List SendAnswer
  doworks : List (List SendAnswer × List RecvAnswer)

/-- `MQTT_Comm_Create`. Without a transport the client is freed and the communicator returned
    all the same. -/
def mqttCommCreate (host : Option CString) (port : Nat) (clientId userName password : Option CString) (a : Answers) :
    Option Sys :=
  match host with
  | none => none
  | some host =>
    if port = 0 then none
    else match malloc 220 a.mallocs with
      | (none, _) => none
      | (some _, ms) =>
        match mqttClientInit true true true ms with
        | (none, _) => none
        | (some client, ms) =>
          let (xioHandle, w) := xioCreate
            { client := client, mallocs := ms, ticks := a.ticks, crashed := false, trace := [],
              out := { comm := .init host clientId userName password, sockets := fun _ => .create Unit, live := [],
                       created := 0, freed := false, opens := a.opens, sends := a.sends, doworks := a.doworks,
                       steps := [], sent := [] } }
          let w := if xioHandle.isNone then { w with out := { w.out with freed := true } } else w
          some (onComm (fun c => { c with xioHandle := xioHandle, state := .disconnected, packetId := 1 }) w)

def mqttCommStartConnection : Sys → Sys := setState .connecting

/-! ## Calls -/

section Calls

variable (xio : Xio Outside)

/-- The `while` of the MQTT_CONNECTING branch, with this many attempts to make; it returns 0
    when one of them was the last. -/
def connectLoop : Nat → Sys → Nat × Sys
  | 0, w => (failure, w)
  | attempts + 1, w =>
    let w := note (.connect w.client.socketConnected) w
    let r := mqttClientConnect xio w.out.comm.xioHandle w.out.comm.mqttOptions w
    if r.1 ≠ 0 then connectLoop attempts r.2 else (0, r.2)

/-- `MQTT_Comm_Process`; 0 when it returns. -/
def mqttCommProcess (app : App Outside) (attempts : Nat) (w : Sys) : Nat × Sys :=
  match w.out.comm.state with
  | .connected => (0, mqttClientDowork xio app w)
  | .error =>
    let w := note (.errorBranch w.client.socketConnected) w
    let w := (xio.xioClose w.out.comm.xioHandle false w).2
    let w := xioDestroy w.out.comm.xioHandle w
    let (xioHandle, w) := xioCreate w
    (0, onComm (fun c => { c with xioHandle := xioHandle, state := .connecting }) w)
  | .connecting =>
    let r := connectLoop xio attempts w
    if r.1 ≠ 0 then r
    else (0, if r.2.out.comm.state = .connecting then setState .connected r.2 else r.2)
  | .disconnected =>
    let w := (xio.xioClose w.out.comm.xioHandle false w).2
    let w := xioDestroy w.out.comm.xioHandle w
    (0, { w with out := { w.out with freed := true } })

/-- The packet that acknowledges a PUBLISH; one with QoS 0 carries no identifier. -/
def publishAckType : QosValue → Option ControlPacketType
  | .deliverAtMostOnce => none
  | .deliverAtLeastOnce => some .puback
  | _ => some .pubcomp

def noteSent (ack : Option ControlPacketType) (packetId : UInt16) (w : Sys) : Sys :=
  match ack with
  | none => w
  | some ack => { w with out := { w.out with sent := w.out.sent ++ [⟨ack, packetId⟩] } }

def mqttCommPublish (topic : Option CString) (message : Option (List UInt8)) (qos : UInt8) (w : Sys) : Int × Sys :=
  if w.out.comm.state ≠ .connected then (-1, w)
  else match topic, message with
    | some topic, some message =>
      match mqttmessageCreate w.out.comm.packetId (some topic) (QosValue.ofByte qos) message message.length w.mallocs with
      | (.null, ms) => (-1, { w with mallocs := ms })
      | (.nullWrite, ms) => (-1, { w with mallocs := ms, crashed := true })
      | (.created msg, ms) =>
        let r := mqttClientPublish xio msg { w with mallocs := ms }
        if r.1 ≠ 0 then (-1, setState .error r.2)
        else (0, noteSent (publishAckType msg.qosInfo) msg.packetId r.2)
    | _, _ => (-1, w)

def mqttCommSubcribe (topic : CString) (qos : QosValue) (w : Sys) : Int × Sys :=
  let packetId := w.out.comm.packetId
  let w := onComm (fun c => { c with packetId := c.packetId + 1 }) w
  let r := mqttClientSubscribe xio packetId [⟨topic, qos⟩] w
  if r.1 ≠ 0 then (-1, setState .error r.2)
  else (0, noteSent (some .suback) packetId r.2)

end Calls

end UMqtt.Comm

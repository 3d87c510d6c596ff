/-
  UMqtt.Client.Basic — the MQTT client (uMQTT/src/mqtt_client.c): `MQTT_CLIENT`, its
  surroundings, and what it does to its connection.

  The client runs in a `World`: itself, the answers the allocator and the tick counter
  will give, and `out`, whatever the transports and the application keep. It calls out
  through two records of functions on that world, `Xio` (the `xio_*` functions, NULL
  handles apart) and `App` (the callbacks it was given); both may call back into it.
  `trace` is a ghost: every packet the codec delivered, every callback invoked and every
  buffer passed to `xio_send`, in order.
-/

import UMqtt.Client.Message
import UMqtt.Io.SocketIo

namespace UMqtt.Client

open UMqtt.Lib UMqtt.Crt UMqtt.Codec UMqtt.Io

/-! ## Events -/

/-- `MQTT_CLIENT_EVENT_RESULT`, with what `msgInfo` points to. -/
inductive Operation where
  | connack (isSessionPresent : Bool) (returnCode : UInt8)
  | publishAck (packetId : UInt16)
  | publishRecv (packetId : UInt16)
  | publishRel (packetId : UInt16)
  | publishComp (packetId : UInt16)
  | subscribeAck (packetId : UInt16) (qosReturn : List QosValue)
  | unsubscribeAck (packetId : UInt16)
  | pingResponse
  | disconnect
  deriving DecidableEq, Repr

inductive EventError where
  | connectionError
  | parseError
  | memoryError
  | communicationError
  | noPingResponse
  | unknownError
  deriving DecidableEq, Repr

inductive Event where
  | packet (p : Packet)
  | operation (o : Operation)
  | message (m : Message)
  | error (e : EventError)
  | disconnected (callback : Nat)
  | send (xio : Option XioHandle) (bytes : List UInt8)
  deriving DecidableEq, Repr

/-! ## The client and its world -/

/-- `MQTT_CLIENT`. Of a callback only whether it is NULL is kept, and which one the
    disconnect callback is. -/
structure MqttClient where
  xioHandle : Option XioHandle
  codec : CodecInstance
  packetState : ControlPacketType
  packetSendTimeMs : UInt32
  fnOperationCallback : Bool
  fnMessageRecv : Bool
  fnOnErrorCallBack : Bool
  disconnectCb : Option Nat
  qosValue : QosValue
  keepAliveInterval : UInt16
  mqttOptions : MqttClientOptions
  clientConnected : Bool
  socketConnected : Bool
  rawBytesTrace : Bool
  timeSincePing : UInt32
  maxPingRespTime : UInt16
  deriving DecidableEq, Repr

/-- `ticks` answers the coming `tickcounter_get_current_ms`, `none` is a failure; past its
    end the reading is 0. `crashed`: a write through NULL has happened. -/
structure World (σ : Type) where
  client : MqttClient
  mallocs : Mallocs
  ticks : List (Option UInt32)
  crashed : Bool
  trace : List Event
  out : σ

namespace World

variable {σ : Type}

def log (e : Event) (w : World σ) : World σ := { w with trace := w.trace ++ [e] }

def codecSlot : Slot (World σ) (CodecInstance × Mallocs) :=
  ⟨fun w => (w.client.codec, w.mallocs), fun x w => { w with client := { w.client with codec := x.1 }, mallocs := x.2 },
    fun _ _ => rfl, fun _ _ _ => rfl, fun _ => rfl⟩

def currentMs (w : World σ) : Option UInt32 × World σ :=
  match w.ticks with
  | [] => (some 0, w)
  | t :: ticks => (t, { w with ticks := ticks })

end World

/-- The transports. `openIo` is given the client's callbacks; `close` its
    `on_connection_closed`, or NULL; `send` its `sendComplete`. -/
structure Xio (σ : Type) where
  openIo : XioHandle → World σ → Nat × World σ
  close : XioHandle → Bool → World σ → Nat × World σ
  send : XioHandle → List UInt8 → World σ → Nat × World σ
  dowork : XioHandle → World σ → World σ

namespace Xio

variable {σ : Type} (xio : Xio σ)

def xioClose (h : Option XioHandle) (callback : Bool) (w : World σ) : Nat × World σ :=
  match h with
  | none => (failure, w)
  | some h => xio.close h callback w

def xioSend (h : Option XioHandle) (bytes : List UInt8) (w : World σ) : Nat × World σ :=
  match h with
  | none => (failure, w)
  | some h => xio.send h bytes w

def xioDowork (h : Option XioHandle) (w : World σ) : World σ :=
  match h with
  | none => w
  | some h => xio.dowork h w

end Xio

/-- The application's callbacks, where they are not NULL. -/
structure App (σ : Type) where
  operation : Operation → World σ → World σ
  message : Message → World σ → World σ
  error : EventError → World σ → World σ
  disconnected : Nat → World σ → World σ

namespace App

variable {σ : Type} (app : App σ)

def callOperation (o : Operation) (w : World σ) : World σ := app.operation o (w.log (.operation o))

def callMessage (m : Message) (w : World σ) : World σ := app.message m (w.log (.message m))

def callError (e : EventError) (w : World σ) : World σ :=
  if w.client.fnOnErrorCallBack then app.error e (w.log (.error e)) else w

def callDisconnected (w : World σ) : World σ :=
  match w.client.disconnectCb with
  | none => w
  | some cb => app.disconnected cb (w.log (.disconnected cb))

end App

def Xio.inert (σ : Type) : Xio σ := ⟨fun _ w => (0, w), fun _ _ w => (0, w), fun _ _ w => (0, w), fun _ w => w⟩

def App.inert (σ : Type) : App σ := ⟨fun _ w => w, fun _ w => w, fun _ w => w, fun _ w => w⟩

/-! ## Closing -/

section Connection

variable {σ : Type} (xio : Xio σ) (app : App σ)

def onConnectionClosed (w : World σ) : World σ :=
  app.callDisconnected { w with client := { w.client with socketConnected := false, clientConnected := false } }

/-- The `do ... while` of `close_connection`, with this many retries left. -/
def closeLoop : Nat → World σ → World σ
  | 0, w => w
  | retries + 1, w =>
    let w := xio.xioDowork w.client.xioHandle w
    if w.client.clientConnected then closeLoop retries w else w

def maxCloseRetries : Nat := 2

def closeConnection (w : World σ) : World σ :=
  if w.client.socketConnected then
    let w := (xio.xioClose w.client.xioHandle true w).2
    let w := if w.client.disconnectCb.isNone then closeLoop xio maxCloseRetries w else w
    { w with client := { w.client with xioHandle := none } }
  else app.callDisconnected w

def setErrorCallback (errorType : EventError) (w : World σ) : World σ :=
  closeConnection xio app (app.callError errorType w)

/-! ## Sending -/

def sendComplete (sendResult : SendResult) (w : World σ) : World σ :=
  match sendResult with
  | .ok =>
    if w.client.packetState = .disconnect then
      let w := if w.client.fnOperationCallback then app.callOperation .disconnect w else w
      closeConnection xio app w
    else w
  | .error => setErrorCallback xio app .communicationError w
  | .cancelled => w

def sendPacketItem (data : List UInt8) (w : World σ) : Nat × World σ :=
  match w.currentMs with
  | (none, w) => (failure, w)
  | (some ms, w) =>
    let w := { w with client := { w.client with packetSendTimeMs := ms } }
    let w := w.log (.send w.client.xioHandle data)
    let r := xio.xioSend w.client.xioHandle data w
    (if r.1 = 0 then 0 else failure, r.2)

/-! ## Opening -/

def onOpenComplete (openResult : OpenResult) (w : World σ) : World σ :=
  if openResult = .ok ∧ w.client.socketConnected = false then
    let w := { w with client := { w.client with packetState := .connect, socketConnected := true } }
    match mqttCodecConnect w.client.mqttOptions w.mallocs with
    | (none, ms) => { w with mallocs := ms }
    | (some connPacket, ms) => (sendPacketItem xio connPacket.bytes { w with mallocs := ms }).2
  else
    let w := if w.client.socketConnected = false then app.callError .connectionError w else w
    closeConnection xio app w

def onIoError (w : World σ) : World σ :=
  if w.client.fnOperationCallback then setErrorCallback xio app .connectionError w else w

end Connection

end UMqtt.Client

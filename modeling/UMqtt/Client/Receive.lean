/-
  UMqtt.Client.Receive — inbound packets (`recvCompleteCallback` and `onBytesReceived` of
  uMQTT/src/mqtt_client.c).

  The handler is split where the source first calls out: `decode` is everything it reads
  of the packet, with a log of every access to the body and every length subtraction;
  `act` is what it then does with the verdict.
-/

import UMqtt.Client.Basic

namespace UMqtt.Client

open UMqtt.Lib UMqtt.Crt UMqtt.Codec UMqtt.Io

/-! ## Reading a body -/

/-- What the handler does with the body's length and bytes. -/
inductive Access where
  | read (index : Nat)
  | copy (index size : Nat)
  | sub (a b : Nat)
  deriving DecidableEq, Repr

/-- Every byte it touches is one of the first `len`, and no subtraction goes below zero. -/
def Access.Ok (len : Nat) : Access → Prop
  | .read index => index < len
  | .copy index size => size = 0 ∨ index + size ≤ len
  | .sub a b => b ≤ a

instance (len : Nat) : DecidablePred (Access.Ok len) := fun a => by
  cases a <;> unfold Access.Ok <;> infer_instance

/-- The body, the handler's `iterator` as an offset into it, and the accesses so far.
    A byte read behind the body is arbitrary; here it is 0. -/
structure Reader where
  data : List UInt8
  iterator : Nat
  accesses : List Access

/-- `a - b` of type `size_t`. -/
def subSize (a b : Nat) : Nat := if b ≤ a then a - b else a + 2 ^ 32 - b

namespace Reader

def note (a : Access) (r : Reader) : Reader := { r with accesses := r.accesses ++ [a] }

def peek (r : Reader) (offset : Nat) : UInt8 := (r.data[r.iterator + offset]?).getD 0

def byteutilReadByte (r : Reader) : UInt8 × Reader :=
  (r.peek 0, { r.note (.read r.iterator) with iterator := r.iterator + 1 })

def byteutilReadUint16 (r : Reader) (len : Nat) : UInt16 × Reader :=
  if 2 ≤ len then
    (UInt16.ofNat (256 * (r.peek 0).toNat + (r.peek 1).toNat),
      { (r.note (.read r.iterator)).note (.read (r.iterator + 1)) with iterator := r.iterator + 2 })
  else (0, r)

def remaining (r : Reader) (len : Nat) : Nat × Reader := (subSize len r.iterator, r.note (.sub len r.iterator))

def memcpy (r : Reader) (size : Nat) : List UInt8 × Reader :=
  ((r.data.drop r.iterator).take size, r.note (.copy r.iterator size))

def byteutilReadUTF (r : Reader) (byteLen : Nat) (ms : Mallocs) : Option CString × Reader × Mallocs :=
  let (len, r) := r.byteutilReadUint16 byteLen
  if 0 < len.toNat then
    match malloc (len.toNat + 1) ms with
    | (none, ms) => (none, r, ms)
    | (some _, ms) =>
      let (bytes, r) := r.memcpy len.toNat
      (some (CString.ofBlock bytes), { r with iterator := r.iterator + len.toNat }, ms)
  else (none, r, ms)

/-- The `while (remainLen > 0)` of the SUBACK branch. -/
def readReturnCodes : Nat → Reader → List QosValue × Reader
  | 0, r => ([], r)
  | remainLen + 1, r =>
    let (code, r) := r.byteutilReadByte
    let (codes, r) := readReturnCodes remainLen r
    (QosValue.ofByte code :: codes, r)

end Reader

/-! ## Decoding -/

inductive Verdict where
  | ignored
  | connack (isSessionPresent : Bool) (returnCode : UInt8)
  | publish (m : Message)
  | publishAck (packet : ControlPacketType) (packetId : UInt16)
  | subscribeAck (packetId : UInt16) (qosReturn : List QosValue)
  | unsubscribeAck (packetId : UInt16)
  | pingresp
  | error (e : EventError)
  | nullWrite
  deriving DecidableEq, Repr

structure Decoded where
  verdict : Verdict
  accesses : List Access
  mallocs : Mallocs

def decodeConnack (r : Reader) (ms : Mallocs) : Decoded :=
  let (session, r) := r.byteutilReadByte
  let (returnCode, r) := r.byteutilReadByte
  ⟨.connack (session == 1) returnCode, r.accesses, ms⟩

def isDuplicateFlag (flags : UInt8) : Bool := flags &&& 0x8 != 0

def isRetainFlag (flags : UInt8) : Bool := flags &&& 0x1 != 0

def qosFlag (flags : UInt8) : QosValue :=
  if flags = 0 then .deliverAtMostOnce
  else if flags &&& 0x2 ≠ 0 then .deliverAtLeastOnce else .deliverExactlyOnce

/-- The packet id of a PUBLISH, read unless the QoS is 0. -/
def readPacketId (qosValue : QosValue) (r : Reader) (len : Nat) : UInt16 × Reader :=
  let (length, r) := r.remaining len
  if qosValue ≠ .deliverAtMostOnce then r.byteutilReadUint16 length else (0, r)

def decodePublish (flags : UInt8) (r : Reader) (len : Nat) (ms : Mallocs) : Decoded :=
  let qosValue := qosFlag flags
  let (length, r) := r.remaining len
  match r.byteutilReadUTF length ms with
  | (none, r, ms) => ⟨.error .parseError, r.accesses, ms⟩
  | (some topicName, r, ms) =>
    let (packetId, r) := readPacketId qosValue r len
    let (length, r) := r.remaining len
    let (payload, r) := r.memcpy length
    match mqttmessageCreate packetId (some topicName) qosValue payload length ms with
    | (.null, ms) => ⟨.error .memoryError, r.accesses, ms⟩
    | (.nullWrite, ms) => ⟨.nullWrite, r.accesses, ms⟩
    | (.created m, ms) =>
      ⟨.publish { m with isDuplicateMsg := isDuplicateFlag flags, isMessageRetained := isRetainFlag flags },
        r.accesses, ms⟩

def decodePublishAck (packet : ControlPacketType) (r : Reader) (len : Nat) (ms : Mallocs) : Decoded :=
  let (packetId, r) := r.byteutilReadUint16 len
  ⟨.publishAck packet packetId, r.accesses, ms⟩

/-- `sizeof(QOS_VALUE)` is 1. -/
def decodeSuback (r : Reader) (len : Nat) (ms : Mallocs) : Decoded :=
  let (packetId, r) := r.byteutilReadUint16 len
  let remainLen := subSize len 2
  let r := r.note (.sub len 2)
  match malloc remainLen ms with
  | (none, ms) => ⟨.error .memoryError, r.accesses, ms⟩
  | (some _, ms) =>
    let (codes, r) := Reader.readReturnCodes remainLen r
    ⟨.subscribeAck packetId codes, r.accesses, ms⟩

def decodeUnsuback (r : Reader) (len : Nat) (ms : Mallocs) : Decoded :=
  let (packetId, r) := r.byteutilReadUint16 len
  ⟨.unsubscribeAck packetId, r.accesses, ms⟩

def rawTraceAccesses (client : MqttClient) (data : Option (List UInt8)) (len : Nat) : List Access :=
  if client.rawBytesTrace ∧ data.isSome ∧ 0 < len then [.copy 0 len] else []

/-- The part of `recvCompleteCallback` in front of its first call. -/
def decode (client : MqttClient) (p : Packet) (ms : Mallocs) : Decoded :=
  if p.headerData.isNone ∧ p.packet ≠ .pingresp then ⟨.ignored, [], ms⟩
  else
    let len := Buffer.length p.headerData
    let iterator := Buffer.uChar p.headerData
    let r : Reader := ⟨iterator.getD [], 0, rawTraceAccesses client iterator len⟩
    if (iterator.isNone ∨ len = 0) ∧ p.packet ≠ .pingresp then ⟨.ignored, r.accesses, ms⟩
    else match p.packet with
    | .connack => if client.fnOperationCallback then decodeConnack r ms else ⟨.ignored, r.accesses, ms⟩
    | .publish => if client.fnMessageRecv then decodePublish p.flags r len ms else ⟨.ignored, r.accesses, ms⟩
    | .puback | .pubrec | .pubrel | .pubcomp =>
      if client.fnOperationCallback then decodePublishAck p.packet r len ms else ⟨.ignored, r.accesses, ms⟩
    | .suback => if client.fnOperationCallback then decodeSuback r len ms else ⟨.ignored, r.accesses, ms⟩
    | .unsuback => if client.fnOperationCallback then decodeUnsuback r len ms else ⟨.ignored, r.accesses, ms⟩
    | .pingresp => ⟨.pingresp, r.accesses, ms⟩
    | _ => ⟨.ignored, r.accesses, ms⟩

/-! ## Acting -/

section Act

variable {σ : Type} (xio : Xio σ) (app : App σ)

def sendReply (reply : UInt16 → Mallocs → Option Buffer × Mallocs) (packetId : UInt16) (w : World σ) : World σ :=
  match reply packetId w.mallocs with
  | (none, ms) => setErrorCallback xio app .memoryError { w with mallocs := ms }
  | (some pubRel, ms) => (sendPacketItem xio pubRel.bytes { w with mallocs := ms }).2

/-- The `action` of the branch that PUBACK, PUBREC, PUBREL and PUBCOMP share. -/
def publishAction (packet : ControlPacketType) (packetId : UInt16) : Operation :=
  match packet with
  | .puback => .publishAck packetId
  | .pubrec => .publishRecv packetId
  | .pubrel => .publishRel packetId
  | _ => .publishComp packetId

def act (verdict : Verdict) (w : World σ) : World σ :=
  match verdict with
  | .ignored => w
  | .connack isSessionPresent returnCode =>
    let w := app.callOperation (.connack isSessionPresent returnCode) w
    if returnCode = 0 then { w with client := { w.client with clientConnected := true } } else w
  | .publish m =>
    let w := app.callMessage m w
    match m.qosInfo with
    | .deliverExactlyOnce => sendReply xio app mqttCodecPublishReceived m.packetId w
    | .deliverAtLeastOnce => sendReply xio app mqttCodecPublishAck m.packetId w
    | _ => w
  | .publishAck packet packetId =>
    let w := app.callOperation (publishAction packet packetId) w
    match packet with
    | .pubrec => sendReply xio app mqttCodecPublishRelease packetId w
    | .pubrel => sendReply xio app mqttCodecPublishComplete packetId w
    | _ => w
  | .subscribeAck packetId qosReturn => app.callOperation (.subscribeAck packetId qosReturn) w
  | .unsubscribeAck packetId => app.callOperation (.unsubscribeAck packetId) w
  | .pingresp =>
    let w := { w with client := { w.client with timeSincePing := 0 } }
    if w.client.fnOperationCallback then app.callOperation .pingResponse w else w
  | .error e => setErrorCallback xio app e w
  | .nullWrite => { w with crashed := true }

def recvCompleteCallback (p : Packet) (w : World σ) : World σ :=
  let w := w.log (.packet p)
  let d := decode w.client p w.mallocs
  act xio app d.verdict { w with mallocs := d.mallocs }

def onBytesReceived (buffer : List UInt8) (w : World σ) : World σ :=
  let r := bytesReceived World.codecSlot (recvCompleteCallback xio app) buffer w
  if r.1 ≠ 0 then setErrorCallback xio app .parseError r.2 else r.2

end Act

end UMqtt.Client

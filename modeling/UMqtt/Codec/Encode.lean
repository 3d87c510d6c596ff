/-
  UMqtt.Codec.Encode — the sending half of the MQTT codec (uMQTT/src/mqtt_codec.c): the
  `byteutil_write*` cursors, the `construct*` helpers and the `mqtt_codec_*` functions that
  return a packet as a `BUFFER`. NULL is `none`.

  The packets themselves are stated at the end: with the allocations succeeding, a PUBLISH
  is its type byte, its length and its body (`mqttCodecPublish_succeed`), and a reply is
  its four bytes (`constructPublishReply_succeed`).
-/

import UMqtt.Lib.Base128
import UMqtt.Crt.Strings
import UMqtt.Codec.Decode

namespace UMqtt.Codec

open UMqtt.Lib UMqtt.Crt

/-! ## Constants and options -/

/-- `QOS_VALUE`; `other` is a value that is no enumerator, which the casts from a byte make. -/
inductive QosValue where
  | deliverAtMostOnce
  | deliverAtLeastOnce
  | deliverExactlyOnce
  | deliverFailure
  | other (value : UInt8)
  deriving DecidableEq, Repr

def QosValue.ofByte (b : UInt8) : QosValue :=
  if b = 0 then .deliverAtMostOnce else if b = 1 then .deliverAtLeastOnce
  else if b = 2 then .deliverExactlyOnce else if b = 0x80 then .deliverFailure else .other b

def QosValue.value : QosValue → UInt8
  | .deliverAtMostOnce => 0
  | .deliverAtLeastOnce => 1
  | .deliverExactlyOnce => 2
  | .deliverFailure => 0x80
  | .other b => b

/-- `MQTT_CLIENT_OPTIONS`; a NULL string is `none`. `log_trace`, which nothing copies or reads, is
    left out. -/
structure MqttClientOptions where
  clientId : Option CString := none
  willTopic : Option CString := none
  willMessage : Option CString := none
  username : Option CString := none
  password : Option CString := none
  keepAliveInterval : UInt16 := 0
  messageRetain : Bool := false
  useCleanSession : Bool := false
  qualityOfServiceValue : QosValue := .deliverAtMostOnce
  deriving DecidableEq, Repr

structure SubscribePayload where
  subscribeTopic : CString
  qosReturn : QosValue
  deriving DecidableEq, Repr

def ushrtMax : Nat := 65535

def maxSendSize : Nat := 0xFFFFFF7F

/-! ## Cursors -/

/-- A buffer and the offset of the `iterator` into it. -/
structure Cursor where
  buffer : Buffer
  iterator : Nat

namespace Cursor

def memcpy (c : Cursor) (bs : List UInt8) : Cursor := ⟨c.buffer.write c.iterator bs, c.iterator + bs.length⟩

def byteutilWriteByte (c : Cursor) (value : UInt8) : Cursor := c.memcpy [value]

def byteutilWriteInt (c : Cursor) (value : UInt16) : Cursor :=
  (c.byteutilWriteByte (UInt8.ofNat (value.toNat / 256))).byteutilWriteByte (UInt8.ofNat (value.toNat % 256))

/-- `stringData` has the length `len` that is written in front of it. -/
def byteutilWriteUTF (c : Cursor) (stringData : List UInt8) : Cursor :=
  (c.byteutilWriteInt (UInt16.ofNat stringData.length)).memcpy stringData

end Cursor

/-! ## The fixed header -/

def remainSize (packetLen : Nat) : List UInt8 :=
  let encode := UInt8.ofNat (packetLen % 128)
  if 0 < packetLen / 128 then (encode ||| 0x80) :: remainSize (packetLen / 128) else [encode]
termination_by packetLen
decreasing_by omega

/-- A fifth length byte is written behind `remainSize[4]`. -/
def constructFixedHeader (ctrlPacket : Buffer) (packetType : ControlPacketType) (flags : UInt8) (ms : Mallocs) :
    Nat × Buffer × Mallocs :=
  let bytes := remainSize (Buffer.length (some ctrlPacket))
  let ctrlPacket := if 4 < bytes.length then { ctrlPacket with overflow := true } else ctrlPacket
  match Buffer.new ms with
  | (none, ms) => (failure, ctrlPacket, ms)
  | (some fixedHeader, ms) =>
    match fixedHeader.preBuild (bytes.length + 1) ms with
    | (0, fixedHeader, ms) =>
      let c := (Cursor.mk fixedHeader 0).byteutilWriteByte (packetType.value ||| flags)
      ctrlPacket.prepend (c.memcpy bytes).buffer ms
    | (_, _, ms) => (failure, ctrlPacket, ms)

/-! ## PUBLISH -/

structure PublishHeaderInfo where
  topicName : CString
  packetId : UInt16
  qualityOfServiceValue : QosValue

def constructPublishVariableHeader (ctrlPacket : Buffer) (publishHeader : PublishHeaderInfo) (ms : Mallocs) :
    Nat × Buffer × Mallocs :=
  let currLen := Buffer.length (some ctrlPacket)
  let topicLen := publishHeader.topicName.strlen
  let spaceLen := 2
  let idLen := if publishHeader.qualityOfServiceValue ≠ .deliverAtMostOnce then 2 else 0
  if ushrtMax < topicLen then (failure, ctrlPacket, ms)
  else match ctrlPacket.enlarge (topicLen + idLen + spaceLen) ms with
    | (0, ctrlPacket, ms) =>
      if (Buffer.uChar (some ctrlPacket)).isNone then (failure, ctrlPacket, ms)
      else
        let c := (Cursor.mk ctrlPacket currLen).byteutilWriteUTF publishHeader.topicName.bytes
        (0, (if 0 < idLen then c.byteutilWriteInt publishHeader.packetId else c).buffer, ms)
    | (_, ctrlPacket, ms) => (failure, ctrlPacket, ms)

/-- The flag nibble that `mqtt_codec_publish` puts into the type byte. -/
def publishFlags (qosValue : QosValue) (duplicateMsg serverRetain : Bool) : UInt8 :=
  (if duplicateMsg then 0x8 else 0) ||| (if serverRetain then 0x1 else 0) |||
    (if qosValue ≠ .deliverAtMostOnce then if qosValue = .deliverAtLeastOnce then 0x2 else 0x4 else 0)

/-- The payload of a PUBLISH: `BUFFER_enlarge` and `memcpy`, when there is any. -/
def appendPayload (ctrlPacket : Buffer) (msgBuffer : List UInt8) (ms : Mallocs) : Nat × Buffer × Mallocs :=
  let payloadOffset := Buffer.length (some ctrlPacket)
  if 0 < msgBuffer.length then
    match ctrlPacket.enlarge msgBuffer.length ms with
    | (0, ctrlPacket, ms) =>
      if (Buffer.uChar (some ctrlPacket)).isNone then (failure, ctrlPacket, ms)
      else (0, ((Cursor.mk ctrlPacket payloadOffset).memcpy msgBuffer).buffer, ms)
    | (_, ctrlPacket, ms) => (failure, ctrlPacket, ms)
  else (0, ctrlPacket, ms)

def finish (ctrlPacket : Buffer) (packetType : ControlPacketType) (flags : UInt8) (ms : Mallocs) :
    Option Buffer × Mallocs :=
  let r := constructFixedHeader ctrlPacket packetType flags ms
  (if r.1 = 0 then some r.2.1 else none, r.2.2)

def mqttCodecPublish (qosValue : QosValue) (duplicateMsg serverRetain : Bool) (packetId : UInt16)
    (topicName : Option CString) (msgBuffer : List UInt8) (ms : Mallocs) : Option Buffer × Mallocs :=
  match topicName with
  | none => (none, ms)
  | some topicName =>
    if maxSendSize < msgBuffer.length then (none, ms)
    else match Buffer.new ms with
      | (none, ms) => (none, ms)
      | (some result, ms) =>
        match constructPublishVariableHeader result ⟨topicName, packetId, qosValue⟩ ms with
        | (0, result, ms) =>
          match appendPayload result msgBuffer ms with
          | (0, result, ms) => finish result .publish (publishFlags qosValue duplicateMsg serverRetain) ms
          | (_, _, ms) => (none, ms)
        | (_, _, ms) => (none, ms)

/-! ## Replies -/

def constructPublishReply (type : ControlPacketType) (flags : UInt8) (packetId : UInt16) (ms : Mallocs) :
    Option Buffer × Mallocs :=
  match Buffer.new ms with
  | (none, ms) => (none, ms)
  | (some result, ms) =>
    match result.preBuild 4 ms with
    | (0, result, ms) =>
      if (Buffer.uChar (some result)).isNone then (none, ms)
      else
        let c := ((Cursor.mk result 0).byteutilWriteByte (type.value ||| flags)).byteutilWriteByte 2
        (some (c.byteutilWriteInt packetId).buffer, ms)
    | (_, _, ms) => (none, ms)

def mqttCodecPublishAck (packetId : UInt16) := constructPublishReply .puback 0 packetId

def mqttCodecPublishReceived (packetId : UInt16) := constructPublishReply .pubrec 0 packetId

def mqttCodecPublishRelease (packetId : UInt16) := constructPublishReply .pubrel 2 packetId

def mqttCodecPublishComplete (packetId : UInt16) := constructPublishReply .pubcomp 0 packetId

/-! ## PINGREQ and DISCONNECT -/

def constructHeaderOnly (type : ControlPacketType) (ms : Mallocs) : Option Buffer × Mallocs :=
  match Buffer.new ms with
  | (none, ms) => (none, ms)
  | (some result, ms) =>
    match result.enlarge 2 ms with
    | (0, result, ms) =>
      if (Buffer.uChar (some result)).isNone then (none, ms)
      else (some (((Cursor.mk result 0).byteutilWriteByte type.value).byteutilWriteByte 0).buffer, ms)
    | (_, _, ms) => (none, ms)

def mqttCodecPing := constructHeaderOnly .pingreq

def mqttCodecDisconnect := constructHeaderOnly .disconnect

/-! ## SUBSCRIBE and UNSUBSCRIBE -/

def constructSubscibeTypeVariableHeader (ctrlPacket : Buffer) (packetId : UInt16) (ms : Mallocs) :
    Nat × Buffer × Mallocs :=
  match ctrlPacket.enlarge 2 ms with
  | (0, ctrlPacket, ms) =>
    if (Buffer.uChar (some ctrlPacket)).isNone then (failure, ctrlPacket, ms)
    else (0, ((Cursor.mk ctrlPacket 0).byteutilWriteInt packetId).buffer, ms)
  | (_, ctrlPacket, ms) => (failure, ctrlPacket, ms)

/-- The loop of `addListItemsToSubscribePacket` and `addListItemsToUnsubscribePacket`: each
    entry is a topic and the bytes behind it. -/
def addListItems : List (CString × List UInt8) → Buffer → Mallocs → Nat × Buffer × Mallocs
  | [], ctrlPacket, ms => (0, ctrlPacket, ms)
  | (topic, tail) :: payloadList, ctrlPacket, ms =>
    let offsetLen := Buffer.length (some ctrlPacket)
    if ushrtMax < topic.strlen then (failure, ctrlPacket, ms)
    else match ctrlPacket.enlarge (topic.strlen + 2 + tail.length) ms with
      | (0, ctrlPacket, ms) =>
        let c := (Cursor.mk ctrlPacket offsetLen).byteutilWriteUTF topic.bytes
        addListItems payloadList (c.memcpy tail).buffer ms
      | (_, ctrlPacket, ms) => (failure, ctrlPacket, ms)

def addListItemsToSubscribePacket (ctrlPacket : Buffer) (payloadList : List SubscribePayload) (ms : Mallocs) :=
  addListItems (payloadList.map fun p => (p.subscribeTopic, [p.qosReturn.value])) ctrlPacket ms

def addListItemsToUnsubscribePacket (ctrlPacket : Buffer) (payloadList : List CString) (ms : Mallocs) :=
  addListItems (payloadList.map fun t => (t, [])) ctrlPacket ms

/-- The body that `mqtt_codec_subscribe` and `mqtt_codec_unsubscribe` share. -/
def constructTopicPacket (type : ControlPacketType) (packetId : UInt16)
    (addItems : Buffer → Mallocs → Nat × Buffer × Mallocs) (ms : Mallocs) : Option Buffer × Mallocs :=
  match Buffer.new ms with
  | (none, ms) => (none, ms)
  | (some result, ms) =>
    match constructSubscibeTypeVariableHeader result packetId ms with
    | (0, result, ms) =>
      match addItems result ms with
      | (0, result, ms) => finish result type 0x2 ms
      | (_, _, ms) => (none, ms)
    | (_, _, ms) => (none, ms)

def mqttCodecSubscribe (packetId : UInt16) (subscribeList : List SubscribePayload) (ms : Mallocs) :
    Option Buffer × Mallocs :=
  if subscribeList.length = 0 then (none, ms)
  else constructTopicPacket .subscribe packetId (fun b => addListItemsToSubscribePacket b subscribeList) ms

def mqttCodecUnsubscribe (packetId : UInt16) (unsubscribeList : List CString) (ms : Mallocs) :
    Option Buffer × Mallocs :=
  if unsubscribeList.length = 0 then (none, ms)
  else constructTopicPacket .unsubscribe packetId (fun b => addListItemsToUnsubscribePacket b unsubscribeList) ms

/-! ## CONNECT -/

def constructConnectVariableHeader (ctrlPacket : Buffer) (mqttOptions : MqttClientOptions) (ms : Mallocs) :
    Nat × Buffer × Mallocs :=
  match ctrlPacket.enlarge 10 ms with
  | (0, ctrlPacket, ms) =>
    if (Buffer.uChar (some ctrlPacket)).isNone then (failure, ctrlPacket, ms)
    else
      -- "MQTT"
      let c := (Cursor.mk ctrlPacket 0).byteutilWriteUTF [0x4d, 0x51, 0x54, 0x54]
      let c := (c.byteutilWriteByte 4).byteutilWriteByte 0
      (0, (c.byteutilWriteInt mqttOptions.keepAliveInterval).buffer, ms)
  | (_, ctrlPacket, ms) => (failure, ctrlPacket, ms)

def orFlag (c : Cursor) (flag : UInt8) : Cursor :=
  let old := ((c.buffer.buffer.getD [])[7]?).getD 0
  { c with buffer := c.buffer.write 7 [old ||| flag] }

def optionLen (s : Option CString) : Nat := (s.map CString.strlen).getD 0

def optionSpace (s : Option CString) : Nat := if s.isSome then 2 else 0

def optionBytes (s : Option CString) : List UInt8 := (s.map CString.bytes).getD []

def constructConnPayload (ctrlPacket : Buffer) (mqttOptions : MqttClientOptions) (ms : Mallocs) :
    Nat × Buffer × Mallocs :=
  let clientLen := optionLen mqttOptions.clientId
  let usernameLen := optionLen mqttOptions.username
  let passwordLen := optionLen mqttOptions.password
  let willMessageLen := optionLen mqttOptions.willMessage
  let willTopicLen := optionLen mqttOptions.willTopic
  let spaceLen := optionSpace mqttOptions.clientId + optionSpace mqttOptions.username +
    optionSpace mqttOptions.password + optionSpace mqttOptions.willMessage + optionSpace mqttOptions.willTopic
  let currLen := Buffer.length (some ctrlPacket)
  let totalLen := clientLen + usernameLen + passwordLen + willMessageLen + willTopicLen + spaceLen
  if ushrtMax < clientLen then (failure, ctrlPacket, ms)
  else if usernameLen = 0 ∧ 0 < passwordLen then (failure, ctrlPacket, ms)
  else if (0 < willMessageLen ∧ willTopicLen = 0) ∨ (0 < willTopicLen ∧ willMessageLen = 0) then
    (failure, ctrlPacket, ms)
  else match ctrlPacket.enlarge totalLen ms with
    | (0, ctrlPacket, ms) =>
      let c := (Cursor.mk ctrlPacket currLen).byteutilWriteUTF (optionBytes mqttOptions.clientId)
      if ushrtMax < willMessageLen ∨ ushrtMax < willTopicLen ∨ ushrtMax < usernameLen ∨ ushrtMax < passwordLen then
        (failure, c.buffer, ms)
      else
        let c :=
          if 0 < willMessageLen ∧ 0 < willTopicLen then
            let c := (orFlag c 0x04).byteutilWriteUTF (optionBytes mqttOptions.willTopic)
            let c := orFlag c (mqttOptions.qualityOfServiceValue.value <<< 3)
            let c := if mqttOptions.messageRetain then orFlag c 0x20 else c
            c.byteutilWriteUTF (optionBytes mqttOptions.willMessage)
          else c
        let c :=
          if 0 < usernameLen then (orFlag c 0x80).byteutilWriteUTF (optionBytes mqttOptions.username) else c
        let c :=
          if 0 < passwordLen then (orFlag c 0x40).byteutilWriteUTF (optionBytes mqttOptions.password) else c
        (0, (if mqttOptions.useCleanSession then orFlag c 0x02 else c).buffer, ms)
    | (_, ctrlPacket, ms) => (failure, ctrlPacket, ms)

def mqttCodecConnect (mqttOptions : MqttClientOptions) (ms : Mallocs) : Option Buffer × Mallocs :=
  match Buffer.new ms with
  | (none, ms) => (none, ms)
  | (some result, ms) =>
    match constructConnectVariableHeader result mqttOptions ms with
    | (0, result, ms) =>
      match constructConnPayload result mqttOptions ms with
      | (0, result, ms) => finish result .connect 0 ms
      | (_, _, ms) => (none, ms)
    | (_, _, ms) => (none, ms)

/-! ## What the cursors write -/

def be16 (v : UInt16) : List UInt8 := [UInt8.ofNat (v.toNat / 256), UInt8.ofNat (v.toNat % 256)]

/-- A string on the wire, behind its length. -/
def utf (bs : List UInt8) : List UInt8 := be16 (UInt16.ofNat bs.length) ++ bs

theorem length_utf (bs : List UInt8) : (utf bs).length = bs.length + 2 := by
  simp only [utf, be16, List.length_append, List.length_cons, List.length_nil]; omega

namespace Cursor

/-- The bytes `pre` are written, and there is room for `n` more behind them. -/
structure At (c : Cursor) (pre : List UInt8) (n : Nat) : Prop where
  iterator : c.iterator = pre.length
  buffer : ∃ rest, c.buffer = Buffer.ofBytes (pre ++ rest) ∧ rest.length = n

variable {c : Cursor} {pre : List UInt8} {n : Nat}

theorem At.start (block : List UInt8) : (Cursor.mk (Buffer.ofBytes block) 0).At [] block.length := ⟨rfl, block, rfl, rfl⟩

/-- Behind bytes that are there already. -/
theorem At.behind (pre fresh : List UInt8) : (Cursor.mk (Buffer.ofBytes (pre ++ fresh)) pre.length).At pre fresh.length :=
  ⟨rfl, fresh, rfl, rfl⟩

theorem At.done (h : c.At pre 0) : c.buffer = Buffer.ofBytes pre := by
  obtain ⟨rest, hb, hl⟩ := h.buffer
  rw [hb, List.length_eq_zero_iff.mp hl, List.append_nil]

theorem At.memcpy (h : c.At pre n) (bs : List UInt8) (hn : bs.length ≤ n) :
    (c.memcpy bs).At (pre ++ bs) (n - bs.length) := by
  obtain ⟨rest, hb, hl⟩ := h.buffer
  refine ⟨by simp only [Cursor.memcpy, h.iterator, List.length_append], rest.drop bs.length, ?_, by simp [hl]⟩
  have hold : (rest.take bs.length).length = bs.length := by rw [List.length_take]; omega
  have : (Buffer.ofBytes (pre ++ rest.take bs.length ++ rest.drop bs.length)).write pre.length bs =
      Buffer.ofBytes (pre ++ bs ++ rest.drop bs.length) := Buffer.write_at hold
  rw [List.append_assoc, List.take_append_drop] at this
  simp only [Cursor.memcpy, hb, h.iterator, this]

theorem At.byte (h : c.At pre n) (hn : 1 ≤ n) (v : UInt8) : (c.byteutilWriteByte v).At (pre ++ [v]) (n - 1) :=
  h.memcpy [v] (by simpa using hn)

theorem At.int (h : c.At pre n) (hn : 2 ≤ n) (v : UInt16) : (c.byteutilWriteInt v).At (pre ++ be16 v) (n - 2) := by
  have := (h.byte (by omega) (UInt8.ofNat (v.toNat / 256))).byte (by omega) (UInt8.ofNat (v.toNat % 256))
  rw [List.append_assoc] at this
  exact this

theorem At.utf (h : c.At pre n) (bs : List UInt8) (hn : bs.length + 2 ≤ n) :
    (c.byteutilWriteUTF bs).At (pre ++ utf bs) (n - (bs.length + 2)) := by
  have := (h.int (by omega) (UInt16.ofNat bs.length)).memcpy bs (by omega)
  rw [List.append_assoc, show n - 2 - bs.length = n - (bs.length + 2) by omega] at this
  exact this

end Cursor

/-! ## Packets, with the allocations succeeding -/

theorem or80 {n : Nat} (h : n < 128) : UInt8.ofNat n ||| 0x80 = UInt8.ofNat (n + 128) := by
  have key : ∀ i : Fin 128, UInt8.ofNat i.val ||| 0x80 = UInt8.ofNat (i.val + 128) := by decide +kernel
  exact key ⟨n, h⟩

theorem remainSize_eq (n : Nat) : remainSize n = Base128.encode n := by
  induction n using Nat.strongRecOn with
  | _ n ih =>
    rw [remainSize]
    by_cases h : n < 128
    · rw [if_neg (by omega), Base128.encode_lt h, Nat.mod_eq_of_lt h]
    · rw [if_pos (by omega), Base128.encode_ge (by omega), ih _ (by omega), or80 (Nat.mod_lt _ (by decide))]

theorem constructFixedHeader_succeed {ms : Mallocs} (hm : Succeed ms) {body : List UInt8}
    (hb : body.length < 2 ^ 28) (type : ControlPacketType) (flags : UInt8) :
    ∃ ms', constructFixedHeader (Buffer.ofBytes body) type flags ms =
      (0, Buffer.ofBytes ((type.value ||| flags) :: (Base128.encode body.length ++ body)), ms') ∧ Succeed ms' := by
  have hlen : (Base128.encode body.length).length ≤ 3 + 1 := Base128.length_encode_le (by omega)
  obtain ⟨ms1, hn, h1⟩ := Buffer.new_succeed hm
  obtain ⟨block, ms2, hp, hbl, h2⟩ := Buffer.preBuild_succeed h1 (n := (Base128.encode body.length).length + 1)
    (by omega)
  have hc := ((Cursor.At.start block).byte (by omega) (type.value ||| flags)).memcpy
    (Base128.encode body.length) (by omega)
  rw [show block.length - 1 - (Base128.encode body.length).length = 0 by omega] at hc
  obtain ⟨ms3, hpre, h3⟩ := Buffer.prepend_succeed h2 body
    (List.cons_ne_nil (type.value ||| flags) (Base128.encode body.length))
    (by simp only [List.length_cons]; omega)
  refine ⟨ms3, ?_, h3⟩
  have hfit : ¬ 4 < (Base128.encode body.length).length := by omega
  simp only [constructFixedHeader, Buffer.length_ofBytes, remainSize_eq, if_neg hfit, hn, hp, hc.done]
  exact hpre

theorem finish_succeed {ms : Mallocs} (hm : Succeed ms) {body : List UInt8} (hb : body.length < 2 ^ 28)
    (type : ControlPacketType) (flags : UInt8) :
    ∃ ms', finish (Buffer.ofBytes body) type flags ms =
      (some (Buffer.ofBytes ((type.value ||| flags) :: (Base128.encode body.length ++ body))), ms') ∧ Succeed ms' := by
  obtain ⟨ms', h, hs⟩ := constructFixedHeader_succeed hm hb type flags
  exact ⟨ms', by simp only [finish, h, if_true], hs⟩

theorem uChar_isNone (bs : List UInt8) (h : 0 < bs.length) :
    (Buffer.uChar (some (Buffer.ofBytes bs))).isNone = false := by
  rw [Buffer.uChar_ofBytes (List.ne_nil_of_length_pos h)]; rfl

/-- Whatever the allocator answers, a PINGREQ or a DISCONNECT that is built is whole. -/
theorem constructHeaderOnly_bytes {type : ControlPacketType} {ms ms' : Mallocs} {packet : Buffer}
    (h : constructHeaderOnly type ms = (some packet, ms')) : packet.bytes = [type.value, 0] := by
  unfold constructHeaderOnly at h
  rcases hn : Buffer.new ms with ⟨_ | b, ms1⟩
  · simp [hn] at h
  · obtain rfl := Buffer.new_some hn
    rcases malloc_cases 2 ms1 with ⟨-, hm⟩ | ⟨-, block, hm, hl⟩
    · simp [hn, Buffer.enlarge, realloc, hm, sizeT, Crt.failure] at h
    · have he : Buffer.enlarge ⟨none, 0, false⟩ 2 ms1 = (0, Buffer.ofBytes block, ms1.tail) := by
        simp [Buffer.enlarge, realloc, hm, sizeT, Buffer.ofBytes, hl]
      have hblock : (Cursor.mk (Buffer.ofBytes block) 0).At [] 2 := hl ▸ Cursor.At.start block
      have hd := ((hblock.byte (by omega) type.value).byte (by omega) 0).done
      simp only [hn, he, uChar_isNone block (by omega), Bool.false_eq_true, if_false, Prod.mk.injEq,
        Option.some.injEq] at h
      rw [← h.1, hd, Buffer.bytes_ofBytes]
      rfl

/-- The body of a PUBLISH: the topic, the packet id unless the QoS is 0, the payload. -/
def publishBody (qosValue : QosValue) (packetId : UInt16) (topicName : CString) (msgBuffer : List UInt8) : List UInt8 :=
  utf topicName.bytes ++ (if qosValue ≠ .deliverAtMostOnce then be16 packetId else []) ++ msgBuffer

theorem constructPublishVariableHeader_succeed {ms : Mallocs} (hm : Succeed ms) {topicName : CString}
    (ht : topicName.strlen ≤ ushrtMax) (packetId : UInt16) (qosValue : QosValue) :
    ∃ ms', constructPublishVariableHeader ⟨none, 0, false⟩ ⟨topicName, packetId, qosValue⟩ ms =
      (0, Buffer.ofBytes (publishBody qosValue packetId topicName []), ms') ∧ Succeed ms' := by
  have ht' : topicName.bytes.length ≤ 65535 := ht
  have htop : ¬ ushrtMax < topicName.strlen := by omega
  by_cases hq : qosValue = .deliverAtMostOnce
  · obtain ⟨fresh, ms', he, hl, hs⟩ := Buffer.enlarge_new_succeed hm (n := topicName.strlen + 0 + 2) (by omega)
      (by simp only [CString.strlen]; omega)
    simp only [CString.strlen] at hl
    have hc := (Cursor.At.start fresh).utf topicName.bytes (by omega)
    rw [show fresh.length - (topicName.bytes.length + 2) = 0 by omega] at hc
    refine ⟨ms', ?_, hs⟩
    simp only [constructPublishVariableHeader, hq, ne_eq, not_true_eq_false, if_false, if_neg htop, he,
      uChar_isNone fresh (by omega), Buffer.length, Nat.lt_irrefl, hc.done, publishBody, List.append_nil,
      List.nil_append, Bool.false_eq_true]
  · obtain ⟨fresh, ms', he, hl, hs⟩ := Buffer.enlarge_new_succeed hm (n := topicName.strlen + 2 + 2) (by omega)
      (by simp only [CString.strlen]; omega)
    simp only [CString.strlen] at hl
    have hc := ((Cursor.At.start fresh).utf topicName.bytes (by omega)).int (by omega) packetId
    rw [show fresh.length - (topicName.bytes.length + 2) - 2 = 0 by omega] at hc
    refine ⟨ms', ?_, hs⟩
    simp only [constructPublishVariableHeader, hq, ne_eq, not_false_eq_true, if_true, if_neg htop, he,
      uChar_isNone fresh (by omega), if_false, Buffer.length, Nat.zero_lt_two, hc.done, publishBody,
      List.append_nil, List.nil_append, Bool.false_eq_true]

theorem appendPayload_succeed {ms : Mallocs} (hm : Succeed ms) (body : List UInt8) (msgBuffer : List UInt8)
    (hb : body.length + msgBuffer.length < 2 ^ 32) :
    ∃ ms', appendPayload (Buffer.ofBytes body) msgBuffer ms = (0, Buffer.ofBytes (body ++ msgBuffer), ms') ∧
      Succeed ms' := by
  by_cases h : 0 < msgBuffer.length
  · obtain ⟨fresh, ms', he, hl, hs⟩ := Buffer.enlarge_succeed hm body h hb
    have hc := (Cursor.At.behind body fresh).memcpy msgBuffer (by omega)
    rw [show fresh.length - msgBuffer.length = 0 by omega] at hc
    refine ⟨ms', ?_, hs⟩
    simp only [appendPayload, if_pos h, he, Buffer.length_ofBytes,
      uChar_isNone (body ++ fresh) (by simp only [List.length_append]; omega), Bool.false_eq_true, if_false,
      hc.done]
  · have hnil : msgBuffer = [] := List.length_eq_zero_iff.mp (by omega)
    exact ⟨ms, by simp [appendPayload, hnil], hm⟩

theorem mqttCodecPublish_succeed {ms : Mallocs} (hm : Succeed ms) (qosValue : QosValue) (duplicateMsg serverRetain : Bool)
    (packetId : UInt16) {topicName : CString} (ht : topicName.strlen ≤ ushrtMax) (msgBuffer : List UInt8)
    (hb : (publishBody qosValue packetId topicName msgBuffer).length < 2 ^ 28) :
    ∃ ms', mqttCodecPublish qosValue duplicateMsg serverRetain packetId (some topicName) msgBuffer ms =
      (some (Buffer.ofBytes ((ControlPacketType.publish.value ||| publishFlags qosValue duplicateMsg serverRetain) ::
        (Base128.encode (publishBody qosValue packetId topicName msgBuffer).length ++
          publishBody qosValue packetId topicName msgBuffer))), ms') ∧ Succeed ms' := by
  have hsplit : publishBody qosValue packetId topicName [] ++ msgBuffer =
      publishBody qosValue packetId topicName msgBuffer := by
    simp only [publishBody, List.append_nil, List.append_assoc]
  have hlen := congrArg List.length hsplit
  rw [List.length_append] at hlen
  have hmax : ¬ maxSendSize < msgBuffer.length := by simp only [maxSendSize]; omega
  obtain ⟨ms1, h1, hs1⟩ := Buffer.new_succeed hm
  obtain ⟨ms2, h2, hs2⟩ := constructPublishVariableHeader_succeed hs1 ht packetId qosValue
  obtain ⟨ms3, h3, hs3⟩ := appendPayload_succeed hs2 (publishBody qosValue packetId topicName []) msgBuffer
    (by omega)
  obtain ⟨ms4, h4, hs4⟩ := finish_succeed hs3 hb .publish
    (publishFlags qosValue duplicateMsg serverRetain)
  refine ⟨ms4, ?_, hs4⟩
  rw [hsplit] at h3
  simp only [mqttCodecPublish, if_neg hmax, h1, h2, h3, h4]

theorem constructPublishReply_succeed {ms : Mallocs} (hm : Succeed ms) (type : ControlPacketType) (flags : UInt8)
    (packetId : UInt16) :
    ∃ ms', constructPublishReply type flags packetId ms =
      (some (Buffer.ofBytes ((type.value ||| flags) :: 2 :: be16 packetId)), ms') ∧ Succeed ms' := by
  obtain ⟨ms1, hn, h1⟩ := Buffer.new_succeed hm
  obtain ⟨block, ms2, hp, hl, h2⟩ := Buffer.preBuild_succeed h1 (n := 4) (by decide)
  have hc := (((Cursor.At.start block).byte (by omega) (type.value ||| flags)).byte (by omega) 2).int (by omega) packetId
  rw [show block.length - 1 - 1 - 2 = 0 by omega] at hc
  refine ⟨ms2, ?_, h2⟩
  simp only [constructPublishReply, hn, hp, uChar_isNone block (by omega), Bool.false_eq_true, if_false, hc.done]
  rfl

end UMqtt.Codec

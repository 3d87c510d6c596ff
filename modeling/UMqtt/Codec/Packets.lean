/-
  UMqtt.Codec.Packets — what `mqtt_codec_publish`, `mqtt_codec_subscribe` and
  `mqtt_codec_unsubscribe` put on the wire.

  Each builds a body behind the end of a growing buffer and prepends the fixed header. A
  reader of MQTT packets gets back what they were given, of topics of at most 65535 bytes;
  a longer topic, wherever it stands in a list, is refused (`mqttCodecPublish_parses`,
  `mqttCodecTopics_parse`).

  With a trace log the same packet is built beside a text. The `…Logged` definitions are the
  ones of `UMqtt.Codec.Encode` with the calls that write that text.
-/

import UMqtt.Codec.Connect
import UMqtt.Wire.Packets

namespace UMqtt.Codec

open UMqtt.Lib UMqtt.Crt

/-! ## PUBLISH with a trace log -/

def retrieveQosValue : QosValue → List UInt8
  | .deliverAtMostOnce => ascii "DELIVER_AT_MOST_ONCE"
  | .deliverAtLeastOnce => ascii "DELIVER_AT_LEAST_ONCE"
  | _ => ascii "DELIVER_EXACTLY_ONCE"

def constructPublishVariableHeaderLogged (ctrlPacket : Buffer) (publishHeader : PublishHeaderInfo)
    (traceLog : StringHandle) (ms : Mallocs) : Nat × Buffer × StringHandle × Mallocs :=
  match constructPublishVariableHeader ctrlPacket publishHeader ms with
  | (0, ctrlPacket, ms) =>
    let r := stringSprintf traceLog (ascii " | TOPIC_NAME: " ++ publishHeader.topicName.bytes) ms
    let r := if publishHeader.qualityOfServiceValue ≠ .deliverAtMostOnce then
        stringSprintf r.2.1 (ascii " | PACKET_ID: " ++ decimal publishHeader.packetId.toNat) r.2.2
      else r
    (0, ctrlPacket, r.2.1, r.2.2)
  | (result, ctrlPacket, ms) => (result, ctrlPacket, traceLog, ms)

def appendPayloadLogged (ctrlPacket : Buffer) (msgBuffer : List UInt8) (traceLog : StringHandle) (ms : Mallocs) :
    Nat × Buffer × StringHandle × Mallocs :=
  match appendPayload ctrlPacket msgBuffer ms with
  | (0, ctrlPacket, ms) =>
    let r := if 0 < msgBuffer.length then
        stringSprintf traceLog (ascii " | PAYLOAD_LEN: " ++ decimal msgBuffer.length) ms
      else (0, traceLog, ms)
    (0, ctrlPacket, r.2.1, r.2.2)
  | (result, ctrlPacket, ms) => (result, ctrlPacket, traceLog, ms)

/-- The fixed header, and then the two texts of the log in one. -/
def finishLogged (ctrlPacket : Buffer) (packetType : ControlPacketType) (flags : UInt8)
    (traceLog varibleHeaderLog : StringHandle) (ms : Mallocs) : Option Buffer × StringHandle × Mallocs :=
  match finish ctrlPacket packetType flags ms with
  | (none, ms) => (none, traceLog, ms)
  | (some result, ms) => (some result, (stringConcat traceLog varibleHeaderLog ms).2)

/-- `mqtt_codec_publish` with its `trace_log`, NULL or not. -/
def mqttCodecPublishLogged (qosValue : QosValue) (duplicateMsg serverRetain : Bool) (packetId : UInt16)
    (topicName : Option CString) (msgBuffer : List UInt8) (traceLog : StringHandle) (ms : Mallocs) :
    Option Buffer × StringHandle × Mallocs :=
  match topicName with
  | none => (none, traceLog, ms)
  | some topicName =>
    if maxSendSize < msgBuffer.length then (none, traceLog, ms)
    else match Buffer.new ms with
      | (none, ms) => (none, traceLog, ms)
      | (some result, ms) =>
        let log := if traceLog.isSome then
            stringConstructSprintf (ascii " | IS_DUP: " ++ ascii (if duplicateMsg then "true" else "false") ++
              ascii " | RETAIN: " ++ decimal serverRetain.toNat ++ ascii " | QOS: " ++ retrieveQosValue qosValue) ms
          else (none, ms)
        match constructPublishVariableHeaderLogged result ⟨topicName, packetId, qosValue⟩ log.1 log.2 with
        | (0, result, varibleHeaderLog, ms) =>
          match appendPayloadLogged result msgBuffer varibleHeaderLog ms with
          | (0, result, varibleHeaderLog, ms) =>
            let r := stringCopy traceLog (ascii "PUBLISH") ms
            finishLogged result .publish (publishFlags qosValue duplicateMsg serverRetain) r.2.1 varibleHeaderLog r.2.2
          | (_, _, _, ms) => (none, traceLog, ms)
        | (_, _, _, ms) => (none, traceLog, ms)

/-! ## SUBSCRIBE and UNSUBSCRIBE with a trace log -/

/-- One entry of a list: the topic, the bytes behind it, and what the log says of it. -/
structure ListItem where
  topic : CString
  tail : List UInt8
  note : List UInt8

/-- The loop with its trace log, which the entry that ends it may still get into. -/
def addListItemsLogged (logFailed : Bool) :
    List ListItem → Buffer → StringHandle → Mallocs → Nat × Buffer × StringHandle × Mallocs
  | [], ctrlPacket, traceLog, ms => (0, ctrlPacket, traceLog, ms)
  | item :: items, ctrlPacket, traceLog, ms =>
    match addListItems [(item.topic, item.tail)] ctrlPacket ms with
    | (0, ctrlPacket, ms) =>
      let r := stringSprintf traceLog item.note ms
      addListItemsLogged logFailed items ctrlPacket r.2.1 r.2.2
    | (result, ctrlPacket, ms) =>
      let r := if logFailed then stringSprintf traceLog item.note ms else (0, traceLog, ms)
      (result, ctrlPacket, r.2.1, r.2.2)

def subscribeItem (p : SubscribePayload) : ListItem :=
  ⟨p.subscribeTopic, [p.qosReturn.value],
    ascii " | TOPIC_NAME: " ++ p.subscribeTopic.bytes ++ ascii " | QOS: " ++ decimal p.qosReturn.value.toNat⟩

def unsubscribeItem (topic : CString) : ListItem := ⟨topic, [], ascii " | TOPIC_NAME: " ++ topic.bytes⟩

def addListItemsToSubscribePacketLogged (payloadList : List SubscribePayload) :=
  addListItemsLogged false (payloadList.map subscribeItem)

def addListItemsToUnsubscribePacketLogged (payloadList : List CString) :=
  addListItemsLogged true (payloadList.map unsubscribeItem)

/-- The body that `mqtt_codec_subscribe` and `mqtt_codec_unsubscribe` share; they put their name
    into the log by `STRING_concat` and by `STRING_copy`. -/
def constructTopicPacketLogged (type : ControlPacketType) (packetId : UInt16)
    (addItems : Buffer → StringHandle → Mallocs → Nat × Buffer × StringHandle × Mallocs)
    (nameIt : StringHandle → Mallocs → Nat × StringHandle × Mallocs) (traceLog : StringHandle) (ms : Mallocs) :
    Option Buffer × StringHandle × Mallocs :=
  match Buffer.new ms with
  | (none, ms) => (none, traceLog, ms)
  | (some result, ms) =>
    match constructSubscibeTypeVariableHeader result packetId ms with
    | (0, result, ms) =>
      let log := if traceLog.isSome then
          stringConstructSprintf (ascii " | PACKET_ID: " ++ decimal packetId.toNat) ms
        else (none, ms)
      match addItems result log.1 log.2 with
      | (0, result, subTrace, ms) =>
        let r := nameIt traceLog ms
        finishLogged result type 0x2 r.2.1 subTrace r.2.2
      | (_, _, _, ms) => (none, traceLog, ms)
    | (_, _, ms) => (none, traceLog, ms)

def mqttCodecSubscribeLogged (packetId : UInt16) (subscribeList : List SubscribePayload) (traceLog : StringHandle)
    (ms : Mallocs) : Option Buffer × StringHandle × Mallocs :=
  if subscribeList.length = 0 then (none, traceLog, ms)
  else constructTopicPacketLogged .subscribe packetId (addListItemsToSubscribePacketLogged subscribeList)
    (fun log => stringConcat log (some (ascii "SUBSCRIBE"))) traceLog ms

def mqttCodecUnsubscribeLogged (packetId : UInt16) (unsubscribeList : List CString) (traceLog : StringHandle)
    (ms : Mallocs) : Option Buffer × StringHandle × Mallocs :=
  if unsubscribeList.length = 0 then (none, traceLog, ms)
  else constructTopicPacketLogged .unsubscribe packetId (addListItemsToUnsubscribePacketLogged unsubscribeList)
    (fun log => stringCopy log (ascii "UNSUBSCRIBE")) traceLog ms

/-! ## PUBLISH on the wire -/

def framed (type : ControlPacketType) (flags : UInt8) (body : List UInt8) : List UInt8 :=
  (type.value ||| flags) :: (Base128.encode body.length ++ body)

theorem finishLogged_succeed {ms : Mallocs} (hm : Succeed ms) {body : List UInt8} (hb : body.length < 2 ^ 28)
    (type : ControlPacketType) (flags : UInt8) (traceLog varibleHeaderLog : StringHandle) :
    (finishLogged (Buffer.ofBytes body) type flags traceLog varibleHeaderLog ms).1 =
      some (Buffer.ofBytes (framed type flags body)) := by
  obtain ⟨ms', h, -⟩ := finish_succeed hm hb type flags
  simp only [finishLogged, h, framed]

theorem constructPublishVariableHeaderLogged_succeed {ms : Mallocs} (hm : Succeed ms) {topicName : CString}
    (ht : topicName.strlen ≤ ushrtMax) (packetId : UInt16) (qosValue : QosValue) (traceLog : StringHandle) :
    ∃ log ms', constructPublishVariableHeaderLogged ⟨none, 0, false⟩ ⟨topicName, packetId, qosValue⟩ traceLog ms =
      (0, Buffer.ofBytes (publishBody qosValue packetId topicName []), log, ms') ∧ Succeed ms' := by
  obtain ⟨ms1, h1, hs1⟩ := constructPublishVariableHeader_succeed hm ht packetId qosValue
  have hs2 := stringSprintf_succeed hs1 traceLog (ascii " | TOPIC_NAME: " ++ topicName.bytes)
  simp only [constructPublishVariableHeaderLogged, h1]
  refine ⟨_, _, rfl, ?_⟩
  split
  · exact stringSprintf_succeed hs2 _ _
  · exact hs2

theorem appendPayloadLogged_succeed {ms : Mallocs} (hm : Succeed ms) (body msgBuffer : List UInt8)
    (hb : body.length + msgBuffer.length < 2 ^ 32) (traceLog : StringHandle) :
    ∃ log ms', appendPayloadLogged (Buffer.ofBytes body) msgBuffer traceLog ms =
      (0, Buffer.ofBytes (body ++ msgBuffer), log, ms') ∧ Succeed ms' := by
  obtain ⟨ms1, h1, hs1⟩ := appendPayload_succeed hm body msgBuffer hb
  simp only [appendPayloadLogged, h1]
  refine ⟨_, _, rfl, ?_⟩
  split
  · exact stringSprintf_succeed hs1 _ _
  · exact hs1

theorem publishBody_append (qosValue : QosValue) (packetId : UInt16) (topicName : CString) (msgBuffer : List UInt8) :
    publishBody qosValue packetId topicName [] ++ msgBuffer = publishBody qosValue packetId topicName msgBuffer := by
  simp only [publishBody, List.append_nil, List.append_assoc]

/-- The log for the variable header, when one is kept. -/
theorem newLog_succeed {ms : Mallocs} (hm : Succeed ms) (traceLog : StringHandle) (text : List UInt8) :
    Succeed (if traceLog.isSome then stringConstructSprintf text ms else (none, ms)).2 := by
  split
  · exact stringConstructSprintf_succeed hm text
  · exact hm

theorem mqttCodecPublishLogged_succeed {ms : Mallocs} (hm : Succeed ms) (qosValue : QosValue)
    (duplicateMsg serverRetain : Bool) (packetId : UInt16) {topicName : CString} (ht : topicName.strlen ≤ ushrtMax)
    (msgBuffer : List UInt8) (hb : (publishBody qosValue packetId topicName msgBuffer).length < 2 ^ 28)
    (traceLog : StringHandle) :
    (mqttCodecPublishLogged qosValue duplicateMsg serverRetain packetId (some topicName) msgBuffer traceLog ms).1 =
      some (Buffer.ofBytes (framed .publish (publishFlags qosValue duplicateMsg serverRetain)
        (publishBody qosValue packetId topicName msgBuffer))) := by
  have hsplit := publishBody_append qosValue packetId topicName msgBuffer
  have hlen := congrArg List.length hsplit
  rw [List.length_append] at hlen
  have hmax : ¬ maxSendSize < msgBuffer.length := by simp only [maxSendSize]; omega
  obtain ⟨ms1, h1, hs1⟩ := Buffer.new_succeed hm
  have hs2 := newLog_succeed hs1 traceLog (ascii " | IS_DUP: " ++ ascii (if duplicateMsg then "true" else "false") ++
    ascii " | RETAIN: " ++ decimal serverRetain.toNat ++ ascii " | QOS: " ++ retrieveQosValue qosValue)
  obtain ⟨log3, ms3, h3, hs3⟩ := constructPublishVariableHeaderLogged_succeed hs2 ht packetId qosValue
    (if traceLog.isSome then stringConstructSprintf (ascii " | IS_DUP: " ++
      ascii (if duplicateMsg then "true" else "false") ++ ascii " | RETAIN: " ++ decimal serverRetain.toNat ++
      ascii " | QOS: " ++ retrieveQosValue qosValue) ms1 else (none, ms1)).1
  obtain ⟨log4, ms4, h4, hs4⟩ := appendPayloadLogged_succeed hs3 (publishBody qosValue packetId topicName []) msgBuffer
    (by omega) log3
  have hs5 := stringCopy_succeed hs4 traceLog (ascii "PUBLISH")
  have h5 := finishLogged_succeed hs5 hb .publish (publishFlags qosValue duplicateMsg serverRetain)
    (stringCopy traceLog (ascii "PUBLISH") ms4).2.1 log4
  rw [hsplit] at h4
  simp only [mqttCodecPublishLogged, if_neg hmax, h1, h3, h4, h5]

/-- A topic that does not fit is refused, whatever the allocator answers. -/
theorem constructPublishVariableHeader_long {topicName : CString} (h : ushrtMax < topicName.strlen) (packetId : UInt16)
    (qosValue : QosValue) (ctrlPacket : Buffer) (ms : Mallocs) :
    constructPublishVariableHeader ctrlPacket ⟨topicName, packetId, qosValue⟩ ms = (Crt.failure, ctrlPacket, ms) := by
  simp only [constructPublishVariableHeader, if_pos h]

theorem mqttCodecPublish_long (qosValue : QosValue) (duplicateMsg serverRetain : Bool) (packetId : UInt16)
    {topicName : CString} (ht : ushrtMax < topicName.strlen) (msgBuffer : List UInt8) (ms : Mallocs) :
    (mqttCodecPublish qosValue duplicateMsg serverRetain packetId (some topicName) msgBuffer ms).1 = none := by
  simp only [mqttCodecPublish]
  split
  · rfl
  · rcases Buffer.new ms with ⟨_ | result, ms1⟩
    · rfl
    · simp only [constructPublishVariableHeader_long ht, Crt.failure]

theorem mqttCodecPublishLogged_long (qosValue : QosValue) (duplicateMsg serverRetain : Bool) (packetId : UInt16)
    {topicName : CString} (ht : ushrtMax < topicName.strlen) (msgBuffer : List UInt8) (traceLog : StringHandle)
    (ms : Mallocs) :
    (mqttCodecPublishLogged qosValue duplicateMsg serverRetain packetId (some topicName) msgBuffer traceLog ms).1 =
      none := by
  simp only [mqttCodecPublishLogged]
  split
  · rfl
  · rcases Buffer.new ms with ⟨_ | result, ms1⟩
    · rfl
    · simp only [constructPublishVariableHeaderLogged,
        constructPublishVariableHeader_long ht, Crt.failure]

def QosValue.Level (q : QosValue) : Prop := q ∈ [.deliverAtMostOnce, .deliverAtLeastOnce, .deliverExactlyOnce]

/-- The flags of a PUBLISH: DUP, two bits of QoS, RETAIN. -/
def publishNibble (duplicateMsg : Bool) (qosValue : QosValue) (serverRetain : Bool) : Nat :=
  duplicateMsg.toNat <<< 3 ||| qosValue.value.toNat <<< 1 ||| serverRetain.toNat

theorem publish_header {qosValue : QosValue} (hq : qosValue.Level) (duplicateMsg serverRetain : Bool) :
    (ControlPacketType.publish.value ||| publishFlags qosValue duplicateMsg serverRetain).toNat =
        48 + publishNibble duplicateMsg qosValue serverRetain ∧
      publishNibble duplicateMsg qosValue serverRetain < 16 ∧
      Wire.publishQos (publishNibble duplicateMsg qosValue serverRetain) = qosValue.value.toNat := by
  simp only [QosValue.Level, List.mem_cons, List.not_mem_nil, or_false] at hq
  revert duplicateMsg serverRetain
  rcases hq with hq | hq | hq <;> rw [hq] <;> decide

theorem readPublish_body {qosValue : QosValue} (hq : qosValue.Level) (packetId : UInt16) {topicName : CString}
    (ht : topicName.strlen ≤ ushrtMax) (msgBuffer : List UInt8) {flags : Nat}
    (hf : Wire.publishQos flags = qosValue.value.toNat) :
    Wire.readPublish flags (publishBody qosValue packetId topicName msgBuffer) =
      some ⟨flags, topicName.bytes, if qosValue = .deliverAtMostOnce then none else some packetId.toNat, msgBuffer⟩ := by
  have hzero : Wire.publishQos flags = 0 ↔ qosValue = .deliverAtMostOnce := by
    rw [hf]
    simp only [QosValue.Level, List.mem_cons, List.not_mem_nil, or_false] at hq
    rcases hq with hq | hq | hq <;> rw [hq] <;> decide
  have hread := readString_utf (s := topicName.bytes) ht
  by_cases h0 : qosValue = .deliverAtMostOnce
  · simp only [publishBody, h0, ne_eq, not_true_eq_false, if_false, List.append_nil, Wire.readPublish, hread,
      hzero.mpr h0, if_true]
  · simp only [publishBody, ne_eq, h0, not_false_eq_true, if_true, List.append_assoc, Wire.readPublish, hread,
      hzero, if_false, be16, List.cons_append, List.nil_append, be16_value]

/-- A PUBLISH carries exactly what it is given, and is not built around a topic that does not fit. -/
theorem mqttCodecPublish_parses {qosValue : QosValue} (hq : qosValue.Level) (duplicateMsg serverRetain : Bool)
    (packetId : UInt16) (topicName : CString) (msgBuffer : List UInt8) (traceLog : StringHandle) {ms : Mallocs}
    (hm : Succeed ms) :
    (topicName.strlen ≤ ushrtMax →
      topicName.strlen + 2 + (if qosValue = .deliverAtMostOnce then 0 else 2) + msgBuffer.length ≤ Wire.maxRemainingLength →
      ∃ packet,
        (mqttCodecPublish qosValue duplicateMsg serverRetain packetId (some topicName) msgBuffer ms).1 = some packet ∧
        (mqttCodecPublishLogged qosValue duplicateMsg serverRetain packetId (some topicName) msgBuffer traceLog ms).1 =
          some packet ∧
        Wire.parsePublish packet.bytes = some
          { flags := publishNibble duplicateMsg qosValue serverRetain
            topic := topicName.bytes
            packetId := if qosValue = .deliverAtMostOnce then none else some packetId.toNat
            payload := msgBuffer }) ∧
    (ushrtMax < topicName.strlen →
      (mqttCodecPublish qosValue duplicateMsg serverRetain packetId (some topicName) msgBuffer ms).1 = none ∧
      (mqttCodecPublishLogged qosValue duplicateMsg serverRetain packetId (some topicName) msgBuffer traceLog ms).1 =
        none) := by
  refine ⟨?_, fun ht => ⟨mqttCodecPublish_long _ _ _ _ ht _ _, mqttCodecPublishLogged_long _ _ _ _ ht _ _ _⟩⟩
  intro ht hlen
  have hbody : (publishBody qosValue packetId topicName msgBuffer).length ≤ Wire.maxRemainingLength := by
    by_cases h0 : qosValue = .deliverAtMostOnce
    · simp only [h0, if_true] at hlen
      simp only [publishBody, h0, ne_eq, not_true_eq_false, if_false, List.length_append, length_utf, List.length_nil]
      exact hlen
    · simp only [h0, if_false] at hlen
      simp only [publishBody, ne_eq, h0, not_false_eq_true, if_true, List.length_append, length_utf, be16,
        List.length_cons, List.length_nil]
      exact hlen
  have hb : (publishBody qosValue packetId topicName msgBuffer).length < 2 ^ 28 := by
    simp only [Wire.maxRemainingLength] at hbody; omega
  obtain ⟨ms', h, -⟩ := mqttCodecPublish_succeed hm qosValue duplicateMsg serverRetain packetId ht msgBuffer hb
  refine ⟨_, by rw [h]; rfl, mqttCodecPublishLogged_succeed hm _ _ _ _ ht _ hb traceLog, ?_⟩
  obtain ⟨hheader, hflags, hqos⟩ := publish_header hq duplicateMsg serverRetain
  have h2 : Wire.publishQos (publishNibble duplicateMsg qosValue serverRetain) ≤ 2 := by
    rw [hqos]
    simp only [QosValue.Level, List.mem_cons, List.not_mem_nil, or_false] at hq
    rcases hq with hq | hq | hq <;> rw [hq] <;> decide
  rw [Buffer.bytes_ofBytes, framed, Wire.parsePublish_frame hheader hflags h2 (Wire.readLength_encode hbody _) rfl]
  exact readPublish_body hq packetId ht msgBuffer hqos

def longTopic : CString := ⟨List.replicate 65536 1, fun h => absurd (List.eq_of_mem_replicate h) (by decide)⟩

theorem longTopic_long : ushrtMax < longTopic.strlen := by
  have hlen : longTopic.strlen = 65536 := List.length_replicate
  rw [hlen]
  decide

/-- A retransmission of QoS 1 with a trace log, and a topic that does not fit. -/
theorem mqttCodecPublish_parses_lamp :
    (∃ packet,
      (mqttCodecPublish .deliverAtLeastOnce true false 7 (some lamp) [111, 110] []).1 = some packet ∧
      (mqttCodecPublishLogged .deliverAtLeastOnce true false 7 (some lamp) [111, 110] (some []) []).1 = some packet ∧
      Wire.parsePublish packet.bytes = some
        { flags := publishNibble true .deliverAtLeastOnce false
          topic := lamp.bytes
          packetId := if QosValue.deliverAtLeastOnce = .deliverAtMostOnce then none else some (7 : UInt16).toNat
          payload := [111, 110] }) ∧
    (mqttCodecPublish .deliverAtMostOnce false false 7 (some longTopic) [] []).1 = none ∧
    (mqttCodecPublishLogged .deliverAtMostOnce false false 7 (some longTopic) [] none []).1 = none :=
  ⟨(mqttCodecPublish_parses (by simp [QosValue.Level]) true false 7 lamp [111, 110] (some []) succeed_nil).1
      (by decide) (by decide),
    (mqttCodecPublish_parses (by simp [QosValue.Level]) false false 7 longTopic [] none succeed_nil).2 longTopic_long⟩

/-! ## SUBSCRIBE and UNSUBSCRIBE on the wire -/

def listBody (items : List ListItem) : List UInt8 := items.flatMap fun item => utf item.topic.bytes ++ item.tail

theorem addListItems_single {ms : Mallocs} (hm : Succeed ms) (body : List UInt8) {topic : CString}
    (ht : topic.strlen ≤ ushrtMax) (tail : List UInt8) (hb : body.length + (topic.strlen + 2 + tail.length) < 2 ^ 32) :
    ∃ ms', addListItems [(topic, tail)] (Buffer.ofBytes body) ms =
      (0, Buffer.ofBytes (body ++ (utf topic.bytes ++ tail)), ms') ∧ Succeed ms' := by
  obtain ⟨fresh, ms', he, hl, hs⟩ := Buffer.enlarge_succeed hm body (n := topic.strlen + 2 + tail.length) (by omega) hb
  have hfit : ¬ ushrtMax < topic.strlen := by omega
  simp only [CString.strlen] at hl
  have hc := ((Cursor.At.behind body fresh).utf topic.bytes (by omega)).memcpy tail (by omega)
  rw [show fresh.length - (topic.bytes.length + 2) - tail.length = 0 by omega, List.append_assoc] at hc
  refine ⟨ms', ?_, hs⟩
  simp only [addListItems, if_neg hfit, Buffer.length_ofBytes, he, hc.done]

theorem addListItems_single_long {topic : CString} (h : ushrtMax < topic.strlen) (tail : List UInt8)
    (ctrlPacket : Buffer) (ms : Mallocs) : addListItems [(topic, tail)] ctrlPacket ms = (Crt.failure, ctrlPacket, ms) := by
  simp only [addListItems, if_pos h]

/-- Entries that fit are all written, one behind the other. -/
theorem addListItemsLogged_succeed (logFailed : Bool) {items : List ListItem}
    (ht : ∀ item ∈ items, item.topic.strlen ≤ ushrtMax) {body : List UInt8} (hb : body.length + (listBody items).length < 2 ^ 32)
    (traceLog : StringHandle) {ms : Mallocs} (hm : Succeed ms) :
    ∃ log ms', addListItemsLogged logFailed items (Buffer.ofBytes body) traceLog ms =
      (0, Buffer.ofBytes (body ++ listBody items), log, ms') ∧ Succeed ms' := by
  induction items generalizing body traceLog ms with
  | nil => exact ⟨traceLog, ms, by rw [listBody, List.flatMap_nil, List.append_nil]; rfl, hm⟩
  | cons item items ih =>
    have hcons : listBody (item :: items) = utf item.topic.bytes ++ item.tail ++ listBody items := List.flatMap_cons
    simp only [hcons, List.length_append, length_utf] at hb
    obtain ⟨ms1, h1, hs1⟩ := addListItems_single hm body (ht item List.mem_cons_self) item.tail
      (by simp only [CString.strlen]; omega)
    obtain ⟨log, ms', hr, hs⟩ := ih (fun x hx => ht x (List.mem_cons_of_mem _ hx))
      (show (body ++ (utf item.topic.bytes ++ item.tail)).length + (listBody items).length < 2 ^ 32 by
        simp only [List.length_append, length_utf]; omega)
      (stringSprintf traceLog item.note ms1).2.1 (stringSprintf_succeed hs1 traceLog item.note)
    refine ⟨log, ms', ?_, hs⟩
    rw [hcons, ← List.append_assoc]
    simp only [addListItemsLogged, h1, hr]

/-- A topic that does not fit ends the loop, wherever it stands. -/
theorem addListItemsLogged_long (logFailed : Bool) {items : List ListItem}
    (h : ∃ item ∈ items, ushrtMax < item.topic.strlen) (ctrlPacket : Buffer) (traceLog : StringHandle) (ms : Mallocs) :
    (addListItemsLogged logFailed items ctrlPacket traceLog ms).1 ≠ 0 := by
  induction items generalizing ctrlPacket traceLog ms with
  | nil =>
    obtain ⟨item, hi, -⟩ := h
    cases hi
  | cons item items ih =>
    rcases h1 : addListItems [(item.topic, item.tail)] ctrlPacket ms with ⟨code, ctrlPacket1, ms1⟩
    cases code with
    | succ code => simp only [addListItemsLogged, h1, ne_eq, Nat.succ_ne_zero, not_false_eq_true]
    | zero =>
      simp only [addListItemsLogged, h1]
      apply ih
      obtain ⟨x, hx, hlong⟩ := h
      rcases List.mem_cons.mp hx with rfl | hx
      · rw [addListItems_single_long hlong] at h1
        cases h1
      · exact ⟨x, hx, hlong⟩

theorem constructSubscibeTypeVariableHeader_succeed {ms : Mallocs} (hm : Succeed ms) (packetId : UInt16) :
    ∃ ms', constructSubscibeTypeVariableHeader ⟨none, 0, false⟩ packetId ms = (0, Buffer.ofBytes (be16 packetId), ms') ∧
      Succeed ms' := by
  obtain ⟨fresh, ms', he, hl, hs⟩ := Buffer.enlarge_new_succeed hm (n := 2) (by decide) (by decide)
  have hc := (Cursor.At.start fresh).int (by omega) packetId
  rw [hl] at hc
  refine ⟨ms', ?_, hs⟩
  simp only [constructSubscibeTypeVariableHeader, he, uChar_isNone fresh (by omega), Bool.false_eq_true, if_false, hc.done,
    List.nil_append]

section TopicPacket

variable {addItems : Buffer → StringHandle → Mallocs → Nat × Buffer × StringHandle × Mallocs}
  {nameIt : StringHandle → Mallocs → Nat × StringHandle × Mallocs}

theorem constructTopicPacketLogged_succeed (type : ControlPacketType) (packetId : UInt16) {payload : List UInt8}
    (hadd : ∀ log ms, Succeed ms → ∃ log' ms', addItems (Buffer.ofBytes (be16 packetId)) log ms =
      (0, Buffer.ofBytes (be16 packetId ++ payload), log', ms') ∧ Succeed ms')
    (hname : ∀ log ms, Succeed ms → Succeed (nameIt log ms).2.2) (hb : (be16 packetId ++ payload).length < 2 ^ 28)
    (traceLog : StringHandle) {ms : Mallocs} (hm : Succeed ms) :
    (constructTopicPacketLogged type packetId addItems nameIt traceLog ms).1 =
      some (Buffer.ofBytes (framed type 2 (be16 packetId ++ payload))) := by
  obtain ⟨ms1, h1, hs1⟩ := Buffer.new_succeed hm
  obtain ⟨ms2, h2, hs2⟩ := constructSubscibeTypeVariableHeader_succeed hs1 packetId
  have hs3 := newLog_succeed hs2 traceLog (ascii " | PACKET_ID: " ++ decimal packetId.toNat)
  obtain ⟨log4, ms4, h4, hs4⟩ := hadd (if traceLog.isSome then
    stringConstructSprintf (ascii " | PACKET_ID: " ++ decimal packetId.toNat) ms2 else (none, ms2)).1 _ hs3
  have h5 := finishLogged_succeed (hname traceLog ms4 hs4) hb type 2 (nameIt traceLog ms4).2.1 log4
  simp only [constructTopicPacketLogged, h1, h2, h4, h5]

theorem constructTopicPacketLogged_refused (type : ControlPacketType) (packetId : UInt16)
    (hadd : ∀ b log ms, (addItems b log ms).1 ≠ 0) (traceLog : StringHandle) (ms : Mallocs) :
    (constructTopicPacketLogged type packetId addItems nameIt traceLog ms).1 = none := by
  unfold constructTopicPacketLogged
  rcases Buffer.new ms with ⟨_ | result, ms1⟩
  · rfl
  · rcases hv : constructSubscibeTypeVariableHeader result packetId ms1 with ⟨code, result2, ms2⟩
    cases code with
    | succ code => simp only [hv]
    | zero =>
      simp only [hv]
      split
      · rename_i heq
        exact absurd (congrArg Prod.fst heq) (hadd _ _ _)
      · rfl

/-- `trace_log` is NULL where no log is kept. -/
theorem constructTopicPacketLogged_none (type : ControlPacketType) (packetId : UInt16)
    {addPlain : Buffer → Mallocs → Nat × Buffer × Mallocs}
    (hadd : ∀ b ms, addItems b none ms = ((addPlain b ms).1, (addPlain b ms).2.1, none, (addPlain b ms).2.2))
    (hname : ∀ ms, (nameIt none ms).2 = (none, ms)) (ms : Mallocs) :
    (constructTopicPacketLogged type packetId addItems nameIt none ms).1 =
      (constructTopicPacket type packetId addPlain ms).1 := by
  unfold constructTopicPacketLogged constructTopicPacket
  rcases Buffer.new ms with ⟨_ | result, ms1⟩
  · rfl
  · rcases hv : constructSubscibeTypeVariableHeader result packetId ms1 with ⟨code, result2, ms2⟩
    cases code with
    | succ code => simp only [hv]
    | zero =>
      simp only [hv, Option.isSome_none, Bool.false_eq_true, if_false, hadd]
      rcases addPlain result2 ms2 with ⟨code, result3, ms3⟩
      cases code with
      | succ code => rfl
      | zero =>
        simp only [hname, finishLogged]
        rcases finish result3 type 2 ms3 with ⟨_ | packet, ms4⟩ <;> rfl

end TopicPacket

theorem addListItemsLogged_none (logFailed : Bool) (items : List ListItem) (ctrlPacket : Buffer) (ms : Mallocs) :
    addListItemsLogged logFailed items ctrlPacket none ms =
      ((addListItems (items.map fun item => (item.topic, item.tail)) ctrlPacket ms).1,
        (addListItems (items.map fun item => (item.topic, item.tail)) ctrlPacket ms).2.1, none,
        (addListItems (items.map fun item => (item.topic, item.tail)) ctrlPacket ms).2.2) := by
  induction items generalizing ctrlPacket ms with
  | nil => rfl
  | cons item items ih =>
    by_cases hlong : ushrtMax < item.topic.strlen
    · simp only [List.map_cons, addListItems, addListItemsLogged, if_pos hlong, Crt.failure]
      cases logFailed <;> rfl
    · simp only [List.map_cons, addListItems, addListItemsLogged, if_neg hlong]
      rcases ctrlPacket.enlarge (item.topic.strlen + 2 + item.tail.length) ms with ⟨code, ctrlPacket1, ms1⟩
      cases code with
      | succ code => cases logFailed <;> rfl
      | zero => exact ih _ _

theorem mqttCodecSubscribeLogged_none (packetId : UInt16) (subscribeList : List SubscribePayload) (ms : Mallocs) :
    (mqttCodecSubscribeLogged packetId subscribeList none ms).1 = (mqttCodecSubscribe packetId subscribeList ms).1 := by
  unfold mqttCodecSubscribeLogged mqttCodecSubscribe
  split
  · rfl
  · refine constructTopicPacketLogged_none _ _ (fun b ms => ?_) (fun ms => rfl) ms
    have h := addListItemsLogged_none false (subscribeList.map subscribeItem) b ms
    rw [List.map_map] at h
    exact h

theorem mqttCodecUnsubscribeLogged_none (packetId : UInt16) (unsubscribeList : List CString) (ms : Mallocs) :
    (mqttCodecUnsubscribeLogged packetId unsubscribeList none ms).1 =
      (mqttCodecUnsubscribe packetId unsubscribeList ms).1 := by
  unfold mqttCodecUnsubscribeLogged mqttCodecUnsubscribe
  split
  · rfl
  · refine constructTopicPacketLogged_none _ _ (fun b ms => ?_) (fun ms => rfl) ms
    have h := addListItemsLogged_none true (unsubscribeList.map unsubscribeItem) b ms
    rw [List.map_map] at h
    exact h

theorem length_listBody (items : List ListItem) :
    (listBody items).length = (items.map fun item => item.topic.strlen + 2 + item.tail.length).sum := by
  rw [listBody, List.length_flatMap]
  congr 1
  refine List.map_congr_left fun item _ => ?_
  rw [List.length_append, length_utf]
  rfl

/-- A list packet carries its packet id and its entries, in order. -/
theorem constructTopicPacketLogged_parses {α : Type} (type : ControlPacketType) (n : Nat)
    (hheader : (type.value ||| 2).toNat = 16 * n + 2) (packetId : UInt16) (logFailed : Bool) {items : List ListItem}
    (hne : items ≠ []) (ht : ∀ item ∈ items, item.topic.strlen ≤ ushrtMax)
    (hlen : 2 + (listBody items).length ≤ Wire.maxRemainingLength) {read : List UInt8 → Option (α × List UInt8)}
    {entry : ListItem → α}
    (hread : ∀ item ∈ items, ∀ rest, read (utf item.topic.bytes ++ item.tail ++ rest) = some (entry item, rest))
    {nameIt : StringHandle → Mallocs → Nat × StringHandle × Mallocs}
    (hname : ∀ log ms, Succeed ms → Succeed (nameIt log ms).2.2) :
    ∃ packet : Buffer, (∀ traceLog ms, Succeed ms →
        (constructTopicPacketLogged type packetId (addListItemsLogged logFailed items) nameIt traceLog ms).1 = some packet) ∧
      Wire.parseTopicList n read packet.bytes = some ⟨packetId.toNat, items.map entry⟩ := by
  have hid : (be16 packetId ++ listBody items).length = (listBody items).length + 2 := by
    rw [List.length_append, be16, List.length_cons, List.length_cons, List.length_nil]; omega
  have hlt : (listBody items).length < 2 ^ 28 - 2 := by simp only [Wire.maxRemainingLength] at hlen; omega
  have hwrite : ∀ item ∈ items, utf item.topic.bytes ++ item.tail ≠ [] := fun item _ => List.cons_ne_nil _ _
  have hcount := Wire.length_le_flatMap hwrite
  have hpayload : listBody items ≠ [] := by
    intro h0
    rw [show items.flatMap _ = listBody items from rfl, h0] at hcount
    exact hne (List.length_eq_zero_iff.mp (Nat.le_zero.mp hcount))
  refine ⟨Buffer.ofBytes (framed type 2 (be16 packetId ++ listBody items)), ?_, ?_⟩
  · intro traceLog ms hm
    refine constructTopicPacketLogged_succeed type packetId ?_ hname (by omega) traceLog hm
    intro log ms hm
    exact addListItemsLogged_succeed logFailed ht (by simp only [be16, List.length_cons, List.length_nil]; omega) log hm
  · have hlength := Wire.readLength_encode (n := (be16 packetId ++ listBody items).length) (by omega)
      (be16 packetId ++ listBody items)
    rw [Buffer.bytes_ofBytes, framed, Wire.parseTopicList_frame hheader hlength hid hpayload
      (Wire.readAll_flatMap hwrite hread hcount), be16_value]

theorem mqttCodecSubscribeLogged_parses (packetId : UInt16) {subscribeList : List SubscribePayload}
    (hne : subscribeList ≠ []) (ht : ∀ p ∈ subscribeList, p.subscribeTopic.strlen ≤ ushrtMax)
    (hlen : 2 + (subscribeList.map fun p => p.subscribeTopic.strlen + 3).sum ≤ Wire.maxRemainingLength) :
    ∃ packet : Buffer, (∀ traceLog ms, Succeed ms →
        (mqttCodecSubscribeLogged packetId subscribeList traceLog ms).1 = some packet) ∧
      Wire.parseSubscribe packet.bytes =
        some ⟨packetId.toNat, subscribeList.map fun p => (p.subscribeTopic.bytes, p.qosReturn.value)⟩ := by
  have hitems : subscribeList.map subscribeItem ≠ [] := by simpa using hne
  have hfit : ∀ item ∈ subscribeList.map subscribeItem, item.topic.strlen ≤ ushrtMax := by
    intro item hi
    obtain ⟨p, hp, rfl⟩ := List.mem_map.mp hi
    exact ht p hp
  have hbody : 2 + (listBody (subscribeList.map subscribeItem)).length ≤ Wire.maxRemainingLength := by
    rw [length_listBody, List.map_map]
    exact hlen
  have hread : ∀ item ∈ subscribeList.map subscribeItem, ∀ rest,
      Wire.readSubscription (utf item.topic.bytes ++ item.tail ++ rest) =
        some ((item.topic.bytes, item.tail.headD 0), rest) := by
    intro item hi rest
    obtain ⟨p, hp, rfl⟩ := List.mem_map.mp hi
    rw [List.append_assoc]
    exact Wire.readSubscription_append (readString_utf (ht p hp) _)
  obtain ⟨packet, hp, hparse⟩ := constructTopicPacketLogged_parses .subscribe 8 (by decide) packetId
    false hitems hfit hbody hread (fun log ms hm => stringConcat_succeed hm log (some (ascii "SUBSCRIBE")))
  refine ⟨packet, ?_, ?_⟩
  · intro traceLog ms hm
    rw [mqttCodecSubscribeLogged, if_neg (fun h => hne (List.length_eq_zero_iff.mp h))]
    exact hp traceLog ms hm
  · rw [List.map_map] at hparse
    exact hparse

theorem mqttCodecUnsubscribeLogged_parses (packetId : UInt16) {unsubscribeList : List CString} (hne : unsubscribeList ≠ [])
    (ht : ∀ t ∈ unsubscribeList, t.strlen ≤ ushrtMax)
    (hlen : 2 + (unsubscribeList.map fun t => t.strlen + 2).sum ≤ Wire.maxRemainingLength) :
    ∃ packet : Buffer, (∀ traceLog ms, Succeed ms →
        (mqttCodecUnsubscribeLogged packetId unsubscribeList traceLog ms).1 = some packet) ∧
      Wire.parseUnsubscribe packet.bytes = some ⟨packetId.toNat, unsubscribeList.map CString.bytes⟩ := by
  have hitems : unsubscribeList.map unsubscribeItem ≠ [] := by simpa using hne
  have hfit : ∀ item ∈ unsubscribeList.map unsubscribeItem, item.topic.strlen ≤ ushrtMax := by
    intro item hi
    obtain ⟨t, hp, rfl⟩ := List.mem_map.mp hi
    exact ht t hp
  have hbody : 2 + (listBody (unsubscribeList.map unsubscribeItem)).length ≤ Wire.maxRemainingLength := by
    rw [length_listBody, List.map_map]
    exact hlen
  have hread : ∀ item ∈ unsubscribeList.map unsubscribeItem, ∀ rest,
      Wire.readString (utf item.topic.bytes ++ item.tail ++ rest) = some (item.topic.bytes, rest) := by
    intro item hi rest
    obtain ⟨t, hp, rfl⟩ := List.mem_map.mp hi
    rw [List.append_assoc]
    exact readString_utf (ht t hp) _
  obtain ⟨packet, hp, hparse⟩ := constructTopicPacketLogged_parses .unsubscribe 10 (by decide) packetId
    true hitems hfit hbody hread (fun log ms hm => stringCopy_succeed hm log (ascii "UNSUBSCRIBE"))
  refine ⟨packet, ?_, ?_⟩
  · intro traceLog ms hm
    rw [mqttCodecUnsubscribeLogged, if_neg (fun h => hne (List.length_eq_zero_iff.mp h))]
    exact hp traceLog ms hm
  · rw [List.map_map] at hparse
    exact hparse

theorem mqttCodecSubscribeLogged_long (packetId : UInt16) {subscribeList : List SubscribePayload}
    (h : ∃ p ∈ subscribeList, ushrtMax < p.subscribeTopic.strlen) (traceLog : StringHandle) (ms : Mallocs) :
    (mqttCodecSubscribeLogged packetId subscribeList traceLog ms).1 = none := by
  obtain ⟨p, hp, hlong⟩ := h
  unfold mqttCodecSubscribeLogged
  split
  · rfl
  · refine constructTopicPacketLogged_refused _ _ (fun b log ms => ?_) traceLog ms
    exact addListItemsLogged_long false ⟨subscribeItem p, List.mem_map_of_mem hp, hlong⟩ b log ms

theorem mqttCodecUnsubscribeLogged_long (packetId : UInt16) {unsubscribeList : List CString}
    (h : ∃ t ∈ unsubscribeList, ushrtMax < t.strlen) (traceLog : StringHandle) (ms : Mallocs) :
    (mqttCodecUnsubscribeLogged packetId unsubscribeList traceLog ms).1 = none := by
  obtain ⟨t, ht, hlong⟩ := h
  unfold mqttCodecUnsubscribeLogged
  split
  · rfl
  · refine constructTopicPacketLogged_refused _ _ (fun b log ms => ?_) traceLog ms
    exact addListItemsLogged_long true ⟨unsubscribeItem t, List.mem_map_of_mem ht, hlong⟩ b log ms

/-- SUBSCRIBE and UNSUBSCRIBE carry exactly what they are given, and are not built when a topic
    does not fit. -/
theorem mqttCodecTopics_parse (packetId : UInt16) (traceLog : StringHandle) {ms : Mallocs} (hm : Succeed ms) :
    (∀ subscribeList : List SubscribePayload, subscribeList ≠ [] →
      ((∀ p ∈ subscribeList, p.subscribeTopic.strlen ≤ ushrtMax) →
        2 + (subscribeList.map fun p => p.subscribeTopic.strlen + 3).sum ≤ Wire.maxRemainingLength →
        ∃ packet, (mqttCodecSubscribe packetId subscribeList ms).1 = some packet ∧
          (mqttCodecSubscribeLogged packetId subscribeList traceLog ms).1 = some packet ∧
          Wire.parseSubscribe packet.bytes =
            some ⟨packetId.toNat, subscribeList.map fun p => (p.subscribeTopic.bytes, p.qosReturn.value)⟩) ∧
      ((∃ p ∈ subscribeList, ushrtMax < p.subscribeTopic.strlen) →
        (mqttCodecSubscribe packetId subscribeList ms).1 = none ∧
        (mqttCodecSubscribeLogged packetId subscribeList traceLog ms).1 = none)) ∧
    (∀ unsubscribeList : List CString, unsubscribeList ≠ [] →
      ((∀ t ∈ unsubscribeList, t.strlen ≤ ushrtMax) →
        2 + (unsubscribeList.map fun t => t.strlen + 2).sum ≤ Wire.maxRemainingLength →
        ∃ packet, (mqttCodecUnsubscribe packetId unsubscribeList ms).1 = some packet ∧
          (mqttCodecUnsubscribeLogged packetId unsubscribeList traceLog ms).1 = some packet ∧
          Wire.parseUnsubscribe packet.bytes = some ⟨packetId.toNat, unsubscribeList.map CString.bytes⟩) ∧
      ((∃ t ∈ unsubscribeList, ushrtMax < t.strlen) →
        (mqttCodecUnsubscribe packetId unsubscribeList ms).1 = none ∧
        (mqttCodecUnsubscribeLogged packetId unsubscribeList traceLog ms).1 = none)) := by
  refine ⟨fun subscribeList hne => ⟨?_, ?_⟩, fun unsubscribeList hne => ⟨?_, ?_⟩⟩
  · intro ht hlen
    obtain ⟨packet, hp, hparse⟩ := mqttCodecSubscribeLogged_parses packetId hne ht hlen
    exact ⟨packet, (mqttCodecSubscribeLogged_none packetId subscribeList ms).symm.trans (hp none ms hm), hp traceLog ms hm,
      hparse⟩
  · intro hlong
    have h := mqttCodecSubscribeLogged_long packetId hlong
    exact ⟨(mqttCodecSubscribeLogged_none packetId subscribeList ms).symm.trans (h none ms), h traceLog ms⟩
  · intro ht hlen
    obtain ⟨packet, hp, hparse⟩ := mqttCodecUnsubscribeLogged_parses packetId hne ht hlen
    exact ⟨packet, (mqttCodecUnsubscribeLogged_none packetId unsubscribeList ms).symm.trans (hp none ms hm),
      hp traceLog ms hm, hparse⟩
  · intro hlong
    have h := mqttCodecUnsubscribeLogged_long packetId hlong
    exact ⟨(mqttCodecUnsubscribeLogged_none packetId unsubscribeList ms).symm.trans (h none ms), h traceLog ms⟩

/-- Two subscriptions with a trace log, and an unsubscription whose last topic does not fit. -/
theorem mqttCodecTopics_parse_lamp :
    (∃ packet, (mqttCodecSubscribe 7 [⟨lamp, .deliverExactlyOnce⟩, ⟨gone, .deliverFailure⟩] []).1 = some packet ∧
      (mqttCodecSubscribeLogged 7 [⟨lamp, .deliverExactlyOnce⟩, ⟨gone, .deliverFailure⟩] (some []) []).1 = some packet ∧
      Wire.parseSubscribe packet.bytes = some ⟨(7 : UInt16).toNat,
        [⟨lamp, .deliverExactlyOnce⟩, ⟨gone, .deliverFailure⟩].map fun p : SubscribePayload =>
          (p.subscribeTopic.bytes, p.qosReturn.value)⟩) ∧
    (mqttCodecUnsubscribe 7 [lamp, longTopic] []).1 = none ∧
    (mqttCodecUnsubscribeLogged 7 [lamp, longTopic] (some []) []).1 = none :=
  ⟨((mqttCodecTopics_parse 7 (some []) succeed_nil).1 [⟨lamp, .deliverExactlyOnce⟩, ⟨gone, .deliverFailure⟩]
      (List.cons_ne_nil _ _)).1 (by decide) (by decide),
    ((mqttCodecTopics_parse 7 (some []) succeed_nil).2 [lamp, longTopic] (List.cons_ne_nil _ _)).2
      ⟨longTopic, List.mem_cons_of_mem _ List.mem_cons_self, longTopic_long⟩⟩

end UMqtt.Codec

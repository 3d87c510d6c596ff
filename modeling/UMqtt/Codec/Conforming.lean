/-
  UMqtt.Codec.Conforming — what a server reads of the packets that the encoders build.

  The codec does not look at everything: it builds a CONNECT without a client identifier, and a
  packet too long for its length field. `Request.Checked` is what is left to the caller. Then
  a packet that was built fits (`encode_built`), and a server reads it to the end as exactly what
  was asked for (`readClientPacket_packet`).
-/

import UMqtt.Wire.Server
import UMqtt.Codec.AllOrNothing

namespace UMqtt.Codec

open UMqtt.Lib UMqtt.Lib.Supply UMqtt.Crt

/-- The level that a message is published at: what is neither 0 nor 1 is taken for 2. -/
def QosValue.published : QosValue → QosValue
  | .deliverAtMostOnce => .deliverAtMostOnce
  | .deliverAtLeastOnce => .deliverAtLeastOnce
  | _ => .deliverExactlyOnce

namespace Request

def meaning : Request → Wire.ClientPacket
  | connect o => .connect (carried o)
  | publish qosValue duplicateMsg serverRetain packetId topicName msgBuffer => .publish
    { flags := publishNibble duplicateMsg qosValue.published serverRetain, topic := topicName.bytes,
      packetId := if qosValue = .deliverAtMostOnce then none else some packetId.toNat, payload := msgBuffer }
  | publishAck packetId => .puback packetId.toNat
  | publishReceived packetId => .pubrec packetId.toNat
  | publishRelease packetId => .pubrel packetId.toNat
  | publishComplete packetId => .pubcomp packetId.toNat
  | subscribe packetId subscribeList => .subscribe
    ⟨packetId.toNat, subscribeList.map fun p => (p.subscribeTopic.bytes, p.qosReturn.value)⟩
  | unsubscribe packetId unsubscribeList => .unsubscribe ⟨packetId.toNat, unsubscribeList.map CString.bytes⟩
  | ping => .pingreq
  | disconnect => .disconnect

end Request

/-! ## Reading a packet back -/

section Reading

theorem QosValue.published_level (qosValue : QosValue) : qosValue.published.Level := by
  cases qosValue <;> simp [QosValue.published, QosValue.Level]

theorem publishFlags_published (qosValue : QosValue) (duplicateMsg serverRetain : Bool) :
    publishFlags qosValue duplicateMsg serverRetain = publishFlags qosValue.published duplicateMsg serverRetain := by
  cases qosValue <;> rfl

theorem published_zero_iff (qosValue : QosValue) :
    qosValue.published.value.toNat = 0 ↔ qosValue = .deliverAtMostOnce := by
  cases qosValue <;> simp [QosValue.published, QosValue.value]

/-- The flags of a PUBLISH in its first byte, whatever the QoS is. -/
theorem publishFlags_header (qosValue : QosValue) (duplicateMsg serverRetain : Bool) :
    (ControlPacketType.publish.value ||| publishFlags qosValue duplicateMsg serverRetain).toNat =
        48 + publishNibble duplicateMsg qosValue.published serverRetain ∧
      publishNibble duplicateMsg qosValue.published serverRetain < 16 ∧
      Wire.publishQos (publishNibble duplicateMsg qosValue.published serverRetain) = qosValue.published.value.toNat := by
  rw [publishFlags_published]
  exact publish_header qosValue.published_level duplicateMsg serverRetain

theorem parsePublish_packet (qosValue : QosValue) (duplicateMsg serverRetain : Bool) (packetId : UInt16) {topicName : CString}
    (ht : topicName.strlen ≤ ushrtMax) (msgBuffer : List UInt8)
    (hb : (publishBody qosValue packetId topicName msgBuffer).length < 2 ^ 28) :
    Wire.parsePublish (framed .publish (publishFlags qosValue duplicateMsg serverRetain)
        (publishBody qosValue packetId topicName msgBuffer)) =
      some ⟨publishNibble duplicateMsg qosValue.published serverRetain, topicName.bytes,
        if qosValue = .deliverAtMostOnce then none else some packetId.toNat, msgBuffer⟩ := by
  obtain ⟨hheader, hflags, hqos⟩ := publishFlags_header qosValue duplicateMsg serverRetain
  have hlevel : Wire.publishQos (publishNibble duplicateMsg qosValue.published serverRetain) ≤ 2 := by
    rw [hqos]
    cases qosValue <;> simp [QosValue.published, QosValue.value]
  have hlen := Wire.readLength_encode (n := (publishBody qosValue packetId topicName msgBuffer).length)
    (by simp only [Wire.maxRemainingLength]; omega) (publishBody qosValue packetId topicName msgBuffer)
  rw [framed, Wire.parsePublish_frame hheader hflags hlevel hlen rfl]
  have hread := readString_utf (s := topicName.bytes) ht
  have hzero := published_zero_iff qosValue
  rw [← hqos] at hzero
  by_cases h0 : qosValue = .deliverAtMostOnce
  · rw [h0] at hzero ⊢
    simp only [publishBody, ne_eq, not_true_eq_false, if_false, List.append_nil, Wire.readPublish, hread, hzero.mpr rfl, if_true]
  · have hne : ¬ Wire.publishQos (publishNibble duplicateMsg qosValue.published serverRetain) = 0 := fun h => h0 (hzero.mp h)
    simp only [publishBody, ne_eq, h0, not_false_eq_true, if_true, List.append_assoc, Wire.readPublish, hread,
      if_neg hne, if_false, be16, List.cons_append, List.nil_append, be16_value]

theorem parseConnect_packet {o : MqttClientOptions} (ho : Sendable o) :
    Wire.parseConnect (framed .connect 0 (connectBody o)) = some (carried o) := by
  have hb := length_connectBody ho
  have hlen := Wire.readLength_encode (n := (connectBody o).length) (by simp only [Wire.maxRemainingLength]; omega)
    (connectBody o)
  exact Wire.parseConnect_frame (by decide) hlen rfl (readConnect_body ho)

theorem length_listBody_le {items : List ListItem} {packetId : UInt16} (hb : (be16 packetId ++ listBody items).length < 2 ^ 28) :
    2 + (items.map fun item => item.topic.strlen + 2 + item.tail.length).sum ≤ Wire.maxRemainingLength := by
  rw [List.length_append, length_listBody, show (be16 packetId).length = 2 from rfl] at hb
  simp only [Wire.maxRemainingLength]
  omega

/-- The packet that is built where every allocation succeeds is the packet. -/
theorem packet_of_encode {r : Request} (h : r.Fits) {packet : Buffer} (he : (r.encode []).1 = some packet) :
    packet.bytes = r.packet := by
  obtain ⟨_, hr, rfl⟩ := (Request.encode_draws h).granted (show ∀ a ∈ ([] : Mallocs).take r.allocations, Granted a by simp)
  rw [hr] at he
  rw [← Option.some.inj he, Buffer.bytes_ofBytes]

theorem parseSubscribe_packet {packetId : UInt16} {subscribeList : List SubscribePayload}
    (h : (Request.subscribe packetId subscribeList).Fits) :
    Wire.parseSubscribe (Request.subscribe packetId subscribeList).packet =
      some ⟨packetId.toNat, subscribeList.map fun p => (p.subscribeTopic.bytes, p.qosReturn.value)⟩ := by
  have hlen := length_listBody_le h.body
  rw [List.map_map] at hlen
  obtain ⟨packet, hp, hparse⟩ := mqttCodecSubscribeLogged_parses packetId h.strings.1 h.strings.2 hlen
  have hnone := mqttCodecSubscribeLogged_none packetId subscribeList []
  rw [← packet_of_encode h (hnone.symm.trans (hp none [] succeed_nil))]
  exact hparse

theorem parseUnsubscribe_packet {packetId : UInt16} {unsubscribeList : List CString}
    (h : (Request.unsubscribe packetId unsubscribeList).Fits) :
    Wire.parseUnsubscribe (Request.unsubscribe packetId unsubscribeList).packet =
      some ⟨packetId.toNat, unsubscribeList.map CString.bytes⟩ := by
  have hlen := length_listBody_le h.body
  rw [List.map_map] at hlen
  obtain ⟨packet, hp, hparse⟩ := mqttCodecUnsubscribeLogged_parses packetId h.strings.1 h.strings.2 hlen
  have hnone := mqttCodecUnsubscribeLogged_none packetId unsubscribeList []
  rw [← packet_of_encode h (hnone.symm.trans (hp none [] succeed_nil))]
  exact hparse

/-- A packet identifier reads back. -/
theorem readPacketId_be16 (type flags : Nat) (packetId : UInt16) :
    Wire.readPacketId flags ⟨type, flags, be16 packetId⟩ = some packetId.toNat := by
  simp only [Wire.readPacketId, be16, if_true, be16_value]

/-- A server reads every packet to its end, as what was asked for. -/
theorem readClientPacket_packet {r : Request} (h : r.Fits) : Wire.readClientPacket r.packet = some r.meaning := by
  have hb := h.body
  have hlen := Wire.readLength_encode (n := r.body.length) (by simp only [Wire.maxRemainingLength]; omega) r.body
  have hframe := Wire.readClientPacket_frame (r.type.value ||| r.flags) hlen rfl
  rw [show (r.type.value ||| r.flags) :: (Base128.encode r.body.length ++ r.body) = r.packet from rfl] at hframe
  rw [hframe]
  cases r with
  | connect o =>
    have htype : (ControlPacketType.connect.value ||| 0).toNat / 16 = 1 := rfl
    simp only [Wire.readByType, Request.type, Request.flags, htype]
    exact congrArg (Option.map Wire.ClientPacket.connect) (parseConnect_packet h.strings)
  | publish qosValue duplicateMsg serverRetain packetId topicName msgBuffer =>
    obtain ⟨hheader, hflags, -⟩ := publishFlags_header qosValue duplicateMsg serverRetain
    have htype : (ControlPacketType.publish.value ||| publishFlags qosValue duplicateMsg serverRetain).toNat / 16 = 3 := by omega
    simp only [Wire.readByType, Request.type, Request.flags, htype]
    exact congrArg (Option.map Wire.ClientPacket.publish)
      (parsePublish_packet qosValue duplicateMsg serverRetain packetId h.strings msgBuffer hb)
  | publishAck packetId =>
    have htype : (ControlPacketType.puback.value ||| 0).toNat / 16 = 4 := rfl
    simp only [Wire.readByType, Request.type, Request.flags, htype]
    exact congrArg (Option.map Wire.ClientPacket.puback) (readPacketId_be16 4 0 packetId)
  | publishReceived packetId =>
    have htype : (ControlPacketType.pubrec.value ||| 0).toNat / 16 = 5 := rfl
    simp only [Wire.readByType, Request.type, Request.flags, htype]
    exact congrArg (Option.map Wire.ClientPacket.pubrec) (readPacketId_be16 5 0 packetId)
  | publishRelease packetId =>
    have htype : (ControlPacketType.pubrel.value ||| 2).toNat / 16 = 6 := rfl
    simp only [Wire.readByType, Request.type, Request.flags, htype]
    exact congrArg (Option.map Wire.ClientPacket.pubrel) (readPacketId_be16 6 2 packetId)
  | publishComplete packetId =>
    have htype : (ControlPacketType.pubcomp.value ||| 0).toNat / 16 = 7 := rfl
    simp only [Wire.readByType, Request.type, Request.flags, htype]
    exact congrArg (Option.map Wire.ClientPacket.pubcomp) (readPacketId_be16 7 0 packetId)
  | subscribe packetId subscribeList =>
    have htype : (ControlPacketType.subscribe.value ||| 2).toNat / 16 = 8 := rfl
    simp only [Wire.readByType, Request.type, Request.flags, htype]
    exact congrArg (Option.map Wire.ClientPacket.subscribe) (parseSubscribe_packet h)
  | unsubscribe packetId unsubscribeList =>
    have htype : (ControlPacketType.unsubscribe.value ||| 2).toNat / 16 = 10 := rfl
    simp only [Wire.readByType, Request.type, Request.flags, htype]
    exact congrArg (Option.map Wire.ClientPacket.unsubscribe) (parseUnsubscribe_packet h)
  | ping => rfl
  | disconnect => rfl

end Reading

/-! ## What is left to the caller -/

/-- No string but the client identifier is empty, and the QoS of a will is one. -/
structure Tidy (o : MqttClientOptions) : Prop where
  nonempty : ∀ s ∈ [o.willTopic, o.willMessage, o.username, o.password], ∀ t ∈ s, t.bytes ≠ []
  qos : o.qualityOfServiceValue ∈ [.deliverAtMostOnce, .deliverAtLeastOnce, .deliverExactlyOnce]

/-- What the codec does not look at. -/
def Request.Checked : Request → Prop
  | .connect o => Tidy o ∧ o.clientId.isSome
  | r => r.body.length < 2 ^ 28

instance (o : MqttClientOptions) : Decidable (Tidy o) :=
  decidable_of_iff ((∀ s ∈ [o.willTopic, o.willMessage, o.username, o.password], ∀ t ∈ s, t.bytes ≠ []) ∧
    o.qualityOfServiceValue ∈ [.deliverAtMostOnce, .deliverAtLeastOnce, .deliverExactlyOnce])
    ⟨fun h => ⟨h.1, h.2⟩, fun h => ⟨h.nonempty, h.qos⟩⟩

instance : DecidablePred Request.Checked := fun r => by
  cases r <;> unfold Request.Checked <;> infer_instance

section Built

variable {ms ms' : Mallocs} {packet : Buffer}

theorem Tidy.sendable {o : MqttClientOptions} (ht : Tidy o) (hid : o.clientId.isSome) (ha : Accepted o) : Sendable o := by
  have hpos : ∀ {s}, s ∈ [o.willTopic, o.willMessage, o.username, o.password] → (0 < optionLen s ↔ s.isSome) :=
    fun hs => optionLen_pos (ht.nonempty _ hs)
  refine ⟨hid, ht.nonempty, ?_, ?_, ha.fits, ht.qos⟩
  · have hwill := ha.will
    rw [hpos (by simp), hpos (by simp)] at hwill
    exact Bool.eq_iff_iff.mpr hwill.symm
  · have hpassword := ha.password
    rw [hpos (by simp), hpos (by simp)] at hpassword
    exact hpassword

/-- A CONNECT that is built has passed the checks of its payload. -/
theorem connect_accepted {o : MqttClientOptions} (h : mqttCodecConnect o ms = (some packet, ms')) : Accepted o := by
  unfold mqttCodecConnect at h
  split at h
  · cases h
  · split at h
    · rename_i result ms2 _
      split at h
      · rename_i hp
        exact (constructConnPayload_zero (congrArg Prod.fst hp)).1
      · cases h
    · cases h

/-- A packet that is built fits, and is whole. -/
theorem encode_built {r : Request} (hc : r.Checked) (he : r.encode ms = (some packet, ms')) :
    r.Fits ∧ packet.bytes = r.packet := by
  have hfits : r.Fits := by
    cases r with
    | connect o =>
      have ho := hc.1.sendable hc.2 (connect_accepted he)
      exact ⟨ho, length_connectBody ho⟩
    | publish qosValue duplicateMsg serverRetain packetId topicName msgBuffer =>
      refine ⟨?_, hc⟩
      by_contra hlong
      have hnone := mqttCodecPublish_long qosValue duplicateMsg serverRetain packetId (Nat.lt_of_not_le hlong) msgBuffer ms
      have hsome := congrArg Prod.fst he
      exact absurd (hsome.symm.trans hnone) (by simp)
    | subscribe packetId subscribeList =>
      have hne : subscribeList ≠ [] := by
        rintro rfl
        cases he
      refine ⟨⟨hne, fun p hp => ?_⟩, hc⟩
      by_contra hlong
      have hnone := mqttCodecSubscribeLogged_long packetId ⟨p, hp, Nat.lt_of_not_le hlong⟩ none ms
      rw [mqttCodecSubscribeLogged_none, show mqttCodecSubscribe _ _ _ = _ from he] at hnone
      cases hnone
    | unsubscribe packetId unsubscribeList =>
      have hne : unsubscribeList ≠ [] := by
        rintro rfl
        cases he
      refine ⟨⟨hne, fun t ht => ?_⟩, hc⟩
      by_contra hlong
      have hnone := mqttCodecUnsubscribeLogged_long packetId ⟨t, ht, Nat.lt_of_not_le hlong⟩ none ms
      rw [mqttCodecUnsubscribeLogged_none, show mqttCodecUnsubscribe _ _ _ = _ from he] at hnone
      cases hnone
    | _ => exact ⟨trivial, hc⟩
  refine ⟨hfits, ?_⟩
  have hdraws := Request.encode_draws hfits
  by_cases hall : ∀ a ∈ ms.take r.allocations, Granted a
  · obtain ⟨_, hr, rfl⟩ := hdraws.granted hall
    rw [hr] at he
    rw [← Option.some.inj (congrArg Prod.fst he), Buffer.bytes_ofBytes]
  · have hnone := hdraws.refused hall
    rw [he] at hnone
    cases hnone

/-- Whatever the allocator answers, a packet that an encoder returns is read by a server, to its
    last byte, as what was asked for. -/
theorem encode_understood {r : Request} (hc : r.Checked) (he : r.encode ms = (some packet, ms')) :
    Wire.readClientPacket packet.bytes = some r.meaning := by
  obtain ⟨hfits, hbytes⟩ := encode_built hc he
  rw [hbytes]
  exact readClientPacket_packet hfits

end Built

/-- The seventh block is not asked for. -/
theorem publish_understood :
    ∃ packet, (Request.publish .deliverAtLeastOnce false true 9 lamp [0x6f, 0x6e]).encode
        (List.replicate 6 (some fun _ => 0xAA) ++ [none]) = (some packet, [none]) ∧
      Wire.readClientPacket packet.bytes = some (.publish ⟨3, lamp.bytes, some 9, [0x6f, 0x6e]⟩) := by
  have hc : (Request.publish .deliverAtLeastOnce false true 9 lamp [0x6f, 0x6e]).Checked :=
    show List.length _ < 2 ^ 28 by decide
  have hfits : (Request.publish .deliverAtLeastOnce false true 9 lamp [0x6f, 0x6e]).Fits := ⟨by decide, hc⟩
  have hgranted : ∀ a ∈ (List.replicate 6 (some fun _ => 0xAA) ++ [none] : Mallocs).take 6, Granted a := by
    simp [List.replicate, Granted]
  obtain ⟨packet, he, -⟩ := (Request.encode_draws hfits).granted hgranted
  exact ⟨packet, he, encode_understood hc he⟩

end UMqtt.Codec

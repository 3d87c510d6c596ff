/-
  UMqtt.Client.Dispatch — well-formed inbound packets are dispatched and answered.

  The client is `Ready` (its callbacks are set, it has not disconnected, allocations and
  tick reads succeed) and its surroundings are `Quiet`: what they do does not come back
  into the client. Then each packet has its `events`, the callback with the decoded
  fields and the reply if there is one, and a stream of packets has theirs in order,
  however it is cut (`received_events`).
-/

import UMqtt.Codec.Framing
import UMqtt.Client.Reads

namespace UMqtt.Client

open UMqtt.Lib UMqtt.Crt UMqtt.Codec UMqtt.Io

/-! ## Quiet surroundings -/

section Quiet

variable {σ : Type} {xio : Xio σ} {app : App σ}

/-- Callbacks and transport keep to their own state. A transport that has sent at once
    calls `sendComplete`, which does nothing unless a DISCONNECT is under way. -/
structure Quiet (xio : Xio σ) (app : App σ) : Prop where
  operation : ∀ o w, ∃ out, app.operation o w = { w with out := out }
  message : ∀ m w, ∃ out, app.message m w = { w with out := out }
  send : ∀ h bytes w, w.client.packetState ≠ .disconnect → ∃ r out, xio.send h bytes w = (r, { w with out := out })

/-- A client with the handle `h` that can receive. -/
structure Ready (h : Option XioHandle) (w : World σ) : Prop where
  operation : w.client.fnOperationCallback = true
  message : w.client.fnMessageRecv = true
  handle : w.client.xioHandle = h
  state : w.client.packetState ≠ .disconnect
  ticks : none ∉ w.ticks

/-- From `w` to `w'` the events `evs` happened, and the codec was left alone. -/
structure Did (h : Option XioHandle) (evs : List Event) (w w' : World σ) : Prop where
  ready : Ready h w'
  mallocs : Succeed w'.mallocs
  trace : w'.trace = w.trace ++ evs
  codec : w'.client.codec = w.client.codec

theorem quiet_inert (σ : Type) : Quiet (Xio.inert σ) (App.inert σ) :=
  ⟨fun _ w => ⟨w.out, rfl⟩, fun _ w => ⟨w.out, rfl⟩, fun _ _ w _ => ⟨0, w.out, rfl⟩⟩

def World.fresh : World Unit :=
  ⟨{ MqttClient.init true true true with xioHandle := some 0 }, [], [], false, [], ()⟩

theorem fresh_ready : Ready (some 0) World.fresh := ⟨rfl, rfl, rfl, by decide, List.not_mem_nil⟩

variable {h : Option XioHandle} {w w₁ w₂ : World σ}

theorem Did.trans {evs evs' : List Event} (h₁ : Did h evs w w₁) (h₂ : Did h evs' w₁ w₂) : Did h (evs ++ evs') w w₂ :=
  ⟨h₂.ready, h₂.mallocs, by rw [h₂.trace, h₁.trace, List.append_assoc], h₂.codec.trans h₁.codec⟩

theorem callOperation_did (hq : Quiet xio app) (hw : Ready h w) (hm : Succeed w.mallocs) (o : Operation) :
    Did h [.operation o] w (app.callOperation o w) := by
  obtain ⟨out, he⟩ := hq.operation o (w.log (.operation o))
  rw [App.callOperation, he]
  exact ⟨⟨hw.operation, hw.message, hw.handle, hw.state, hw.ticks⟩, hm, rfl, rfl⟩

theorem callMessage_did (hq : Quiet xio app) (hw : Ready h w) (hm : Succeed w.mallocs) (m : Message) :
    Did h [.message m] w (app.callMessage m w) := by
  obtain ⟨out, he⟩ := hq.message m (w.log (.message m))
  rw [App.callMessage, he]
  exact ⟨⟨hw.operation, hw.message, hw.handle, hw.state, hw.ticks⟩, hm, rfl, rfl⟩

theorem currentMs_succeed (hw : none ∉ w.ticks) :
    ∃ t ticks, w.currentMs = (some t, { w with ticks := ticks }) ∧ none ∉ ticks := by
  unfold World.currentMs
  cases ht : w.ticks with
  | nil => exact ⟨0, w.ticks, rfl, hw⟩
  | cons t ticks =>
    rw [ht] at hw
    cases t with
    | none => exact absurd List.mem_cons_self hw
    | some t => exact ⟨t, ticks, rfl, fun hm => hw (List.mem_cons_of_mem _ hm)⟩

theorem sendPacketItem_did (hq : Quiet xio app) (hw : Ready h w) (hm : Succeed w.mallocs) (data : List UInt8) :
    Did h [.send h data] w (sendPacketItem xio data w).2 := by
  obtain ⟨t, ticks, ht, hticks⟩ := currentMs_succeed hw.ticks
  simp only [sendPacketItem, ht, hw.handle, World.log]
  cases h with
  | none =>
    simp only [Xio.xioSend]
    exact ⟨⟨hw.operation, hw.message, rfl, hw.state, hticks⟩, hm, rfl, rfl⟩
  | some n =>
    obtain ⟨r, out, hs⟩ := hq.send n data { w with
      client := { w.client with packetSendTimeMs := t }, ticks := ticks,
      trace := w.trace ++ [.send (some n) data] } hw.state
    simp only [hw.handle] at hs
    simp only [Xio.xioSend, hs]
    exact ⟨⟨hw.operation, hw.message, rfl, hw.state, hticks⟩, hm, rfl, rfl⟩

theorem sendReply_did (hq : Quiet xio app) (hw : Ready h w) (hm : Succeed w.mallocs)
    {reply : UInt16 → Mallocs → Option Buffer × Mallocs} (type : ControlPacketType) (flags : UInt8)
    (hr : reply = constructPublishReply type flags) (packetId : UInt16) :
    Did h [.send h ((type.value ||| flags) :: 2 :: be16 packetId)] w (sendReply xio app reply packetId w) := by
  obtain ⟨ms', he, hs⟩ := constructPublishReply_succeed hm type flags packetId
  simp only [sendReply, hr, he, Buffer.bytes_ofBytes]
  have hw' : Ready h { w with mallocs := ms' } := ⟨hw.operation, hw.message, hw.handle, hw.state, hw.ticks⟩
  have := sendPacketItem_did hq hw' hs ((type.value ||| flags) :: 2 :: be16 packetId)
  exact ⟨this.ready, this.mallocs, this.trace, this.codec⟩

/-- Recording that the connection is accepted is no event. -/
theorem setConnected_did (hw : Ready h w) (hm : Succeed w.mallocs) :
    Did h [] w { w with client := { w.client with clientConnected := true } } :=
  ⟨⟨hw.operation, hw.message, hw.handle, hw.state, hw.ticks⟩, hm, by simp, rfl⟩

theorem pingSeen_did (hw : Ready h w) (hm : Succeed w.mallocs) :
    Did h [] w { w with client := { w.client with timeSincePing := 0 } } :=
  ⟨⟨hw.operation, hw.message, hw.handle, hw.state, hw.ticks⟩, hm, by simp, rfl⟩

end Quiet

/-! ## Reading what was written -/

theorem be16_value (v : UInt16) :
    UInt16.ofNat (256 * (UInt8.ofNat (v.toNat / 256)).toNat + (UInt8.ofNat (v.toNat % 256)).toNat) = v := by
  have hv := v.toNat_lt
  rw [Base128.toNat_ofNat_lt (by omega), Base128.toNat_ofNat_lt (by omega), ← UInt16.toNat_inj, UInt16.toNat_ofNat']
  omega

theorem length_be16 (v : UInt16) : (be16 v).length = 2 := rfl

theorem read_be16 (pre : List UInt8) (v : UInt16) (post : List UInt8) (acc : List Access) {len : Nat} (hlen : 2 ≤ len) :
    (Reader.mk (pre ++ (be16 v ++ post)) pre.length acc).byteutilReadUint16 len =
      (v, ⟨pre ++ (be16 v ++ post), pre.length + 2, acc ++ [.read pre.length] ++ [.read (pre.length + 1)]⟩) := by
  have h0 : (pre ++ (be16 v ++ post))[pre.length]? = some (UInt8.ofNat (v.toNat / 256)) := by simp [be16]
  have h1 : (pre ++ (be16 v ++ post))[pre.length + 1]? = some (UInt8.ofNat (v.toNat % 256)) := by
    rw [List.getElem?_append_right (by omega)]; simp [be16]
  simp only [Reader.byteutilReadUint16, if_pos hlen, Reader.peek, Nat.add_zero, h0, h1, Option.getD_some, be16_value,
    Reader.note]

theorem read_utf {s : CString} (hne : s.bytes ≠ []) (hlen : s.strlen ≤ ushrtMax) (post : List UInt8) (acc : List Access)
    (len : Nat) (h2 : 2 ≤ len) {ms : Mallocs} (hm : Succeed ms) :
    ∃ acc' ms', (Reader.mk (utf s.bytes ++ post) 0 acc).byteutilReadUTF len ms =
      (some s, ⟨utf s.bytes ++ post, (utf s.bytes).length, acc'⟩, ms') ∧ Succeed ms' := by
  have hpos : 0 < s.bytes.length := List.length_pos_iff.mpr hne
  have hmax : s.bytes.length ≤ 65535 := hlen
  have htoNat : (UInt16.ofNat s.bytes.length).toNat = s.bytes.length := by rw [UInt16.toNat_ofNat']; omega
  have hr := read_be16 [] (UInt16.ofNat s.bytes.length) (s.bytes ++ post) acc h2
  simp only [List.nil_append, List.length_nil, Nat.zero_add, ← List.append_assoc (be16 _)] at hr
  obtain ⟨block, ms', hmal, -, hs⟩ := malloc_succeed hm (s.bytes.length + 1)
  refine ⟨acc ++ [.read 0] ++ [.read 1] ++ [.copy 2 s.bytes.length], ms', ?_, hs⟩
  have htake : ((utf s.bytes ++ post).drop 2).take s.bytes.length = s.bytes := by simp [utf, be16]
  simp only [utf] at htake ⊢
  simp only [Reader.byteutilReadUTF, hr, htoNat, if_pos hpos, hmal, Reader.memcpy, htake, CString.ofBlock_bytes,
    Reader.note, List.length_append, length_be16]

/-- A PUBLISH whose topic fits becomes a message, with the id and payload that its QoS puts
    behind the topic. -/
theorem decodePublish_message {s : CString} (hne : s.bytes ≠ []) (hlen : s.strlen ≤ ushrtMax) (flags : UInt8)
    (post : List UInt8) (acc : List Access) {ms : Mallocs} (hm : Succeed ms) :
    ∃ packetId payload, (decodePublish flags ⟨utf s.bytes ++ post, 0, acc⟩ (utf s.bytes ++ post).length ms).verdict =
      .publish { Message.owned packetId s (qosFlag flags) payload with
        isDuplicateMsg := isDuplicateFlag flags, isMessageRetained := isRetainFlag flags } ∧
      Succeed (decodePublish flags ⟨utf s.bytes ++ post, 0, acc⟩ (utf s.bytes ++ post).length ms).mallocs ∧
      (qosFlag flags = .deliverAtMostOnce → packetId = 0 ∧ payload = post) ∧
      (∀ id rest, qosFlag flags ≠ .deliverAtMostOnce → post = be16 id ++ rest → packetId = id ∧ payload = rest) := by
  have hfull : (utf s.bytes ++ post).length = (utf s.bytes).length + post.length := List.length_append
  have hutf := length_utf s.bytes
  have hfirst : (Reader.mk (utf s.bytes ++ post) 0 acc).remaining (utf s.bytes ++ post).length =
      ((utf s.bytes ++ post).length, ⟨utf s.bytes ++ post, 0, acc ++ [.sub (utf s.bytes ++ post).length 0]⟩) := by
    simp only [Reader.remaining, Reader.note, subSize, Nat.zero_le, if_true, Nat.sub_zero]
  obtain ⟨acc1, ms1, hr, hs1⟩ := read_utf hne hlen post (acc ++ [.sub (utf s.bytes ++ post).length 0])
    (utf s.bytes ++ post).length (by omega) hm
  -- what is read behind the topic: an id and the rest of the body
  have hid : ∃ packetId payload n acc2, readPacketId (qosFlag flags)
        ⟨utf s.bytes ++ post, (utf s.bytes).length, acc1⟩ (utf s.bytes ++ post).length =
        (packetId, ⟨utf s.bytes ++ post, n, acc2⟩) ∧ n ≤ (utf s.bytes ++ post).length ∧
      (utf s.bytes ++ post).drop n = payload ∧
      (qosFlag flags = .deliverAtMostOnce → packetId = 0 ∧ payload = post) ∧
      (∀ id rest, qosFlag flags ≠ .deliverAtMostOnce → post = be16 id ++ rest → packetId = id ∧ payload = rest) := by
    have hsub : subSize (utf s.bytes ++ post).length (utf s.bytes).length = post.length := by
      rw [subSize, if_pos (by omega)]; omega
    by_cases hq : qosFlag flags = .deliverAtMostOnce
    · refine ⟨0, post, (utf s.bytes).length, acc1 ++ [.sub (utf s.bytes ++ post).length (utf s.bytes).length], ?_, by omega,
        List.drop_left, fun _ => ⟨rfl, rfl⟩, fun _ _ h => absurd hq h⟩
      simp only [readPacketId, Reader.remaining, Reader.note, hq, ne_eq, not_true_eq_false, if_false]
    · by_cases h2 : 2 ≤ post.length
      · obtain ⟨a, b, rest, rfl⟩ : ∃ a b rest, post = a :: b :: rest := by
          rcases post with _ | ⟨a, _ | ⟨b, rest⟩⟩
          · simp at h2
          · simp at h2
          · exact ⟨a, b, rest, rfl⟩
        refine ⟨UInt16.ofNat (256 * a.toNat + b.toNat), rest, (utf s.bytes).length + 2,
          acc1 ++ [.sub (utf s.bytes ++ a :: b :: rest).length (utf s.bytes).length] ++ [.read (utf s.bytes).length] ++
            [.read ((utf s.bytes).length + 1)], ?_,
          by simp only [List.length_append, List.length_cons]; omega, ?_, fun h => absurd h hq, ?_⟩
        · simp only [readPacketId, Reader.remaining, Reader.note, hq, ne_eq, not_false_eq_true, if_true, hsub,
            Reader.byteutilReadUint16, if_pos h2, Reader.peek, Nat.add_zero,
            List.getElem?_append_right (Nat.le_refl (utf s.bytes).length),
            List.getElem?_append_right (Nat.le_add_right (utf s.bytes).length 1), Nat.sub_self, Nat.add_sub_cancel_left,
            List.getElem?_cons_zero, List.getElem?_cons_succ, Option.getD_some]
        · rw [← List.drop_drop, List.drop_left]; rfl
        · intro id rest' _ he
          simp only [be16, List.cons_append, List.nil_append, List.cons.injEq] at he
          obtain ⟨rfl, rfl, rfl⟩ := he
          exact ⟨be16_value id, rfl⟩
      · refine ⟨0, post, (utf s.bytes).length, acc1 ++ [.sub (utf s.bytes ++ post).length (utf s.bytes).length], ?_,
          by omega, List.drop_left, fun h => absurd h hq, ?_⟩
        · simp only [readPacketId, Reader.remaining, Reader.note, hq, ne_eq, not_false_eq_true, if_true, hsub,
            Reader.byteutilReadUint16, if_neg h2]
        · intro id rest _ he
          rw [he, List.length_append, length_be16] at h2; omega
  obtain ⟨packetId, payload, n, acc2, hread, hn, hdrop, hq0, hq1⟩ := hid
  have hlast : (Reader.mk (utf s.bytes ++ post) n acc2).remaining (utf s.bytes ++ post).length =
      ((utf s.bytes ++ post).length - n, ⟨utf s.bytes ++ post, n, acc2 ++ [.sub (utf s.bytes ++ post).length n]⟩) := by
    simp only [Reader.remaining, Reader.note, subSize, if_pos hn]
  have htake : ((utf s.bytes ++ post).drop n).take ((utf s.bytes ++ post).length - n) = payload := by
    rw [← List.length_drop, List.take_length, hdrop]
  have hlength : (utf s.bytes ++ post).length - n = payload.length := by rw [← List.length_drop, hdrop]
  rw [hlength] at hlast htake
  obtain ⟨ms2, hc, hs2⟩ := mqttmessageCreate_succeed hs1 packetId s (qosFlag flags) payload
  refine ⟨packetId, payload, ?_, ?_, hq0, hq1⟩
  · simp only [decodePublish, hfirst, hr, hread, hlast, Reader.memcpy, htake, hc]
  · simp only [decodePublish, hfirst, hr, hread, hlast, Reader.memcpy, htake, hc]
    exact hs2

/-! ## Well-formed packets -/

inductive AckKind where
  | puback
  | pubrec
  | pubrel
  | pubcomp
  deriving DecidableEq, Repr

def AckKind.type : AckKind → ControlPacketType
  | .puback => .puback
  | .pubrec => .pubrec
  | .pubrel => .pubrel
  | .pubcomp => .pubcomp

theorem AckKind.onWire (kind : AckKind) : kind.type.OnWire := by cases kind <;> decide

theorem AckKind.sized (kind : AckKind) (packetId : UInt16) : Sized kind.type (be16 packetId) :=
  sized_body (by cases kind <;> decide) (by rw [length_be16]; decide) (by rw [length_be16]; decide)

theorem connack_sized (session returnCode : UInt8) : Sized .connack [session, returnCode] :=
  sized_body (by decide) (by simp) (by simp)

theorem suback_sized (packetId : UInt16) {codes : List UInt8} (h : codes.length + 2 ≤ 2097151) :
    Sized .suback (be16 packetId ++ codes) := by
  have hlen : (be16 packetId ++ codes).length = codes.length + 2 := by rw [List.length_append, length_be16]; omega
  exact sized_body (by decide) (by omega) (by omega)

theorem unsuback_sized (packetId : UInt16) : Sized .unsuback (be16 packetId) :=
  sized_body (by decide) (by rw [length_be16]; decide) (by rw [length_be16]; decide)

/-- A PUBLISH with QoS 2 or, if not `exactlyOnce`, QoS 1. -/
structure InboundPublish where
  exactlyOnce : Bool
  isDuplicate : Bool
  isRetained : Bool
  topic : CString
  packetId : UInt16
  payload : List UInt8
  nonempty : topic.bytes ≠ []
  topicFits : topic.strlen ≤ ushrtMax
  short : (utf topic.bytes ++ (be16 packetId ++ payload)).length ≤ 2097151

inductive Inbound where
  | connack (flags : Fin 16) (session returnCode : UInt8)
  | publish (p : InboundPublish)
  | publishAck (flags : Fin 16) (kind : AckKind) (packetId : UInt16)
  | subscribeAck (flags : Fin 16) (packetId : UInt16) (codes : List UInt8) (nonempty : codes ≠ [])
      (short : codes.length + 2 ≤ 2097151)
  | unsubscribeAck (flags : Fin 16) (packetId : UInt16)
  | pingResponse (flags : Fin 16)

namespace InboundPublish

theorem flags_lt (p : InboundPublish) :
    (if p.isDuplicate then 8 else 0) + (if p.exactlyOnce then 4 else 2) + (if p.isRetained then 1 else 0) < 16 := by
  repeat' split
  all_goals decide

def flags (p : InboundPublish) : Fin 16 :=
  ⟨(if p.isDuplicate then 8 else 0) + (if p.exactlyOnce then 4 else 2) + (if p.isRetained then 1 else 0), p.flags_lt⟩

def qos (p : InboundPublish) : QosValue := if p.exactlyOnce then .deliverExactlyOnce else .deliverAtLeastOnce

def body (p : InboundPublish) : List UInt8 := utf p.topic.bytes ++ (be16 p.packetId ++ p.payload)

def message (p : InboundPublish) : Message :=
  { Message.owned p.packetId p.topic p.qos p.payload with
    isDuplicateMsg := p.isDuplicate, isMessageRetained := p.isRetained }

/-- The masks of the handler read the flags as they are meant. -/
theorem flags_read (p : InboundPublish) : qosFlag (UInt8.ofNat p.flags) = p.qos ∧
    isDuplicateFlag (UInt8.ofNat p.flags) = p.isDuplicate ∧ isRetainFlag (UInt8.ofNat p.flags) = p.isRetained := by
  have key : ∀ d e r : Bool, qosFlag (UInt8.ofNat ((if d then 8 else 0) + (if e then 4 else 2) + (if r then 1 else 0))) =
      (if e then QosValue.deliverExactlyOnce else .deliverAtLeastOnce) ∧
      isDuplicateFlag (UInt8.ofNat ((if d then 8 else 0) + (if e then 4 else 2) + (if r then 1 else 0))) = d ∧
      isRetainFlag (UInt8.ofNat ((if d then 8 else 0) + (if e then 4 else 2) + (if r then 1 else 0))) = r := by
    decide +kernel
  exact key p.isDuplicate p.exactlyOnce p.isRetained

theorem sized (p : InboundPublish) : Sized .publish p.body :=
  sized_body (by decide) (by simp only [body, List.length_append, length_utf]; omega) p.short

theorem qos_ne (p : InboundPublish) : p.qos ≠ .deliverAtMostOnce := by
  unfold qos; split <;> decide

end InboundPublish

namespace Inbound

def frame : Inbound → Frame
  | .connack flags session returnCode => ⟨.connack, flags, [session, returnCode], connack_onWire, connack_sized session returnCode⟩
  | .publish p => ⟨.publish, p.flags, p.body, publish_onWire, p.sized⟩
  | .publishAck flags kind packetId => ⟨kind.type, flags, be16 packetId, kind.onWire, kind.sized packetId⟩
  | .subscribeAck flags packetId codes _ short =>
    ⟨.suback, flags, be16 packetId ++ codes, suback_onWire, suback_sized packetId short⟩
  | .unsubscribeAck flags packetId => ⟨.unsuback, flags, be16 packetId, unsuback_onWire, unsuback_sized packetId⟩
  | .pingResponse flags => ⟨.pingresp, flags, [], pingresp_onWire, sized_nil⟩

def ackReply (h : Option XioHandle) (packetId : UInt16) : AckKind → List Event
  | .pubrec => [.send h (0x62 :: 2 :: be16 packetId)]
  | .pubrel => [.send h (0x70 :: 2 :: be16 packetId)]
  | _ => []

/-- What a client with the handle `h` does on the packet: the callback, and the reply. -/
def events (h : Option XioHandle) : Inbound → List Event
  | .connack _ session returnCode => [.operation (.connack (session == 1) returnCode)]
  | .publish p => [.message p.message, .send h ((if p.exactlyOnce then 0x50 else 0x40) :: 2 :: be16 p.packetId)]
  | .publishAck _ kind packetId => .operation (publishAction kind.type packetId) :: ackReply h packetId kind
  | .subscribeAck _ packetId codes _ _ => [.operation (.subscribeAck packetId (codes.map QosValue.ofByte))]
  | .unsubscribeAck _ packetId => [.operation (.unsubscribeAck packetId)]
  | .pingResponse _ => [.operation .pingResponse]

end Inbound

/-! ## The verdict on each of them -/

theorem readReturnCodes_all : ∀ (codes pre : List UInt8) (acc : List Access),
    (Reader.readReturnCodes codes.length ⟨pre ++ codes, pre.length, acc⟩).1 = codes.map QosValue.ofByte := by
  intro codes
  induction codes with
  | nil => intro pre acc; rfl
  | cons b codes ih =>
    intro pre acc
    have := ih (pre ++ [b]) (acc ++ [.read pre.length])
    simp only [List.append_assoc, List.singleton_append, List.length_append, List.length_singleton] at this
    simp only [List.length_cons, Reader.readReturnCodes, Reader.byteutilReadByte, Reader.peek, Nat.add_zero,
      List.getElem?_append_right (Nat.le_refl pre.length), Nat.sub_self, List.getElem?_cons_zero, Option.getD_some,
      Reader.note, this, List.map_cons]

theorem decode_inbound (p : Inbound) {client : MqttClient} (hop : client.fnOperationCallback = true)
    (hmsg : client.fnMessageRecv = true) {ms : Mallocs} (hm : Succeed ms) :
    Succeed (decode client p.frame.packet ms).mallocs ∧
    (decode client p.frame.packet ms).verdict =
      match p with
      | .connack _ session returnCode => .connack (session == 1) returnCode
      | .publish p => .publish p.message
      | .publishAck _ kind packetId => .publishAck kind.type packetId
      | .subscribeAck _ packetId codes _ _ => .subscribeAck packetId (codes.map QosValue.ofByte)
      | .unsubscribeAck _ packetId => .unsubscribeAck packetId
      | .pingResponse _ => .pingresp := by
  cases p with
  | connack flags session returnCode =>
    simp only [Inbound.frame, Frame.packet, reduceCtorEq, if_false]
    rw [decode_body client hop hmsg _ _ (by simp) ms]
    exact ⟨hm, rfl⟩
  | publish p =>
    have hbody : 1 ≤ p.body.length := by simp only [InboundPublish.body, List.length_append, length_utf]; omega
    simp only [Inbound.frame, Frame.packet, reduceCtorEq, if_false]
    rw [decode_body client hop hmsg _ _ hbody ms]
    obtain ⟨id, payload, hv, hs, -, hq⟩ := decodePublish_message p.nonempty p.topicFits (UInt8.ofNat p.flags)
      (be16 p.packetId ++ p.payload) (rawTraceAccesses client (some p.body) p.body.length) hm
    obtain ⟨hqos, hdup, hret⟩ := p.flags_read
    obtain ⟨rfl, rfl⟩ := hq p.packetId p.payload (by rw [hqos]; exact p.qos_ne) rfl
    refine ⟨hs, hv.trans ?_⟩
    rw [hqos, hdup, hret]
    rfl
  | publishAck flags kind packetId =>
    have hr := read_be16 [] packetId [] (rawTraceAccesses client (some (be16 packetId)) 2) (Nat.le_refl 2)
    simp only [List.nil_append, List.append_nil] at hr
    have hpk : (Inbound.publishAck flags kind packetId).frame.packet =
        ⟨kind.type, UInt8.ofNat flags, some (Buffer.ofBytes (be16 packetId))⟩ := by cases kind <;> rfl
    have hd : decode client ⟨kind.type, UInt8.ofNat flags, some (Buffer.ofBytes (be16 packetId))⟩ ms =
        decodePublishAck kind.type (.start client (be16 packetId)) 2 ms := by
      rw [decode_body client hop hmsg _ _ (by simp [length_be16]) ms]
      cases kind <;> rfl
    rw [hpk, hd]
    exact ⟨hm, congrArg (Verdict.publishAck kind.type) (congrArg Prod.fst hr)⟩
  | subscribeAck flags packetId codes nonempty short =>
    have hlen : (be16 packetId ++ codes).length = codes.length + 2 := by
      rw [List.length_append, length_be16]; omega
    have hr := read_be16 [] packetId codes (rawTraceAccesses client (some (be16 packetId ++ codes)) (codes.length + 2))
      (show 2 ≤ codes.length + 2 by omega)
    simp only [List.nil_append, List.length_nil, Nat.zero_add] at hr
    simp only [Inbound.frame, Frame.packet, reduceCtorEq, if_false]
    rw [decode_body client hop hmsg _ _ (by rw [hlen]; omega) ms]
    obtain ⟨block, ms', hmal, -, hs⟩ := malloc_succeed hm codes.length
    have hsub : subSize (codes.length + 2) 2 = codes.length := by rw [subSize, if_pos (by omega)]; omega
    simp only [decodeSuback, hlen, Reader.start, hr, hsub, hmal, Reader.note]
    refine ⟨hs, congrArg (Verdict.subscribeAck packetId) ?_⟩
    exact readReturnCodes_all codes (be16 packetId) _
  | unsubscribeAck flags packetId =>
    have hr := read_be16 [] packetId [] (rawTraceAccesses client (some (be16 packetId)) 2) (Nat.le_refl 2)
    simp only [List.nil_append, List.append_nil] at hr
    simp only [Inbound.frame, Frame.packet, reduceCtorEq, if_false]
    rw [decode_body client hop hmsg _ _ (by simp [length_be16]) ms]
    exact ⟨hm, congrArg Verdict.unsubscribeAck (congrArg Prod.fst hr)⟩
  | pingResponse flags =>
    simp only [Inbound.frame, Frame.packet, if_true, decode, ne_eq, not_true_eq_false, and_false, if_false]
    exact ⟨hm, trivial⟩

/-! ## Dispatch -/

section Dispatch

variable {σ : Type} {xio : Xio σ} {app : App σ} {h : Option XioHandle}

theorem act_did (hq : Quiet xio app) (p : Inbound) {w : World σ} (hw : Ready h w) {ms : Mallocs} (hm : Succeed ms)
    (hmw : Succeed w.mallocs) {verdict : Verdict} (hv : verdict = (decode w.client p.frame.packet ms).verdict) :
    Did h (p.events h) w (act xio app verdict w) := by
  rw [(decode_inbound p hw.operation hw.message hm).2] at hv
  subst hv
  cases p with
  | connack flags session returnCode =>
    have hcall := callOperation_did hq hw hmw (.connack (session == 1) returnCode)
    simp only [act, Inbound.events]
    split
    · simpa using hcall.trans (setConnected_did hcall.ready hcall.mallocs)
    · exact hcall
  | publish p =>
    have hcall := callMessage_did hq hw hmw p.message
    simp only [act, Inbound.events]
    by_cases he : p.exactlyOnce = true
    · have hqos : p.message.qosInfo = .deliverExactlyOnce := by
        simp only [InboundPublish.message, Message.owned, InboundPublish.qos, he, if_true]
      simp only [hqos, he, if_true]
      exact hcall.trans (sendReply_did hq hcall.ready hcall.mallocs .pubrec 0 rfl p.packetId)
    · have hqos : p.message.qosInfo = .deliverAtLeastOnce := by
        simp only [InboundPublish.message, Message.owned, InboundPublish.qos, he, Bool.false_eq_true, if_false]
      simp only [hqos, he, Bool.false_eq_true, if_false]
      exact hcall.trans (sendReply_did hq hcall.ready hcall.mallocs .puback 0 rfl p.packetId)
  | publishAck flags kind packetId =>
    have hcall := callOperation_did hq hw hmw (publishAction kind.type packetId)
    simp only [act, Inbound.events]
    cases kind with
    | puback => exact hcall
    | pubrec => exact hcall.trans (sendReply_did hq hcall.ready hcall.mallocs .pubrel 2 rfl packetId)
    | pubrel => exact hcall.trans (sendReply_did hq hcall.ready hcall.mallocs .pubcomp 0 rfl packetId)
    | pubcomp => exact hcall
  | subscribeAck flags packetId codes nonempty short => exact callOperation_did hq hw hmw _
  | unsubscribeAck flags packetId => exact callOperation_did hq hw hmw _
  | pingResponse flags =>
    have hping := pingSeen_did hw hmw
    simp only [act, Inbound.events]
    rw [if_pos hping.ready.operation]
    exact hping.trans (callOperation_did hq hping.ready hping.mallocs .pingResponse)

theorem recvComplete_did (hq : Quiet xio app) (p : Inbound) {w : World σ} (hw : Ready h w) (hm : Succeed w.mallocs) :
    Did h (.packet p.frame.packet :: p.events h) w (recvCompleteCallback xio app p.frame.packet w) := by
  have hs := (decode_inbound p hw.operation hw.message hm).1
  have hlog : Did h [.packet p.frame.packet] w
      { w.log (.packet p.frame.packet) with mallocs := (decode w.client p.frame.packet w.mallocs).mallocs } :=
    ⟨⟨hw.operation, hw.message, hw.handle, hw.state, hw.ticks⟩, hs, rfl, rfl⟩
  exact hlog.trans (act_did hq p hlog.ready hm hs rfl)

theorem serves_inbound (hq : Quiet xio app) (w : World σ) :
    Serves World.codecSlot (recvCompleteCallback xio app) Inbound.frame fun ps w' =>
      Ready h w' ∧ w'.trace = w.trace ++ ps.flatMap fun p => .packet p.frame.packet :: p.events h := by
  constructor
  · rintro ps ⟨c, ms⟩ w' ⟨hw, htrace⟩
    exact ⟨⟨hw.operation, hw.message, hw.handle, hw.state, hw.ticks⟩, htrace⟩
  · intro ps p w' ⟨hw, htrace⟩ _ hm
    have hdid := recvComplete_did hq p hw hm
    refine ⟨⟨hdid.ready, ?_⟩, hdid.codec, hdid.mallocs⟩
    rw [hdid.trace, htrace, List.flatMap_append, List.append_assoc]
    simp

/-- Calls that all return 0 raise no parse error. -/
theorem onBytesReceived_all {chunks : List (List UInt8)} {w w' : World σ}
    (hr : calls (bytesReceived World.codecSlot (recvCompleteCallback xio app)) chunks w = (chunks.map fun _ => 0, w')) :
    chunks.foldl (fun w ch => onBytesReceived xio app ch w) w = w' := by
  induction chunks generalizing w with
  | nil => simpa using congrArg Prod.snd hr
  | cons ch chunks ih =>
    simp only [calls, List.map_cons, Prod.mk.injEq, List.cons.injEq] at hr
    obtain ⟨⟨h0, hrest⟩, hw'⟩ := hr
    rw [List.foldl_cons, onBytesReceived, if_neg (by rw [h0]; exact fun e => e rfl)]
    exact ih (Prod.ext hrest hw')

/-- A stream of well-formed packets, in any chunks, is dispatched packet by packet: the
    callback and the reply of each, in order, and nothing else. -/
theorem received_events (hq : Quiet xio app) {w : World σ} (hw : Ready h w) (hm : Succeed w.mallocs)
    (hi : Idle w.client.codec) (packets : List Inbound) (chunks : List (List UInt8)) (hne : ∀ ch ∈ chunks, ch ≠ [])
    (hcut : chunks.flatten = packets.flatMap fun p => p.frame.bytes) :
    (chunks.foldl (fun w ch => onBytesReceived xio app ch w) w).trace =
      w.trace ++ packets.flatMap fun p => .packet p.frame.packet :: p.events h := by
  obtain ⟨w', hr, ⟨-, htrace⟩, -⟩ := (serves_inbound (h := h) hq w).chunks hne hcut (w := w) ⟨hw, by simp⟩ hi hm
  rw [onBytesReceived_all hr, htrace]

/-- A PUBREC in two chunks is answered with PUBREL. -/
theorem received_pubrec :
    ([[0x50, 0x02], [0x00, 0x07]].foldl (fun w ch => onBytesReceived (Xio.inert Unit) (App.inert Unit) ch w) World.fresh).trace =
      [.packet ⟨.pubrec, 0, some (Buffer.ofBytes [0, 7])⟩, .operation (.publishRecv 7), .send (some 0) [0x62, 2, 0, 7]] := by
  have cut : [[0x50, 0x02], [0x00, 0x07]].flatten = [Inbound.publishAck 0 .pubrec 7].flatMap fun p => p.frame.bytes := by
    simp only [List.flatMap_cons, Frame.bytes, Inbound.frame, length_be16, Base128.encode_lt (show 2 < 128 by decide)]
    rfl
  exact received_events (quiet_inert Unit) fresh_ready succeed_nil create_idle [.publishAck 0 .pubrec 7] _ (by decide) cut

end Dispatch

end UMqtt.Client

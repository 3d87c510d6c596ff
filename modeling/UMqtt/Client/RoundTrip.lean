/-
  UMqtt.Client.RoundTrip — a PUBLISH through the program's own encoder and decoder.

  The encoder writes the QoS into bits 1 and 2 of the flag nibble. The handler takes QoS 0
  from a nibble that is 0 altogether, so a QoS 0 message with the duplicate or the retain
  flag comes back as QoS 2, and part of its payload as a packet id
  (`publish_roundtrip_iff`).
-/

import UMqtt.Client.Dispatch

namespace UMqtt.Client

open UMqtt.Lib UMqtt.Crt UMqtt.Codec UMqtt.Io

/-! ## The flag nibble -/

def IsQos (qosValue : QosValue) : Prop :=
  qosValue ∈ [.deliverAtMostOnce, .deliverAtLeastOnce, .deliverExactlyOnce]

instance (qosValue : QosValue) : Decidable (IsQos qosValue) := inferInstanceAs (Decidable (_ ∈ _))

/-- What the QoS puts into the nibble. -/
theorem publishFlags_cases (qosValue : QosValue) (duplicateMsg serverRetain : Bool) :
    ∃ q ∈ [(0 : UInt8), 2, 4], publishFlags qosValue duplicateMsg serverRetain =
      (if duplicateMsg then 0x8 else 0) ||| (if serverRetain then 0x1 else 0) ||| q := by
  unfold publishFlags
  by_cases h0 : qosValue = .deliverAtMostOnce
  · exact ⟨0, by decide, by rw [if_neg (not_not.mpr h0)]⟩
  · by_cases h1 : qosValue = .deliverAtLeastOnce
    · exact ⟨2, by decide, by rw [if_pos h0, if_pos h1]⟩
    · exact ⟨4, by decide, by rw [if_pos h0, if_neg h1]⟩

theorem publishFlags_lt (qosValue : QosValue) (duplicateMsg serverRetain : Bool) :
    (publishFlags qosValue duplicateMsg serverRetain).toNat < 16 := by
  obtain ⟨q, hq, h⟩ := publishFlags_cases qosValue duplicateMsg serverRetain
  have key : ∀ q ∈ [(0 : UInt8), 2, 4], ∀ d r : Bool,
      ((if d then 0x8 else 0) ||| (if r then 0x1 else 0) ||| q : UInt8).toNat < 16 := by decide +kernel
  rw [h]; exact key q hq duplicateMsg serverRetain

/-- Duplicate and retain always come back. -/
theorem publishFlags_bits (qosValue : QosValue) (duplicateMsg serverRetain : Bool) :
    isDuplicateFlag (publishFlags qosValue duplicateMsg serverRetain) = duplicateMsg ∧
      isRetainFlag (publishFlags qosValue duplicateMsg serverRetain) = serverRetain := by
  obtain ⟨q, hq, h⟩ := publishFlags_cases qosValue duplicateMsg serverRetain
  have key : ∀ q ∈ [(0 : UInt8), 2, 4], ∀ d r : Bool,
      isDuplicateFlag ((if d then 0x8 else 0) ||| (if r then 0x1 else 0) ||| q) = d ∧
      isRetainFlag ((if d then 0x8 else 0) ||| (if r then 0x1 else 0) ||| q) = r := by decide +kernel
  rw [h]; exact key q hq duplicateMsg serverRetain

/-- The QoS comes back unless it is 0 and one of the other flags is set. -/
theorem publishFlags_qos {qosValue : QosValue} (hq : IsQos qosValue) (duplicateMsg serverRetain : Bool) :
    qosFlag (publishFlags qosValue duplicateMsg serverRetain) = qosValue ↔
      (qosValue = .deliverAtMostOnce → duplicateMsg = false ∧ serverRetain = false) := by
  have key : ∀ q ∈ [QosValue.deliverAtMostOnce, .deliverAtLeastOnce, .deliverExactlyOnce], ∀ d r : Bool,
      (qosFlag (publishFlags q d r) = q ↔ (q = .deliverAtMostOnce → d = false ∧ r = false)) := by decide
  exact key qosValue hq duplicateMsg serverRetain

/-! ## The message -/

def messages (trace : List Event) : List Message :=
  trace.filterMap fun e => match e with | .message m => some m | _ => none

theorem messages_append (t t' : List Event) : messages (t ++ t') = messages t ++ messages t' := List.filterMap_append

structure Published where
  qosValue : QosValue
  duplicateMsg : Bool
  serverRetain : Bool
  packetId : UInt16
  topicName : CString
  payload : List UInt8

/-- Well-formed, and short enough for the decoder. -/
structure Published.Ok (p : Published) : Prop where
  qos : IsQos p.qosValue
  nonempty : p.topicName.bytes ≠ []
  topicFits : p.topicName.strlen ≤ ushrtMax
  short : (publishBody p.qosValue p.packetId p.topicName p.payload).length ≤ 2097151

namespace Published

def body (p : Published) : List UInt8 := publishBody p.qosValue p.packetId p.topicName p.payload

def flags (p : Published) : UInt8 := publishFlags p.qosValue p.duplicateMsg p.serverRetain

/-- The message says what was published; without a QoS there is no packet id. -/
structure Same (p : Published) (m : Message) : Prop where
  qos : m.qosInfo = p.qosValue
  duplicate : m.isDuplicateMsg = p.duplicateMsg
  retained : m.isMessageRetained = p.serverRetain
  topic : m.getTopicName = some p.topicName
  payload : m.payload = p.payload
  packetId : m.packetId = if p.qosValue = .deliverAtMostOnce then 0 else p.packetId

variable {p : Published}

theorem Ok.sized (hp : p.Ok) : Sized .publish p.body :=
  sized_body (by decide) (by simp only [body, publishBody, List.length_append, length_utf]; omega) hp.short

def frame (hp : p.Ok) : Frame := ⟨.publish, ⟨p.flags.toNat, publishFlags_lt _ _ _⟩, p.body, publish_onWire, hp.sized⟩

/-- What the handler makes of the packet: a message that agrees up to the QoS and what
    depends on it. -/
structure Decoded (p : Published) (m : Message) : Prop where
  qos : m.qosInfo = qosFlag p.flags
  same : qosFlag p.flags = p.qosValue → p.Same m

theorem decode_published (hp : p.Ok) {client : MqttClient} (hop : client.fnOperationCallback = true)
    (hmsg : client.fnMessageRecv = true) {ms : Mallocs} (hm : Succeed ms) :
    ∃ m, (decode client (frame hp).packet ms).verdict = .publish m ∧ p.Decoded m ∧
      Succeed (decode client (frame hp).packet ms).mallocs := by
  have hflags : UInt8.ofNat p.flags.toNat = p.flags := UInt8.ofNat_toNat
  have hbody : p.body = utf p.topicName.bytes ++
      ((if p.qosValue ≠ .deliverAtMostOnce then be16 p.packetId else []) ++ p.payload) := by
    simp only [body, publishBody, List.append_assoc]
  have hpos : 1 ≤ p.body.length := by rw [hbody, List.length_append, length_utf]; omega
  have hd : decode client (frame hp).packet ms =
      decodePublish p.flags (.start client p.body) p.body.length ms := by
    simp only [frame, Frame.packet, reduceCtorEq, if_false, hflags]
    exact decode_body client hop hmsg .publish p.flags hpos ms
  obtain ⟨id, payload, hv, hs, hq0, hq1⟩ := decodePublish_message hp.nonempty hp.topicFits p.flags
    ((if p.qosValue ≠ .deliverAtMostOnce then be16 p.packetId else []) ++ p.payload)
    (rawTraceAccesses client (some p.body) p.body.length) hm
  rw [← hbody] at hv hs
  obtain ⟨hdup, hret⟩ := publishFlags_bits p.qosValue p.duplicateMsg p.serverRetain
  refine ⟨_, by rw [hd]; exact hv, ⟨rfl, fun hqos => ?_⟩, by rw [hd]; exact hs⟩
  by_cases hz : p.qosValue = .deliverAtMostOnce
  · obtain ⟨rfl, rfl⟩ := hq0 (hqos.trans hz)
    refine ⟨hqos, hdup, hret, rfl, ?_, by rw [if_pos hz]; rfl⟩
    rw [if_neg (not_not.mpr hz), List.nil_append]
    exact Message.payload_owned 0 p.topicName (qosFlag p.flags) p.payload
  · obtain ⟨rfl, rfl⟩ := hq1 p.packetId p.payload (by rw [hqos]; exact hz) (by rw [if_pos hz])
    exact ⟨hqos, hdup, hret, rfl, Message.payload_owned p.packetId p.topicName (qosFlag p.flags) p.payload, by
      rw [if_neg hz]; rfl⟩

end Published

/-! ## The round trip -/

section RoundTrip

variable {σ : Type} {xio : Xio σ} {app : App σ} {h : Option XioHandle} {p : Published}

/-- The handler calls the message callback once, and whatever it replies is no message. -/
theorem act_publish_did (hq : Quiet xio app) {w : World σ} (hw : Ready h w) (hm : Succeed w.mallocs) (m : Message) :
    ∃ evs, Did h evs w (act xio app (.publish m) w) ∧ messages evs = [m] := by
  have hcall := callMessage_did hq hw hm m
  simp only [act]
  split
  · exact ⟨_, hcall.trans (sendReply_did hq hcall.ready hcall.mallocs .pubrec 0 rfl m.packetId), rfl⟩
  · exact ⟨_, hcall.trans (sendReply_did hq hcall.ready hcall.mallocs .puback 0 rfl m.packetId), rfl⟩
  · exact ⟨_, hcall, rfl⟩

theorem serves_published (hq : Quiet xio app) (hp : p.Ok) (w : World σ) :
    Serves World.codecSlot (recvCompleteCallback xio app) (fun _ : Unit => Published.frame hp) fun sent w' =>
      Ready h w' ∧ ∃ ms, messages w'.trace = messages w.trace ++ ms ∧ ms.length = sent.length ∧ ∀ m ∈ ms, p.Decoded m := by
  constructor
  · rintro sent ⟨c, ms⟩ w' ⟨hw, hmsgs⟩
    exact ⟨⟨hw.operation, hw.message, hw.handle, hw.state, hw.ticks⟩, hmsgs⟩
  · rintro sent ⟨⟩ w' ⟨hw, got, htrace, hlen, hall⟩ _ hm
    obtain ⟨m, hv, hdec, hs⟩ := Published.decode_published hp hw.operation hw.message hm
    have hlog : Did h [.packet (Published.frame hp).packet] w'
        { w'.log (.packet (Published.frame hp).packet) with
          mallocs := (decode w'.client (Published.frame hp).packet w'.mallocs).mallocs } :=
      ⟨⟨hw.operation, hw.message, hw.handle, hw.state, hw.ticks⟩, hs, rfl, rfl⟩
    obtain ⟨evs, hact, hmsgs⟩ := act_publish_did hq hlog.ready hs m
    have hdid := hlog.trans hact
    have hrecv : recvCompleteCallback xio app (Published.frame hp).packet w' = act xio app (.publish m)
        { w'.log (.packet (Published.frame hp).packet) with
          mallocs := (decode w'.client (Published.frame hp).packet w'.mallocs).mallocs } := by
      rw [← hv]; rfl
    rw [hrecv]
    refine ⟨⟨hdid.ready, got ++ [m], ?_, by simp [hlen], ?_⟩, hdid.codec, hdid.mallocs⟩
    · rw [hdid.trace, messages_append, htrace, messages_append, hmsgs, List.append_assoc]; rfl
    · intro x hx
      rcases List.mem_append.mp hx with hx | hx
      · exact hall x hx
      · rw [List.mem_singleton.mp hx]; exact hdec

/-- What `mqtt_codec_publish` builds, received in any chunks, is handed to the message
    callback once, as the message that was published. -/
def ComesBack (xio : Xio σ) (app : App σ) (p : Published) (w : World σ) (ms : Mallocs) : Prop :=
  ∃ packet ms', mqttCodecPublish p.qosValue p.duplicateMsg p.serverRetain p.packetId (some p.topicName) p.payload ms =
      (some packet, ms') ∧
    ∀ chunks : List (List UInt8), (∀ ch ∈ chunks, ch ≠ []) → chunks.flatten = packet.bytes →
      ∃ m, messages (chunks.foldl (fun w ch => onBytesReceived xio app ch w) w).trace = messages w.trace ++ [m] ∧ p.Same m

/-- Received in any chunks, the packet is handed over once, as the handler decodes it. -/
theorem received_published (hq : Quiet xio app) {w : World σ} (hw : Ready h w) (hm : Succeed w.mallocs)
    (hi : Idle w.client.codec) (hp : p.Ok) {chunks : List (List UInt8)} (hne : ∀ ch ∈ chunks, ch ≠ [])
    (hcut : chunks.flatten = (Published.frame hp).bytes) :
    ∃ m, messages (chunks.foldl (fun w ch => onBytesReceived xio app ch w) w).trace = messages w.trace ++ [m] ∧
      p.Decoded m := by
  have hcut' : chunks.flatten = [()].flatMap fun _ => (Published.frame hp).bytes := by
    rw [hcut, List.flatMap_cons, List.flatMap_nil, List.append_nil]
  obtain ⟨w', hr, ⟨-, got, htrace, hlen, hall⟩, -⟩ := (serves_published (h := h) hq hp w).chunks hne hcut' (w := w)
    ⟨hw, [], by simp, rfl, by simp⟩ hi hm
  obtain ⟨m, rfl⟩ := List.length_eq_one_iff.mp hlen
  rw [onBytesReceived_all hr, htrace]
  exact ⟨m, rfl, hall m List.mem_cons_self⟩

/-- What the encoder builds is the frame. -/
theorem publish_frame (hp : p.Ok) {ms : Mallocs} (hms : Succeed ms) :
    ∃ ms', mqttCodecPublish p.qosValue p.duplicateMsg p.serverRetain p.packetId (some p.topicName) p.payload ms =
      (some (Buffer.ofBytes (Published.frame hp).bytes), ms') := by
  obtain ⟨ms', henc, -⟩ := mqttCodecPublish_succeed hms p.qosValue p.duplicateMsg p.serverRetain p.packetId hp.topicFits
    p.payload (by have := hp.short; omega)
  refine ⟨ms', henc.trans ?_⟩
  simp only [Published.frame, Frame.bytes, Published.flags, UInt8.ofNat_toNat]
  rfl

/-- A published message comes back exactly when its QoS is not 0 or no other flag is set. -/
theorem publish_roundtrip_iff (hq : Quiet xio app) {w : World σ} (hw : Ready h w) (hm : Succeed w.mallocs)
    (hi : Idle w.client.codec) (hp : p.Ok) {ms : Mallocs} (hms : Succeed ms) :
    ComesBack xio app p w ms ↔ (p.qosValue = .deliverAtMostOnce → p.duplicateMsg = false ∧ p.serverRetain = false) := by
  obtain ⟨ms', henc⟩ := publish_frame hp hms
  rw [← publishFlags_qos hp.qos]
  constructor
  · rintro ⟨packet, ms'', henc', hback⟩
    obtain ⟨rfl, -⟩ : Buffer.ofBytes (Published.frame hp).bytes = packet ∧ ms' = ms'' := by
      simpa using henc.symm.trans henc'
    have hone : [(Published.frame hp).bytes].flatten = (Published.frame hp).bytes := by simp
    have hne : ∀ ch ∈ [(Published.frame hp).bytes], ch ≠ [] := by simp [Frame.bytes_ne_nil]
    obtain ⟨m, htrace, hdec⟩ := received_published hq hw hm hi hp hne hone
    obtain ⟨m', htrace', hsame⟩ := hback [(Published.frame hp).bytes] hne (by rw [hone, Buffer.bytes_ofBytes])
    have hmm : m = m' := by simpa using htrace.symm.trans htrace'
    exact hdec.qos.symm.trans (hmm ▸ hsame.qos)
  · intro hqos
    refine ⟨_, ms', henc, fun chunks hne hcut => ?_⟩
    rw [Buffer.bytes_ofBytes] at hcut
    obtain ⟨m, htrace, hdec⟩ := received_published hq hw hm hi hp hne hcut
    exact ⟨m, htrace, hdec.same hqos⟩

def retained : Published :=
  ⟨.deliverAtLeastOnce, false, true, 7, ⟨[0x74], by decide⟩, [0x61, 0x62, 0x63]⟩

theorem retained_ok : retained.Ok := ⟨by decide, by decide, by decide, by decide⟩

theorem retained_comes_back : ComesBack (Xio.inert Unit) (App.inert Unit) retained World.fresh [] :=
  (publish_roundtrip_iff (quiet_inert Unit) fresh_ready succeed_nil create_idle retained_ok succeed_nil).mpr
    fun h => absurd h (by decide)

def retainedQos0 : Published := { retained with qosValue := .deliverAtMostOnce }

theorem retainedQos0_ok : retainedQos0.Ok := ⟨by decide, by decide, by decide, by decide⟩

/-- At QoS 0 the same message is received at QoS 2, "ab" as its packet id and "c" as its payload. -/
theorem retained_qos0_lost : ¬ ComesBack (Xio.inert Unit) (App.inert Unit) retainedQos0 World.fresh [] := by
  rintro ⟨packet, ms', henc, hback⟩
  obtain ⟨ms'', henc'⟩ := publish_frame retainedQos0_ok succeed_nil
  obtain ⟨rfl, -⟩ : Buffer.ofBytes (Published.frame retainedQos0_ok).bytes = packet ∧ ms'' = ms' := by
    simpa using henc'.symm.trans henc
  have hbytes : (Published.frame retainedQos0_ok).bytes = [0x31, 6, 0, 1, 0x74, 0x61, 0x62, 0x63] := by
    rw [Frame.bytes, show (Published.frame retainedQos0_ok).body.length = 6 from rfl, Base128.encode_lt (by decide)]
    decide
  rw [Buffer.bytes_ofBytes, hbytes] at hback
  obtain ⟨m, htrace, hsame⟩ := hback [[0x31, 6, 0, 1, 0x74, 0x61, 0x62, 0x63]] (by decide) rfl
  have hgot : messages ([[0x31, 6, 0, 1, 0x74, 0x61, 0x62, 0x63]].foldl
      (fun w ch => onBytesReceived (Xio.inert Unit) (App.inert Unit) ch w) World.fresh).trace =
      [{ Message.owned 0x6162 ⟨[0x74], by decide⟩ .deliverExactlyOnce [0x63] with isMessageRetained := true }] := by
    decide
  rw [hgot] at htrace
  obtain rfl : _ = m := by simpa [messages, World.fresh] using htrace
  exact absurd hsame.qos (by decide)

end RoundTrip

end UMqtt.Client

/-
  UMqtt.Client.Deliveries — how often a QoS 2 PUBLISH is delivered.

  The client answers a QoS 2 PUBLISH with PUBREC and a PUBREL with PUBCOMP, and remembers neither:
  a PUBLISH that comes again before its PUBREL goes to `fnMessageRecv` again, with its
  duplicate flag.

  The surroundings are `Steady`: from inside of their callbacks the application may send packets
  of its own, and the transport may call back, as long as the client stays `Ready` and no bytes
  are received meanwhile. Then what happens on a stream of packets falls into one block for each
  of them (`Answered`), and between a PUBLISH and its PUBREL a message is delivered once for each
  PUBLISH with this packet id (`received_blocks`). `duplicate_delivered` is a stream on which that
  is twice.
-/

import UMqtt.Client.Dispatch
import UMqtt.Client.Rules

namespace UMqtt.Client.Deliveries

open UMqtt.Lib UMqtt.Crt UMqtt.Codec UMqtt.Io

/-! ## Steady surroundings -/

/-- The first bytes of PUBACK, PUBREC, PUBREL and PUBCOMP. -/
def replyBytes : List UInt8 := [0x40, 0x50, 0x62, 0x70]

/-- Not a packet that the application sends. -/
def own : Event → Bool
  | .send _ bytes => bytes.head?.any (replyBytes.contains ·)
  | _ => true

variable {σ : Type} {xio : Xio σ} {app : App σ} {h : Option XioHandle} {w w₁ w₂ : World σ}

/-- From `w` to `w'` the client's own events are these, and the codec was left alone. -/
structure Adds (h : Option XioHandle) (evs : List Event) (w w' : World σ) : Prop where
  ready : Ready h w'
  mallocs : Succeed w'.mallocs
  codec : w'.client.codec = w.client.codec
  trace : ∃ more, w'.trace = w.trace ++ more ∧ more.filter own = evs

structure Steady (h : Option XioHandle) (xio : Xio σ) (app : App σ) : Prop where
  operation : ∀ o w, Ready h w → Succeed w.mallocs → Adds h [] w (app.operation o w)
  message : ∀ m w, Ready h w → Succeed w.mallocs → Adds h [] w (app.message m w)
  send : ∀ handle bytes w, Ready h w → Succeed w.mallocs → Adds h [] w (xio.send handle bytes w).2

theorem adds_same (hw : Ready h w₁) (hm : Succeed w₁.mallocs) (hc : w₁.client.codec = w.client.codec)
    (ht : w₁.trace = w.trace) : Adds h [] w w₁ := ⟨hw, hm, hc, [], by rw [ht, List.append_nil], rfl⟩

theorem steady_inert (h : Option XioHandle) (σ : Type) : Steady h (Xio.inert σ) (App.inert σ) :=
  ⟨fun _ _ hw hm => adds_same hw hm rfl rfl, fun _ _ hw hm => adds_same hw hm rfl rfl,
    fun _ _ _ hw hm => adds_same hw hm rfl rfl⟩

theorem Adds.trans {evs evs' : List Event} (h₁ : Adds h evs w w₁) (h₂ : Adds h evs' w₁ w₂) : Adds h (evs ++ evs') w w₂ := by
  obtain ⟨more, hmore, hevs⟩ := h₁.trace
  obtain ⟨more', hmore', hevs'⟩ := h₂.trace
  refine ⟨h₂.ready, h₂.mallocs, h₂.codec.trans h₁.codec, more ++ more', ?_, ?_⟩
  · rw [hmore', hmore, List.append_assoc]
  · rw [List.filter_append, hevs, hevs']

theorem log_adds (hw : Ready h w) (hm : Succeed w.mallocs) {e : Event} (he : own e = true) : Adds h [e] w (w.log e) :=
  ⟨⟨hw.operation, hw.message, hw.handle, hw.state, hw.ticks⟩, hm, rfl, [e], rfl, by simp [he]⟩

theorem callOperation_adds (hq : Steady h xio app) (hw : Ready h w) (hm : Succeed w.mallocs) (o : Operation) :
    Adds h [.operation o] w (app.callOperation o w) := by
  have hlog := log_adds hw hm (e := .operation o) rfl
  exact hlog.trans (hq.operation o _ hlog.ready hlog.mallocs)

theorem callMessage_adds (hq : Steady h xio app) (hw : Ready h w) (hm : Succeed w.mallocs) (m : Message) :
    Adds h [.message m] w (app.callMessage m w) := by
  have hlog := log_adds hw hm (e := .message m) rfl
  exact hlog.trans (hq.message m _ hlog.ready hlog.mallocs)

theorem sendPacketItem_adds (hq : Steady h xio app) (hw : Ready h w) (hm : Succeed w.mallocs) {data : List UInt8}
    (hd : own (.send h data) = true) : Adds h [.send h data] w (sendPacketItem xio data w).2 := by
  obtain ⟨t, ticks, ht, hticks⟩ := currentMs_succeed hw.ticks
  have hstamped : Adds h [.send h data] w (stamp t data { w with ticks := ticks }) := by
    refine ⟨⟨hw.operation, hw.message, hw.handle, hw.state, hticks⟩, hm, rfl, [.send h data], ?_, by simp [hd]⟩
    simp only [stamp, World.log, hw.handle]
  rw [sendPacketItem_stamp ht]
  cases hx : w.client.xioHandle with
  | none => exact hstamped
  | some handle => exact hstamped.trans (hq.send handle data _ hstamped.ready hstamped.mallocs)

/-! ## One packet -/

theorem sendReply_adds (hq : Steady h xio app) (hw : Ready h w) (hm : Succeed w.mallocs)
    {reply : UInt16 → Mallocs → Option Buffer × Mallocs} (type : ControlPacketType) (flags : UInt8)
    (hr : reply = constructPublishReply type flags) (hown : type.value ||| flags ∈ replyBytes) (packetId : UInt16) :
    Adds h [.send h ((type.value ||| flags) :: 2 :: be16 packetId)] w (sendReply xio app reply packetId w) := by
  obtain ⟨ms', he, hs⟩ := constructPublishReply_succeed hm type flags packetId
  have hbuilt : Adds h [] w { w with mallocs := ms' } :=
    adds_same ⟨hw.operation, hw.message, hw.handle, hw.state, hw.ticks⟩ hs rfl rfl
  simp only [sendReply, hr, he, Buffer.bytes_ofBytes]
  exact hbuilt.trans (sendPacketItem_adds hq hbuilt.ready hbuilt.mallocs (by simpa [own] using hown))

theorem act_adds (hq : Steady h xio app) (p : Inbound) (hw : Ready h w) {ms : Mallocs} (hm : Succeed ms)
    (hmw : Succeed w.mallocs) : Adds h (p.events h) w (act xio app (decode w.client p.frame.packet ms).verdict w) := by
  rw [(decode_inbound p hw.operation hw.message hm).2]
  cases p with
  | connack flags session returnCode =>
    have hcall := callOperation_adds hq hw hmw (.connack (session == 1) returnCode)
    have hr := hcall.ready
    simp only [act, Inbound.events]
    split
    · exact hcall.trans (adds_same ⟨hr.operation, hr.message, hr.handle, hr.state, hr.ticks⟩ hcall.mallocs rfl rfl)
    · exact hcall
  | publish p =>
    have hcall := callMessage_adds hq hw hmw p.message
    simp only [act, Inbound.events]
    by_cases he : p.exactlyOnce = true
    · have hqos : p.message.qosInfo = .deliverExactlyOnce := by
        simp only [InboundPublish.message, Message.owned, InboundPublish.qos, he, if_true]
      simp only [hqos, he, if_true]
      exact hcall.trans (sendReply_adds hq hcall.ready hcall.mallocs .pubrec 0 rfl (by decide) p.packetId)
    · have hqos : p.message.qosInfo = .deliverAtLeastOnce := by
        simp only [InboundPublish.message, Message.owned, InboundPublish.qos, he, Bool.false_eq_true, if_false]
      simp only [hqos, he, Bool.false_eq_true, if_false]
      exact hcall.trans (sendReply_adds hq hcall.ready hcall.mallocs .puback 0 rfl (by decide) p.packetId)
  | publishAck flags kind packetId =>
    have hcall := callOperation_adds hq hw hmw (publishAction kind.type packetId)
    simp only [act, Inbound.events]
    cases kind with
    | puback => exact hcall
    | pubrec =>
      exact hcall.trans (sendReply_adds hq hcall.ready hcall.mallocs .pubrel 2 rfl (by decide) packetId)
    | pubrel =>
      exact hcall.trans (sendReply_adds hq hcall.ready hcall.mallocs .pubcomp 0 rfl (by decide) packetId)
    | pubcomp => exact hcall
  | subscribeAck flags packetId codes nonempty short => exact callOperation_adds hq hw hmw _
  | unsubscribeAck flags packetId => exact callOperation_adds hq hw hmw _
  | pingResponse flags =>
    have hping : Adds h [] w { w with client := { w.client with timeSincePing := 0 } } :=
      adds_same ⟨hw.operation, hw.message, hw.handle, hw.state, hw.ticks⟩ hmw rfl rfl
    simp only [act, Inbound.events]
    rw [if_pos hping.ready.operation]
    exact hping.trans (callOperation_adds hq hping.ready hping.mallocs .pingResponse)

/-- What happens from the arrival of a packet up to the next one. -/
def Answered (h : Option XioHandle) (p : Inbound) (block : List Event) : Prop :=
  ∃ more, block = .packet p.frame.packet :: more ∧ more.filter own = p.events h

theorem recvComplete_answered (hq : Steady h xio app) (p : Inbound) (hw : Ready h w) (hm : Succeed w.mallocs) :
    ∃ block, (recvCompleteCallback xio app p.frame.packet w).trace = w.trace ++ block ∧ Answered h p block ∧
      Adds h (.packet p.frame.packet :: p.events h) w (recvCompleteCallback xio app p.frame.packet w) := by
  have hs := (decode_inbound p hw.operation hw.message hm).1
  have hlog : Adds h [.packet p.frame.packet] w
      { w.log (.packet p.frame.packet) with mallocs := (decode w.client p.frame.packet w.mallocs).mallocs } :=
    ⟨⟨hw.operation, hw.message, hw.handle, hw.state, hw.ticks⟩, hs, rfl, [.packet p.frame.packet], rfl, rfl⟩
  have hact := act_adds hq p hlog.ready hm hlog.mallocs
  obtain ⟨more, hmore, hevs⟩ := hact.trace
  refine ⟨.packet p.frame.packet :: more, ?_, ⟨more, rfl, hevs⟩, hlog.trans hact⟩
  rw [show (recvCompleteCallback xio app p.frame.packet w).trace = _ from hmore]
  simp [World.log]

theorem serves_answered (hq : Steady h xio app) (w : World σ) :
    Serves World.codecSlot (recvCompleteCallback xio app) Inbound.frame fun ps w' =>
      Ready h w' ∧ ∃ blocks, w'.trace = w.trace ++ blocks.flatten ∧ List.Forall₂ (Answered h) ps blocks := by
  constructor
  · rintro ps ⟨c, ms⟩ w' ⟨hw, htrace⟩
    exact ⟨⟨hw.operation, hw.message, hw.handle, hw.state, hw.ticks⟩, htrace⟩
  · intro ps p w' ⟨hw, blocks, htrace, hall⟩ _ hm
    obtain ⟨block, hblock, hanswered, hadds⟩ := recvComplete_answered hq p hw hm
    refine ⟨⟨hadds.ready, blocks ++ [block], ?_, ?_⟩, hadds.codec, hadds.mallocs⟩
    · rw [hblock, htrace, List.flatten_append, List.flatten_singleton, List.append_assoc]
    · exact List.rel_append hall (.cons hanswered .nil)

/-! ## Deliveries -/

/-- A QoS 2 message with this packet id. -/
def delivers (packetId : UInt16) : Event → Bool
  | .message m => m.qosInfo = .deliverExactlyOnce ∧ m.packetId = packetId
  | _ => false

def publishes (packetId : UInt16) : Inbound → Bool
  | .publish p => p.exactlyOnce ∧ p.packetId = packetId
  | _ => false

theorem delivers_own {packetId : UInt16} {e : Event} (he : delivers packetId e = true) : own e = true := by
  cases e <;> first | rfl | cases he

theorem countP_events (h : Option XioHandle) (packetId : UInt16) (p : Inbound) :
    (p.events h).countP (delivers packetId) = if publishes packetId p then 1 else 0 := by
  cases p with
  | publish p =>
    have hid : p.message.packetId = p.packetId := rfl
    have hqos : p.message.qosInfo = .deliverExactlyOnce ↔ p.exactlyOnce = true := by
      simp [InboundPublish.message, Message.owned, InboundPublish.qos]
    simp [Inbound.events, delivers, publishes, hid, hqos, List.countP_cons]
  | publishAck flags kind packetId => cases kind <;> rfl
  | _ => rfl

theorem countP_answered {packetId : UInt16} {p : Inbound} {block : List Event} (hb : Answered h p block) :
    block.countP (delivers packetId) = if publishes packetId p then 1 else 0 := by
  obtain ⟨more, rfl, hmore⟩ := hb
  have hown : more.countP (delivers packetId) = (more.filter own).countP (delivers packetId) := by
    rw [List.countP_filter]
    refine List.countP_congr fun e _ => ?_
    cases hd : delivers packetId e with
    | false => simp
    | true => simp [delivers_own hd]
  rw [List.countP_cons_of_neg (by simp [delivers]), hown, hmore, countP_events]

theorem countP_blocks {packetId : UInt16} {packets : List Inbound} {blocks : List (List Event)}
    (hb : List.Forall₂ (Answered h) packets blocks) :
    blocks.flatten.countP (delivers packetId) = packets.countP (publishes packetId) := by
  induction hb with
  | nil => rfl
  | cons hp _ ih => rw [List.flatten_cons, List.countP_append, countP_answered hp, ih, List.countP_cons, Nat.add_comm]

/-- What happens from here on, before the packets after these. -/
def within (before window : List Inbound) (blocks : List (List Event)) : List Event :=
  ((blocks.drop before.length).take window.length).flatten

/-- Every packet has its own block, a PUBLISH with its PUBREC and a PUBREL with its PUBCOMP, and behind a PUBLISH
    a message is delivered once for it and once for each that repeats it. -/
theorem received_blocks (hq : Steady h xio app) (hw : Ready h w) (hm : Succeed w.mallocs) (hi : Codec.Idle w.client.codec)
    (packets : List Inbound) (chunks : List (List UInt8)) (hne : ∀ ch ∈ chunks, ch ≠ [])
    (hcut : chunks.flatten = packets.flatMap fun p => p.frame.bytes) :
    ∃ blocks, (chunks.foldl (fun w ch => onBytesReceived xio app ch w) w).trace = w.trace ++ blocks.flatten ∧
      List.Forall₂ (Answered h) packets blocks ∧
      ∀ before p window after, packets = before ++ .publish p :: (window ++ after) → p.exactlyOnce = true →
        (within before (.publish p :: window) blocks).countP (delivers p.packetId) =
          1 + window.countP (publishes p.packetId) := by
  obtain ⟨w', hr, ⟨-, blocks, htrace, hall⟩, -⟩ := (serves_answered hq w).chunks hne hcut (w := w) ⟨hw, [], by simp, .nil⟩ hi hm
  refine ⟨blocks, by rw [onBytesReceived_all hr, htrace], hall, ?_⟩
  intro before p window after hsplit hp
  have hwindow : (packets.drop before.length).take (Inbound.publish p :: window).length = .publish p :: window := by
    rw [hsplit, List.drop_left, ← List.cons_append, List.take_left]
  have hblocks := List.forall₂_take (Inbound.publish p :: window).length (List.forall₂_drop before.length hall)
  rw [hwindow] at hblocks
  rw [within, countP_blocks hblocks, List.countP_cons_of_pos (by simp [publishes, hp]), Nat.add_comm]

/-! ## A PUBLISH that is repeated -/

def seventh (isDuplicate : Bool) : InboundPublish where
  exactlyOnce := true
  isDuplicate := isDuplicate
  isRetained := false
  topic := .ofBlock [0x74]
  packetId := 7
  payload := [0x61]
  nonempty := by decide
  topicFits := by decide
  short := by decide

def repeated : List Inbound := [.publish (seventh false), .publish (seventh true), .publishAck ⟨2, by decide⟩ .pubrel 7]

theorem repeated_blocks :
    ∃ blocks, ([repeated.flatMap fun p => p.frame.bytes].foldl
        (fun w ch => onBytesReceived (Xio.inert Unit) (App.inert Unit) ch w) World.fresh).trace = blocks.flatten ∧
      (within [] [.publish (seventh false), .publish (seventh true)] blocks).countP (delivers 7) = 2 := by
  obtain ⟨blocks, htrace, -, hcount⟩ := received_blocks (steady_inert (some 0) Unit) fresh_ready succeed_nil create_idle
    repeated [repeated.flatMap fun p => p.frame.bytes] (by simp [repeated, Frame.bytes]) (by simp)
  exact ⟨blocks, htrace, hcount [] (seventh false) [.publish (seventh true)] _ rfl rfl⟩

theorem duplicate_delivered :
    (onBytesReceived (Xio.inert Unit) (App.inert Unit)
        [0x34, 6, 0, 1, 0x74, 0, 7, 0x61, 0x3C, 6, 0, 1, 0x74, 0, 7, 0x61, 0x62, 2, 0, 7] World.fresh).trace =
      [.packet (Inbound.publish (seventh false)).frame.packet, .message (seventh false).message, .send (some 0) [0x50, 2, 0, 7],
        .packet (Inbound.publish (seventh true)).frame.packet, .message (seventh true).message, .send (some 0) [0x50, 2, 0, 7],
        .packet (Inbound.publishAck 2 .pubrel 7).frame.packet, .operation (.publishRel 7), .send (some 0) [0x70, 2, 0, 7]] := by
  decide +kernel

end UMqtt.Client.Deliveries

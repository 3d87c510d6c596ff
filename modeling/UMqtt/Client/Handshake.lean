/-
  UMqtt.Client.Handshake — the handshakes of two linked clients, in every interleaving.

  A packet that one client sends the other is a `Sent`; receiving it, a client makes one
  callback (`Sent.heard`) and owes a reply (`Sent.reply`). `Talking` is one client's side: what
  it has got so far decides its callbacks and its acknowledgements, and of what it has sent the
  socket holds a part, in order, each packet whole or not at all (a direct send that would block
  is lost). Between a sender and a receiver is a `Flow`: what the receiver has got is the first
  part of what the sender's socket holds, and its codec is midway through the next packet.

  Each act of a client keeps its side (`publish_talking`, `dowork_talking`), each step both sides
  and both flows (`step_joined`). Hence `delivered_run` at every moment and, when nothing was
  hindered and nothing is on its way, `completed_run`.
-/

import UMqtt.Client.Peers

namespace UMqtt.Client.Peers

open UMqtt.Lib UMqtt.Crt UMqtt.Codec UMqtt.Io
open OverSocket (Sys Outside socketSlot socketXio socketCallbacks writeNotes takeSend takeDowork)

/-- The application, whose calls nest `n` deep. -/
abbrev appAt (n : Nat) : App Outside := OverSocket.application (OverSocket.perform n)

/-! ## Packets between two clients -/

inductive Sent where
  | publish (p : Published) (ok : p.Ok) (plain : p.qosValue = .deliverAtMostOnce → p.duplicateMsg = false ∧ p.serverRetain = false)
  | ack (kind : AckKind) (packetId : UInt16)

/-- One callback of a client that a packet reaches. -/
inductive Heard where
  | message (c : Content)
  | operation (o : Operation)
  deriving DecidableEq, Repr

def heard (w : Sys) : List Heard :=
  w.trace.filterMap fun e => match e with
    | .message m => some (.message (content m))
    | .operation o => some (.operation o)
    | _ => none

def ackFlagBits (kind : AckKind) : Nat := if kind = .pubrel then 2 else 0

theorem ackFlagBits_lt (kind : AckKind) : ackFlagBits kind < 16 := by
  unfold ackFlagBits
  split <;> omega

def ackFlags (kind : AckKind) : Fin 16 := ⟨ackFlagBits kind, ackFlagBits_lt kind⟩

def contentOf (p : Published) : Content :=
  ⟨p.qosValue, p.duplicateMsg, p.serverRetain, some p.topicName, p.payload,
    if p.qosValue = .deliverAtMostOnce then 0 else p.packetId⟩

namespace Sent

def frame : Sent → Frame
  | publish _ ok _ => Published.frame ok
  | ack kind packetId => ⟨kind.type, ackFlags kind, be16 packetId, kind.onWire, kind.sized packetId⟩

def heard : Sent → Heard
  | publish p _ _ => .message (contentOf p)
  | ack kind packetId => .operation (publishAction kind.type packetId)

def reply : Sent → List Sent
  | publish p _ _ =>
    match p.qosValue with
    | .deliverExactlyOnce => [ack .pubrec p.packetId]
    | .deliverAtLeastOnce => [ack .puback p.packetId]
    | _ => []
  | ack .pubrec packetId => [ack .pubrel packetId]
  | ack .pubrel packetId => [ack .pubcomp packetId]
  | ack _ _ => []

def acks : Sent → List Sent
  | publish _ _ _ => []
  | ack kind packetId => [ack kind packetId]

def contents : Sent → List Content
  | publish p _ _ => [contentOf p]
  | ack _ _ => []

def bytes (s : Sent) : List UInt8 := s.frame.bytes

def buffer (s : Sent) : Unit × List UInt8 := ((), s.bytes)

end Sent

/-- An acknowledgement is built as the frame that it is. -/
theorem ack_bytes (kind : AckKind) (packetId : UInt16) (flags : UInt8) (hf : flags = UInt8.ofNat (ackFlags kind)) :
    (kind.type.value ||| flags) :: 2 :: be16 packetId = (Sent.ack kind packetId).bytes := by
  simp only [Sent.bytes, Sent.frame, Frame.bytes, length_be16, Base128.encode_lt (show 2 < 128 by decide), hf]
  rfl

theorem contents_buffers (sent : List Sent) : contents (sent.map Sent.buffer) = sent.flatMap Sent.bytes := by
  simp only [contents, List.flatMap_map]; rfl

/-! ## One side -/

/-- The client `w` has got `got`, has sent the acknowledgements `replies`, and its socket holds
    `kept`; of what it was told to publish it has not sent `debt`. With `taken`, every direct
    `send()` is to take something. -/
structure Talking (taken : Prop) (h : XioHandle) (got replies : List Sent) (debt : List Content) (kept : List Sent) (w : Sys) :
    Prop where
  ready : Ready (some h) w
  mallocs : Succeed w.mallocs
  keepAlive : w.client.keepAliveInterval = 0
  application : ∀ cs ∈ w.out.application, ∀ c ∈ cs, ∃ m, c = .publish m ∧ Deliverable m
  held : Held (kept.map Sent.buffer) (w.out.sockets h)
  callbacks : (w.out.sockets h).callbacks = true
  heard : heard w = got.map Sent.heard
  answers : taken → ∀ x ∈ w.out.sends, ∃ count, x = .accepted count
  sent : ∃ sent : List Sent, kept.Sublist sent ∧ sent.flatMap Sent.acks = replies ∧
    sent.flatMap Sent.contents ++ debt = (published w).map content ∧
    (taken → w.out.sends ≠ [] → kept = sent)

/-- What an act leaves of a client: its codec, what its socket has done, and what is still to be
    published, of which it adds `more`. -/
structure Along (h : XioHandle) (more : Nat) (w w' : Sys) : Prop where
  codec : w'.client.codec = w.client.codec
  onward : Onward ((socketSlot h).get w) ((socketSlot h).get w')
  due : due w' ≤ due w + more

section Along

variable {taken : Prop} {h : XioHandle} {w w' w'' : Sys}

theorem Along.refl (h : XioHandle) (w : Sys) : Along h 0 w w := ⟨rfl, .refl _, Nat.le_refl _⟩

theorem Along.add {m k : Nat} (h₁ : Along h m w w') (h₂ : Along h k w' w'') : Along h (m + k) w w'' := by
  refine ⟨h₂.codec.trans h₁.codec, h₁.onward.trans h₂.onward, ?_⟩
  have := h₁.due
  have := h₂.due
  omega

theorem Along.trans {m : Nat} (h₁ : Along h 0 w w') (h₂ : Along h m w' w'') : Along h m w w'' :=
  Nat.zero_add m ▸ h₁.add h₂

/-- Starting from a client that has only changed itself. -/
theorem Along.before {m : Nat} (ha : Along h m w' w'') (hc : w'.client.codec = w.client.codec) (ho : w'.out = w.out) :
    Along h m w w'' := by
  have hio : ((socketSlot h).get w').1 = ((socketSlot h).get w).1 := congrArg (·.sockets h) ho
  have hdue : Peers.due w' = Peers.due w := by
    simp only [Peers.due, published, ho]
  have hstart : Along h 0 w w' := ⟨hc, ⟨by rw [hio], by rw [hio]⟩, hdue.le⟩
  exact hstart.trans ha

/-- Nothing but notes, none of which is a call of `mqtt_client_publish`. -/
def Noted (w w' : Sys) : Prop := ∃ ns, ns.filterMap publishedNote = [] ∧ w' = writeNotes ns w

theorem writeNotes_writeNotes (ns ns' : List OverSocket.Note) (w : Sys) :
    writeNotes ns' (writeNotes ns w) = writeNotes (ns ++ ns') w := by
  simp only [writeNotes, List.append_assoc]

theorem Noted.refl (w : Sys) : Noted w w := ⟨[], rfl, by simp [writeNotes]⟩

theorem Noted.trans (h₁ : Noted w w') (h₂ : Noted w' w'') : Noted w w'' := by
  obtain ⟨ns, hn, rfl⟩ := h₁
  obtain ⟨ns', hn', rfl⟩ := h₂
  exact ⟨ns ++ ns', by rw [List.filterMap_append, hn, hn']; rfl, writeNotes_writeNotes ns ns' w⟩

theorem noted_one {n : OverSocket.Note} (hn : publishedNote n = none) (w : Sys) : Noted w (writeNotes [n] w) :=
  ⟨[n], by simp [hn], rfl⟩

theorem worked_noted (w : Sys) : Noted w (OverSocket.worked w) := noted_one rfl w

variable {got replies kept : List Sent} {debt : List Content}

theorem Talking.noted (ht : Talking taken h got replies debt kept w) (hn : Noted w w') :
    Talking taken h got replies debt kept w' ∧ Along h 0 w w' := by
  obtain ⟨ns, hns, rfl⟩ := hn
  have hp : published (writeNotes ns w) = published w := by
    simp only [published, writeNotes, List.filterMap_append, hns, List.append_nil]
  refine ⟨⟨⟨ht.ready.operation, ht.ready.message, ht.ready.handle, ht.ready.state, ht.ready.ticks⟩, ht.mallocs, ht.keepAlive,
    ht.application, ht.held, ht.callbacks, ht.heard, ht.answers, ?_⟩, rfl, .refl _, ?_⟩
  · rw [hp]
    exact ht.sent
  · simp only [Peers.due, hp]
    exact Nat.le_refl _

/-- What the client does to itself, the codec apart. -/
theorem Talking.inner (ht : Talking taken h got replies debt kept w) (client : MqttClient) (mallocs : Mallocs)
    (ticks : List (Option UInt32)) (crashed : Bool) (trace : List Event) (more : List Sent)
    (hop : client.fnOperationCallback = w.client.fnOperationCallback)
    (hmsg : client.fnMessageRecv = w.client.fnMessageRecv) (hh : client.xioHandle = w.client.xioHandle)
    (hs : client.packetState ≠ .disconnect) (hk : client.keepAliveInterval = w.client.keepAliveInterval)
    (hm : Succeed mallocs) (hticks : none ∉ ticks)
    (heard : Peers.heard ⟨client, mallocs, ticks, crashed, trace, w.out⟩ = Peers.heard w ++ more.map Sent.heard) :
    Talking taken h (got ++ more) replies debt kept ⟨client, mallocs, ticks, crashed, trace, w.out⟩ := by
  refine ⟨⟨hop.trans ht.ready.operation, hmsg.trans ht.ready.message, hh.trans ht.ready.handle, hs, hticks⟩, hm,
    hk.trans ht.keepAlive, ht.application, ht.held, ht.callbacks, ?_, ht.answers, ht.sent⟩
  rw [heard, ht.heard, List.map_append]

end Along

/-! ## Sending -/

section Sending

variable {taken : Prop} {h : XioHandle} (xio : Xio Outside) (app : App Outside) {w w' : Sys} {got replies kept : List Sent}
  {debt : List Content}

/-- A send that is complete is only noted, as no DISCONNECT is under way. -/
theorem onSendComplete_noted (hs : w.client.packetState ≠ .disconnect) (k : Unit) :
    Noted w ((socketCallbacks xio app h).onSendComplete k w) := by
  simp only [socketCallbacks, sendComplete, if_neg hs]
  split
  · exact .refl w
  · exact noted_one rfl w

theorem sendCompleted_noted (hs : w.client.packetState ≠ .disconnect) (k : Option Unit) :
    Noted (sendCompleted (socketSlot h) (.inert Unit _) k w) (sendCompleted (socketSlot h) (socketCallbacks xio app h) k w) := by
  cases k with
  | none => exact .refl w
  | some k => exact onSendComplete_noted xio app (by exact hs) k

/-- But for notes, the client's socket does what it does alone. -/
theorem socketioSend_noted (hs : w.client.packetState ≠ .disconnect) (bytes : List UInt8) (k : Option Unit) (answer : SendAnswer) :
    Noted ((socketSlot h).set (sendAlone bytes k answer ((socketSlot h).get w)).2 w)
      (socketioSend (socketSlot h) (socketCallbacks xio app h) bytes k answer w).2 := by
  have halone : (socketioSend (socketSlot h) (.inert Unit _) bytes k answer w).2 =
      (socketSlot h).set (sendAlone bytes k answer ((socketSlot h).get w)).2 w :=
    congrArg Prod.snd (socketioSend_alone (socketSlot h) bytes k answer w)
  rw [← halone]
  unfold socketioSend
  split
  · exact .refl w
  · split
    · exact .refl w
    · split
      · exact .refl _
      · cases answer with
        | again => exact .refl w
        | fatal => exact .refl w
        | accepted n =>
          simp only
          split
          · exact .refl _
          · exact sendCompleted_noted xio app (by exact hs) k

/-- The socket on its own is one whose callbacks do not call back. -/
theorem passive_alone : Passive (itself Unit) (.inert Unit _) := ⟨fun _ _ => rfl, fun _ => rfl, fun _ _ => rfl⟩

theorem Sent.bytes_ne_nil (s : Sent) : s.bytes ≠ [] := s.frame.bytes_ne_nil

/-- What is sent is held, or lost as a whole where it would block or fails. -/
theorem sendAlone_holds {x : SocketIoInstance Unit × Mallocs} (hx : Held (kept.map Sent.buffer) x.1) (hm : Succeed x.2) (s : Sent)
    (answer : SendAnswer) :
    ∃ ext, ext.Sublist [s] ∧ ((∃ count, answer = .accepted count) → ext = [s]) ∧
      Held ((kept ++ ext).map Sent.buffer) (sendAlone s.bytes (some ()) answer x).2.1 ∧
      Succeed (sendAlone s.bytes (some ()) answer x).2.2 := by
  by_cases hf : answer = .fatal
  · subst hf
    cases hp : x.1.pendingIoList with
    | nil =>
      refine ⟨[], List.nil_sublist _, fun hc => absurd hc (by simp), ?_⟩
      have hlost : (sendAlone s.bytes (some ()) .fatal x).2 = x := by
        simp only [sendAlone, socketioSend, itself_get, hp]
        repeat' split
        all_goals rfl
      rw [hlost, List.append_nil]
      exact ⟨hx, hm⟩
    | cons pending rest =>
      have hsame : sendAlone s.bytes (some ()) .fatal x = sendAlone s.bytes (some ()) .again x := by
        simp only [sendAlone, socketioSend, itself_get, hp]
      obtain ⟨-, -, hheld⟩ := send_holds (s := itself Unit) passive_alone (w := x) ⟨hx, hm⟩ (k := ()) s.bytes_ne_nil
        (show SendAnswer.again ≠ .fatal by simp)
      obtain ⟨h₁, h₂⟩ := hheld fun hb => by
        have := hb.1
        rw [itself_get, hp] at this
        exact absurd this (List.cons_ne_nil _ _)
      refine ⟨[s], List.Sublist.refl _, fun _ => rfl, ?_⟩
      rw [hsame, List.map_append]
      exact ⟨h₁, h₂⟩
  · obtain ⟨-, hblocked, hheld⟩ := send_holds (s := itself Unit) passive_alone (w := x) ⟨hx, hm⟩ (k := ()) s.bytes_ne_nil hf
    by_cases hb : (Call.send () s.bytes answer).Blocked ((itself Unit).get x).1
    · refine ⟨[], List.nil_sublist _, ?_, ?_⟩
      · rintro ⟨count, hc⟩
        rw [hc] at hb
        exact SendAnswer.noConfusion hb.2
      · rw [show sendAlone s.bytes (some ()) answer x = _ from rfl, sendAlone, hblocked hb, List.append_nil]
        exact ⟨hx, hm⟩
    · obtain ⟨h₁, h₂⟩ := hheld hb
      refine ⟨[s], List.Sublist.refl _, fun _ => rfl, ?_⟩
      rw [List.map_append]
      exact ⟨h₁, h₂⟩

/-- `xio_send` of a packet: what the client has sent grows by it, and what its socket holds
    grows by it or not at all. -/
theorem send_talking (s : Sent) (ht : Talking taken h got replies (s.contents ++ debt) kept w) :
    ∃ ext, Talking taken h got (replies ++ s.acks) debt (kept ++ ext) ((socketXio xio app).send h s.bytes w).2 ∧
      Along h 0 w ((socketXio xio app).send h s.bytes w).2 := by
  obtain ⟨sent, hsub, hacks, hcontents, hlossless⟩ := ht.sent
  obtain ⟨ext, hext, htaken, hheld, hm⟩ := sendAlone_holds (x := (socketSlot h).get w) ht.held ht.mallocs s (takeSend w).1
  -- The socket alone, told the next answer.
  have halone : Talking taken h got (replies ++ s.acks) debt (kept ++ ext)
      ((socketSlot h).set (sendAlone s.bytes (some ()) (takeSend w).1 ((socketSlot h).get (takeSend w).2)).2 (takeSend w).2) := by
    have hget : (socketSlot h).get (takeSend w).2 = (socketSlot h).get w := rfl
    rw [hget]
    refine ⟨⟨ht.ready.operation, ht.ready.message, ht.ready.handle, ht.ready.state, ht.ready.ticks⟩, hm, ht.keepAlive,
      ht.application, ?_, ?_, ht.heard, ?_, sent ++ [s], hsub.append hext, ?_, ?_, ?_⟩
    · simpa only [OverSocket.socketSlot, Function.update_self] using hheld
    · have honward := sendAlone_onward s.bytes (some ()) (takeSend w).1 ((socketSlot h).get w)
      simpa only [OverSocket.socketSlot, Function.update_self] using honward.callbacks.trans ht.callbacks
    · exact fun hall x hx => ht.answers hall x (List.mem_of_mem_tail hx)
    · rw [List.flatMap_append, hacks, List.flatMap_cons, List.flatMap_nil, List.append_nil]
    · rw [List.flatMap_append, List.flatMap_cons, List.flatMap_nil, List.append_nil, List.append_assoc]
      exact hcontents
    · intro hall hne
      -- An answer is left behind this one, so this one was not past their end.
      have hhead : (takeSend w).1 ∈ w.out.sends := by
        have htail : w.out.sends.tail ≠ [] := hne
        simp only [takeSend]
        cases hw : w.out.sends with
        | nil => rw [hw] at htail; exact absurd rfl htail
        | cons x xs => exact List.mem_cons_self
      rw [hlossless hall (List.ne_nil_of_mem hhead), htaken (ht.answers hall _ hhead)]
  obtain ⟨htalk, halong⟩ := halone.noted (socketioSend_noted xio app (by exact ht.ready.state) s.bytes (some ()) (takeSend w).1)
  refine ⟨ext, htalk, Along.trans ?_ halong⟩
  refine ⟨rfl, ?_, Nat.le_refl _⟩
  rw [Slot.get_set]
  exact sendAlone_onward s.bytes (some ()) (takeSend w).1 ((socketSlot h).get w)

theorem heard_log {w : Sys} {e : Event} (he : heard (w.log e) = heard w) (client : MqttClient) (mallocs : Mallocs)
    (ticks : List (Option UInt32)) (crashed : Bool) :
    heard ⟨client, mallocs, ticks, crashed, (w.log e).trace, w.out⟩ = heard w ++ ([] : List Sent).map Sent.heard := by
  rw [List.map_nil, List.append_nil, ← he]
  rfl

/-- `sendPacketItem` of a packet. -/
theorem sendPacketItem_talking (s : Sent) (ht : Talking taken h got replies (s.contents ++ debt) kept w) :
    ∃ ext, Talking taken h got (replies ++ s.acks) debt (kept ++ ext) (sendPacketItem (socketXio xio app) s.bytes w).2 ∧
      Along h 0 w (sendPacketItem (socketXio xio app) s.bytes w).2 := by
  obtain ⟨t, ticks, hnow, hticks⟩ := currentMs_succeed ht.ready.ticks
  have hlog : heard (w.log (.send w.client.xioHandle s.bytes)) = heard w := by
    simp [heard, World.log]
  have hin := ht.inner { w.client with packetSendTimeMs := t } w.mallocs ticks w.crashed
    (w.log (.send w.client.xioHandle s.bytes)).trace [] rfl rfl rfl ht.ready.state rfl ht.mallocs hticks (heard_log hlog _ _ _ _)
  rw [List.append_nil] at hin
  obtain ⟨ext, htalk, halong⟩ := send_talking xio app s hin
  have hrun : (sendPacketItem (socketXio xio app) s.bytes w).2 = ((socketXio xio app).send h s.bytes
      ⟨{ w.client with packetSendTimeMs := t }, w.mallocs, ticks, w.crashed, (w.log (.send w.client.xioHandle s.bytes)).trace,
        w.out⟩).2 := by
    simp only [sendPacketItem, hnow, ht.ready.handle, World.log, Xio.xioSend]
  rw [hrun]
  exact ⟨ext, htalk, halong.before rfl rfl⟩

/-- Building a reply and sending it. -/
theorem sendReply_talking (kind : AckKind) (packetId : UInt16) {reply : UInt16 → Mallocs → Option Buffer × Mallocs}
    (hr : reply = constructPublishReply kind.type (UInt8.ofNat (ackFlags kind)))
    (ht : Talking taken h got replies [] kept w) :
    ∃ ext, Talking taken h got (replies ++ [.ack kind packetId]) [] (kept ++ ext)
        (sendReply (socketXio xio app) app reply packetId w) ∧
      Along h 0 w (sendReply (socketXio xio app) app reply packetId w) := by
  obtain ⟨ms', he, hs⟩ := constructPublishReply_succeed ht.mallocs kind.type (UInt8.ofNat (ackFlags kind)) packetId
  have hin := ht.inner w.client ms' w.ticks w.crashed w.trace [] rfl rfl rfl
    ht.ready.state rfl hs ht.ready.ticks (by rw [List.map_nil, List.append_nil]; rfl)
  rw [List.append_nil] at hin
  obtain ⟨ext, htalk, halong⟩ := @sendPacketItem_talking _ _ xio app _ _ _ _ [] (.ack kind packetId) hin
  have hrun : sendReply (socketXio xio app) app reply packetId w =
      (sendPacketItem (socketXio xio app) (Sent.ack kind packetId).bytes { w with mallocs := ms' }).2 := by
    simp only [sendReply, hr, he, Buffer.bytes_ofBytes, ack_bytes kind packetId _ rfl]
  rw [hrun]
  exact ⟨ext, htalk, halong.before rfl rfl⟩

end Sending

/-! ## Publishing -/

section Publishing

variable {taken : Prop} {h : XioHandle} {w w' : Sys} {got replies kept : List Sent} {debt : List Content}

/-- What `mqtt_client_publish` sends of a message. -/
theorem publish_built {m : Message} (hm : Deliverable m) {ms : Mallocs} (hms : Succeed ms) :
    ∃ (s : Sent) (ms' : Mallocs), s.contents = [content m] ∧ s.acks = [] ∧ Succeed ms' ∧
      mqttCodecPublish m.qosInfo m.isDuplicateMsg m.isMessageRetained m.packetId m.getTopicName m.payload ms =
        (some (Buffer.ofBytes s.bytes), ms') := by
  obtain ⟨topicName, htopic, ok, plain⟩ := hm
  have hshort : (publishBody m.qosInfo m.packetId topicName m.payload).length ≤ 2097151 := ok.short
  have hfits : topicName.strlen ≤ ushrtMax := ok.topicFits
  obtain ⟨ms', henc, hs⟩ := mqttCodecPublish_succeed hms m.qosInfo m.isDuplicateMsg m.isMessageRetained m.packetId
    hfits m.payload (by omega)
  refine ⟨.publish (asPublished m topicName) ok plain, ms', ?_, rfl, hs, ?_⟩
  · simp only [Sent.contents, contentOf, content, htopic]
    rfl
  · rw [htopic, henc]
    simp only [Sent.bytes, Sent.frame, Published.frame, Frame.bytes, Published.flags, UInt8.ofNat_toNat]
    rfl

/-- The call itself is noted: from here on the message is owed. -/
theorem arrive_talking (m : Message) (ht : Talking taken h got replies [] kept w) :
    Talking taken h got replies [content m] kept (OverSocket.arrive (.publish m) w) ∧
      Along h 1 w (OverSocket.arrive (.publish m) w) := by
  obtain ⟨sent, hsub, hacks, hcontents, hlossless⟩ := ht.sent
  have hp : published (OverSocket.arrive (.publish m) w) = published w ++ [m] := by
    simp only [published, OverSocket.arrive, writeNotes, List.filterMap_append]
    rfl
  have hdue : due (OverSocket.arrive (.publish m) w) = due w + 1 := by
    have hscript : (OverSocket.arrive (.publish m) w).out.application = w.out.application := rfl
    simp only [due, hp, hscript, List.length_append, List.length_cons, List.length_nil]
    omega
  refine ⟨⟨⟨ht.ready.operation, ht.ready.message, ht.ready.handle, ht.ready.state, ht.ready.ticks⟩, ht.mallocs, ht.keepAlive,
    ht.application, ht.held, ht.callbacks, ht.heard, ht.answers, sent, hsub, hacks, ?_, hlossless⟩, rfl, .refl _, hdue.le⟩
  rw [hp, List.map_append, ← hcontents, List.append_nil]
  rfl

theorem publish_talking (n : Nat) {m : Message} (hm : Deliverable m) (ht : Talking taken h got replies [] kept w) :
    ∃ ext, Talking taken h got replies [] (kept ++ ext) (OverSocket.perform n (.publish m) w) ∧
      Along h 1 w (OverSocket.perform n (.publish m) w) := by
  cases n with
  | zero => exact ⟨[], by rwa [List.append_nil], rfl, .refl _, Nat.le_succ _⟩
  | succ n =>
    obtain ⟨harrive, halong⟩ := arrive_talking m ht
    obtain ⟨s, ms', hcontents, hacks, hs, hbuilt⟩ := publish_built hm harrive.mallocs
    have hin := harrive.inner { w.client with packetState := .publish } ms' w.ticks w.crashed w.trace []
      rfl rfl rfl (by simp) rfl hs harrive.ready.ticks
      (by rw [List.map_nil, List.append_nil]; rfl)
    rw [List.append_nil, ← hcontents, ← List.append_nil s.contents] at hin
    obtain ⟨ext, htalk, halong'⟩ := sendPacketItem_talking (OverSocket.transport (appAt n) n) (appAt n) s hin
    rw [hacks, List.append_nil] at htalk
    have hrun : OverSocket.perform (n + 1) (.publish m) w = (sendPacketItem
        (socketXio (OverSocket.transport (appAt n) n)
          (appAt n)) s.bytes
        ⟨{ w.client with packetState := .publish }, ms', w.ticks, w.crashed, w.trace,
          (OverSocket.arrive (.publish m) w).out⟩).2 := by
      have hm' : (OverSocket.arrive (.publish m) w).mallocs = w.mallocs := rfl
      rw [hm'] at hbuilt
      simp only [OverSocket.perform, mqttClientPublish, sendBuilt, hm', hbuilt, Buffer.bytes_ofBytes]
      rfl
    rw [hrun]
    exact ⟨ext, htalk, halong.add (halong'.before rfl rfl)⟩

/-- An application that answers a callback publishes, message by message. -/
theorem publishes_talking (n : Nat) : ∀ (calls : List ApiCall) (kept : List Sent) (w : Sys),
    (∀ c ∈ calls, ∃ m, c = .publish m ∧ Deliverable m) → Talking taken h got replies [] kept w →
    ∃ ext, Talking taken h got replies [] (kept ++ ext) (calls.foldl (fun w c => OverSocket.perform n c w) w) ∧
      Along h calls.length w (calls.foldl (fun w c => OverSocket.perform n c w) w) := by
  intro calls
  induction calls with
  | nil => intro kept w _ ht; exact ⟨[], by rwa [List.append_nil], .refl h w⟩
  | cons c calls ih =>
    intro kept w hcalls ht
    obtain ⟨m, rfl, hm⟩ := hcalls c List.mem_cons_self
    obtain ⟨ext, htalk, halong⟩ := publish_talking n hm ht
    obtain ⟨ext', htalk', halong'⟩ := ih (kept ++ ext) _ (fun c' hc' => hcalls c' (List.mem_cons_of_mem _ hc')) htalk
    refine ⟨ext ++ ext', by rwa [List.append_assoc] at htalk', ?_⟩
    rw [List.length_cons, Nat.add_comm]
    exact halong.add halong'

theorem respond_talking (n : Nat) (x : Exit) (ht : Talking taken h got replies [] kept w) :
    ∃ ext, Talking taken h got replies [] (kept ++ ext) (OverSocket.respond (OverSocket.perform n) x w) ∧
      Along h 0 w (OverSocket.respond (OverSocket.perform n) x w) := by
  have hhead : ∀ c ∈ w.out.application.headD [], ∃ m, c = .publish m ∧ Deliverable m := by
    cases ha : w.out.application with
    | nil => intro c hc; cases hc
    | cons cs rest => exact ht.application cs (by rw [ha]; exact List.mem_cons_self)
  have hnext : Talking taken h got replies [] kept
      { w with out := { w.out with application := w.out.application.tail } } :=
    ⟨⟨ht.ready.operation, ht.ready.message, ht.ready.handle, ht.ready.state, ht.ready.ticks⟩, ht.mallocs, ht.keepAlive,
      fun cs hcs => ht.application cs (List.mem_of_mem_tail hcs), ht.held, ht.callbacks, ht.heard, ht.answers, ht.sent⟩
  obtain ⟨ext, htalk, halong⟩ := publishes_talking n _ _ _ hhead hnext
  obtain ⟨htalk', halong'⟩ := htalk.noted (noted_one (n := .returned x (OverSocket.moment _)) rfl _)
  refine ⟨ext, htalk', Along.trans ⟨halong.codec, halong.onward, ?_⟩ halong'⟩
  -- What the application publishes is taken from what it still had to.
  have hspent : due { w with out := { w.out with application := w.out.application.tail } } +
      (w.out.application.headD []).length = due w := by
    simp only [due]
    cases w.out.application with
    | nil => rfl
    | cons cs rest =>
      simp only [published, List.tail_cons, List.headD_cons, List.flatten_cons, List.length_append]
      omega
  exact hspent ▸ halong.due

end Publishing

/-! ## Receiving -/

section Receiving

variable {taken : Prop} {h : XioHandle} (xio : Xio Outside) {w : Sys} {got replies kept : List Sent}

/-- The callback is one more that is heard, and the application may publish. -/
theorem callMessage_talking (n : Nat) {s : Sent} {m : Message} (hm : s.heard = .message (content m))
    (ht : Talking taken h got replies [] kept w) :
    ∃ ext, Talking taken h (got ++ [s]) replies [] (kept ++ ext)
        ((appAt n).callMessage m w) ∧
      Along h 0 w ((appAt n).callMessage m w) := by
  have hlog := ht.inner w.client w.mallocs w.ticks w.crashed (w.log (.message m)).trace [s]
    rfl rfl rfl ht.ready.state rfl ht.mallocs ht.ready.ticks
    (by simp [heard, World.log, List.filterMap_append, hm])
  obtain ⟨ext, htalk, halong⟩ := respond_talking n (.message m) hlog
  exact ⟨ext, htalk, halong.before rfl rfl⟩

theorem callOperation_talking (n : Nat) {s : Sent} {o : Operation} (ho : s.heard = .operation o)
    (ht : Talking taken h got replies [] kept w) :
    ∃ ext, Talking taken h (got ++ [s]) replies [] (kept ++ ext)
        ((appAt n).callOperation o w) ∧
      Along h 0 w ((appAt n).callOperation o w) := by
  have hlog := ht.inner w.client w.mallocs w.ticks w.crashed (w.log (.operation o)).trace [s]
    rfl rfl rfl ht.ready.state rfl ht.mallocs ht.ready.ticks
    (by simp [heard, World.log, List.filterMap_append, ho])
  obtain ⟨ext, htalk, halong⟩ := respond_talking n (.operation o) hlog
  exact ⟨ext, htalk, halong.before rfl rfl⟩

/-- A message that is decoded of a packet is heard as it was published. -/
theorem decoded_content {p : Published} (hp : p.Ok) (plain : p.qosValue = .deliverAtMostOnce → p.duplicateMsg = false ∧
    p.serverRetain = false) {m : Message} (hd : p.Decoded m) : contentOf p = content m := by
  have hs := hd.same ((publishFlags_qos hp.qos p.duplicateMsg p.serverRetain).mpr plain)
  simp only [contentOf, content, hs.qos, hs.duplicate, hs.retained, hs.topic, hs.payload, hs.packetId]
  split <;> rfl

theorem qosValue_of_content {p : Published} {m : Message} (hc : contentOf p = content m) :
    m.qosInfo = p.qosValue ∧ (p.qosValue ≠ .deliverAtMostOnce → m.packetId = p.packetId) := by
  have hq : p.qosValue = m.qosInfo := congrArg Content.qosValue hc
  refine ⟨hq.symm, fun hne => ?_⟩
  have hid := congrArg Content.packetId hc
  simp only [contentOf, content, ← hq, if_neg hne] at hid
  exact hid.symm

/-- What the client does with the packet: one callback, and the reply. -/
theorem act_talking (n : Nat) (s : Sent) (ht : Talking taken h got replies [] kept w) {ms : Mallocs} (hms : Succeed ms)
    {client : MqttClient} (hop : client.fnOperationCallback = true) (hmsg : client.fnMessageRecv = true) :
    Succeed (decode client s.frame.packet ms).mallocs ∧
    ∃ ext, Talking taken h (got ++ [s]) (replies ++ s.reply) [] (kept ++ ext)
        (act (socketXio xio (appAt n)) (appAt n)
          (decode client s.frame.packet ms).verdict w) ∧
      Along h 0 w (act (socketXio xio (appAt n))
        (appAt n) (decode client s.frame.packet ms).verdict w) := by
  cases s with
  | publish p ok plain =>
    obtain ⟨m, hv, hd, hs⟩ := Published.decode_published ok hop hmsg hms
    have hc := decoded_content ok plain hd
    obtain ⟨hqos, hid⟩ := qosValue_of_content hc
    refine ⟨hs, ?_⟩
    rw [show (Sent.publish p ok plain).frame = Published.frame ok from rfl, hv]
    obtain ⟨ext, htalk, halong⟩ := callMessage_talking n (s := .publish p ok plain) (congrArg Heard.message hc) ht
    simp only [act, hqos]
    cases hq : p.qosValue with
    | deliverExactlyOnce =>
      rw [hid (by rw [hq]; decide)]
      obtain ⟨ext', htalk', halong'⟩ :=
        sendReply_talking xio (appAt n) .pubrec p.packetId (show mqttCodecPublishReceived = _ from rfl) htalk
      refine ⟨ext ++ ext', ?_, halong.trans halong'⟩
      simpa [Sent.reply, hq] using htalk'
    | deliverAtLeastOnce =>
      rw [hid (by rw [hq]; decide)]
      obtain ⟨ext', htalk', halong'⟩ :=
        sendReply_talking xio (appAt n) .puback p.packetId (show mqttCodecPublishAck = _ from rfl) htalk
      refine ⟨ext ++ ext', ?_, halong.trans halong'⟩
      simpa [Sent.reply, hq] using htalk'
    | deliverAtMostOnce => exact ⟨ext, by simpa [Sent.reply, hq] using htalk, halong⟩
    | deliverFailure => exact ⟨ext, by simpa [Sent.reply, hq] using htalk, halong⟩
    | other value => exact ⟨ext, by simpa [Sent.reply, hq] using htalk, halong⟩
  | ack kind packetId =>
    obtain ⟨hs, hv⟩ := decode_inbound (.publishAck (ackFlags kind) kind packetId) hop hmsg hms
    rw [show (Inbound.publishAck (ackFlags kind) kind packetId).frame = (Sent.ack kind packetId).frame from rfl] at hs hv
    refine ⟨hs, ?_⟩
    rw [hv]
    obtain ⟨ext, htalk, halong⟩ := callOperation_talking n (s := .ack kind packetId) rfl ht
    simp only [act]
    cases kind with
    | puback => exact ⟨ext, by simpa [Sent.reply, AckKind.type] using htalk, halong⟩
    | pubcomp => exact ⟨ext, by simpa [Sent.reply, AckKind.type] using htalk, halong⟩
    | pubrec =>
      obtain ⟨ext', htalk', halong'⟩ :=
        sendReply_talking xio (appAt n) .pubrel packetId (show mqttCodecPublishRelease = _ from rfl) htalk
      exact ⟨ext ++ ext', by simpa [Sent.reply, AckKind.type] using htalk', halong.trans halong'⟩
    | pubrel =>
      obtain ⟨ext', htalk', halong'⟩ :=
        sendReply_talking xio (appAt n) .pubcomp packetId (show mqttCodecPublishComplete = _ from rfl) htalk
      exact ⟨ext ++ ext', by simpa [Sent.reply, AckKind.type] using htalk', halong.trans halong'⟩

theorem recvComplete_talking (n : Nat) (s : Sent) (ht : Talking taken h got replies [] kept w) :
    ∃ ext, Talking taken h (got ++ [s]) (replies ++ s.reply) [] (kept ++ ext)
        (recvCompleteCallback (socketXio xio (appAt n))
          (appAt n) s.frame.packet w) ∧
      Along h 0 w (recvCompleteCallback (socketXio xio (appAt n))
        (appAt n) s.frame.packet w) := by
  have hs := (act_talking xio n s ht ht.mallocs ht.ready.operation ht.ready.message).1
  have hlog := ht.inner w.client (decode w.client s.frame.packet w.mallocs).mallocs w.ticks w.crashed
    (w.log (.packet s.frame.packet)).trace [] rfl rfl rfl ht.ready.state rfl hs
    ht.ready.ticks (heard_log (by simp [heard, World.log]) _ _ _ _)
  rw [List.append_nil] at hlog
  obtain ⟨-, ext, htalk, halong⟩ := act_talking xio n s hlog ht.mallocs ht.ready.operation ht.ready.message
  exact ⟨ext, htalk, halong.before rfl rfl⟩

/-- The codec is the client's own affair. -/
theorem Talking.codec {debt : List Content} (ht : Talking taken h got replies debt kept w) {x : CodecInstance × Mallocs}
    (hm : Succeed x.2) : Talking taken h got replies debt kept (World.codecSlot.set x w) :=
  ⟨⟨ht.ready.operation, ht.ready.message, ht.ready.handle, ht.ready.state, ht.ready.ticks⟩, hm, ht.keepAlive,
    ht.application, ht.held, ht.callbacks, ht.heard, ht.answers, ht.sent⟩

/-- `w'` is behind `w` by the packets `now`: they are got and answered. -/
structure Since (taken : Prop) (h : XioHandle) (got kept : List Sent) (w : Sys) (now : List Sent) (w' : Sys) : Prop where
  talking : ∃ ext, (now = [] → ext = []) ∧
    Talking taken h (got ++ now) ((got ++ now).flatMap Sent.reply) [] (kept ++ ext) w'
  onward : Onward ((socketSlot h).get w) ((socketSlot h).get w')
  due : due w' ≤ due w

theorem since_self (ht : Talking taken h got (got.flatMap Sent.reply) [] kept w) : Since taken h got kept w [] w :=
  ⟨⟨[], fun _ => rfl, by simpa using ht⟩, .refl _, Nat.le_refl _⟩

theorem Since.codec {now : List Sent} {w' : Sys} (hs : Since taken h got kept w now w') {x : CodecInstance × Mallocs}
    (hm : Succeed x.2) : Since taken h got kept w now (World.codecSlot.set x w') := by
  obtain ⟨ext, hext, htalk⟩ := hs.talking
  exact ⟨⟨ext, hext, htalk.codec hm⟩, ⟨hs.onward.events, hs.onward.callbacks⟩, hs.due⟩

/-- Each packet takes the client one further. Between two packets its codec may be any. -/
theorem since_serves (n : Nat) : Serves World.codecSlot (recvCompleteCallback
    (socketXio xio (appAt n)) (appAt n))
    Sent.frame fun now w' => ∀ x : CodecInstance × Mallocs, Succeed x.2 →
      Since taken h got kept w now (World.codecSlot.set x w') := by
  constructor
  · intro now x w' hR y hy
    rw [World.codecSlot.set_set]
    exact hR y hy
  · intro now s w' hR _ hm
    have hnow := hR (World.codecSlot.get w') hm
    rw [World.codecSlot.set_get] at hnow
    obtain ⟨ext, -, htalk⟩ := hnow.talking
    obtain ⟨ext', htalk', halong⟩ := recvComplete_talking xio n s htalk
    have hnext : Since taken h got kept w (now ++ [s]) (recvCompleteCallback
        (socketXio xio (appAt n)) (appAt n)
        s.frame.packet w') := by
      refine ⟨⟨ext ++ ext', fun hnil => by simp at hnil, ?_⟩, hnow.onward.trans halong.onward, halong.due.trans hnow.due⟩
      simpa using htalk'
    exact ⟨fun x hx => hnext.codec hx, halong.codec, htalk'.mallocs⟩

theorem Since.noted {now : List Sent} {w' w'' : Sys} (hs : Since taken h got kept w now w') (hn : Noted w' w'') :
    Since taken h got kept w now w'' := by
  obtain ⟨ext, hext, htalk⟩ := hs.talking
  obtain ⟨htalk', halong⟩ := htalk.noted hn
  exact ⟨⟨ext, hext, htalk'⟩, hs.onward.trans halong.onward, halong.due.trans hs.due⟩

theorem byteNotes_quiet (xio : Xio Outside) (app : App Outside) (bytes : List UInt8) (w : Sys) :
    (OverSocket.byteNotes xio app bytes w).filterMap publishedNote = [] := by
  induction bytes generalizing w with
  | nil => rfl
  | cons b bytes ih =>
    simp only [OverSocket.byteNotes]
    rw [List.filterMap_cons_none rfl]
    split
    · exact ih _
    · rfl

/-- What is on its way: the receiver is midway through what the sender's socket holds. -/
structure Coming (rest : List Sent) (pre stream : List UInt8) (c : CodecInstance) : Prop where
  midway : Midway Sent.frame pre rest c
  stream : pre ++ stream = rest.flatMap Sent.bytes

/-- A piece of what is on its way: the whole packets in it are got and answered. -/
theorem piece_talking (n : Nat) {rest : List Sent} {pre piece later : List UInt8}
    (ht : Talking taken h got (got.flatMap Sent.reply) [] kept w) (hp : piece ≠ [])
    (hc : Coming rest pre (piece ++ later) w.client.codec) :
    ∃ now rest' pre', rest = now ++ rest' ∧ pre ++ piece = now.flatMap Sent.bytes ++ pre' ∧
      Since taken h got kept w now ((socketCallbacks (socketXio xio (appAt n))
        (appAt n) h).onBytesReceived piece w) ∧
      Coming rest' pre' later ((socketCallbacks (socketXio xio (appAt n))
        (appAt n) h).onBytesReceived piece w).client.codec := by
  obtain ⟨now, rest', pre', w', hrun, hrest, hpre, hR, hmid, hm⟩ := (@since_serves taken h xio w got
    kept n).part piece later [] rest pre w (fun x hx => (since_self ht).codec hx) hc.midway
    ht.mallocs hc.stream
  have hend : onBytesReceived (socketXio xio (appAt n))
      (appAt n) piece w = w' := by
    simp only [onBytesReceived, bytesReceived_ne_nil _ _ hp, hrun]
    rfl
  have hnow := hR (World.codecSlot.get w') hm
  rw [World.codecSlot.set_get, List.nil_append] at hnow
  refine ⟨now, rest', pre', hrest, hpre, ?_, ?_⟩
  · simp only [socketCallbacks, hend]
    exact hnow.noted ⟨_, byteNotes_quiet _ _ _ _, rfl⟩
  · simp only [socketCallbacks, hend]
    refine ⟨hmid, ?_⟩
    have hstream := hc.stream
    rw [hrest, List.flatMap_append, ← List.append_assoc, hpre, List.append_assoc] at hstream
    exact List.append_cancel_left hstream

/-- The `recv()` loop over the pieces. -/
theorem receive_talking (n : Nat) : ∀ (pieces : List (List UInt8)) (got kept rest : List Sent) (pre later : List UInt8) (w : Sys),
    (∀ piece ∈ pieces, piece ≠ []) → Talking taken h got (got.flatMap Sent.reply) [] kept w →
    Coming rest pre (pieces.flatten ++ later) w.client.codec →
    ∃ now rest' pre', rest = now ++ rest' ∧ pre ++ pieces.flatten = now.flatMap Sent.bytes ++ pre' ∧
      Since taken h got kept w now (receive (socketSlot h)
        (socketCallbacks (socketXio xio (appAt n))
          (appAt n) h) (pieces.map .bytes) w) ∧
      Coming rest' pre' later (receive (socketSlot h)
        (socketCallbacks (socketXio xio (appAt n))
          (appAt n) h) (pieces.map .bytes) w).client.codec := by
  intro pieces
  induction pieces with
  | nil =>
    intro got kept rest pre later w _ ht hc
    exact ⟨[], rest, pre, rfl, by simp, since_self ht, by simpa [receive] using hc⟩
  | cons piece pieces ih =>
    intro got kept rest pre later w hne ht hc
    have hp := hne piece List.mem_cons_self
    rw [List.flatten_cons, List.append_assoc] at hc
    obtain ⟨now, rest', pre', hrest, hpre, hsince, hcoming⟩ := piece_talking xio n ht hp hc
    obtain ⟨ext, hext, htalk⟩ := hsince.talking
    have hcall : ((socketSlot h).get w).1.callbacks = true := ht.callbacks
    simp only [List.map_cons, receive, if_neg hp, hcall, if_true]
    generalize (socketCallbacks (socketXio xio (appAt n))
      (appAt n) h).onBytesReceived piece w = w' at hsince hcoming htalk
    have hopen : ((socketSlot h).get w').1.ioState = .opened := htalk.held.opened
    rw [if_pos hopen]
    obtain ⟨now', rest'', pre'', hrest', hpre', hsince', hcoming'⟩ := ih (got ++ now) (kept ++ ext) rest' pre' later w'
      (fun p hp => hne p (List.mem_cons_of_mem _ hp)) htalk hcoming
    refine ⟨now ++ now', rest'', pre'', by rw [hrest, hrest', List.append_assoc], ?_, ?_, hcoming'⟩
    · rw [List.flatten_cons, ← List.append_assoc, hpre, List.append_assoc, hpre', List.flatMap_append, List.append_assoc]
    · refine ⟨?_, hsince.onward.trans hsince'.onward, hsince'.due.trans hsince.due⟩
      obtain ⟨ext', hext', htalk'⟩ := hsince'.talking
      refine ⟨ext ++ ext', fun hnil => ?_, by simpa only [List.append_assoc] using htalk'⟩
      obtain ⟨hnow, hnow'⟩ := List.append_eq_nil_iff.mp hnil
      rw [hext hnow, hext' hnow']
      rfl

end Receiving

/-! ## Working -/

section Working

variable {taken : Prop} {h : XioHandle} (xio : Xio Outside) (app : App Outside) {w : Sys} {got kept : List Sent}

theorem flush_writeNotes (answers : List SendAnswer) (ns : List OverSocket.Note) (w : Sys) :
    flush (socketSlot h) (.inert Unit _) answers (writeNotes ns w) =
      writeNotes ns (flush (socketSlot h) (.inert Unit _) answers w) := by
  rw [flush_alone, flush_alone]
  rfl

/-- But for notes, the flush is the socket's own affair. -/
theorem flush_noted (answers : List SendAnswer) (hf : .fatal ∉ answers) : ∀ w : Sys, w.client.packetState ≠ .disconnect →
    Noted (flush (socketSlot h) (.inert Unit _) answers w) (flush (socketSlot h) (socketCallbacks xio app h) answers w) := by
  induction answers with
  | nil => exact fun w _ => .refl w
  | cons answer answers ih =>
    intro w hs
    unfold flush
    split
    · exact .refl w
    · rename_i pending rest hp
      cases answer with
      | fatal => exact absurd List.mem_cons_self hf
      | again => exact .refl w
      | accepted count =>
        simp only
        split
        · exact .refl _
        · obtain ⟨ns, hns, he⟩ := @sendCompleted_noted h xio app
            (accept (socketSlot h) pending.bytes w) (by exact hs) pending.onSendComplete
          have hdone : (sendCompleted (socketSlot h) (.inert Unit _) pending.onSendComplete
              (accept (socketSlot h) pending.bytes w)).client = w.client := by
            rw [sendCompleted_alone]
            rfl
          rw [he]
          have hrest := ih (fun hm => hf (List.mem_cons_of_mem _ hm)) (writeNotes ns (update (socketSlot h)
            (fun io => { io with pendingIoList := io.pendingIoList.tail }) (sendCompleted (socketSlot h) (.inert Unit _)
              pending.onSendComplete (accept (socketSlot h) pending.bytes w)))) (by
                rw [show (writeNotes ns (update (socketSlot h) _ _)).client = _ from hdone]; exact hs)
          rw [flush_writeNotes] at hrest
          exact Noted.trans ⟨ns, hns, rfl⟩ hrest

/-- Nothing waits any more behind a flush that covers what waits. -/
theorem flush_covers : ∀ (answers : List SendAnswer) {x : SocketIoInstance Unit × Mallocs}, Covers answers x.1.pendingIoList →
    (flushAlone answers x).1.pendingIoList = [] := by
  intro answers
  induction answers with
  | nil =>
    intro x hc
    cases hp : x.1.pendingIoList with
    | nil => exact hp
    | cons pending rest => rw [hp] at hc; exact hc.elim
  | cons answer answers ih =>
    intro x hc
    simp only [flushAlone, flush, itself_get] at ih ⊢
    cases hp : x.1.pendingIoList with
    | nil => exact hp
    | cons pending rest =>
      rw [hp] at hc
      cases answer with
      | again => exact hc.elim
      | fatal => exact hc.elim
      | accepted count =>
        obtain ⟨hall, hc⟩ := hc
        simp only [if_neg (Nat.not_lt.mpr hall)]
        apply ih
        cases hk : pending.onSendComplete with
        | none => simpa [sendCompleted, accept, hp] using hc
        | some k => simpa [sendCompleted, accept, hp, SocketCallbacks.inert] using hc

theorem flush_talking (answers : List SendAnswer) (hf : .fatal ∉ answers)
    (ht : Talking taken h got (got.flatMap Sent.reply) [] kept w) :
    Talking taken h got (got.flatMap Sent.reply) [] kept (flush (socketSlot h) (socketCallbacks xio app h) answers w) ∧
      Along h 0 w (flush (socketSlot h) (socketCallbacks xio app h) answers w) ∧
      (Covers answers (w.out.sockets h).pendingIoList → kept.flatMap Sent.bytes <+:
        accepted ((flush (socketSlot h) (socketCallbacks xio app h) answers w).out.sockets h).events) := by
  have hheld := flush_holds (s := itself Unit) passive_alone (kept.map Sent.buffer) answers ((socketSlot h).get w) hf
    ⟨ht.held, ht.mallocs⟩
  have honward := flushAlone_onward answers ((socketSlot h).get w)
  have halone : Talking taken h got (got.flatMap Sent.reply) [] kept (flush (socketSlot h) (.inert Unit _) answers w) := by
    rw [flush_alone]
    refine ⟨⟨ht.ready.operation, ht.ready.message, ht.ready.handle, ht.ready.state, ht.ready.ticks⟩, hheld.2, ht.keepAlive,
      ht.application, ?_, ?_, ht.heard, ht.answers, ht.sent⟩
    · have hflush : Held (kept.map Sent.buffer) (flushAlone answers ((socketSlot h).get w)).1 := hheld.1
      simpa only [OverSocket.socketSlot, Function.update_self] using hflush
    · simpa only [OverSocket.socketSlot, Function.update_self] using honward.callbacks.trans ht.callbacks
  obtain ⟨htalk, halong⟩ := halone.noted (flush_noted xio app answers hf w ht.ready.state)
  refine ⟨htalk, Along.trans ?_ halong, fun hcover => ?_⟩
  · rw [flush_alone]
    refine ⟨rfl, ?_, Nat.le_refl _⟩
    rw [Slot.get_set]
    exact honward
  · have hbytes : accepted (flushAlone answers ((socketSlot h).get w)).1.events ++
        (flushAlone answers ((socketSlot h).get w)).1.pendingIoList.flatMap (·.bytes) = contents (kept.map Sent.buffer) :=
      hheld.1.transmitted.bytes
    rw [flush_covers answers (show Covers answers ((socketSlot h).get w).1.pendingIoList from hcover), List.flatMap_nil,
      List.append_nil, contents_buffers] at hbytes
    have hevents := halong.onward.accepted
    rw [flush_alone, Slot.get_set] at hevents
    exact hbytes ▸ hevents

/-- `socketio_dowork` of the client's socket. -/
theorem socketioDowork_talking (n : Nat) {answers : List SendAnswer} (hf : .fatal ∉ answers) {pieces : List (List UInt8)}
    (hne : ∀ piece ∈ pieces, piece ≠ []) {rest : List Sent} {pre later : List UInt8}
    (ht : Talking taken h got (got.flatMap Sent.reply) [] kept w) (hc : Coming rest pre (pieces.flatten ++ later) w.client.codec) :
    ∃ now rest' pre', rest = now ++ rest' ∧ pre ++ pieces.flatten = now.flatMap Sent.bytes ++ pre' ∧
      Since taken h got kept w now (socketioDowork (socketSlot h)
        (socketCallbacks (socketXio xio (appAt n))
          (appAt n) h) answers (pieces.map .bytes) w) ∧
      Coming rest' pre' later (socketioDowork (socketSlot h)
        (socketCallbacks (socketXio xio (appAt n))
          (appAt n) h) answers (pieces.map .bytes) w).client.codec ∧
      (Covers answers (w.out.sockets h).pendingIoList → kept.flatMap Sent.bytes <+:
        accepted ((socketioDowork (socketSlot h) (socketCallbacks (socketXio xio (appAt n)) (appAt n) h) answers
          (pieces.map .bytes) w).out.sockets h).events) := by
  obtain ⟨hflush, halong, hcover⟩ := flush_talking (socketXio xio (appAt n)) (appAt n) answers hf ht
  simp only [socketioDowork]
  generalize flush (socketSlot h) _ answers w = w' at hflush halong hcover ⊢
  rw [← halong.codec] at hc
  have hopen : ((socketSlot h).get w').1.ioState = .opened := hflush.held.opened
  rw [if_pos hopen]
  obtain ⟨now, rest', pre', hrest, hpre, hsince, hcoming⟩ := receive_talking xio n pieces got kept rest pre later w' hne
    hflush hc
  refine ⟨now, rest', pre', hrest, hpre, ⟨hsince.talking, halong.onward.trans hsince.onward, hsince.due.trans halong.due⟩,
    hcoming, fun hc => ?_⟩
  exact (hcover hc).trans hsince.onward.accepted

/-- With the keep-alive off, the transport does all the work. -/
theorem dowork_unpinged {xio : Xio Outside} {app : App Outside} {w : Sys} (hh : w.client.xioHandle = some h)
    (hk : (xio.dowork h w).client.keepAliveInterval = 0) : mqttClientDowork xio app w = xio.dowork h w := by
  simp only [mqttClientDowork, hh]
  rw [if_neg]
  intro hping
  rw [hk] at hping
  exact absurd hping.2.2 (by decide)

/-- `mqtt_client_dowork`: what waits is sent as far as it goes, what comes is received. -/
theorem dowork_talking (n : Nat) {answers : List SendAnswer} (hf : .fatal ∉ answers) {pieces : List (List UInt8)}
    (hne : ∀ piece ∈ pieces, piece ≠ []) {rest : List Sent} {pre later : List UInt8}
    (ht : Talking taken h got (got.flatMap Sent.reply) [] kept w) (hc : Coming rest pre (pieces.flatten ++ later) w.client.codec) :
    ∃ now rest' pre', rest = now ++ rest' ∧ pre ++ pieces.flatten = now.flatMap Sent.bytes ++ pre' ∧
      Since taken h got kept w now (OverSocket.perform (n + 2) .dowork
        { w with out := { w.out with doworks := [(answers, pieces.map .bytes)] } }) ∧
      Coming rest' pre' later (OverSocket.perform (n + 2) .dowork
        { w with out := { w.out with doworks := [(answers, pieces.map .bytes)] } }).client.codec ∧
      (Covers answers (w.out.sockets h).pendingIoList → kept.flatMap Sent.bytes <+:
        accepted ((OverSocket.perform (n + 2) .dowork
          { w with out := { w.out with doworks := [(answers, pieces.map .bytes)] } }).out.sockets h).events) := by
  have hstart : Talking taken h got (got.flatMap Sent.reply) [] kept { w with out := { w.out with doworks := [] } } :=
    ⟨⟨ht.ready.operation, ht.ready.message, ht.ready.handle, ht.ready.state, ht.ready.ticks⟩, ht.mallocs, ht.keepAlive,
      ht.application, ht.held, ht.callbacks, ht.heard, ht.answers, ht.sent⟩
  -- The client in front of the work, the two notes of it written.
  obtain ⟨v, hv, hrun⟩ : ∃ v, Noted { w with out := { w.out with doworks := [] } } v ∧
      (OverSocket.transport (appAt (n + 1)) (n + 2)).dowork h (OverSocket.arrive .dowork
        { w with out := { w.out with doworks := [(answers, pieces.map .bytes)] } }) =
      OverSocket.worked (socketioDowork (socketSlot h)
        (socketCallbacks (socketXio (OverSocket.transport (appAt (n + 1)) n)
          (appAt (n + 1))) (appAt (n + 1)) h)
        answers (pieces.map .bytes) v) := by
    exact ⟨_, (noted_one (n := .called .dowork (OverSocket.moment w)) rfl _).trans
      (noted_one (n := .working h (pieces.map .bytes) (OverSocket.moment w)) rfl _), rfl⟩
  obtain ⟨hv', halong⟩ := hstart.noted hv
  rw [show w.client.codec = v.client.codec from halong.codec.symm] at hc
  obtain ⟨now, rest', pre', hrest, hpre, hsince, hcoming, hcover⟩ := socketioDowork_talking
    (OverSocket.transport (appAt (n + 1)) n) (n + 1) hf hne hv' hc
  have hworked := hsince.noted (worked_noted _)
  obtain ⟨ext, hext, htalk⟩ := hworked.talking
  have hend : OverSocket.perform (n + 2) .dowork { w with out := { w.out with doworks := [(answers, pieces.map .bytes)] } } =
      OverSocket.worked (socketioDowork (socketSlot h)
        (socketCallbacks (socketXio (OverSocket.transport (appAt (n + 1)) n)
          (appAt (n + 1))) (appAt (n + 1)) h)
        answers (pieces.map .bytes) v) := by
    have hh : (OverSocket.arrive .dowork
        { w with out := { w.out with doworks := [(answers, pieces.map .bytes)] } }).client.xioHandle = some h := ht.ready.handle
    exact (dowork_unpinged hh (by rw [hrun]; exact htalk.keepAlive)).trans hrun
  rw [hend]
  have hsame : (v.out.sockets h).pendingIoList = (w.out.sockets h).pendingIoList := by
    obtain ⟨ns, -, rfl⟩ := hv
    rfl
  rw [hsame] at hcover
  exact ⟨now, rest', pre', hrest, hpre, ⟨⟨ext, hext, htalk⟩, halong.onward.trans hworked.onward,
    hworked.due.trans halong.due⟩, hcoming, hcover⟩

end Working

/-! ## Both sides -/

section Both

variable {taken : Prop} {h : XioHandle}

/-- The receiver has got the first packets that the sender's socket holds, and its codec is midway
    through the next one. -/
def Flow (h : XioHandle) (kept got : List Sent) (sender : Sys) (stream : List UInt8) (c : CodecInstance) : Prop :=
  ∃ rest pre, kept = got ++ rest ∧ accepted (sender.out.sockets h).events = got.flatMap Sent.bytes ++ (pre ++ stream) ∧
    Midway Sent.frame pre rest c

structure Joined (taken : Prop) (h : XioHandle) (gotA keptA gotB keptB : List Sent) (l : Link) : Prop where
  a : Talking taken h gotA (gotA.flatMap Sent.reply) [] keptA l.a
  b : Talking taken h gotB (gotB.flatMap Sent.reply) [] keptB l.b
  toB : Flow h keptA gotB l.a l.toB l.b.client.codec
  toA : Flow h keptB gotA l.b l.toA l.a.client.codec

def swap (l : Link) : Link := ⟨l.b, l.a, l.toB, l.toA⟩

variable {gotA keptA gotB keptB : List Sent} {l : Link}

theorem Joined.swap (hj : Joined taken h gotA keptA gotB keptB l) : Joined taken h gotB keptB gotA keptA (swap l) :=
  ⟨hj.b, hj.a, hj.toA, hj.toB⟩

/-- What is on its way, with what waits in front of the sender's socket behind it. -/
theorem Flow.coming {kept got replies sgot : List Sent} {debt : List Content} {sender : Sys} {stream : List UInt8}
    {c : CodecInstance} (hf : Flow h kept got sender stream c) (hs : Talking taken h sgot replies debt kept sender) :
    ∃ rest pre, kept = got ++ rest ∧ accepted (sender.out.sockets h).events = got.flatMap Sent.bytes ++ (pre ++ stream) ∧
      Coming rest pre (stream ++ (sender.out.sockets h).pendingIoList.flatMap (·.bytes)) c := by
  obtain ⟨rest, pre, hkept, hacc, hmid⟩ := hf
  refine ⟨rest, pre, hkept, hacc, hmid, ?_⟩
  have hall := hs.held.transmitted.bytes
  rw [contents_buffers, hkept, hacc, List.flatMap_append, List.append_assoc] at hall
  have hrest := List.append_cancel_left hall
  rw [← hrest, List.append_assoc]

/-- The sender acts: what its socket accepts comes behind what is on its way. -/
theorem Flow.sent {kept got ext : List Sent} {sender sender' : Sys} {stream : List UInt8} {c : CodecInstance}
    (hf : Flow h kept got sender stream c) (ho : Onward ((socketSlot h).get sender) ((socketSlot h).get sender')) :
    Flow h (kept ++ ext) got sender' (stream ++ fresh h sender sender') c := by
  obtain ⟨rest, pre, hkept, hacc, hmid⟩ := hf
  refine ⟨rest ++ ext, pre, by rw [hkept, List.append_assoc], ?_, hmid.more ext⟩
  obtain ⟨later, hlater⟩ := ho.accepted
  have hnew : accepted (sender'.out.sockets h).events = accepted (sender.out.sockets h).events ++ later := hlater.symm
  have hfresh : fresh h sender sender' = later := by rw [fresh, hnew, List.drop_left']; rfl
  rw [hfresh, hnew, hacc]
  simp

theorem cut_flatten (sizes : List Nat) (stream : List UInt8) : (cut sizes stream).1.flatten ++ (cut sizes stream).2 = stream := by
  induction sizes generalizing stream with
  | nil => rfl
  | cons size sizes ih =>
    rw [cut]
    split
    · exact ih stream
    · rw [List.flatten_cons, List.append_assoc, ih, List.take_append_drop]

theorem cut_ne_nil (sizes : List Nat) (stream : List UInt8) : ∀ piece ∈ (cut sizes stream).1, piece ≠ [] := by
  induction sizes generalizing stream with
  | nil => intro piece hp; cases hp
  | cons size sizes ih =>
    rw [cut]
    split
    · exact ih stream
    · intro piece hp
      rcases List.mem_cons.mp hp with rfl | hp
      · assumption
      · exact ih _ piece hp

/-- The left side acts: it gets what has come, and what its socket holds grows. -/
theorem act_joined (n : Nat) {act : Act} (ha : act.Admitted) (hj : Joined taken h gotA keptA gotB keptB l) :
    ∃ now ext, Joined taken h (gotA ++ now) (keptA ++ ext) gotB keptB (step n h l (.a, act)) := by
  cases act with
  | publish m =>
    obtain ⟨ext, htalk, halong⟩ := publish_talking (n + 2) ha hj.a
    refine ⟨[], ext, ?_⟩
    rw [List.append_nil]
    refine ⟨htalk, hj.b, hj.toB.sent halong.onward, ?_⟩
    obtain ⟨rest, pre, hkept, hacc, hmid⟩ := hj.toA
    refine ⟨rest, pre, hkept, hacc, ?_⟩
    rw [show (step n h l (.a, .publish m)).a.client.codec = l.a.client.codec from halong.codec]
    exact hmid
  | dowork answers sizes =>
    obtain ⟨rest, pre, hkept, hacc, hcoming⟩ := hj.toA.coming hj.b
    rw [← cut_flatten sizes l.toA, List.append_assoc] at hcoming
    obtain ⟨now, rest', pre', hrest, hpre, hsince, hcoming', -⟩ := dowork_talking n ha (cut_ne_nil sizes l.toA) hj.a hcoming
    obtain ⟨ext, -, htalk⟩ := hsince.talking
    refine ⟨now, ext, htalk, hj.b, ?_, rest', pre', ?_, ?_, hcoming'.midway⟩
    · exact hj.toB.sent hsince.onward
    · rw [hkept, hrest, List.append_assoc]
    · rw [← cut_flatten sizes l.toA, ← List.append_assoc pre, hpre] at hacc
      rw [show (step n h l (.a, .dowork answers sizes)).b = l.b from rfl, hacc, List.flatMap_append]
      simp only [List.append_assoc]
      rfl

theorem step_joined (n : Nat) {s : Side × Act} (hs : s.2.Admitted) (hj : Joined taken h gotA keptA gotB keptB l) :
    ∃ gotA' keptA' gotB' keptB', Joined taken h gotA' keptA' gotB' keptB' (step n h l s) := by
  obtain ⟨side, act⟩ := s
  cases side with
  | a =>
    obtain ⟨now, ext, hj'⟩ := act_joined n hs hj
    exact ⟨_, _, _, _, hj'⟩
  | b =>
    obtain ⟨now, ext, hj'⟩ := act_joined n hs hj.swap
    exact ⟨_, _, _, _, hj'.swap⟩

theorem run_joined (n : Nat) (steps : List (Side × Act)) (hs : ∀ s ∈ steps, s.2.Admitted) :
    ∀ {gotA keptA gotB keptB : List Sent} {l : Link}, Joined taken h gotA keptA gotB keptB l →
      ∃ gotA' keptA' gotB' keptB', Joined taken h gotA' keptA' gotB' keptB' (run n h steps l) := by
  induction steps with
  | nil => exact fun hj => ⟨_, _, _, _, hj⟩
  | cons s steps ih =>
    intro gotA keptA gotB keptB l hj
    obtain ⟨_, _, _, _, hj'⟩ := step_joined n (hs s List.mem_cons_self) hj
    exact ih (fun s' hs' => hs s' (List.mem_cons_of_mem _ hs')) hj'

/-- Two clients that have just been connected have got and sent nothing. -/
theorem Established.talking {w : Sys} (he : Established h w) (ht : taken → ∀ x ∈ w.out.sends, ∃ count, x = .accepted count) :
    Talking taken h [] [] [] [] w := by
  refine ⟨he.ready, he.mallocs, he.keepAlive, he.application, created_held he.opened he.pending he.events, he.callbacks, ?_,
    ht, [], List.Sublist.refl _, rfl, ?_, fun _ _ => rfl⟩
  · simp only [heard, he.trace, List.filterMap_nil, List.map_nil]
  · simp only [published, he.notes, List.filterMap_nil, List.map_nil, List.flatMap_nil, List.append_nil]

theorem Fresh.joined (hf : Fresh h l) :
    Joined (∀ x ∈ l.a.out.sends ++ l.b.out.sends, ∃ count, x = .accepted count) h [] [] [] [] l := by
  refine ⟨hf.a.talking fun ht x hx => ht x (List.mem_append_left _ hx),
    hf.b.talking fun ht x hx => ht x (List.mem_append_right _ hx), ⟨[], [], rfl, ?_, .idle hf.b.codec _⟩,
    ⟨[], [], rfl, ?_, .idle hf.a.codec _⟩⟩
  · rw [hf.a.events, hf.toB]
    rfl
  · rw [hf.b.events, hf.toA]
    rfl

end Both

/-! ## What the two applications have seen -/

section Seen

def ackIds (kind : AckKind) : Sent → List UInt16
  | .publish _ _ _ => []
  | .ack k packetId => if k = kind then [packetId] else []

def publishIds (qosValue : QosValue) : Sent → List UInt16
  | .publish p _ _ => if p.qosValue = qosValue then [p.packetId] else []
  | .ack _ _ => []

def contentIds (qosValue : QosValue) (cs : List Content) : List UInt16 :=
  (cs.filter fun c => c.qosValue = qosValue).map (·.packetId)

theorem idsAt_contentIds {qosValue : QosValue} (hq : qosValue ≠ .deliverAtMostOnce) (ms : List Message) :
    idsAt qosValue ms = contentIds qosValue (ms.map content) := by
  induction ms with
  | nil => rfl
  | cons m ms ih =>
    simp only [idsAt, contentIds, List.map_cons, List.filter_cons] at ih ⊢
    by_cases hm : m.qosInfo = qosValue
    · have hc : (content m).qosValue = qosValue := hm
      have hid : (content m).packetId = m.packetId := by
        simp only [content, hm, if_neg hq]
      simp only [hm, hc, decide_true, if_true, List.map_cons, ih, hid]
    · have hc : ¬ (content m).qosValue = qosValue := hm
      simp only [hm, hc, decide_false, Bool.false_eq_true, if_false, ih]

theorem publishIds_contents {qosValue : QosValue} (hq : qosValue ≠ .deliverAtMostOnce) (sent : List Sent) :
    sent.flatMap (publishIds qosValue) = contentIds qosValue (sent.flatMap Sent.contents) := by
  induction sent with
  | nil => rfl
  | cons s sent ih =>
    simp only [List.flatMap_cons, contentIds, List.filter_append, List.map_append] at ih ⊢
    rw [ih]
    congr 1
    cases s with
    | ack kind packetId => rfl
    | publish p ok plain =>
      simp only [publishIds, Sent.contents, contentOf]
      by_cases hp : p.qosValue = qosValue
      · simp [hp, hq]
      · simp [hp]

/-- The acknowledgements that are sent decide those of each kind. -/
theorem ackIds_acks (kind : AckKind) (sent : List Sent) :
    sent.flatMap (ackIds kind) = (sent.flatMap Sent.acks).flatMap (ackIds kind) := by
  rw [List.flatMap_assoc]
  congr 1
  funext s
  cases s with
  | publish p ok plain => rfl
  | ack k packetId => simp [Sent.acks]

def answered : AckKind → Sent → List UInt16
  | .puback => publishIds .deliverAtLeastOnce
  | .pubrec => publishIds .deliverExactlyOnce
  | .pubrel => ackIds .pubrec
  | .pubcomp => ackIds .pubrel

/-- The replies that a client owes acknowledge what they answer. -/
theorem replies_answered (kind : AckKind) (got : List Sent) :
    (got.flatMap Sent.reply).flatMap (ackIds kind) = got.flatMap (answered kind) := by
  rw [List.flatMap_assoc]
  congr 1
  funext s
  cases s with
  | publish p ok plain =>
    cases hq : p.qosValue <;> cases kind <;> simp [Sent.reply, answered, publishIds, ackIds, hq]
  | ack k packetId => cases k <;> cases kind <;> rfl

variable {taken : Prop} {h : XioHandle} {got replies kept : List Sent} {debt : List Content} {w : Sys}

def Heard.carried : Heard → Option Content
  | .message c => some c
  | .operation _ => none

def Heard.acknowledged (kind : AckKind) : Heard → Option UInt16
  | .message _ => none
  | .operation o => ackId kind o

theorem received_heard (w : Sys) : (received w).map Peers.content = (heard w).filterMap Heard.carried := by
  simp only [received, messages, heard, List.map_filterMap, List.filterMap_filterMap]
  congr 1
  funext e
  cases e <;> rfl

theorem reported_heard (kind : AckKind) (w : Sys) : reported kind w = (heard w).filterMap (Heard.acknowledged kind) := by
  simp only [reported, operations, heard, List.filterMap_filterMap]
  congr 1
  funext e
  cases e <;> rfl

/-- The message callbacks are the contents of what was got. -/
theorem received_got (ht : Talking taken h got replies debt kept w) :
    (received w).map Peers.content = got.flatMap Sent.contents := by
  rw [received_heard, ht.heard]
  clear ht
  induction got with
  | nil => rfl
  | cons s got ih =>
    rw [List.map_cons, List.flatMap_cons, ← ih]
    cases s <;> rfl

/-- The operation callbacks are the acknowledgements that were got. -/
theorem reported_got (kind : AckKind) (ht : Talking taken h got replies debt kept w) :
    reported kind w = got.flatMap (ackIds kind) := by
  rw [reported_heard, ht.heard]
  clear ht
  induction got with
  | nil => rfl
  | cons s got ih =>
    rw [List.map_cons, List.flatMap_cons, ← ih]
    cases s with
    | publish p ok plain => rfl
    | ack k packetId => cases k <;> cases kind <;> rfl

/-- What the other side has sent acknowledges what it has got. -/
theorem sent_answered (kind : AckKind) {sent : List Sent} (hacks : sent.flatMap Sent.acks = got.flatMap Sent.reply) :
    sent.flatMap (ackIds kind) = got.flatMap (answered kind) := by
  rw [ackIds_acks, hacks, replies_answered]

end Seen

/-! ## The handshakes -/

section Handshakes

variable {taken : Prop} {h : XioHandle} {gotA keptA gotB keptB : List Sent} {l : Link}

theorem Joined.delivered (hj : Joined taken h gotA keptA gotB keptB l) : Delivered l.a l.b := by
  obtain ⟨sentA, hkeptA, hacksA, hcontents, -⟩ := hj.a.sent
  obtain ⟨sentB, hkeptB, hacksB, -, -⟩ := hj.b.sent
  obtain ⟨restB, -, hrestB, -⟩ := hj.toB
  obtain ⟨restA, -, hrestA, -⟩ := hj.toA
  have hgotB : gotB.Sublist sentA := (List.sublist_append_left gotB restB).trans (hrestB ▸ hkeptA)
  have hgotA : gotA.Sublist sentB := (List.sublist_append_left gotA restA).trans (hrestA ▸ hkeptB)
  rw [List.append_nil] at hcontents
  constructor
  · rw [received_got hj.b, ← hcontents]
    exact hgotB.flatMap _
  · rw [reported_got _ hj.a, idsAt_contentIds (by decide), received_got hj.b, ← publishIds_contents (by decide)]
    exact sent_answered .puback hacksB ▸ hgotA.flatMap _
  · rw [reported_got _ hj.a, idsAt_contentIds (by decide), received_got hj.b, ← publishIds_contents (by decide)]
    exact sent_answered .pubrec hacksB ▸ hgotA.flatMap _
  · rw [reported_got _ hj.a, reported_got _ hj.b]
    exact sent_answered .pubrel hacksA ▸ hgotB.flatMap _
  · rw [reported_got _ hj.a, reported_got _ hj.b]
    exact sent_answered .pubcomp hacksB ▸ hgotA.flatMap _

/-- Where nothing is on its way and nothing was lost, all that was sent is got. -/
theorem Flow.all_got {kept got replies sgot : List Sent} {debt : List Content} {sender : Sys} {c : CodecInstance}
    (hf : Flow h kept got sender [] c) (hs : Talking taken h sgot replies debt kept sender)
    (hp : (sender.out.sockets h).pendingIoList = []) : got = kept := by
  obtain ⟨rest, pre, hkept, -, hcoming⟩ := hf.coming hs
  have hstream := hcoming.stream
  rw [hp, List.flatMap_nil, List.append_nil, List.append_nil] at hstream
  rw [hkept, hcoming.midway.done hstream, List.append_nil]

theorem Joined.completed (hj : Joined taken h gotA keptA gotB keptB l) (hq : Quiescent h l) (ht : taken)
    (ha : l.a.out.sends ≠ []) (hb : l.b.out.sends ≠ []) : Completed l.a l.b := by
  obtain ⟨sentA, -, hacksA, hcontents, hlossA⟩ := hj.a.sent
  obtain ⟨sentB, -, hacksB, -, hlossB⟩ := hj.b.sent
  obtain rfl := hlossA ht ha
  obtain rfl := hlossB ht hb
  have htoB := hj.toB
  have htoA := hj.toA
  rw [hq.toB] at htoB
  rw [hq.toA] at htoA
  obtain rfl := htoB.all_got hj.a hq.a
  obtain rfl := htoA.all_got hj.b hq.b
  rw [List.append_nil] at hcontents
  have hcomp : ∀ kind, gotA.flatMap (ackIds kind) = gotB.flatMap (answered kind) := fun kind => sent_answered kind hacksB
  have hids : ∀ qosValue, qosValue ≠ .deliverAtMostOnce →
      idsAt qosValue (published l.a) = gotB.flatMap (publishIds qosValue) := fun qosValue hne => by
    rw [idsAt_contentIds hne, ← hcontents, publishIds_contents hne]
  have hrels : gotB.flatMap (ackIds .pubrel) = gotB.flatMap (publishIds .deliverExactlyOnce) :=
    (sent_answered .pubrel hacksA).trans (hcomp .pubrec)
  constructor
  · rw [received_got hj.b, hcontents]
  · rw [reported_got _ hj.a, hids _ (by decide)]
    exact hcomp .puback
  · rw [reported_got _ hj.a, hids _ (by decide)]
    exact hcomp .pubrec
  · rw [reported_got _ hj.b, hids _ (by decide), hrels]
  · rw [reported_got _ hj.a, hids _ (by decide), ← hrels]
    exact hcomp .pubcomp

/-- In every interleaving of two linked clients, whatever `send()` takes and however `recv()`
    cuts, the callbacks of each come in the order of what they answer, and none of them twice. -/
theorem delivered_run (n : Nat) {l : Link} (hf : Fresh h l) (steps : List (Side × Act)) (hs : ∀ s ∈ steps, s.2.Admitted) :
    Delivered (run n h steps l).a (run n h steps l).b ∧ Delivered (run n h steps l).b (run n h steps l).a := by
  obtain ⟨_, _, _, _, hj⟩ := run_joined n steps hs hf.joined
  exact ⟨hj.delivered, hj.swap.delivered⟩

/-- Once nothing is on its way, and where no direct `send()` would block or fail, every message
    that was published is received and acknowledged, both handshakes to their end. -/
theorem completed_run (n : Nat) {l : Link} (hf : Fresh h l) (steps : List (Side × Act)) (hs : ∀ s ∈ steps, s.2.Admitted)
    (hq : Quiescent h (run n h steps l)) (hu : Unhindered l (run n h steps l)) :
    Completed (run n h steps l).a (run n h steps l).b ∧ Completed (run n h steps l).b (run n h steps l).a := by
  obtain ⟨_, _, _, _, hj⟩ := run_joined n steps hs hf.joined
  exact ⟨hj.completed hq hu.taken hu.enoughA hu.enoughB,
    hj.swap.completed ⟨hq.b, hq.a, hq.toB, hq.toA⟩ hu.taken hu.enoughB hu.enoughA⟩

/-- A client that has just been connected, its direct sends going to be answered like that. -/
def connected (sends : List SendAnswer) (application : List (List ApiCall)) : Sys :=
  let client := { MqttClient.init true true true with xioHandle := some 0, socketConnected := true, clientConnected := true }
  let w := OverSocket.created client ⟨[], [], [], sends, [], application⟩
  { w with out := { w.out with sockets := fun _ => ⟨true, true, .opened, [], []⟩ } }

theorem connected_established (sends : List SendAnswer) {application : List (List ApiCall)}
    (ha : ∀ cs ∈ application, ∀ c ∈ cs, ∃ m, c = .publish m ∧ Deliverable m) : Established 0 (connected sends application) :=
  ⟨⟨rfl, rfl, rfl, by simp [connected, OverSocket.created, MqttClient.init], List.not_mem_nil⟩, succeed_nil, rfl, create_idle, ha,
    rfl, rfl, rfl, rfl, rfl, rfl⟩

def question : Message := Message.owned 7 (.ofBlock [0x74]) .deliverExactlyOnce [0x61, 0x62, 0x63]

def answer : Message := Message.owned 9 (.ofBlock [0x75]) .deliverAtLeastOnce [0x64]

theorem question_deliverable : Deliverable question :=
  ⟨.ofBlock [0x74], rfl, ⟨by decide, by decide, by decide, by decide⟩, fun h => absurd h (by decide)⟩

theorem answer_deliverable : Deliverable answer :=
  ⟨.ofBlock [0x75], rfl, ⟨by decide, by decide, by decide, by decide⟩, fun h => absurd h (by decide)⟩

def linked : Link :=
  ⟨connected [.accepted 3, .accepted 9, .accepted 9, .accepted 9] [],
    connected [.accepted 9, .accepted 1, .accepted 9, .accepted 9] [[.publish answer]], [], []⟩

theorem linked_fresh : Fresh 0 linked := by
  refine ⟨connected_established _ (by simp), connected_established _ ?_, rfl, rfl⟩
  intro cs hcs c hc
  rw [List.mem_singleton.mp hcs] at hc
  exact ⟨answer, List.mem_singleton.mp hc, answer_deliverable⟩

def dialogue : List (Side × Act) :=
  [(.a, .publish question), (.b, .dowork [] [2, 2]), (.a, .dowork [.accepted 99] []), (.b, .dowork [] [5, 99]),
    (.b, .dowork [.accepted 9] []), (.a, .dowork [] [3, 99]), (.b, .dowork [] [6, 99]), (.a, .dowork [] [99])]

theorem dialogue_admitted : ∀ s ∈ dialogue, s.2.Admitted := by
  intro s hs
  simp only [dialogue, List.mem_cons, List.not_mem_nil, or_false] at hs
  rcases hs with rfl | rfl | rfl | rfl | rfl | rfl | rfl | rfl
  · exact question_deliverable
  all_goals simp [Act.Admitted]

theorem dialogue_delivered : Delivered (run 0 0 dialogue linked).a (run 0 0 dialogue linked).b ∧
    Delivered (run 0 0 dialogue linked).b (run 0 0 dialogue linked).a :=
  delivered_run 0 linked_fresh dialogue dialogue_admitted

theorem dialogue_completed : Completed (run 0 0 dialogue linked).a (run 0 0 dialogue linked).b ∧
    Completed (run 0 0 dialogue linked).b (run 0 0 dialogue linked).a :=
  completed_run 0 linked_fresh dialogue dialogue_admitted
    ⟨by decide +kernel, by decide +kernel, by decide +kernel, by decide +kernel⟩
    ⟨by simp [linked, connected, OverSocket.created], by decide +kernel, by decide +kernel⟩

end Handshakes

end UMqtt.Client.Peers

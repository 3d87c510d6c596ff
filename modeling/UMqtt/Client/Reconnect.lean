/-
  UMqtt.Client.Reconnect — what a new connection inherits from the old one.

  The codec is created in `mqtt_client_init` and nothing resets it, so what arrives on a
  new connection is decoded from wherever the old one left off. A `History` is a client's
  life up to a successful `mqtt_client_connect`. What the client does with bytes mirrors a
  codec on its own (`onBytesReceived_mirrors`), as long as its surroundings stay `Apart`
  from the codec; so two histories agree with each other and with a new codec exactly when
  both leave the codec between two packets (`resumed_iff`).
-/

import UMqtt.Client.Api
import UMqtt.Codec.Residue

namespace UMqtt.Client

open UMqtt.Lib UMqtt.Crt UMqtt.Codec UMqtt.Io

/-! ## Surroundings that leave the codec alone -/

def packetsOf (trace : List Event) : List Packet :=
  trace.filterMap fun e => match e with | .packet p => some p | _ => none

@[simp] theorem packetsOf_append (t t' : List Event) : packetsOf (t ++ t') = packetsOf t ++ packetsOf t' :=
  List.filterMap_append

/-- What of the client decides how a packet is read. -/
def MqttClient.settings (c : MqttClient) : Bool × Bool × Bool :=
  (c.fnOperationCallback, c.fnMessageRecv, c.rawBytesTrace)

section Apart

variable {σ : Type} {xio : Xio σ} {app : App σ} {w w₁ w₂ : World σ} {ms ms₁ ms₂ : Mallocs}

/-- From `w` to `w'` no packet came, the codec and the settings are the same, and the
    allocator has come to `ms`. -/
structure Spent (ms : Mallocs) (w w' : World σ) : Prop where
  codec : w'.client.codec = w.client.codec
  settings : w'.client.settings = w.client.settings
  packets : packetsOf w'.trace = packetsOf w.trace
  mallocs : w'.mallocs = ms

theorem Spent.trans (h₁ : Spent ms₁ w w₁) (h₂ : Spent ms₂ w₁ w₂) : Spent ms₂ w w₂ :=
  ⟨h₂.codec.trans h₁.codec, h₂.settings.trans h₁.settings, h₂.packets.trans h₁.packets, h₂.mallocs⟩

theorem log_spent {e : Event} (he : packetsOf [e] = []) (w : World σ) : Spent w.mallocs w (w.log e) :=
  ⟨rfl, rfl, by rw [World.log, packetsOf_append, he, List.append_nil], rfl⟩

/-- Callbacks and transport do not re-enter the codec. The two callbacks that are handed a
    packet may allocate, by what they are handed. -/
structure Apart (xio : Xio σ) (app : App σ) : Prop where
  operation : ∃ use : Operation → Mallocs → Mallocs, ∀ o w, Spent (use o w.mallocs) w (app.operation o w)
  message : ∃ use : Message → Mallocs → Mallocs, ∀ m w, Spent (use m w.mallocs) w (app.message m w)
  error : ∀ e w, Spent w.mallocs w (app.error e w)
  send : ∀ h bytes w, Spent w.mallocs w (xio.send h bytes w).2
  close : ∀ w, Spent w.mallocs w (closeConnection xio app w)
  openIo : ∀ h w, (xio.openIo h w).2.client.codec = w.client.codec ∧
    (xio.openIo h w).2.client.settings = w.client.settings

variable (app) in
theorem callOperation_spent {use : Operation → Mallocs → Mallocs}
    (h : ∀ o w, Spent (use o w.mallocs) w (app.operation o w)) (o : Operation) (w : World σ) :
    Spent (use o w.mallocs) w (app.callOperation o w) :=
  (log_spent rfl w).trans (h o (w.log (.operation o)))

variable (app) in
theorem callMessage_spent {use : Message → Mallocs → Mallocs} (h : ∀ m w, Spent (use m w.mallocs) w (app.message m w))
    (m : Message) (w : World σ) : Spent (use m w.mallocs) w (app.callMessage m w) :=
  (log_spent rfl w).trans (h m (w.log (.message m)))

theorem setErrorCallback_spent (h : Apart xio app) (e : EventError) (w : World σ) :
    Spent w.mallocs w (setErrorCallback xio app e w) := by
  have hcall : Spent w.mallocs w (app.callError e w) := by
    unfold App.callError
    split
    · exact (log_spent rfl w).trans (h.error e (w.log (.error e)))
    · exact ⟨rfl, rfl, rfl, rfl⟩
  have hclose := h.close (app.callError e w)
  rw [hcall.mallocs] at hclose
  exact hcall.trans hclose

theorem xioSend_spent (h : Apart xio app) (handle : Option XioHandle) (data : List UInt8) (w : World σ) :
    Spent w.mallocs w (xio.xioSend handle data w).2 := by
  cases handle with
  | none => exact ⟨rfl, rfl, rfl, rfl⟩
  | some n => exact h.send n data w

theorem sendPacketItem_spent (h : Apart xio app) (data : List UInt8) (w : World σ) :
    Spent w.mallocs w (sendPacketItem xio data w).2 := by
  have hticks : Spent w.mallocs w w.currentMs.2 := by
    unfold World.currentMs
    split <;> exact ⟨rfl, rfl, rfl, rfl⟩
  unfold sendPacketItem
  split
  · rename_i w' he
    rw [he] at hticks; exact hticks
  · rename_i t w' he
    rw [he] at hticks
    refine hticks.trans ?_
    rw [← hticks.mallocs]
    have hlog := log_spent (e := .send w'.client.xioHandle data) rfl
      { w' with client := { w'.client with packetSendTimeMs := t } }
    have hsend := hlog.trans (xioSend_spent h w'.client.xioHandle data _)
    exact ⟨hsend.codec, hsend.settings, hsend.packets, hsend.mallocs⟩

theorem sendReply_spent (h : Apart xio app) (reply : UInt16 → Mallocs → Option Buffer × Mallocs) (packetId : UInt16)
    (w : World σ) : Spent (reply packetId w.mallocs).2 w (sendReply xio app reply packetId w) := by
  unfold sendReply
  split
  · rename_i ms he
    rw [he]
    have herr := setErrorCallback_spent h .memoryError { w with mallocs := ms }
    exact ⟨herr.codec, herr.settings, herr.packets, herr.mallocs⟩
  · rename_i b ms he
    rw [he]
    have hsend := sendPacketItem_spent h b.bytes { w with mallocs := ms }
    exact ⟨hsend.codec, hsend.settings, hsend.packets, hsend.mallocs⟩

end Apart

/-! ## The client mirrors a codec on its own -/

section Mirror

variable (useOperation : Operation → Mallocs → Mallocs) (useMessage : Message → Mallocs → Mallocs)

/-- Where handling a verdict leaves the allocator. -/
def Verdict.spent (operationCallback : Bool) (verdict : Verdict) (ms : Mallocs) : Mallocs :=
  match verdict with
  | .ignored | .error _ | .nullWrite => ms
  | .connack isSessionPresent returnCode => useOperation (.connack isSessionPresent returnCode) ms
  | .publish m =>
    match m.qosInfo with
    | .deliverExactlyOnce => (mqttCodecPublishReceived m.packetId (useMessage m ms)).2
    | .deliverAtLeastOnce => (mqttCodecPublishAck m.packetId (useMessage m ms)).2
    | _ => useMessage m ms
  | .publishAck packet packetId =>
    match packet with
    | .pubrec => (mqttCodecPublishRelease packetId (useOperation (publishAction packet packetId) ms)).2
    | .pubrel => (mqttCodecPublishComplete packetId (useOperation (publishAction packet packetId) ms)).2
    | _ => useOperation (publishAction packet packetId) ms
  | .subscribeAck packetId qosReturn => useOperation (.subscribeAck packetId qosReturn) ms
  | .unsubscribeAck packetId => useOperation (.unsubscribeAck packetId) ms
  | .pingresp => if operationCallback then useOperation .pingResponse ms else ms

/-- What a packet costs a client with the settings of `client`. -/
def spentOn (client : MqttClient) : Run.Callback Unit := fun p x =>
  let d := decode client p x.1
  (d.verdict.spent useOperation useMessage client.fnOperationCallback d.mallocs, ())

theorem decode_settings {c d : MqttClient} (h : c.settings = d.settings) (p : Packet) (ms : Mallocs) :
    decode c p ms = decode d p ms := by
  simp only [MqttClient.settings, Prod.mk.injEq] at h
  obtain ⟨h1, h2, h3⟩ := h
  simp only [decode, rawTraceAccesses, h1, h2, h3]

variable {useOperation useMessage} {σ : Type} {xio : Xio σ} {app : App σ}

theorem act_spent (h : Apart xio app) (hop : ∀ o w, Spent (useOperation o w.mallocs) w (app.operation o w))
    (hmsg : ∀ m w, Spent (useMessage m w.mallocs) w (app.message m w)) (verdict : Verdict) (w : World σ) :
    Spent (verdict.spent useOperation useMessage w.client.fnOperationCallback w.mallocs) w (act xio app verdict w) := by
  have hcall := callOperation_spent app hop
  cases verdict with
  | ignored => exact ⟨rfl, rfl, rfl, rfl⟩
  | nullWrite => exact ⟨rfl, rfl, rfl, rfl⟩
  | error e => exact setErrorCallback_spent h e w
  | subscribeAck packetId codes => exact hcall _ w
  | unsubscribeAck packetId => exact hcall _ w
  | connack session code =>
    simp only [act, Verdict.spent]
    have hc := hcall (.connack session code) w
    split
    · exact hc.trans ⟨rfl, rfl, rfl, hc.mallocs⟩
    · exact hc
  | pingresp =>
    simp only [act, Verdict.spent]
    split
    · have hc := hcall .pingResponse { w with client := { w.client with timeSincePing := 0 } }
      exact ⟨hc.codec, hc.settings, hc.packets, hc.mallocs⟩
    · exact ⟨rfl, rfl, rfl, rfl⟩
  | publish m =>
    have hm := callMessage_spent app hmsg m w
    have hreply := fun reply => hm.trans (sendReply_spent h reply m.packetId (app.callMessage m w))
    rw [hm.mallocs] at hreply
    simp only [act, Verdict.spent]
    cases m.qosInfo with
    | deliverExactlyOnce => exact hreply mqttCodecPublishReceived
    | deliverAtLeastOnce => exact hreply mqttCodecPublishAck
    | _ => exact hm
  | publishAck packet packetId =>
    have hc := hcall (publishAction packet packetId) w
    have hreply := fun reply =>
      hc.trans (sendReply_spent h reply packetId (app.callOperation (publishAction packet packetId) w))
    rw [hc.mallocs] at hreply
    simp only [act, Verdict.spent]
    cases packet with
    | pubrec => exact hreply mqttCodecPublishRelease
    | pubrel => exact hreply mqttCodecPublishComplete
    | _ => exact hc

/-- The client's codec does what a codec on its own does, whose callback costs what the
    client's handler costs. -/
structure Mirrors (client : MqttClient) (w : World σ) (r : Run Unit) : Prop where
  codec : w.client.codec.core = r.codec.core
  mallocs : w.mallocs = r.mallocs
  settings : w.client.settings = client.settings
  packets : packetsOf w.trace = r.packets

theorem mirrors_inStep (client : MqttClient) :
    InStep World.codecSlot Run.slot (Mirrors (σ := σ) client) :=
  ⟨Mirrors.codec, Mirrors.mallocs, fun _ h hc => ⟨hc, rfl, h.settings, h.packets⟩⟩

theorem recvComplete_mirrors (h : Apart xio app) (hop : ∀ o w, Spent (useOperation o w.mallocs) w (app.operation o w))
    (hmsg : ∀ m w, Spent (useMessage m w.mallocs) w (app.message m w)) (client : MqttClient) (p : Packet) (w : World σ)
    (r : Run Unit) (hR : Mirrors client w r) :
    Mirrors client (recvCompleteCallback xio app p w) (Run.call (spentOn useOperation useMessage client) p r) := by
  have hact := act_spent h hop hmsg (decode w.client p w.mallocs).verdict
    { w.log (.packet p) with mallocs := (decode w.client p w.mallocs).mallocs }
  have hflag : w.client.fnOperationCallback = client.fnOperationCallback := congrArg Prod.fst hR.settings
  refine ⟨hact.codec ▸ hR.codec, ?_, hact.settings.trans hR.settings, ?_⟩
  · simp only [recvCompleteCallback, Run.call, spentOn, ← decode_settings hR.settings, ← hR.mallocs, ← hflag]
    exact hact.mallocs
  · simp only [recvCompleteCallback, Run.call, ← hR.packets]
    refine hact.packets.trans ?_
    simp [World.log, packetsOf]

theorem onBytesReceived_mirrors (h : Apart xio app) (hop : ∀ o w, Spent (useOperation o w.mallocs) w (app.operation o w))
    (hmsg : ∀ m w, Spent (useMessage m w.mallocs) w (app.message m w)) (client : MqttClient) (chunks : List (List UInt8)) :
    ∀ (w : World σ) (r : Run Unit), Mirrors client w r →
      Mirrors client (chunks.foldl (fun w ch => onBytesReceived xio app ch w) w)
        (Run.feed (spentOn useOperation useMessage client) chunks r).2 := by
  induction chunks with
  | nil => intro w r hR; exact hR
  | cons ch chunks ih =>
    intro w r hR
    obtain ⟨-, hR'⟩ := (mirrors_inStep client).bytesReceived (recvComplete_mirrors h hop hmsg client) ch w r hR
    refine ih _ _ ?_
    show Mirrors client (onBytesReceived xio app ch w) _
    simp only [onBytesReceived]
    split
    · have herr := setErrorCallback_spent h .parseError
        (bytesReceived World.codecSlot (recvCompleteCallback xio app) ch w).2
      exact ⟨herr.codec ▸ hR'.codec, herr.mallocs.trans hR'.mallocs, herr.settings.trans hR'.settings,
        herr.packets.trans hR'.packets⟩
    · exact hR'

end Mirror

/-! ## Histories -/

/-- What may happen to a client: a call of its application, or of its transport. -/
inductive Step where
  | connect (xioHandle : Option XioHandle) (mqttOptions : MqttClientOptions)
  | publish (msgHandle : Message)
  | subscribe (packetId : UInt16) (subscribeList : List SubscribePayload)
  | unsubscribe (packetId : UInt16) (unsubscribeList : List CString)
  | disconnect (callback : Option Nat)
  | opened (openResult : OpenResult)
  | received (buffer : List UInt8)
  | lost

section Histories

variable {σ : Type} (xio : Xio σ) (app : App σ)

def World.step (w : World σ) : Step → World σ
  | .connect xioHandle mqttOptions => (mqttClientConnect xio xioHandle mqttOptions w).2
  | .publish msgHandle => (mqttClientPublish xio msgHandle w).2
  | .subscribe packetId subscribeList => (mqttClientSubscribe xio packetId subscribeList w).2
  | .unsubscribe packetId unsubscribeList => (mqttClientUnsubscribe xio packetId unsubscribeList w).2
  | .disconnect callback => (mqttClientDisconnect xio app callback w).2
  | .opened openResult => onOpenComplete xio app openResult w
  | .received buffer => onBytesReceived xio app buffer w
  | .lost => onIoError xio app w

/-- The life of a client created as `client`: any steps, in any surroundings and with any
    allocation outcomes, and then a `mqtt_client_connect` that succeeds. -/
structure History (client : MqttClient) where
  start : World σ
  steps : List Step
  xioHandle : XioHandle
  mqttOptions : MqttClientOptions
  created : start.client = client
  connected : (mqttClientConnect xio (some xioHandle) mqttOptions (steps.foldl (World.step xio app) start)).1 = 0

variable {xio app} {client : MqttClient}

def History.lost (a : History xio app client) : World σ := a.steps.foldl (World.step xio app) a.start

def History.resumed (a : History xio app client) : World σ :=
  (mqttClientConnect xio (some a.xioHandle) a.mqttOptions a.lost).2

variable (xio app) in
def delivered (ms : Mallocs) (chunks : List (List UInt8)) (w : World σ) : List Packet :=
  packetsOf (chunks.foldl (fun w ch => onBytesReceived xio app ch w) { w with mallocs := ms, trace := [] }).trace

def World.recreated (w : World σ) : World σ := { w with client := { w.client with codec := create } }

@[simp] theorem recreated_codec (w : World σ) : w.recreated.client.codec = create := rfl

@[simp] theorem recreated_settings (w : World σ) : w.recreated.client.settings = w.client.settings := rfl

/-- What a reachable codec satisfies, and the settings it was created with. -/
structure Sound (client : MqttClient) (w : World σ) : Prop where
  inv : Inv w.client.codec
  regular : Regular w.client.codec
  settings : w.client.settings = client.settings

theorem Sound.of_same {w w' : World σ} (h : Sound client w) (hc : w'.client.codec = w.client.codec)
    (hs : w'.client.settings = w.client.settings) : Sound client w' :=
  ⟨hc ▸ h.inv, hc ▸ h.regular, hs.trans h.settings⟩

theorem Spent.sound {w w' : World σ} {ms : Mallocs} (h : Spent ms w w') (hw : Sound client w) : Sound client w' :=
  hw.of_same h.codec h.settings

theorem connect_sound (h : Apart xio app) (xioHandle : Option XioHandle) (mqttOptions : MqttClientOptions) {w : World σ}
    (hw : Sound client w) : Sound client (mqttClientConnect xio xioHandle mqttOptions w).2 := by
  cases xioHandle with
  | none => exact hw
  | some n =>
    have htaken : Sound client (takeOptions n mqttOptions w).2 := hw.of_same rfl rfl
    obtain ⟨hcodec, hset⟩ := h.openIo n (takeOptions n mqttOptions w).2
    simp only [mqttClientConnect]
    split
    · exact htaken
    · split
      · exact htaken.of_same hcodec hset
      · exact htaken.of_same hcodec hset

theorem sendBuilt_sound (h : Apart xio app) (type : ControlPacketType) (packet : Option Buffer × Mallocs) {w : World σ}
    (hw : Sound client w) : Sound client (sendBuilt xio type packet w).2 := by
  unfold sendBuilt
  split
  · exact hw.of_same rfl rfl
  · exact (sendPacketItem_spent h _ _).sound (hw.of_same rfl rfl)

theorem disconnect_sound (h : Apart xio app) (callback : Option Nat) {w : World σ} (hw : Sound client w) :
    Sound client (mqttClientDisconnect xio app callback w).2 := by
  have hcb : Sound client { w with client := { w.client with disconnectCb := callback } } := hw.of_same rfl rfl
  simp only [mqttClientDisconnect]
  split
  · split
    · exact hw.of_same rfl rfl
    · rename_i packet ms _
      have hset : Sound client { w with mallocs := ms, client :=
        { w.client with disconnectCb := callback, packetState := .disconnect } } := hw.of_same rfl rfl
      have hsent := (sendPacketItem_spent h packet.bytes _).sound hset
      exact ⟨hsent.inv, hsent.regular, hsent.settings⟩
  · have hclosed := (h.close _).sound hcb
    exact ⟨hclosed.inv, hclosed.regular, hclosed.settings⟩

theorem opened_sound (h : Apart xio app) (openResult : OpenResult) {w : World σ} (hw : Sound client w) :
    Sound client (onOpenComplete xio app openResult w) := by
  unfold onOpenComplete
  split
  · simp only
    split
    · exact hw.of_same rfl rfl
    · exact (sendPacketItem_spent h _ _).sound (hw.of_same rfl rfl)
  · simp only
    refine (h.close _).sound ?_
    split
    · unfold App.callError
      split
      · exact (h.error _ _).sound (hw.of_same rfl rfl)
      · exact hw
    · exact hw

/-- Receiving keeps the codec sound, since the codec on its own that it mirrors is. -/
theorem received_sound (h : Apart xio app) (buffer : List UInt8) {w : World σ} (hw : Sound client w) :
    Sound client (onBytesReceived xio app buffer w) := by
  obtain ⟨useOperation, hop⟩ := h.operation
  obtain ⟨useMessage, hmsg⟩ := h.message
  have hcb : KeepsCodec World.codecSlot (recvCompleteCallback xio app) := fun p w =>
    (act_spent h hop hmsg (decode w.client p w.mallocs).verdict
      { w.log (.packet p) with mallocs := (decode w.client p w.mallocs).mallocs }).codec
  have hinv := bytesReceived_inv hcb (I := Inv) (fun _ => Inv.error) (fun _ ms b h => advance_inv h ms b) buffer hw.inv
  have hreg := bytesReceived_inv hcb (I := Regular) (fun _ => Regular.error) (fun _ ms b h => advance_regular h ms b) buffer
    hw.regular
  have hset : (bytesReceived World.codecSlot (recvCompleteCallback xio app) buffer w).2.client.settings = w.client.settings :=
    ((mirrors_inStep w.client).bytesReceived (recvComplete_mirrors h hop hmsg w.client) buffer w
      ⟨w.client.codec, w.mallocs, packetsOf w.trace, ()⟩ ⟨rfl, rfl, rfl, rfl⟩).2.settings
  have hs : Sound client (bytesReceived World.codecSlot (recvCompleteCallback xio app) buffer w).2 :=
    ⟨hinv, hreg, hset.trans hw.settings⟩
  simp only [onBytesReceived]
  split
  · exact (setErrorCallback_spent h _ _).sound hs
  · exact hs

theorem step_sound (h : Apart xio app) (s : Step) {w : World σ} (hw : Sound client w) :
    Sound client (w.step xio app s) := by
  cases s with
  | connect xioHandle mqttOptions => exact connect_sound h xioHandle mqttOptions hw
  | publish msgHandle => exact sendBuilt_sound h _ _ hw
  | subscribe packetId subscribeList =>
    simp only [World.step, mqttClientSubscribe]
    split
    · exact hw
    · exact sendBuilt_sound h _ _ hw
  | unsubscribe packetId unsubscribeList =>
    simp only [World.step, mqttClientUnsubscribe]
    split
    · exact hw
    · exact sendBuilt_sound h _ _ hw
  | disconnect callback => exact disconnect_sound h callback hw
  | opened openResult => exact opened_sound h openResult hw
  | received buffer => exact received_sound h buffer hw
  | lost =>
    simp only [World.step, onIoError]
    split
    · exact (setErrorCallback_spent h _ _).sound hw
    · exact hw

theorem History.lost_sound (h : Apart xio app) (hc : client.codec = create) (a : History xio app client) :
    Sound client a.lost := by
  have hrun : ∀ (steps : List Step) (w : World σ), Sound client w → Sound client (steps.foldl (World.step xio app) w) := by
    intro steps
    induction steps with
    | nil => intro w hw; exact hw
    | cons s steps ih => intro w hw; exact ih _ (step_sound h s hw)
  have hstart : a.start.client.codec = create := (congrArg MqttClient.codec a.created).trans hc
  refine hrun a.steps a.start ⟨?_, ?_, congrArg MqttClient.settings a.created⟩
  · rw [hstart]; exact create_inv
  · rw [hstart]; exact create_regular

/-- Connecting leaves the codec as it was. -/
theorem History.resumed_codec (h : Apart xio app) (a : History xio app client) :
    a.resumed.client.codec = a.lost.client.codec := by
  obtain ⟨hcodec, -⟩ := h.openIo a.xioHandle (takeOptions a.xioHandle a.mqttOptions a.lost).2
  simp only [resumed, mqttClientConnect]
  split
  · rfl
  · split <;> exact hcodec

variable (client) in
/-- What arrives on a client is delivered as by a codec on its own. -/
theorem delivered_feed (h : Apart xio app) : ∃ cb : Run.Callback Unit, ∀ (w : World σ) ms chunks,
    w.client.settings = client.settings →
      delivered xio app ms chunks w = (Run.feed cb chunks (Run.resume w.client.codec ms ())).2.packets := by
  obtain ⟨useOperation, hop⟩ := h.operation
  obtain ⟨useMessage, hmsg⟩ := h.message
  exact ⟨spentOn useOperation useMessage client, fun w ms chunks hs =>
    (onBytesReceived_mirrors h hop hmsg client chunks { w with mallocs := ms, trace := [] }
      (Run.resume w.client.codec ms ()) ⟨rfl, rfl, hs, rfl⟩).packets⟩

/-- On the next connection two histories are received alike, and as by a new codec, exactly
    when both have left the codec between two packets. -/
theorem resumed_iff (h : Apart xio app) {msgRecv opCallback onErrorCallBack : Bool}
    (a b : History xio app (MqttClient.init msgRecv opCallback onErrorCallBack)) :
    (∀ ms chunks, delivered xio app ms chunks a.resumed = delivered xio app ms chunks b.resumed ∧
        delivered xio app ms chunks a.resumed = delivered xio app ms chunks a.resumed.recreated) ↔
      Idle a.lost.client.codec ∧ Idle b.lost.client.codec := by
  obtain ⟨cb, hcb⟩ := delivered_feed (MqttClient.init msgRecv opCallback onErrorCallBack) h
  have hsa := a.lost_sound h rfl
  have hsb := b.lost_sound h rfl
  have hra : Sound _ a.resumed := connect_sound h (some a.xioHandle) a.mqttOptions hsa
  have hrb : Sound _ b.resumed := connect_sound h (some b.xioHandle) b.mqttOptions hsb
  have ha : ∀ ms chunks, delivered xio app ms chunks a.resumed =
      (Run.feed cb chunks (Run.resume a.lost.client.codec ms ())).2.packets := fun ms chunks => by
    rw [hcb a.resumed ms chunks hra.settings, a.resumed_codec h]
  have hb : ∀ ms chunks, delivered xio app ms chunks b.resumed =
      (Run.feed cb chunks (Run.resume b.lost.client.codec ms ())).2.packets := fun ms chunks => by
    rw [hcb b.resumed ms chunks hrb.settings, b.resumed_codec h]
  have hnew : ∀ ms chunks, delivered xio app ms chunks a.resumed.recreated =
      (Run.feed cb chunks (Run.start ms ())).2.packets := fun ms chunks => by
    rw [hcb a.resumed.recreated ms chunks ((recreated_settings _).trans hra.settings), recreated_codec]
    rfl
  rw [← Run.feed_resumed_iff cb () hsa.inv hsa.regular, ← Run.feed_resumed_iff cb () hsb.inv hsb.regular]
  simp only [ha, hb, hnew]
  constructor
  · intro hall
    exact ⟨fun ms chunks => (hall ms chunks).2, fun ms chunks => ((hall ms chunks).1.symm.trans (hall ms chunks).2)⟩
  · rintro ⟨h1, h2⟩ ms chunks
    exact ⟨(h1 ms chunks).trans (h2 ms chunks).symm, h1 ms chunks⟩

/-! ## A connection that dies inside a packet -/

theorem apart_inert (σ : Type) : Apart (Xio.inert σ) (App.inert σ) := by
  have hself : ∀ w : World σ, Spent w.mallocs w w := fun w => ⟨rfl, rfl, rfl, rfl⟩
  refine ⟨⟨fun _ ms => ms, fun _ w => hself w⟩, ⟨fun _ ms => ms, fun _ w => hself w⟩, fun _ w => hself w,
    fun _ _ w => hself w, fun w => ?_, fun _ _ => ⟨rfl, rfl⟩⟩
  have hloop : ∀ n (w : World σ), closeLoop (Xio.inert σ) n w = w := by
    intro n
    induction n with
    | zero => intro w; rfl
    | succ n ih =>
      intro w
      have hwork : (Xio.inert σ).xioDowork w.client.xioHandle w = w := by cases w.client.xioHandle <;> rfl
      simp only [closeLoop, hwork, ih, ite_self]
  have hclose : ((Xio.inert σ).xioClose w.client.xioHandle true w).2 = w := by cases w.client.xioHandle <;> rfl
  simp only [closeConnection, hclose, hloop, ite_self]
  split
  · exact ⟨rfl, rfl, rfl, rfl⟩
  · unfold App.callDisconnected
    split
    · exact hself w
    · exact log_spent rfl w

def lostAfter (buffer : List UInt8) : History (Xio.inert Unit) (App.inert Unit) (MqttClient.init true true true) where
  start := ⟨MqttClient.init true true true, [], [], false, [], ()⟩
  steps := [.connect (some 0) {}, .opened .ok, .received buffer, .lost]
  xioHandle := 1
  mqttOptions := {}
  created := rfl
  connected := rfl

/-- Lost behind a PINGRESP or behind a CONNACK, the next connection is the same. -/
theorem resumed_between_packets :
    delivered (Xio.inert Unit) (App.inert Unit) [] [[0x20, 0x02], [0x00, 0x00]] (lostAfter [0xd0, 0x00]).resumed =
      delivered (Xio.inert Unit) (App.inert Unit) [] [[0x20, 0x02], [0x00, 0x00]] (lostAfter [0x20, 0x02, 0x00, 0x05]).resumed :=
  ((resumed_iff (apart_inert Unit) (lostAfter [0xd0, 0x00]) (lostAfter [0x20, 0x02, 0x00, 0x05])).mpr
    ⟨⟨by decide, by decide, by decide, by decide, by decide⟩,
      ⟨by decide, by decide, by decide, by decide, by decide⟩⟩ [] [[0x20, 0x02], [0x00, 0x00]]).1

/-- Lost inside a CONNACK, the first byte of the next one completes it. -/
theorem resumed_inside_packet :
    delivered (Xio.inert Unit) (App.inert Unit) [] [[0x20, 0x02, 0x00, 0x00]] (lostAfter [0x20, 0x02, 0x00]).resumed =
        [⟨.connack, 0, some (Buffer.ofBytes [0x00, 0x20])⟩] ∧
      delivered (Xio.inert Unit) (App.inert Unit) [] [[0x20, 0x02, 0x00, 0x00]] (lostAfter [0x20, 0x02, 0x00]).resumed.recreated =
        [⟨.connack, 0, some (Buffer.ofBytes [0x00, 0x00])⟩] := by
  constructor <;> decide

end Histories

end UMqtt.Client

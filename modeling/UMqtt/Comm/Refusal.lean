/-
  UMqtt.Comm.Refusal — connections that the server refuses, under the application
  (apps/mqtt/mqtt_app.c).

  The application publishes and subscribes from its callbacks, which run inside the client's.
  `appXio n` is the transport under it, unfolded `n` times as `systemXio` is. The operation
  callback of the client calls `fnConnectedCallback` at every CONNACK
  (`callOperation_connack`), so the CONNACKs among the operations in the trace are these calls.

  Proved (`neverUsed_iff`): a run uses no refused connection exactly when no CONNACK with a
  return code other than 0 is delivered to the client. The communicator does not look at the
  code (`refused_connection_used`).
-/

import UMqtt.Client.Rules
import UMqtt.Comm.Agreement

namespace UMqtt.Comm

open UMqtt.Lib UMqtt.Crt UMqtt.Codec UMqtt.Io UMqtt.Client

/-! ## The application -/

/-- "$aws/things/LPC54608_Demo/shadow/update" -/
def topicNameA : CString :=
  ⟨[36, 97, 119, 115, 47, 116, 104, 105, 110, 103, 115, 47, 76, 80, 67, 53, 52, 54, 48, 56, 95, 68, 101, 109, 111, 47, 115,
    104, 97, 100, 111, 119, 47, 117, 112, 100, 97, 116, 101], by decide⟩

/-- "Message from LPC54608." -/
def appNameA : List UInt8 :=
  [77, 101, 115, 115, 97, 103, 101, 32, 102, 114, 111, 109, 32, 76, 80, 67, 53, 52, 54, 48, 56, 46]

def mqttAppConnectCallback (xio : Xio Outside) (w : Sys) : Sys :=
  let w := (mqttCommPublish xio (some topicNameA) (some appNameA) 2 w).2
  (mqttCommSubcribe xio topicNameA .deliverExactlyOnce w).2

def mqttAppSubcribesCallback (xio : Xio Outside) (w : Sys) : Sys :=
  (mqttCommPublish xio (some topicNameA) (some appNameA) 2 w).2

/-- Both of the source's topics are the same text. -/
def mqttAppRecvCallback (xio : Xio Outside) (_msgHandle : Message) (w : Sys) : Sys :=
  (mqttCommPublish xio (some topicNameA) (some appNameA) 2 w).2

def mqttAppPubCallback (w : Sys) : Sys := w

def appCallbacks (xio : Xio Outside) : CommCallbacks :=
  ⟨mqttAppConnectCallback xio, mqttAppSubcribesCallback xio, mqttAppRecvCallback xio, mqttAppPubCallback⟩

/-- The client's callbacks under the application, over a transport. -/
def theApp (xio : Xio Outside) : App Outside := commApp (appCallbacks xio)

def appXio : Nat → Xio Outside
  | 0 => systemXio (theApp (.inert Outside)) 0
  | n + 1 => socketXio (appXio n) (theApp (appXio n))

/-- `MQTT_Comm_SetCallback`, of callbacks that are not NULL. -/
def mqttCommSetCallback : Sys → Sys := onComm fun c =>
  { c with fnConnectedCallback := true, fnSubCallback := true, fnReceivedCallback := true, fnPubCallback := true }

def Call.runApp (n : Nat) : Call → Sys → Nat × Sys
  | .process attempts, w => mqttCommProcess (appXio n) (theApp (appXio n)) attempts w
  | .publish topic message qos, w => (0, (mqttCommPublish (appXio n) topic message qos w).2)
  | .subcribe topic qos, w => (0, (mqttCommSubcribe (appXio n) topic qos w).2)

/-! ## Refused connections -/

/-- The return code that the client reads from a CONNACK it does not ignore. -/
def connackCode (p : Packet) : Option UInt8 :=
  if p.packet = .connack ∧ Buffer.length p.headerData ≠ 0 then
    (Buffer.uChar p.headerData).map fun body => (body[1]?).getD 0
  else none

def Refuses (p : Packet) : Prop := ∃ code, connackCode p = some code ∧ code ≠ 0

/-- Whether the last CONNACK refused the connection that the last CONNECT asked for. -/
def refused (trace : List Event) : Bool :=
  trace.foldl (fun r e => match e with
    | .send _ bytes => r && bytes.headD 0 != 0x10
    | .operation (.connack _ code) => code != 0
    | _ => r) false

def sentType : Event → Option Nat
  | .send _ bytes => some ((bytes.headD 0).toNat / 16)
  | _ => none

/-- The application is called for no connection that was refused, and on one that was the
    communicator is not connected and has sent no PUBLISH. -/
structure NeverUsed (w : Sys) : Prop where
  connected : ∀ session code, .operation (.connack session code) ∈ w.trace → code = 0
  state : refused w.trace = true → w.out.comm.state ≠ .connected
  publish : ∀ before e after, w.trace = before ++ e :: after → refused before = true → sentType e ≠ some 3

/-- The client tells the communicator of a CONNACK, and that calls the application, whatever
    the code. -/
theorem callOperation_connack (cbs : CommCallbacks) (session : Bool) (code : UInt8) {w : Sys}
    (h : w.out.comm.fnConnectedCallback = true) :
    (commApp cbs).callOperation (.connack session code) w =
      cbs.connected (setState .connected (note (.connack w.client.socketConnected) (w.log (.operation (.connack session code))))) := by
  obtain ⟨v, hv⟩ : ∃ v, v = setState .connected (note (.connack w.client.socketConnected) (w.log (.operation (.connack session code)))) :=
    ⟨_, rfl⟩
  have hset : v.out.comm.fnConnectedCallback = true := by rw [hv]; exact h
  have hcall : (commApp cbs).callOperation (.connack session code) w =
      if v.out.comm.fnConnectedCallback then cbs.connected v else v := by rw [hv]; rfl
  rw [hcall, if_pos hset, hv]

theorem refused_accepted {trace : List Event} (h : ∀ session code, .operation (.connack session code) ∈ trace → code = 0) :
    refused trace = false := by
  unfold refused
  induction trace using List.reverseRecOn with
  | nil => rfl
  | append_singleton es e ih =>
    have hes := ih fun session code hm => h session code (List.mem_append_left _ hm)
    rw [List.foldl_append, hes, List.foldl_cons, List.foldl_nil]
    split
    · rfl
    · rename_i session code
      simp [h session code (by simp)]
    · rfl

/-- Nothing is wrong where no connection was refused. -/
theorem neverUsed_of_accepted {w : Sys} (h : ∀ session code, .operation (.connack session code) ∈ w.trace → code = 0) :
    NeverUsed w := by
  refine ⟨h, ?_, ?_⟩
  · intro hr
    rw [refused_accepted h] at hr; cases hr
  · intro before e after ht hr
    have hbefore : refused before = false :=
      refused_accepted fun session code hm => h session code (by rw [ht]; exact List.mem_append_left _ hm)
    rw [hbefore] at hr; cases hr

/-! ## What a step adds to the trace -/

/-- A refusing CONNACK among the operations, or among the packets. -/
def RefusalTold (es : List Event) : Prop := ∃ session code, code ≠ 0 ∧ .operation (.connack session code) ∈ es

def RefusalDelivered (es : List Event) : Prop := ∃ p, .packet p ∈ es ∧ Refuses p

/-- Of a client that has an operation callback, the callback is told of a refusal just when one
    is delivered. -/
structure Told (w w' : Sys) : Prop where
  operation : w'.client.fnOperationCallback = w.client.fnOperationCallback
  grows : ∃ new, w'.trace = w.trace ++ new ∧
    (w.client.fnOperationCallback = true → (RefusalTold new ↔ RefusalDelivered new))

variable {w w' w'' : Sys}

theorem refusalTold_append (es es' : List Event) : RefusalTold (es ++ es') ↔ RefusalTold es ∨ RefusalTold es' := by
  simp only [RefusalTold, List.mem_append, and_or_left, exists_or]

theorem refusalDelivered_append (es es' : List Event) :
    RefusalDelivered (es ++ es') ↔ RefusalDelivered es ∨ RefusalDelivered es' := by
  simp only [RefusalDelivered, List.mem_append, or_and_right, exists_or]

/-- Neither a refusal nor its CONNACK. -/
def Harmless (e : Event) : Prop := ¬ RefusalTold [e] ∧ ¬ RefusalDelivered [e]

theorem Told.same (hc : w'.client.fnOperationCallback = w.client.fnOperationCallback) (ht : w'.trace = w.trace) : Told w w' :=
  ⟨hc, [], by rw [ht, List.append_nil], fun _ => by simp [RefusalTold, RefusalDelivered]⟩

theorem Told.rfl : Told w w := Told.same (.refl _) (.refl _)

theorem Told.trans (h : Told w w') (h' : Told w' w'') : Told w w'' := by
  obtain ⟨new, ht, hiff⟩ := h.grows
  obtain ⟨new', ht', hiff'⟩ := h'.grows
  refine ⟨h'.operation.trans h.operation, new ++ new', by rw [ht', ht, List.append_assoc], fun hop => ?_⟩
  rw [refusalTold_append, refusalDelivered_append, hiff hop, hiff' (h.operation.trans hop)]

theorem log_told {e : Event} (he : w.client.fnOperationCallback = true → Harmless e) : Told w (w.log e) :=
  ⟨.refl _, [e], .refl _, fun hop => iff_of_false (he hop).1 (he hop).2⟩

theorem operation_harmless {o : Operation} (h : ∀ session code, o = .connack session code → code = 0) : Harmless (.operation o) := by
  refine ⟨?_, ?_⟩
  · rintro ⟨session, code, hne, hm⟩
    simp only [List.mem_singleton, Event.operation.injEq] at hm
    exact hne (h session code hm.symm)
  · rintro ⟨p, hm, -⟩
    simp at hm

theorem packet_harmless {p : Packet} (h : ¬ Refuses p) : Harmless (.packet p) := by
  refine ⟨?_, ?_⟩
  · rintro ⟨session, code, -, hm⟩
    simp at hm
  · rintro ⟨q, hm, hq⟩
    simp only [List.mem_singleton, Event.packet.injEq] at hm
    exact h (hm ▸ hq)

/-- What the communicator's callbacks and its transport must keep. -/
structure CallbacksTold (cbs : CommCallbacks) : Prop where
  connected : ∀ w, Told w (cbs.connected w)
  sub : ∀ w, Told w (cbs.sub w)
  received : ∀ m w, Told w (cbs.received m w)
  pub : ∀ w, Told w (cbs.pub w)

structure XioTold (xio : Xio Outside) : Prop extends XioRules xio Told where
  openIo : ∀ h w, Told w (xio.openIo h w).2

section App

variable {cbs : CommCallbacks} (hcbs : CallbacksTold cbs)

include hcbs

theorem onOperationComplete_told (o : Operation) (w : Sys) : Told w (mqttCommOnOperationComplete cbs o w) := by
  have hset : ∀ state, Told w (setState state w) := fun _ => Told.same rfl rfl
  cases o with
  | connack session code =>
    have hv : Told w (setState .connected (note (.connack w.client.socketConnected) w)) := Told.same rfl rfl
    unfold mqttCommOnOperationComplete
    simp only
    split
    · exact hv.trans (hcbs.connected _)
    · exact hv
  | subscribeAck packetId codes =>
    unfold mqttCommOnOperationComplete
    simp only
    split
    · exact hcbs.sub w
    · exact Told.rfl
  | publishComp packetId =>
    unfold mqttCommOnOperationComplete
    simp only
    split
    · exact hcbs.pub w
    · exact Told.rfl
  | disconnect => exact hset _
  | _ => exact Told.rfl

theorem callOperation_told {o : Operation} (w : Sys)
    (ho : w.client.fnOperationCallback = true → ∀ session code, o = .connack session code → code = 0) :
    Told w ((commApp cbs).callOperation o w) :=
  (log_told fun hop => operation_harmless (ho hop)).trans (onOperationComplete_told hcbs o _)

theorem callMessage_told (m : Message) (w : Sys) : Told w ((commApp cbs).callMessage m w) := by
  have hlog : Told w (w.log (.message m)) := log_told fun _ => by simp [Harmless, RefusalTold, RefusalDelivered]
  refine hlog.trans ?_
  show Told _ (mqttCommOnRecvCallback cbs m (w.log (.message m)))
  unfold mqttCommOnRecvCallback
  split
  · exact hcbs.received m _
  · exact Told.rfl

omit hcbs in
theorem callError_told (e : EventError) (w : Sys) : Told w ((commApp cbs).callError e w) := by
  have hlog : Told w (w.log (.error e)) := log_told fun _ => by simp [Harmless, RefusalTold, RefusalDelivered]
  unfold App.callError
  split
  · exact hlog.trans (Told.same rfl rfl)
  · exact Told.rfl

omit hcbs in
theorem callDisconnected_told (w : Sys) : Told w ((commApp cbs).callDisconnected w) := by
  unfold App.callDisconnected
  split
  · exact Told.rfl
  · rename_i callback _
    have hlog : Told w (w.log (.disconnected callback)) := log_told fun _ => by simp [Harmless, RefusalTold, RefusalDelivered]
    exact hlog.trans (Told.same rfl rfl)

end App

/-! ## The client between them -/

section Client

variable {cbs : CommCallbacks} (hcbs : CallbacksTold cbs) {xio : Xio Outside} (hx : XioTold xio)

include hx

omit hx in
theorem currentMs_told (w : Sys) : Told w w.currentMs.2 := by
  unfold World.currentMs
  split <;> exact Told.same rfl rfl

omit hx in
theorem stamp_told (ms : UInt32) (data : List UInt8) (w : Sys) : Told w (stamp ms data w) := by
  have hset : Told w { w with client := { w.client with packetSendTimeMs := ms } } := Told.same rfl rfl
  exact hset.trans (log_told fun _ => by simp [Harmless, RefusalTold, RefusalDelivered])

include hcbs

theorem told_rules : Rules xio (commApp cbs) Told where
  refl _ := Told.rfl
  trans := Told.trans
  idle h := Told.same h.fnOperationCallback h.trace
  send := hx.toXioRules.sendPacketItem currentMs_told stamp_told
  operation w ho := callOperation_told hcbs w fun _ session code he => by rw [he] at ho; exact ho.elim
  message := callMessage_told hcbs
  error w _ := callError_told _ w
  close := hx.toXioRules.closeConnection (fun w _ => callDisconnected_told w) fun _ => Told.same rfl rfl

end Client

/-! ## Packets -/

theorem decodePublish_ne (flags : UInt8) (r : Reader) (len : Nat) (ms : Mallocs) (session : Bool) (code : UInt8) :
    (decodePublish flags r len ms).verdict ≠ .connack session code := by
  unfold decodePublish
  simp only
  repeat' split
  all_goals simp

theorem decodeSuback_ne (r : Reader) (len : Nat) (ms : Mallocs) (session : Bool) (code : UInt8) :
    (decodeSuback r len ms).verdict ≠ .connack session code := by
  unfold decodeSuback
  simp only
  split <;> simp

/-- What the client makes of a CONNACK. -/
theorem decode_connack {client : MqttClient} (hop : client.fnOperationCallback = true) (p : Packet) (ms : Mallocs) (code : UInt8) :
    (∃ session, (decode client p ms).verdict = .connack session code) ↔ connackCode p = some code := by
  by_cases hp : p.packet = .connack
  · have hping : p.packet ≠ .pingresp := by rw [hp]; decide
    rcases p with ⟨type, flags, headerData⟩
    simp only at hp hping
    subst hp
    cases headerData with
    | none => simp [decode, connackCode, Buffer.uChar]
    | some b =>
      cases hu : Buffer.uChar (some b) with
      | none => simp [decode, connackCode, hu]
      | some body =>
        by_cases hl : Buffer.length (some b) = 0
        · simp [decode, connackCode, hu, hl]
        · simp [decode, connackCode, hu, hl, hop, decodeConnack, Reader.byteutilReadByte, Reader.peek, Reader.note]
  · refine iff_of_false ?_ (by simp [connackCode, hp])
    rintro ⟨session, h⟩
    unfold decode at h
    split at h
    · cases h
    · simp only at h
      split at h
      · cases h
      · split at h
        · exact hp ‹_›
        · split at h
          · exact decodePublish_ne _ _ _ _ _ _ h
          · cases h
        · simp [decodePublishAck] at h
        · simp [decodePublishAck] at h
        · simp [decodePublishAck] at h
        · simp [decodePublishAck] at h
        · exact decodeSuback_ne _ _ _ _ _ h
        · simp [decodeUnsuback] at h
        · cases h
        · cases h

section Handlers

variable {cbs : CommCallbacks} (hcbs : CallbacksTold cbs) {xio : Xio Outside} (hx : XioTold xio)

include hcbs hx

omit hx in
/-- A CONNACK that the callback may be told of. -/
theorem act_connack_told (session : Bool) (code : UInt8) (w : Sys) (hcode : w.client.fnOperationCallback = true → code = 0) :
    Told w (act xio (commApp cbs) (.connack session code) w) := by
  have hop : Told w ((commApp cbs).callOperation (.connack session code) w) :=
    callOperation_told hcbs w fun hop _ _ he => by cases he; exact hcode hop
  simp only [act]
  split
  · exact hop.trans (Told.same rfl rfl)
  · exact hop

theorem act_told {verdict : Verdict} (w : Sys) (hping : verdict ≠ .error .noPingResponse)
    (hcode : w.client.fnOperationCallback = true → ∀ session code, verdict = .connack session code → code = 0) :
    Told w (act xio (commApp cbs) verdict w) := by
  apply (told_rules hcbs hx).steps.act hping
  · intro session code he
    exact act_connack_told hcbs session code w fun hop => hcode hop session code he
  · intro _
    have hseen : Told w { w with client := { w.client with timeSincePing := 0 } } := Told.same rfl rfl
    simp only [act]
    split
    · exact hseen.trans (callOperation_told hcbs _ fun _ _ _ he => by cases he)
    · exact hseen

/-- A refusal is told as it is delivered. -/
theorem recvComplete_told (p : Packet) (w : Sys) : Told w (recvCompleteCallback xio (commApp cbs) p w) := by
  obtain ⟨v, hv⟩ : ∃ v, v = { w.log (.packet p) with mallocs := (decode (w.log (.packet p)).client p w.mallocs).mallocs } := ⟨_, rfl⟩
  have hrecv : recvCompleteCallback xio (commApp cbs) p w = act xio (commApp cbs) (decode w.client p w.mallocs).verdict v := by
    rw [hv]; rfl
  have hop : v.client.fnOperationCallback = w.client.fnOperationCallback := by rw [hv]; rfl
  have htrace : v.trace = w.trace ++ [.packet p] := by rw [hv]; rfl
  rw [hrecv]
  by_cases hp : w.client.fnOperationCallback = true ∧ Refuses p
  · obtain ⟨hset, code, hcode, hne⟩ := hp
    obtain ⟨session, hverdict⟩ := (decode_connack hset p w.mallocs code).mpr hcode
    have hact : act xio (commApp cbs) (.connack session code) v = (commApp cbs).callOperation (.connack session code) v := by
      simp only [act, if_neg hne]
    rw [hverdict, hact]
    obtain ⟨hop', new, hnew, hiff⟩ := onOperationComplete_told hcbs (.connack session code) (v.log (.operation (.connack session code)))
    refine ⟨hop'.trans hop, .packet p :: .operation (.connack session code) :: new, ?_, fun _ => ?_⟩
    · rw [show ((commApp cbs).callOperation (.connack session code) v).trace = _ from hnew]
      show (v.trace ++ [.operation (.connack session code)]) ++ new = _
      rw [htrace, List.append_assoc, List.append_assoc]
      rfl
    · exact iff_of_true ⟨session, code, hne, by simp⟩ ⟨p, by simp, code, hcode, hne⟩
  · have hlog : Told w v := by
      refine ⟨hop, [.packet p], htrace, fun hset => ?_⟩
      have hh := packet_harmless fun hr => hp ⟨hset, hr⟩
      exact iff_of_false hh.1 hh.2
    refine hlog.trans (act_told hcbs hx v (HandlerRules.decode_ne_noPingResponse _ _ _) fun hset session code he => ?_)
    by_contra hne
    rw [hop] at hset
    exact hp ⟨hset, code, (decode_connack hset p w.mallocs code).mp ⟨session, he⟩, hne⟩

theorem onBytesReceived_told (buffer : List UInt8) (w : Sys) : Told w (onBytesReceived xio (commApp cbs) buffer w) :=
  (told_rules hcbs hx).steps.onBytesReceived (recvComplete_told hcbs hx) buffer w

theorem mqttClientDowork_told (w : Sys) : Told w (mqttClientDowork xio (commApp cbs) w) :=
  (told_rules hcbs hx).steps.mqttClientDowork w (fun h => hx.dowork h w)
    ((told_rules hcbs hx).steps.keepAlive currentMs_told (callError_told .noPingResponse) (fun _ => Told.same rfl rfl)
      fun _ _ => Told.same rfl rfl)

theorem socket_told (h : XioHandle) (w : Sys) : Invariant (socketSlot h) (socketCallbacks xio (commApp cbs)) (Told w) where
  set _ _ _ hv := hv.trans (Told.same rfl rfl)
  bytes received v _ _ hv := hv.trans (onBytesReceived_told hcbs hx received v)
  error v hv := hv.trans ((told_rules hcbs hx).steps.onIoError v)
  sent _ v hv := hv.trans ((told_rules hcbs hx).steps.sendComplete .ok v)

end Handlers

/-! ## Sockets -/

theorem socketXio_told {xio : Xio Outside} (hx : XioTold xio) {cbs : CommCallbacks} (hcbs : CallbacksTold cbs) :
    XioTold (socketXio xio (commApp cbs)) := by
  have hlive : ∀ h (call : Sys → Nat × Sys) w, Told w (call w).2 → Told w (whenLive h call w).2 := by
    intro h call w hcall
    unfold whenLive
    split
    · exact hcall
    · exact Told.same rfl rfl
  refine ⟨⟨⟨fun _ => Told.rfl, Told.trans, ?_, ?_⟩, ?_⟩, ?_⟩
  · intro h callback w
    apply hlive
    have hcallback : ∀ v : Sys, Told w v → Told w (onConnectionClosed (commApp cbs) v) := by
      intro v hv
      have hset : Told v { v with client := { v.client with socketConnected := false, clientConnected := false } } :=
        Told.same rfl rfl
      exact (hv.trans hset).trans (callDisconnected_told _)
    unfold socketioClose
    simp only
    have hclose : Told w (if ((socketSlot h).get w).1.ioState ≠ .closed ∧ ((socketSlot h).get w).1.ioState ≠ .closing then
        update (socketSlot h) (fun io => { io with socket := false, ioState := .closed }) w else w) := by
      split
      · exact Told.same rfl rfl
      · exact Told.rfl
    split
    · exact hcallback _ hclose
    · exact hclose
  · intro h w
    apply hlive h _ w
    exact (socket_told hcbs hx h w).socketioDowork _ _ (Told.same rfl rfl)
  · intro h bytes w
    apply hlive
    exact (socket_told hcbs hx h w).toSendInvariant.socketioSend bytes _ _ (Told.same rfl rfl)
  · intro h w
    apply hlive
    have hopen : ∀ r v, Told w v → Told w (onOpenComplete xio (commApp cbs) r v) := fun r v hv =>
      hv.trans ((told_rules hcbs hx).onOpenComplete r v fun _ _ => Told.same rfl rfl)
    unfold socketioOpen
    apply hopen
    split
    · exact Told.same rfl rfl
    · split
      · exact Told.same rfl rfl
      · split <;> exact Told.same rfl rfl

/-! ## Calls of the communicator -/

section Calls

variable {cbs : CommCallbacks} (hcbs : CallbacksTold cbs) {xio : Xio Outside} (hx : XioTold xio)

include hcbs hx

theorem mqttCommPublish_told (topic : Option CString) (message : Option (List UInt8)) (qos : UInt8) (w : Sys) :
    Told w (mqttCommPublish xio topic message qos w).2 := by
  unfold mqttCommPublish
  split
  · exact Told.rfl
  · split
    · split
      · exact Told.same rfl rfl
      · exact Told.same rfl rfl
      · rename_i msg ms _
        have hms : Told w { w with mallocs := ms } := Told.same rfl rfl
        have hp : Told w (mqttClientPublish xio msg { w with mallocs := ms }).2 :=
          hms.trans ((told_rules hcbs hx).steps.mqttClientPublish msg _)
        simp only
        split
        · exact hp.trans (Told.same rfl rfl)
        · refine hp.trans ?_
          unfold noteSent
          split <;> exact Told.same rfl rfl
    · exact Told.rfl

theorem mqttCommSubcribe_told (topic : CString) (qos : QosValue) (w : Sys) : Told w (mqttCommSubcribe xio topic qos w).2 := by
  obtain ⟨v, hv⟩ : ∃ v, v = onComm (fun c => { c with packetId := c.packetId + 1 }) w := ⟨_, rfl⟩
  have hwv : Told w v := by rw [hv]; exact Told.same rfl rfl
  have hs := hwv.trans ((told_rules hcbs hx).steps.mqttClientSubscribe w.out.comm.packetId [⟨topic, qos⟩] v)
  unfold mqttCommSubcribe
  simp only [← hv]
  split
  · exact hs.trans (Told.same rfl rfl)
  · exact hs.trans (Told.same rfl rfl)

omit hcbs in
theorem mqttClientConnect_told (xioHandle : Option XioHandle) (mqttOptions : MqttClientOptions) (w : Sys) :
    Told w (mqttClientConnect xio xioHandle mqttOptions w).2 := by
  unfold mqttClientConnect
  cases xioHandle with
  | none => exact Told.rfl
  | some h =>
    obtain ⟨cloned, v, hv⟩ : ∃ cloned v, takeOptions h mqttOptions w = (cloned, v) := ⟨_, _, rfl⟩
    have hwv : Told w v := by
      rw [← show (takeOptions h mqttOptions w).2 = v from congrArg Prod.snd hv]
      exact Told.same rfl rfl
    have hopen := hwv.trans (hx.openIo h v)
    simp only [hv]
    split
    · exact hwv
    · split
      · exact hopen.trans (Told.same rfl rfl)
      · exact hopen

omit hcbs in
theorem connectLoop_told (attempts : Nat) (w : Sys) : Told w (connectLoop xio attempts w).2 := by
  induction attempts generalizing w with
  | zero => exact Told.rfl
  | succ attempts ih =>
    obtain ⟨v, hv⟩ : ∃ v, v = note (.connect w.client.socketConnected) w := ⟨_, rfl⟩
    have hwv : Told w v := by rw [hv]; exact Told.same rfl rfl
    have hconnect := hwv.trans (mqttClientConnect_told hx v.out.comm.xioHandle v.out.comm.mqttOptions v)
    unfold connectLoop
    simp only [← hv]
    split
    · exact hconnect.trans (ih _)
    · exact hconnect

omit hcbs hx in
theorem xioDestroy_told (h : Option XioHandle) (w : Sys) : Told w (xioDestroy h w) := by
  unfold xioDestroy
  split
  · exact Told.rfl
  · split <;> exact Told.same rfl rfl

omit hcbs hx in
theorem xioCreate_told (w : Sys) : Told w (xioCreate w).2 := by
  unfold xioCreate
  simp only
  split <;> exact Told.same rfl rfl

theorem mqttCommProcess_told (attempts : Nat) (w : Sys) : Told w (mqttCommProcess xio (commApp cbs) attempts w).2 := by
  unfold mqttCommProcess
  split
  · exact mqttClientDowork_told hcbs hx w
  · obtain ⟨u, hu⟩ : ∃ u, u = note (.errorBranch w.client.socketConnected) w := ⟨_, rfl⟩
    have hwu : Told w u := by rw [hu]; exact Told.same rfl rfl
    have hclose := hwu.trans (hx.toXioRules.xioClose u.out.comm.xioHandle false u)
    simp only [← hu]
    exact ((hclose.trans (xioDestroy_told _ _)).trans (xioCreate_told _)).trans (Told.same rfl rfl)
  · have hloop := connectLoop_told hx attempts w
    simp only
    split
    · exact hloop
    · split
      · exact hloop.trans (Told.same rfl rfl)
      · exact hloop
  · have hclose := hx.toXioRules.xioClose w.out.comm.xioHandle false w
    exact (hclose.trans (xioDestroy_told _ _)).trans (Told.same rfl rfl)

omit hcbs in
theorem appCallbacks_told (hcbs : CallbacksTold cbs) : CallbacksTold (appCallbacks xio) where
  connected w := (mqttCommPublish_told hcbs hx _ _ _ w).trans (mqttCommSubcribe_told hcbs hx _ _ _)
  sub w := mqttCommPublish_told hcbs hx _ _ _ w
  received _ w := mqttCommPublish_told hcbs hx _ _ _ w
  pub _ := Told.rfl

end Calls

/-! ## Runs -/

theorem inert_told : CallbacksTold .inert := ⟨fun _ => Told.rfl, fun _ => Told.rfl, fun _ _ => Told.rfl, fun _ => Told.rfl⟩

theorem inertXio_told : XioTold (.inert Outside) where
  refl _ := Told.rfl
  trans := Told.trans
  openIo _ _ := Told.rfl
  close _ _ _ := Told.rfl
  send _ _ _ := Told.rfl
  dowork _ _ := Told.rfl

theorem appXio_told (n : Nat) : XioTold (appXio n) := by
  induction n with
  | zero =>
    have hclose := (socketXio_told inertXio_told (appCallbacks_told inertXio_told inert_told)).close
    exact ⟨⟨⟨fun _ => Told.rfl, Told.trans, hclose, fun _ _ => Told.rfl⟩, fun _ _ _ => Told.rfl⟩, fun _ _ => Told.rfl⟩
  | succ n ih => exact socketXio_told ih (appCallbacks_told ih inert_told)

theorem Call.runApp_told (n : Nat) (call : Call) (w : Sys) : Told w (call.runApp n w).2 := by
  have hx := appXio_told n
  have hcbs := appCallbacks_told hx inert_told
  cases call with
  | process attempts => exact mqttCommProcess_told hcbs hx attempts w
  | publish topic message qos => exact mqttCommPublish_told hcbs hx topic message qos w
  | subcribe topic qos => exact mqttCommSubcribe_told hcbs hx topic qos w

theorem runApp_told (n : Nat) (calls : List Call) (w : Sys) : Told w (runUntil (Call.runApp n) calls w).2 := by
  apply runUntil_inv (I := Told w) _ _ _ Told.rfl
  exact fun call v hv => hv.trans (Call.runApp_told n call v)

/-- A new communicator, with the application's callbacks, that has been told to connect. -/
def appStarted (w : Sys) : Sys := mqttCommStartConnection (mqttCommSetCallback w)

theorem mqttCommCreate_trace {host : Option CString} {port : Nat} {clientId userName password : Option CString} {a : Answers}
    {w : Sys} (h : mqttCommCreate host port clientId userName password a = some w) :
    w.client.fnOperationCallback = true ∧ w.trace = [] := by
  have hcreate : ∀ v : Sys, (xioCreate v).2.client = v.client ∧ (xioCreate v).2.trace = v.trace := by
    intro v
    unfold xioCreate
    simp only
    split <;> exact ⟨rfl, rfl⟩
  unfold mqttCommCreate at h
  split at h
  · cases h
  · split at h
    · cases h
    · split at h
      · cases h
      · split at h
        · cases h
        · rename_i client ms hinit
          have hclient := mqttClientInit_client hinit
          simp only [Option.some.injEq] at h
          rw [← h]
          split
          · exact ⟨(congrArg MqttClient.fnOperationCallback (hcreate _).1).trans (by rw [hclient]; rfl), (hcreate _).2⟩
          · exact ⟨(congrArg MqttClient.fnOperationCallback (hcreate _).1).trans (by rw [hclient]; rfl), (hcreate _).2⟩

/-- What a run has traced it has traced at its end. -/
theorem runApp_prefix (n : Nat) {done calls : List Call} (h : done <+: calls) (w : Sys) :
    Told (runUntil (Call.runApp n) done w).2 (runUntil (Call.runApp n) calls w).2 := by
  obtain ⟨rest, rfl⟩ := h
  rw [runUntil_append]
  split
  · exact runApp_told n rest _
  · exact Told.rfl

/-- A run of the application uses no refused connection exactly when none is refused. -/
theorem neverUsed_iff {host : Option CString} {port : Nat} {clientId userName password : Option CString} {a : Answers}
    {w : Sys} (h : mqttCommCreate host port clientId userName password a = some w) (n : Nat) (calls : List Call) :
    (∀ done, done <+: calls → NeverUsed (runUntil (Call.runApp n) done (appStarted w)).2) ↔
      ∀ p, .packet p ∈ (runUntil (Call.runApp n) calls (appStarted w)).2.trace → ¬ Refuses p := by
  obtain ⟨hop, htrace⟩ := mqttCommCreate_trace h
  have htold : ∀ done, RefusalTold (runUntil (Call.runApp n) done (appStarted w)).2.trace ↔
      RefusalDelivered (runUntil (Call.runApp n) done (appStarted w)).2.trace := by
    intro done
    obtain ⟨-, new, hnew, hiff⟩ := runApp_told n done (appStarted w)
    rw [hnew, show (appStarted w).trace = [] from htrace, List.nil_append]
    exact hiff hop
  constructor
  · intro hused p hp hr
    obtain ⟨session, code, hne, hm⟩ := (htold calls).mpr ⟨p, hp, hr⟩
    exact hne ((hused calls (List.prefix_rfl)).connected session code hm)
  · intro hnone done hdone
    apply neverUsed_of_accepted
    intro session code hm
    by_contra hne
    obtain ⟨p, hp, hr⟩ := (htold done).mp ⟨session, code, hne, hm⟩
    obtain ⟨-, new, hnew, -⟩ := runApp_prefix n hdone (appStarted w)
    exact hnone p (by rw [hnew]; exact List.mem_append_left _ hp) hr

/-- A new communicator whose socket takes every packet, and receives `bytes` at its second
    `MQTT_Comm_Process`. -/
def serverSends (bytes : List UInt8) : Option Sys :=
  mqttCommCreate (some localhost) 1883 (some device) none none
    ⟨[], [], [true], [.accepted 100, .accepted 100, .accepted 100], [([], [.bytes bytes])]⟩

/-- A connection that is accepted, and used from the callback. -/
theorem accepted_connection_used :
    ∃ w, serverSends [0x20, 2, 0, 0] = some w ∧
      (runUntil (Call.runApp 2) [.process 1, .process 1] (appStarted w)).2.trace.map sentType = [some 1, none, none, some 3, some 8] ∧
      ((∀ done, done <+: [Call.process 1, .process 1] → NeverUsed (runUntil (Call.runApp 2) done (appStarted w)).2) ↔
        ∀ p, .packet p ∈ (runUntil (Call.runApp 2) [.process 1, .process 1] (appStarted w)).2.trace → ¬ Refuses p) := by
  have hrun : (serverSends [0x20, 2, 0, 0]).map (fun w =>
      (runUntil (Call.runApp 2) [.process 1, .process 1] (appStarted w)).2.trace.map sentType) =
      some [some 1, none, none, some 3, some 8] := by decide +kernel
  obtain ⟨w, hw, htypes⟩ := Option.map_eq_some_iff.mp hrun
  exact ⟨w, hw, htypes, neverUsed_iff hw 2 [.process 1, .process 1]⟩

/-- The server refuses with code 5: the communicator is connected all the same, and the
    application publishes and subscribes on the connection. -/
theorem refused_connection_used :
    ∃ w, serverSends [0x20, 2, 0, 5] = some w ∧
      let v := (runUntil (Call.runApp 2) [.process 1, .process 1] (appStarted w)).2
      refused (v.trace.take 3) = true ∧ v.out.comm.state = .connected ∧
        v.trace.map sentType = [some 1, none, none, some 3, some 8] ∧ ¬ NeverUsed v := by
  have hrun : (serverSends [0x20, 2, 0, 5]).map (fun w =>
      let v := (runUntil (Call.runApp 2) [.process 1, .process 1] (appStarted w)).2
      ((refused (v.trace.take 3), refused v.trace), v.out.comm.state, v.trace.map sentType)) =
      some ((true, true), .connected, [some 1, none, none, some 3, some 8]) := by decide +kernel
  obtain ⟨w, hw, hv⟩ := Option.map_eq_some_iff.mp hrun
  simp only [Prod.mk.injEq] at hv
  obtain ⟨⟨h3, hr⟩, hstate, htypes⟩ := hv
  exact ⟨w, hw, h3, hstate, htypes, fun hnever => hnever.state hr hstate⟩

end UMqtt.Comm

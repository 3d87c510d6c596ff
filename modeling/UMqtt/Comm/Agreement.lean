/-
  UMqtt.Comm.Agreement — the communicator and its client about one transport.

  The communicator's state and the client's `socketConnected` say the same thing twice.
  Every part of the client that a transport can call back into is shown to keep `Agreed`
  (`Keeps`), for a transport that is itself `Sound`; the sockets over a sound transport are
  sound, so `systemXio n` is, for every `n`.

  Proved (`agreed_run`): in every run in which the MQTT_ERROR branch of `MQTT_Comm_Process`
  finds the client disconnected and no CONNACK is handled after the client has closed
  (`Clean`), a connected communicator's client is connected over its transport, and every
  connection attempt starts from a disconnected client. A connection attempt that fails in
  front of one that succeeds breaks both (`failed_attempt_disagrees`).
-/

import UMqtt.Comm.Communicator

namespace UMqtt.Comm

open UMqtt.Lib UMqtt.Crt UMqtt.Codec UMqtt.Io UMqtt.Client

def quietApp : App Outside := commApp .inert

/-! ## The invariant -/

/-- No step of the communicator has contradicted the client. -/
def Clean (steps : List Step) : Prop := Step.errorBranch true ∉ steps ∧ Step.connack false ∉ steps

theorem Clean.of_append {steps steps' : List Step} (h : Clean (steps ++ steps')) : Clean steps :=
  ⟨fun hs => h.1 (List.mem_append_left _ hs), fun hs => h.2 (List.mem_append_left _ hs)⟩

structure Agreed (w : Sys) : Prop where
  operation : w.client.fnOperationCallback = true
  errorCallBack : w.client.fnOnErrorCallBack = true
  disconnectCb : w.client.disconnectCb = none
  packetState : w.client.packetState ≠ .disconnect
  notDisconnected : w.out.comm.state ≠ .disconnected
  connected : w.out.comm.state = .connected → w.client.socketConnected = true
  handles : w.client.socketConnected = true → ∃ h, w.client.xioHandle = some h ∧ w.out.comm.xioHandle = some h
  live : ∀ h, w.out.comm.xioHandle = some h → h ∈ w.out.live
  connects : Step.connect true ∉ w.out.steps

/-- Nothing that the invariant looks at is different. -/
structure Same (w w' : Sys) : Prop where
  operation : w'.client.fnOperationCallback = w.client.fnOperationCallback
  errorCallBack : w'.client.fnOnErrorCallBack = w.client.fnOnErrorCallBack
  disconnectCb : w'.client.disconnectCb = w.client.disconnectCb
  packetState : w'.client.packetState = w.client.packetState
  xioHandle : w'.client.xioHandle = w.client.xioHandle
  socketConnected : w'.client.socketConnected = w.client.socketConnected
  comm : w'.out.comm = w.out.comm
  live : w'.out.live = w.out.live
  steps : w'.out.steps = w.out.steps
  sent : w'.out.sent = w.out.sent

/-- What every call keeps that does not connect the client. -/
structure Stays (w w' : Sys) : Prop where
  clean : Clean w'.out.steps → Clean w.out.steps
  agreed : Clean w'.out.steps → Agreed w → Agreed w'
  closed : w.client.socketConnected = false → w'.client.socketConnected = false
  connecting : w'.out.comm.state = .connecting → w.out.comm.state = .connecting

/-- What every callback keeps: it takes no identifier either. -/
structure Keeps (w w' : Sys) : Prop extends Stays w w' where
  packetId : w'.out.comm.packetId = w.out.comm.packetId
  sent : w'.out.sent = w.out.sent

variable {w w' w'' : Sys}

theorem Same.rfl : Same w w :=
  ⟨.refl _, .refl _, .refl _, .refl _, .refl _, .refl _, .refl _, .refl _, .refl _, .refl _⟩

theorem Same.trans (h : Same w w') (h' : Same w' w'') : Same w w'' :=
  ⟨h'.operation.trans h.operation, h'.errorCallBack.trans h.errorCallBack, h'.disconnectCb.trans h.disconnectCb,
    h'.packetState.trans h.packetState, h'.xioHandle.trans h.xioHandle, h'.socketConnected.trans h.socketConnected,
    h'.comm.trans h.comm, h'.live.trans h.live, h'.steps.trans h.steps, h'.sent.trans h.sent⟩

theorem Same.agreed (h : Same w w') (ha : Agreed w) : Agreed w' := by
  refine ⟨h.operation.trans ha.operation, h.errorCallBack.trans ha.errorCallBack, h.disconnectCb.trans ha.disconnectCb,
    ?_, ?_, ?_, ?_, ?_, ?_⟩
  · rw [h.packetState]; exact ha.packetState
  · rw [h.comm]; exact ha.notDisconnected
  · rw [h.comm, h.socketConnected]; exact ha.connected
  · rw [h.comm, h.socketConnected, h.xioHandle]; exact ha.handles
  · rw [h.comm, h.live]; exact ha.live
  · rw [h.steps]; exact ha.connects

theorem Same.keeps (h : Same w w') : Keeps w w' where
  clean hc := by rw [← h.steps]; exact hc
  agreed _ ha := h.agreed ha
  closed hs := h.socketConnected.trans hs
  connecting hs := by rw [← h.comm]; exact hs
  packetId := by rw [h.comm]
  sent := h.sent

theorem Keeps.rfl : Keeps w w := Same.rfl.keeps

theorem Stays.trans (h : Stays w w') (h' : Stays w' w'') : Stays w w'' where
  clean hc := h.clean (h'.clean hc)
  agreed hc ha := h'.agreed hc (h.agreed (h'.clean hc) ha)
  closed hs := h'.closed (h.closed hs)
  connecting hs := h.connecting (h'.connecting hs)

theorem Keeps.trans (h : Keeps w w') (h' : Keeps w' w'') : Keeps w w'' :=
  ⟨h.toStays.trans h'.toStays, h'.packetId.trans h.packetId, h'.sent.trans h.sent⟩

theorem Keeps.same (h : Keeps w w') (h' : Same w' w'') : Keeps w w'' := h.trans h'.keeps

theorem log_same (e : Event) (w : Sys) : Same w (w.log e) := by constructor <;> rfl

/-- Another packet state, as long as it is not that of a DISCONNECT. -/
theorem packetState_keeps (type : ControlPacketType) (ht : type ≠ .disconnect) (w : Sys) :
    Keeps w { w with client := { w.client with packetState := type } } where
  clean hc := hc
  agreed _ ha :=
    ⟨ha.operation, ha.errorCallBack, ha.disconnectCb, ht, ha.notDisconnected, ha.connected, ha.handles, ha.live, ha.connects⟩
  closed hs := hs
  connecting hs := hs
  packetId := .refl _
  sent := .refl _

/-- An error of the communicator. -/
theorem setError_keeps (w : Sys) : Keeps w (setState .error w) where
  clean hc := hc
  agreed _ ha :=
    ⟨ha.operation, ha.errorCallBack, ha.disconnectCb, ha.packetState, nofun, nofun, ha.handles, ha.live, ha.connects⟩
  closed hs := hs
  connecting hs := nomatch hs
  packetId := .refl _
  sent := .refl _

/-! ## The transport -/

def dropped (c : MqttClient) : MqttClient := { c with socketConnected := false, clientConnected := false }

/-- What `xio_close` does: the close of a live transport calls back, if it is given a
    callback. -/
structure Closes (h : XioHandle) (callback : Bool) (w w' : Sys) : Prop where
  client : w'.client = w.client ∨ w'.client = dropped w.client
  comm : w'.out.comm = w.out.comm
  live : w'.out.live = w.out.live
  steps : w'.out.steps = w.out.steps
  sent : w'.out.sent = w.out.sent
  called : h ∈ w.out.live → callback = true → w'.client = dropped w.client

/-- What the communicator relies on. A send calls back, but not into anything that looks at
    the connection, unless it sends a DISCONNECT. -/
structure Sound (xio : Xio Outside) : Prop where
  close : ∀ h callback w, Closes h callback w (xio.close h callback w).2
  send : ∀ h bytes w, Keeps w (xio.send h bytes w).2 ∧
    (w.client.packetState ≠ .disconnect → Same w (xio.send h bytes w).2)
  dowork : ∀ h w, Keeps w (xio.dowork h w)

theorem Closes.closed {h : XioHandle} {callback : Bool} (hc : Closes h callback w w') (hs : w.client.socketConnected = false) :
    w'.client.socketConnected = false := by
  rcases hc.client with h | h <;> rw [h]
  · exact hs
  · rfl

theorem Closes.agreed {h : XioHandle} (hc : Closes h true w w') (hl : h ∈ w.out.live) (ha : Agreed w)
    (hn : w.out.comm.state ≠ .connected) : Agreed w' ∧ w'.client.socketConnected = false := by
  have hd := hc.called hl rfl
  refine ⟨⟨?_, ?_, ?_, ?_, ?_, ?_, ?_, ?_, ?_⟩, by rw [hd]; rfl⟩
  · rw [hd]; exact ha.operation
  · rw [hd]; exact ha.errorCallBack
  · rw [hd]; exact ha.disconnectCb
  · rw [hd]; exact ha.packetState
  · rw [hc.comm]; exact ha.notDisconnected
  · rw [hc.comm]; exact fun hs => absurd hs hn
  · rw [hd]; exact nofun
  · rw [hc.comm, hc.live]; exact ha.live
  · rw [hc.steps]; exact ha.connects

/-! ## Callbacks of the communicator -/

theorem callMessage_same (m : Message) (w : Sys) : Same w (quietApp.callMessage m w) := by
  simp only [App.callMessage, quietApp, commApp, mqttCommOnRecvCallback, CommCallbacks.inert, id_eq, ite_self]
  exact log_same (.message m) w

/-- With the application's callbacks NULL, an operation changes the state or nothing. -/
theorem operation_inert (o : Operation) (w : Sys) :
    mqttCommOnOperationComplete .inert o w =
      match o with
      | .connack _ _ => setState .connected (note (.connack w.client.socketConnected) w)
      | .disconnect => setState .disconnected w
      | _ => w := by
  cases o <;> unfold mqttCommOnOperationComplete <;> first | exact ite_self _ | rfl

/-- A CONNACK connects the communicator; in a clean run its client is connected. -/
theorem connack_keeps (w : Sys) : Keeps w (setState .connected (note (.connack w.client.socketConnected) w)) := by
  refine ⟨?_, rfl, rfl⟩
  constructor
  · exact fun hc => hc.of_append
  · intro hc ha
    have hs : w.client.socketConnected = true := by
      cases hw : w.client.socketConnected with
      | true => rfl
      | false => exact absurd (List.mem_append_right _ (by simp [hw])) hc.2
    refine ⟨ha.operation, ha.errorCallBack, ha.disconnectCb, ha.packetState, nofun, fun _ => hs, ha.handles, ha.live, ?_⟩
    intro hm
    rcases List.mem_append.mp hm with hm | hm
    · exact ha.connects hm
    · simp at hm
  · exact fun hs => hs
  · exact fun hs => nomatch hs

theorem callOperation_keeps {o : Operation} (w : Sys) (ho : o ≠ .disconnect) : Keeps w (quietApp.callOperation o w) := by
  refine (log_same (.operation o) w).keeps.trans ?_
  show Keeps _ (mqttCommOnOperationComplete .inert o (w.log (.operation o)))
  rw [operation_inert]
  cases o with
  | connack session code => exact connack_keeps _
  | disconnect => exact absurd rfl ho
  | _ => exact Keeps.rfl

/-- The error callback leaves an agreed communicator in MQTT_ERROR. -/
theorem callError_keeps (e : EventError) (w : Sys) :
    Keeps w (quietApp.callError e w) ∧
      (Agreed (quietApp.callError e w) → (quietApp.callError e w).out.comm.state = .error) := by
  unfold App.callError
  split
  · exact ⟨(log_same (.error e) w).keeps.trans (setError_keeps _), fun _ => rfl⟩
  · exact ⟨Keeps.rfl, fun ha => absurd ha.errorCallBack ‹_›⟩

theorem callDisconnected_same (w : Sys) : Same w (quietApp.callDisconnected w) := by
  unfold App.callDisconnected
  split
  · exact Same.rfl
  · exact log_same _ w

/-! ## Closing -/

section Sound

variable {xio : Xio Outside} (hx : Sound xio)

include hx

theorem xioDowork_keeps (h : Option XioHandle) (w : Sys) : Keeps w (xio.xioDowork h w) := by
  cases h with
  | none => exact Keeps.rfl
  | some h => exact hx.dowork h w

theorem closeLoop_keeps (retries : Nat) (w : Sys) : Keeps w (closeLoop xio retries w) := by
  induction retries generalizing w with
  | zero => exact Keeps.rfl
  | succ retries ih =>
    unfold closeLoop
    simp only
    split
    · exact (xioDowork_keeps hx _ w).trans (ih _)
    · exact xioDowork_keeps hx _ w

/-- The loop of `close_connection`, where it runs. -/
theorem closeRetries_keeps (w : Sys) :
    Keeps w (if w.client.disconnectCb.isNone then closeLoop xio maxCloseRetries w else w) := by
  split
  · exact closeLoop_keeps hx _ w
  · exact Keeps.rfl

theorem xioClose_same (h : Option XioHandle) (callback : Bool) (w : Sys) :
    (xio.xioClose h callback w).2.out.comm = w.out.comm ∧ (xio.xioClose h callback w).2.out.steps = w.out.steps ∧
      (xio.xioClose h callback w).2.out.sent = w.out.sent := by
  cases h with
  | none => exact ⟨rfl, rfl, rfl⟩
  | some h => exact ⟨(hx.close h callback w).comm, (hx.close h callback w).steps, (hx.close h callback w).sent⟩

theorem closeConnection_clean (w : Sys) : Clean (closeConnection xio quietApp w).out.steps → Clean w.out.steps := by
  unfold closeConnection
  split
  · intro hc
    rw [← (xioClose_same hx w.client.xioHandle true w).2.1]
    exact (closeRetries_keeps hx _).clean hc
  · exact (callDisconnected_same w).keeps.clean

/-- `close_connection` takes the connection from a communicator that no longer claims it. -/
theorem closeConnection_keeps {w : Sys} (hn : Agreed w → w.out.comm.state ≠ .connected) :
    Keeps w (closeConnection xio quietApp w) := by
  refine ⟨⟨closeConnection_clean hx w, ?_, ?_, ?_⟩, ?_, ?_⟩
  all_goals unfold closeConnection
  · split
    · rename_i hs
      intro hc ha
      obtain ⟨h, hh, hcomm⟩ := ha.handles hs
      obtain ⟨ha₁, hs₁⟩ := (hx.close h true w).agreed (ha.live h hcomm) ha (hn ha)
      rw [hh] at hc ⊢
      have hk := closeRetries_keeps hx (xio.xioClose (some h) true w).2
      have hav := hk.agreed hc ha₁
      have hsv := hk.closed hs₁
      exact ⟨hav.operation, hav.errorCallBack, hav.disconnectCb, hav.packetState, hav.notDisconnected, hav.connected,
        fun ht => absurd (hsv.symm.trans ht) (by decide), hav.live, hav.connects⟩
    · exact fun _ ha => (callDisconnected_same w).agreed ha
  · intro hs
    rw [if_neg (by rw [hs]; decide)]
    exact (callDisconnected_same w).socketConnected.trans hs
  · split
    · intro h
      rw [← (xioClose_same hx w.client.xioHandle true w).1]
      exact (closeRetries_keeps hx _).connecting h
    · exact (callDisconnected_same w).keeps.connecting
  · split
    · rw [← (xioClose_same hx w.client.xioHandle true w).1]
      exact (closeRetries_keeps hx _).packetId
    · exact (callDisconnected_same w).keeps.packetId
  · split
    · rw [← (xioClose_same hx w.client.xioHandle true w).2.2]
      exact (closeRetries_keeps hx _).sent
    · exact (callDisconnected_same w).sent

theorem setErrorCallback_keeps (e : EventError) (w : Sys) : Keeps w (setErrorCallback xio quietApp e w) := by
  obtain ⟨hk, he⟩ := callError_keeps e w
  refine hk.trans (closeConnection_keeps hx fun ha => ?_)
  rw [he ha]; exact nofun

/-! ## Sending -/

/-- The client is told of a DISCONNECT only after it has sent one. -/
theorem sendComplete_keeps (sendResult : SendResult) (w : Sys) : Keeps w (sendComplete xio quietApp sendResult w) := by
  cases sendResult with
  | ok =>
    unfold sendComplete
    simp only
    split
    · rename_i hp
      split
      · have hd : Keeps w (quietApp.callOperation .disconnect w) :=
          ⟨⟨fun hc => hc, fun _ ha => absurd hp ha.packetState, fun hs => hs, nofun⟩, rfl, rfl⟩
        exact hd.trans (closeConnection_keeps hx fun _ => nofun)
      · exact closeConnection_keeps hx fun ha => absurd ha.operation ‹_›
    · exact Keeps.rfl
  | error => exact setErrorCallback_keeps hx _ w
  | cancelled => exact Keeps.rfl

theorem xioSend_keeps (h : Option XioHandle) (bytes : List UInt8) (w : Sys) :
    Keeps w (xio.xioSend h bytes w).2 ∧ (w.client.packetState ≠ .disconnect → Same w (xio.xioSend h bytes w).2) := by
  cases h with
  | none => exact ⟨Keeps.rfl, fun _ => Same.rfl⟩
  | some h => exact hx.send h bytes w

omit hx in
theorem currentMs_same (w : Sys) : Same w w.currentMs.2 := by
  unfold World.currentMs
  split <;> constructor <;> rfl

theorem sendPacketItem_keeps (data : List UInt8) (w : Sys) :
    Keeps w (sendPacketItem xio data w).2 ∧ (w.client.packetState ≠ .disconnect → Same w (sendPacketItem xio data w).2) := by
  have hms := currentMs_same w
  unfold sendPacketItem
  rcases h : w.currentMs with ⟨ms, v⟩
  rw [h] at hms
  cases ms with
  | none => exact ⟨hms.keeps, fun _ => hms⟩
  | some ms =>
    obtain ⟨u, hu⟩ : ∃ u, u = { v with client := { v.client with packetSendTimeMs := ms } }.log (.send v.client.xioHandle data) :=
      ⟨_, rfl⟩
    have hvu : Same w u := hms.trans (by rw [hu]; constructor <;> rfl)
    have hsend := xioSend_keeps hx u.client.xioHandle data u
    simp only [← hu]
    exact ⟨hvu.keeps.trans hsend.1, fun hp => hvu.trans (hsend.2 (by rw [hvu.packetState]; exact hp))⟩

/-! ## Receiving -/

theorem sendReply_keeps (reply : UInt16 → Mallocs → Option Buffer × Mallocs) (packetId : UInt16) (w : Sys) :
    Keeps w (sendReply xio quietApp reply packetId w) := by
  have hms : ∀ ms, Same w { w with mallocs := ms } := fun ms => by constructor <;> rfl
  unfold sendReply
  split
  · exact (hms _).keeps.trans (setErrorCallback_keeps hx _ _)
  · exact (hms _).keeps.trans (sendPacketItem_keeps hx _ _).1

omit hx in
theorem publishAction_ne (packet : ControlPacketType) (packetId : UInt16) : publishAction packet packetId ≠ .disconnect := by
  unfold publishAction
  split <;> exact nofun

theorem act_keeps (verdict : Verdict) (w : Sys) : Keeps w (act xio quietApp verdict w) := by
  cases verdict with
  | ignored => exact Keeps.rfl
  | nullWrite => exact Keeps.same Keeps.rfl (by constructor <;> rfl)
  | error e => exact setErrorCallback_keeps hx e w
  | subscribeAck packetId codes => exact callOperation_keeps w (by nofun)
  | unsubscribeAck packetId => exact callOperation_keeps w (by nofun)
  | connack session code =>
    have ho : Keeps w (quietApp.callOperation (.connack session code) w) := callOperation_keeps w (by nofun)
    simp only [act]
    split
    · exact ho.same (by constructor <;> rfl)
    · exact ho
  | pingresp =>
    have hseen : Keeps w { w with client := { w.client with timeSincePing := 0 } } :=
      Keeps.same Keeps.rfl (by constructor <;> rfl)
    simp only [act]
    split
    · exact hseen.trans (callOperation_keeps _ (by nofun))
    · exact hseen
  | publish m =>
    have hm := (callMessage_same m w).keeps
    simp only [act]
    cases m.qosInfo with
    | deliverExactlyOnce => exact hm.trans (sendReply_keeps hx _ _ _)
    | deliverAtLeastOnce => exact hm.trans (sendReply_keeps hx _ _ _)
    | _ => exact hm
  | publishAck packet packetId =>
    have ho := callOperation_keeps w (publishAction_ne packet packetId)
    simp only [act]
    cases packet with
    | pubrec => exact ho.trans (sendReply_keeps hx _ _ _)
    | pubrel => exact ho.trans (sendReply_keeps hx _ _ _)
    | _ => exact ho

theorem recvComplete_keeps (p : Packet) (w : Sys) : Keeps w (recvCompleteCallback xio quietApp p w) := by
  have hsame : Same w { w.log (.packet p) with mallocs := (decode w.client p w.mallocs).mallocs } := by
    constructor <;> rfl
  exact hsame.keeps.trans (act_keeps hx _ _)

theorem onBytesReceived_keeps (buffer : List UInt8) (w : Sys) : Keeps w (onBytesReceived xio quietApp buffer w) := by
  have hbytes : Keeps w (bytesReceived World.codecSlot (recvCompleteCallback xio quietApp) buffer w).2 := by
    apply bytesReceived_keeps (I := Keeps w) _ _ buffer Keeps.rfl
    · exact fun x v hv => hv.same (by constructor <;> rfl)
    · exact fun p v hv => hv.trans (recvComplete_keeps hx p v)
  unfold onBytesReceived
  simp only
  split
  · exact hbytes.trans (setErrorCallback_keeps hx _ _)
  · exact hbytes

theorem onIoError_keeps (w : Sys) : Keeps w (onIoError xio quietApp w) := by
  unfold onIoError
  split
  · exact setErrorCallback_keeps hx _ w
  · exact Keeps.rfl

/-! ## Calls of the client -/

theorem sendBuilt_keeps {type : ControlPacketType} (packet : Option Buffer × Mallocs) (w : Sys) (ht : type ≠ .disconnect) :
    Keeps w (sendBuilt xio type packet w).2 := by
  rcases packet with ⟨packet, ms⟩
  have hms : Same w { w with mallocs := ms } := by constructor <;> rfl
  cases packet with
  | none => exact hms.keeps
  | some packet => exact (hms.keeps.trans (packetState_keeps _ ht _)).trans (sendPacketItem_keeps hx _ _).1

theorem mqttClientSubscribe_keeps (packetId : UInt16) (subscribeList : List SubscribePayload) (w : Sys) :
    Keeps w (mqttClientSubscribe xio packetId subscribeList w).2 := by
  unfold mqttClientSubscribe
  split
  · exact Keeps.rfl
  · exact sendBuilt_keeps hx _ w (by nofun)

theorem keepAlive_keeps (w : Sys) : Keeps w (keepAlive xio quietApp w) := by
  have hms := currentMs_same w
  unfold keepAlive
  rcases h : w.currentMs with ⟨ms, v⟩
  rw [h] at hms
  cases ms with
  | none => exact hms.keeps
  | some ms =>
    simp only
    split
    · have he := hms.keeps.trans (setErrorCallback_keeps hx .noPingResponse v)
      exact (he.trans (packetState_keeps .unknown nofun _)).same (by constructor <;> rfl)
    · split
      · have hv : ∀ ms', Same v { v with mallocs := ms' } := fun ms' => by constructor <;> rfl
        split
        · exact hms.keeps.same (hv _)
        · rename_i packet ms' _
          have hsend := (hms.keeps.same (hv ms')).trans (sendPacketItem_keeps hx packet.bytes _).1
          have hnow := currentMs_same (sendPacketItem xio packet.bytes { v with mallocs := ms' }).2
          split
          · rename_i hu
            rw [hu] at hnow; exact hsend.same hnow
          · rename_i hu
            rw [hu] at hnow; exact (hsend.same hnow).same (by constructor <;> rfl)
      · exact hms.keeps

theorem mqttClientDowork_keeps (w : Sys) : Keeps w (mqttClientDowork xio quietApp w) := by
  unfold mqttClientDowork
  split
  · exact Keeps.rfl
  · rename_i h _
    simp only
    split
    · exact (hx.dowork h w).trans (keepAlive_keeps hx _)
    · exact hx.dowork h w

/-! ## Sockets over a sound transport -/

/-- The callbacks keep what the client keeps. -/
theorem socket_invariant (h : XioHandle) (w : Sys) :
    Invariant (socketSlot h) (socketCallbacks xio quietApp) (Keeps w) where
  set _ _ _ hv := hv.same (by constructor <;> rfl)
  bytes received v _ _ hv := hv.trans (onBytesReceived_keeps hx received v)
  error v hv := hv.trans (onIoError_keeps hx v)
  sent _ v hv := hv.trans (sendComplete_keeps hx .ok v)

end Sound

/-- Behind anything but a DISCONNECT, `sendComplete` does nothing. -/
theorem send_invariant (xio : Xio Outside) (app : App Outside) (h : XioHandle) {w : Sys}
    (hp : w.client.packetState ≠ .disconnect) :
    SendInvariant (socketSlot h) (socketCallbacks xio app) (Same w) where
  set _ _ _ hv := hv.trans (by constructor <;> rfl)
  sent _ v hv := by
    have hpv : v.client.packetState ≠ .disconnect := by rw [hv.packetState]; exact hp
    have hnone : sendComplete xio app .ok v = v := by simp only [sendComplete, if_neg hpv]
    exact hv.trans (by rw [show (socketCallbacks xio app).onSendComplete _ v = v from hnone]; exact Same.rfl)

theorem dead_same (w : Sys) : Same w { w with crashed := true } := by constructor <;> rfl

theorem callDisconnected_kept (cbs : CommCallbacks) (w : Sys) :
    ((commApp cbs).callDisconnected w).client = w.client ∧ ((commApp cbs).callDisconnected w).out = w.out := by
  unfold App.callDisconnected
  split <;> exact ⟨rfl, rfl⟩

/-- The close of a socket does not look at the transport its callbacks see. -/
theorem socketXio_closes (xio : Xio Outside) (h : XioHandle) (callback : Bool) (w : Sys) :
    Closes h callback w ((socketXio xio quietApp).close h callback w).2 := by
  simp only [socketXio, whenLive]
  split
  · obtain ⟨v, hv⟩ : ∃ v, v = if ((socketSlot h).get w).1.ioState ≠ .closed ∧ ((socketSlot h).get w).1.ioState ≠ .closing then
        update (socketSlot h) (fun io => { io with socket := false, ioState := .closed }) w else w := ⟨_, rfl⟩
    have hsame : v.client = w.client ∧ v.out.comm = w.out.comm ∧ v.out.live = w.out.live ∧ v.out.steps = w.out.steps ∧
        v.out.sent = w.out.sent := by
      rw [hv]
      split <;> exact ⟨rfl, rfl, rfl, rfl, rfl⟩
    obtain ⟨hc, hcomm, hlive, hsteps, hsent⟩ := hsame
    simp only [socketioClose, ← hv]
    cases callback with
    | false => exact ⟨Or.inl hc, hcomm, hlive, hsteps, hsent, fun _ h => nomatch h⟩
    | true =>
      have hd := callDisconnected_kept .inert { v with client := dropped v.client }
      have hdrop : (onConnectionClosed quietApp v).client = dropped w.client := by rw [← hc]; exact hd.1
      have hout : (onConnectionClosed quietApp v).out = v.out := hd.2
      simp only [if_true, socketCallbacks]
      exact ⟨Or.inr hdrop, by rw [hout, hcomm], by rw [hout, hlive], by rw [hout, hsteps],
        by rw [hout, hsent], fun _ _ => hdrop⟩
  · exact ⟨Or.inl rfl, rfl, rfl, rfl, rfl, fun hl => absurd hl ‹_›⟩

theorem socketXio_sound {xio : Xio Outside} (hx : Sound xio) : Sound (socketXio xio quietApp) where
  close := socketXio_closes xio
  send h bytes w := by
    have ht : Same w (takeSend w).2 := by constructor <;> rfl
    simp only [socketXio, whenLive]
    split
    · refine ⟨(socket_invariant hx h w).toSendInvariant.socketioSend bytes _ _ ht.keeps, fun hp => ?_⟩
      exact (send_invariant xio _ h hp).socketioSend bytes _ _ ht
    · exact ⟨(dead_same w).keeps, fun _ => dead_same w⟩
  dowork h w := by
    have ht : Same w (takeDowork w).2 := by constructor <;> rfl
    simp only [socketXio, whenLive]
    split
    · exact (socket_invariant hx h w).socketioDowork _ _ ht.keeps
    · exact (dead_same w).keeps

theorem systemXio_sound (n : Nat) : Sound (systemXio quietApp n) := by
  induction n with
  | zero => exact ⟨socketXio_closes _, fun _ _ _ => ⟨Keeps.rfl, fun _ => Same.rfl⟩, fun _ _ => Keeps.rfl⟩
  | succ n ih => exact socketXio_sound ih

/-! ## Connecting -/

/-- What an attempt does that starts from a disconnected client, just given the transport of
    the communicator: 0 leaves it connected, anything else disconnected. -/
structure Attempted (r : Nat × Sys) : Prop where
  agreed : Clean r.2.out.steps → Agreed r.2
  connected : r.1 = 0 → r.2.client.socketConnected = true
  disconnected : r.1 ≠ 0 → r.2.client.socketConnected = false

structure Opens (xio : Xio Outside) : Prop where
  clean : ∀ h w, Clean (xio.openIo h w).2.out.steps → Clean w.out.steps
  attempted : ∀ h w, Agreed w → w.client.socketConnected = false → w.client.xioHandle = some h →
    w.out.comm.xioHandle = some h → Attempted (xio.openIo h w)

/-- The open of a live socket changes nothing but the socket before it tells the client. -/
theorem socketXio_openIo (xio : Xio Outside) (app : App Outside) {h : XioHandle} {w : Sys} (hl : h ∈ w.out.live) :
    ∃ r : Nat × Sys, Same w r.2 ∧ (r.1 = 0 ∨ r.1 = failure) ∧
      (socketXio xio app).openIo h w = (r.1, onOpenComplete xio app (if r.1 = 0 then .ok else .error) r.2) := by
  simp only [socketXio, whenLive, if_pos hl, socketioOpen]
  refine ⟨_, ?_, ?_, rfl⟩
  · repeat' split
    all_goals constructor <;> rfl
  · repeat' split
    all_goals simp

section Opening

variable {xio : Xio Outside} (hx : Sound xio)

include hx

theorem onOpenComplete_ok {h : XioHandle} {w : Sys} (ha : Agreed w) (hs : w.client.socketConnected = false)
    (hh : w.client.xioHandle = some h) (hcomm : w.out.comm.xioHandle = some h) :
    Agreed (onOpenComplete xio quietApp .ok w) ∧ (onOpenComplete xio quietApp .ok w).client.socketConnected = true := by
  obtain ⟨v, hv⟩ : ∃ v : Sys, v = { w with client := { w.client with packetState := .connect, socketConnected := true } } :=
    ⟨_, rfl⟩
  have hva : Agreed v := by
    rw [hv]
    exact ⟨ha.operation, ha.errorCallBack, ha.disconnectCb, nofun, ha.notDisconnected, fun _ => rfl, fun _ => ⟨h, hh, hcomm⟩,
      ha.live, ha.connects⟩
  have hkept : ∀ u, Same v u → Agreed u ∧ u.client.socketConnected = true := by
    intro u hu
    exact ⟨hu.agreed hva, by rw [hu.socketConnected, hv]⟩
  have hsent : ∀ bytes u, Same v u → Same v (sendPacketItem xio bytes u).2 := by
    intro bytes u hu
    exact hu.trans ((sendPacketItem_keeps hx bytes u).2 (by rw [hu.packetState]; exact hva.packetState))
  simp only [onOpenComplete, hs, and_self, if_true]
  split
  · exact hkept _ (by rw [hv]; constructor <;> rfl)
  · exact hkept _ (hsent _ _ (by rw [hv]; constructor <;> rfl))

theorem onOpenComplete_error {w : Sys} (ha : Agreed w) (hs : w.client.socketConnected = false) :
    (Clean (onOpenComplete xio quietApp .error w).out.steps → Agreed (onOpenComplete xio quietApp .error w)) ∧
      (onOpenComplete xio quietApp .error w).client.socketConnected = false := by
  have hk : Keeps w (onOpenComplete xio quietApp .error w) := by
    simp only [onOpenComplete, reduceCtorEq, hs, false_and, if_false, if_true]
    exact setErrorCallback_keeps hx .connectionError w
  exact ⟨fun hc => hk.agreed hc ha, hk.closed hs⟩

theorem onOpenComplete_clean (openResult : OpenResult) (w : Sys) :
    Clean (onOpenComplete xio quietApp openResult w).out.steps → Clean w.out.steps := by
  unfold onOpenComplete
  simp only
  split
  · split
    · exact fun hc => hc
    · intro hc
      have hw := (sendPacketItem_keeps hx _ _).1.clean hc
      exact hw
  · intro hc
    have hw := closeConnection_clean hx _ hc
    split at hw
    · exact (callError_keeps .connectionError w).1.clean hw
    · exact hw

theorem socketXio_opens : Opens (socketXio xio quietApp) where
  clean h w hc := by
    simp only [socketXio, whenLive] at hc
    split at hc
    · have hw := onOpenComplete_clean hx _ _ hc
      repeat' split at hw
      all_goals exact hw
    · exact hc
  attempted h w ha hs hh hcomm := by
    obtain ⟨r, hsame, hres, hopen⟩ := socketXio_openIo xio quietApp (ha.live h hcomm)
    rw [hopen]
    have har := hsame.agreed ha
    have hsr := hsame.socketConnected.trans hs
    rcases hres with hres | hres
    · have hok := onOpenComplete_ok hx har hsr (hsame.xioHandle.trans hh) (by rw [hsame.comm]; exact hcomm)
      rw [hres]
      exact ⟨fun _ => hok.1, fun _ => hok.2, fun hne => absurd rfl hne⟩
    · have herr := onOpenComplete_error hx har hsr
      rw [hres]
      exact ⟨herr.1, fun h0 => absurd h0 (show Crt.failure ≠ 0 by decide), fun _ => herr.2⟩

end Opening

theorem systemXio_opens (n : Nat) : Opens (systemXio quietApp n) := by
  cases n with
  | zero => exact ⟨fun _ _ hc => hc, fun h w ha hs _ _ => ⟨fun _ => ha, fun h0 => absurd h0 (show Crt.failure ≠ 0 by decide), fun _ => hs⟩⟩
  | succ n => exact socketXio_opens (systemXio_sound n)

section Attempts

variable {xio : Xio Outside} (ho : Opens xio)

include ho

/-- One `mqtt_client_connect` over the communicator's transport. -/
theorem mqttClientConnect_attempted (mqttOptions : MqttClientOptions) {w : Sys} (ha : Agreed w)
    (hs : w.client.socketConnected = false) :
    Attempted (mqttClientConnect xio w.out.comm.xioHandle mqttOptions w) := by
  unfold mqttClientConnect
  cases hcomm : w.out.comm.xioHandle with
  | none => exact ⟨fun _ => ha, fun h0 => absurd h0 (show Crt.failure ≠ 0 by decide), fun _ => hs⟩
  | some h =>
    obtain ⟨cloned, v, hv⟩ : ∃ cloned v, takeOptions h mqttOptions w = (cloned, v) := ⟨_, _, rfl⟩
    have hva : Agreed v ∧ v.client.socketConnected = false ∧ v.client.xioHandle = some h ∧ v.out.comm.xioHandle = some h := by
      rw [← show (takeOptions h mqttOptions w).2 = v from congrArg Prod.snd hv]
      refine ⟨⟨ha.operation, ha.errorCallBack, ha.disconnectCb, nofun, ha.notDisconnected, ha.connected, ?_, ha.live,
        ha.connects⟩, hs, rfl, hcomm⟩
      exact fun _ => ⟨h, rfl, hcomm⟩
    obtain ⟨hva, hvs, hvh, hvc⟩ := hva
    have hatt := ho.attempted h v hva hvs hvh hvc
    simp only [hv]
    split
    · exact ⟨fun _ => hva, fun h0 => absurd h0 (show Crt.failure ≠ 0 by decide), fun _ => hvs⟩
    · split
      · rename_i hr
        refine ⟨fun hc => Same.agreed (by constructor <;> rfl) (hatt.agreed hc),
          fun h0 => absurd h0 (show Crt.failure ≠ 0 by decide), fun _ => hatt.disconnected hr⟩
      · rename_i hr
        exact ⟨hatt.agreed, fun _ => hatt.connected (not_not.mp hr), fun hne => absurd rfl hne⟩

theorem mqttClientConnect_clean (xioHandle : Option XioHandle) (mqttOptions : MqttClientOptions) (w : Sys) :
    Clean (mqttClientConnect xio xioHandle mqttOptions w).2.out.steps → Clean w.out.steps := by
  unfold mqttClientConnect
  cases xioHandle with
  | none => exact fun hc => hc
  | some h =>
    obtain ⟨cloned, v, hv⟩ : ∃ cloned v, takeOptions h mqttOptions w = (cloned, v) := ⟨_, _, rfl⟩
    have hvs : v.out.steps = w.out.steps := by
      rw [← show (takeOptions h mqttOptions w).2 = v from congrArg Prod.snd hv]; rfl
    rw [← hvs]
    simp only [hv]
    split
    · exact fun hc => hc
    · split
      · exact ho.clean h v
      · exact ho.clean h v

theorem connectLoop_clean (attempts : Nat) (w : Sys) :
    Clean (connectLoop xio attempts w).2.out.steps → Clean w.out.steps := by
  induction attempts generalizing w with
  | zero => exact fun hc => hc
  | succ attempts ih =>
    intro hc
    have hnote : Clean (note (.connect w.client.socketConnected) w).out.steps := by
      unfold connectLoop at hc
      simp only at hc
      split at hc
      · exact mqttClientConnect_clean ho _ _ _ (ih _ hc)
      · exact mqttClientConnect_clean ho _ _ _ hc
    exact hnote.of_append

/-- The retry loop makes its attempts from a disconnected client, and its last one connects. -/
theorem connectLoop_attempted (attempts : Nat) {w : Sys} (ha : Agreed w) (hs : w.client.socketConnected = false)
    (hc : Clean (connectLoop xio attempts w).2.out.steps) :
    Agreed (connectLoop xio attempts w).2 ∧
      ((connectLoop xio attempts w).1 = 0 → (connectLoop xio attempts w).2.client.socketConnected = true) := by
  induction attempts generalizing w with
  | zero => exact ⟨ha, fun h0 => absurd h0 (show Crt.failure ≠ 0 by decide)⟩
  | succ attempts ih =>
    obtain ⟨v, hv⟩ : ∃ v, v = note (.connect w.client.socketConnected) w := ⟨_, rfl⟩
    have hva : Agreed v := by
      rw [hv]
      refine ⟨ha.operation, ha.errorCallBack, ha.disconnectCb, ha.packetState, ha.notDisconnected, ha.connected, ha.handles,
        ha.live, fun hm => ?_⟩
      rcases List.mem_append.mp hm with hm | hm
      · exact ha.connects hm
      · simp [hs] at hm
    have hatt := mqttClientConnect_attempted ho v.out.comm.mqttOptions hva (by rw [hv]; exact hs)
    unfold connectLoop at hc ⊢
    simp only [← hv] at hc ⊢
    split
    · rename_i hr
      rw [if_pos hr] at hc
      exact ih (hatt.agreed (connectLoop_clean ho _ _ hc)) (hatt.disconnected hr) hc
    · rename_i hr
      rw [if_neg hr] at hc
      exact ⟨hatt.agreed hc, fun _ => hatt.connected (not_not.mp hr)⟩

end Attempts

/-! ## Calls of the communicator -/

/-- The invariant between two calls. -/
structure Ready (w : Sys) : Prop extends Agreed w where
  connecting : w.out.comm.state = .connecting → w.client.socketConnected = false

theorem Stays.ready (h : Stays w w') (hc : Clean w'.out.steps) (hr : Ready w) : Ready w' :=
  ⟨h.agreed hc hr.toAgreed, fun hs => h.closed (hr.connecting (h.connecting hs))⟩

theorem noteSent_stays (ack : Option ControlPacketType) (packetId : UInt16) (w : Sys) : Stays w (noteSent ack packetId w) := by
  cases ack with
  | none => exact Keeps.rfl.toStays
  | some ack => exact ⟨fun hc => hc, fun _ ha => ⟨ha.operation, ha.errorCallBack, ha.disconnectCb, ha.packetState,
      ha.notDisconnected, ha.connected, ha.handles, ha.live, ha.connects⟩, fun hs => hs, fun hs => hs⟩

section Calls

variable {xio : Xio Outside} (hx : Sound xio)

include hx

theorem mqttCommPublish_stays (topic : Option CString) (message : Option (List UInt8)) (qos : UInt8) (w : Sys) :
    Stays w (mqttCommPublish xio topic message qos w).2 := by
  have hms : ∀ ms crashed, Same w { w with mallocs := ms, crashed := crashed } := fun ms crashed => by constructor <;> rfl
  unfold mqttCommPublish
  split
  · exact Keeps.rfl.toStays
  · split
    · split
      · exact (hms _ w.crashed).keeps.toStays
      · exact (hms _ true).keeps.toStays
      · rename_i msg ms _
        have hp : Keeps w (mqttClientPublish xio msg { w with mallocs := ms }).2 :=
          (hms ms w.crashed).keeps.trans (sendBuilt_keeps hx _ _ (by nofun))
        simp only
        split
        · exact (hp.trans (setError_keeps _)).toStays
        · exact hp.toStays.trans (noteSent_stays _ _ _)
    · exact Keeps.rfl.toStays

theorem mqttCommSubcribe_stays (topic : CString) (qos : QosValue) (w : Sys) : Stays w (mqttCommSubcribe xio topic qos w).2 := by
  obtain ⟨v, hv⟩ : ∃ v, v = onComm (fun c => { c with packetId := c.packetId + 1 }) w := ⟨_, rfl⟩
  have hwv : Stays w v := by
    rw [hv]
    exact ⟨fun hc => hc, fun _ ha => ⟨ha.operation, ha.errorCallBack, ha.disconnectCb, ha.packetState, ha.notDisconnected,
      ha.connected, ha.handles, ha.live, ha.connects⟩, fun hs => hs, fun hs => hs⟩
  have hs := hwv.trans (mqttClientSubscribe_keeps hx w.out.comm.packetId [⟨topic, qos⟩] v).toStays
  unfold mqttCommSubcribe
  simp only [← hv]
  split
  · exact hs.trans (setError_keeps _).toStays
  · exact hs.trans (noteSent_stays (some .suback) w.out.comm.packetId _)

omit hx in
theorem xioCreate_kept (w : Sys) :
    (xioCreate w).2.client = w.client ∧ (xioCreate w).2.out.comm = w.out.comm ∧ (xioCreate w).2.out.steps = w.out.steps ∧
      ∀ h, (xioCreate w).1 = some h → h ∈ (xioCreate w).2.out.live := by
  unfold xioCreate
  simp only
  split
  · refine ⟨rfl, rfl, rfl, fun h hh => ?_⟩
    rw [← Option.some.inj hh]; exact List.mem_cons_self
  · exact ⟨rfl, rfl, rfl, fun h hh => nomatch hh⟩

omit hx in
theorem xioDestroy_kept (h : Option XioHandle) (w : Sys) :
    (xioDestroy h w).client = w.client ∧ (xioDestroy h w).out.comm = w.out.comm ∧
      (xioDestroy h w).out.steps = w.out.steps := by
  unfold xioDestroy
  split
  · exact ⟨rfl, rfl, rfl⟩
  · split <;> exact ⟨rfl, rfl, rfl⟩

/-- A transport closed without a callback and destroyed. -/
theorem discard_kept (w : Sys) :
    let v := xioDestroy (xio.xioClose w.out.comm.xioHandle false w).2.out.comm.xioHandle
      (xio.xioClose w.out.comm.xioHandle false w).2
    (v.client = w.client ∨ v.client = dropped w.client) ∧ v.out.comm = w.out.comm ∧ v.out.steps = w.out.steps := by
  intro v
  obtain ⟨hclient, hcomm, hsteps⟩ := xioDestroy_kept (xio.xioClose w.out.comm.xioHandle false w).2.out.comm.xioHandle
    (xio.xioClose w.out.comm.xioHandle false w).2
  obtain ⟨hcomm', hsteps', -⟩ := xioClose_same hx w.out.comm.xioHandle false w
  refine ⟨?_, hcomm.trans hcomm', hsteps.trans hsteps'⟩
  rw [show v.client = _ from hclient]
  cases w.out.comm.xioHandle with
  | none => exact Or.inl rfl
  | some h => exact (hx.close h false w).client

/-- The MQTT_ERROR branch gives a new transport to a client that has let go of the old one. -/
theorem errorBranch_ready (attempts : Nat) {w : Sys} (hstate : w.out.comm.state = .error)
    (hc : Clean (mqttCommProcess xio quietApp attempts w).2.out.steps) :
    Clean w.out.steps ∧ (Agreed w → Ready (mqttCommProcess xio quietApp attempts w).2) := by
  obtain ⟨u, hu⟩ : ∃ u, u = note (.errorBranch w.client.socketConnected) w := ⟨_, rfl⟩
  obtain ⟨hclient, hcomm, hsteps⟩ := discard_kept hx u
  obtain ⟨v, hv⟩ : ∃ v, v = xioDestroy (xio.xioClose u.out.comm.xioHandle false u).2.out.comm.xioHandle
    (xio.xioClose u.out.comm.xioHandle false u).2 := ⟨_, rfl⟩
  obtain ⟨hclient', hcomm', hsteps', hlive⟩ := xioCreate_kept v
  simp only [← hv] at hclient hcomm hsteps
  unfold mqttCommProcess at hc ⊢
  simp only [hstate, ← hu, ← hv] at hc ⊢
  have hcu : Clean u.out.steps := by
    rw [← hsteps, ← hsteps']; exact hc
  rw [hu] at hcu
  refine ⟨hcu.of_append, fun ha => ?_⟩
  have hs : w.client.socketConnected = false := by
    cases hw : w.client.socketConnected with
    | false => rfl
    | true => exact absurd (List.mem_append_right _ (by simp [hw])) hcu.1
  have hcl : (xioCreate v).2.client = w.client ∨ (xioCreate v).2.client = dropped w.client := by
    rw [hclient']
    rw [hu] at hclient
    exact hclient
  have hend : (xioCreate v).2.client.socketConnected = false := by
    rcases hcl with h | h <;> rw [h]
    · exact hs
    · rfl
  refine ⟨⟨?_, ?_, ?_, ?_, nofun, nofun, ?_, hlive, ?_⟩, fun _ => hend⟩
  · rcases hcl with h | h <;> exact (congrArg MqttClient.fnOperationCallback h).trans ha.operation
  · rcases hcl with h | h <;> exact (congrArg MqttClient.fnOnErrorCallBack h).trans ha.errorCallBack
  · rcases hcl with h | h <;> exact (congrArg MqttClient.disconnectCb h).trans ha.disconnectCb
  · have hp : (xioCreate v).2.client.packetState = w.client.packetState := by
      rcases hcl with h | h <;> exact (congrArg MqttClient.packetState h).trans rfl
    intro hd
    exact ha.packetState (hp.symm.trans hd)
  · exact fun ht => absurd (hend.symm.trans ht) (by decide)
  · intro hm
    have hm' : Step.connect true ∈ u.out.steps := by
      rw [← hsteps, ← hsteps']; exact hm
    rw [hu] at hm'
    rcases List.mem_append.mp hm' with hm' | hm'
    · exact ha.connects hm'
    · simp at hm'

end Calls

/-! ## Runs -/

inductive Call where
  | process (attempts : Nat)
  | publish (topic : Option CString) (message : Option (List UInt8)) (qos : UInt8)
  | subcribe (topic : CString) (qos : QosValue)

def Call.run (n : Nat) : Call → Sys → Nat × Sys
  | .process attempts, w => mqttCommProcess (systemXio quietApp n) quietApp attempts w
  | .publish topic message qos, w => (0, (mqttCommPublish (systemXio quietApp n) topic message qos w).2)
  | .subcribe topic qos, w => (0, (mqttCommSubcribe (systemXio quietApp n) topic qos w).2)

/-- One call: what it found clean it finds agreed, and it leaves the client ready for the next. -/
theorem Call.run_ready (n : Nat) (call : Call) {w : Sys} (hc : Clean (call.run n w).2.out.steps) :
    Clean w.out.steps ∧ (Ready w → Agreed (call.run n w).2 ∧ ((call.run n w).1 = 0 → Ready (call.run n w).2)) := by
  have hx := systemXio_sound n
  have hkeeps : ∀ {w'}, Stays w w' → Clean w'.out.steps →
      Clean w.out.steps ∧ (Ready w → Agreed w' ∧ Ready w') := by
    intro w' hk hc
    exact ⟨hk.clean hc, fun hr => ⟨hk.agreed hc hr.toAgreed, hk.ready hc hr⟩⟩
  cases call with
  | publish topic message qos =>
    obtain ⟨h, h'⟩ := hkeeps (mqttCommPublish_stays hx topic message qos w) hc
    exact ⟨h, fun hr => ⟨(h' hr).1, fun _ => (h' hr).2⟩⟩
  | subcribe topic qos =>
    obtain ⟨h, h'⟩ := hkeeps (mqttCommSubcribe_stays hx topic qos w) hc
    exact ⟨h, fun hr => ⟨(h' hr).1, fun _ => (h' hr).2⟩⟩
  | process attempts =>
    simp only [Call.run] at hc ⊢
    cases hstate : w.out.comm.state with
    | connected =>
      simp only [mqttCommProcess, hstate] at hc ⊢
      obtain ⟨h, h'⟩ := hkeeps (mqttClientDowork_keeps hx w).toStays hc
      exact ⟨h, fun hr => ⟨(h' hr).1, fun _ => (h' hr).2⟩⟩
    | error =>
      obtain ⟨h, h'⟩ := errorBranch_ready hx attempts hstate hc
      exact ⟨h, fun hr => ⟨(h' hr.toAgreed).toAgreed, fun _ => h' hr.toAgreed⟩⟩
    | disconnected =>
      refine ⟨?_, fun hr => absurd hstate hr.notDisconnected⟩
      simp only [mqttCommProcess, hstate] at hc
      rw [← (discard_kept hx w).2.2]
      exact hc
    | connecting =>
      have ho := systemXio_opens n
      obtain ⟨r, hr⟩ : ∃ r, r = connectLoop (systemXio quietApp n) attempts w := ⟨_, rfl⟩
      simp only [mqttCommProcess, hstate, ← hr] at hc ⊢
      have hcr : Clean r.2.out.steps := by
        split at hc
        · exact hc
        · simp only at hc
          split at hc
          · exact hc
          · exact hc
      rw [hr] at hcr
      refine ⟨connectLoop_clean ho attempts w hcr, fun hready => ?_⟩
      obtain ⟨hagreed, hconn⟩ := connectLoop_attempted ho attempts hready.toAgreed (hready.connecting hstate) hcr
      rw [← hr] at hagreed hconn
      split
      · exact ⟨hagreed, fun h0 => absurd h0 ‹_›⟩
      · have hs := hconn (not_not.mp ‹_›)
        simp only
        split
        · have hset : Agreed (setState .connected r.2) :=
            ⟨hagreed.operation, hagreed.errorCallBack, hagreed.disconnectCb, hagreed.packetState, nofun, fun _ => hs,
              hagreed.handles, hagreed.live, hagreed.connects⟩
          exact ⟨hset, fun _ => ⟨hset, nofun⟩⟩
        · exact ⟨hagreed, fun _ => ⟨hagreed, fun hst => absurd hst ‹_›⟩⟩

theorem run_ready (n : Nat) (calls : List Call) {w : Sys} (hc : Clean (runUntil (Call.run n) calls w).2.out.steps) :
    Clean w.out.steps ∧ (Ready w → Agreed (runUntil (Call.run n) calls w).2) := by
  induction calls generalizing w with
  | nil => exact ⟨hc, fun hr => hr.toAgreed⟩
  | cons call calls ih =>
    rw [runUntil_cons] at hc ⊢
    split
    · rename_i h0
      rw [if_pos h0] at hc
      obtain ⟨hcall, hrest⟩ := ih hc
      obtain ⟨h, h'⟩ := Call.run_ready n call hcall
      exact ⟨h, fun hr => hrest ((h' hr).2 h0)⟩
    · rename_i h0
      rw [if_neg h0] at hc
      obtain ⟨h, h'⟩ := Call.run_ready n call hc
      exact ⟨h, fun hr => (h' hr).1⟩

theorem mqttClientInit_client {msgRecv opCallback onErrorCallBack : Bool} {ms ms' : Mallocs} {client : MqttClient}
    (h : mqttClientInit msgRecv opCallback onErrorCallBack ms = (some client, ms')) :
    client = MqttClient.init msgRecv opCallback onErrorCallBack := by
  unfold mqttClientInit at h
  repeat' split at h
  all_goals simp only [Prod.mk.injEq, Option.some.injEq, reduceCtorEq, false_and] at h
  exact h.1.symm

/-- A communicator that has just been told to connect. -/
theorem started_ready {host : Option CString} {port : Nat} {clientId userName password : Option CString} {a : Answers}
    {w : Sys} (h : mqttCommCreate host port clientId userName password a = some w) : Ready (mqttCommStartConnection w) := by
  unfold mqttCommCreate at h
  cases host with
  | none => cases h
  | some host =>
    simp only at h
    split at h
    · cases h
    · split at h
      · cases h
      · split at h
        · cases h
        · rename_i client ms hinit
          have hcl := mqttClientInit_client hinit
          simp only [Option.some.injEq] at h
          obtain ⟨u, hu⟩ : ∃ u : Sys, u = ⟨client, ms, a.ticks, false, [], ⟨.init host clientId userName password,
            fun _ => .create Unit, [], 0, false, a.opens, a.sends, a.doworks, [], []⟩⟩ := ⟨_, rfl⟩
          obtain ⟨hclient, hcomm, hsteps, hlive⟩ := xioCreate_kept u
          rw [← hu] at h
          have hv : w.client = MqttClient.init true true true ∧ w.out.steps = [] ∧
              ∀ h, w.out.comm.xioHandle = some h → h ∈ w.out.live := by
            rw [← h]
            have hu' : u.client = client ∧ u.out.steps = [] := by rw [hu]; exact ⟨rfl, rfl⟩
            refine ⟨?_, ?_, ?_⟩
            all_goals split
            · exact (hclient.trans hu'.1).trans hcl
            · exact (hclient.trans hu'.1).trans hcl
            · exact hsteps.trans hu'.2
            · exact hsteps.trans hu'.2
            · exact hlive
            · exact hlive
          obtain ⟨hc, hst, hl⟩ := hv
          have hs : (mqttCommStartConnection w).client = MqttClient.init true true true := hc
          refine ⟨⟨?_, ?_, ?_, ?_, nofun, nofun, ?_, hl, ?_⟩, fun _ => ?_⟩
          · rw [hs]; rfl
          · rw [hs]; rfl
          · rw [hs]; rfl
          · rw [hs]; exact nofun
          · rw [hs]; exact nofun
          · rw [show (mqttCommStartConnection w).out.steps = [] from hst]; exact List.not_mem_nil
          · rw [hs]; rfl

/-- In a clean run from a new communicator, after every call that returns a connected
    communicator's client is connected over its transport, and every attempt to connect
    found the client disconnected. -/
theorem agreed_run {host : Option CString} {port : Nat} {clientId userName password : Option CString} {a : Answers}
    {w : Sys} (h : mqttCommCreate host port clientId userName password a = some w) (n : Nat) (calls : List Call)
    (hc : Clean (runUntil (Call.run n) calls (mqttCommStartConnection w)).2.out.steps) :
    let v := (runUntil (Call.run n) calls (mqttCommStartConnection w)).2
    (v.out.comm.state = .connected →
        v.client.socketConnected = true ∧ ∃ h, v.client.xioHandle = some h ∧ v.out.comm.xioHandle = some h) ∧
      Step.connect true ∉ v.out.steps := by
  intro v
  have ha := (run_ready n calls hc).2 (started_ready h)
  exact ⟨fun hs => ⟨ha.connected hs, ha.handles (ha.connected hs)⟩, ha.connects⟩

def localhost : CString := ⟨[108, 111, 99, 97, 108], by decide⟩

def device : CString := ⟨[100, 101, 118], by decide⟩

/-- A new communicator whose sockets will connect as `opens` says; nothing else fails. -/
def createdWith (opens : List Bool) : Option Sys :=
  mqttCommCreate (some localhost) 1883 (some device) none none ⟨[], [], opens, [], []⟩

/-- Connected at the first attempt, and called once more. -/
theorem agreed_first_attempt :
    ∃ w, createdWith [true] = some w ∧
      (runUntil (Call.run 3) [.process 1, .process 1] (mqttCommStartConnection w)).2.out.comm.state = .connected ∧
      let v := (runUntil (Call.run 3) [.process 1, .process 1] (mqttCommStartConnection w)).2
      (v.out.comm.state = .connected →
          v.client.socketConnected = true ∧ ∃ h, v.client.xioHandle = some h ∧ v.out.comm.xioHandle = some h) ∧
        Step.connect true ∉ v.out.steps := by
  have hrun : (createdWith [true]).map (fun w =>
      let v := (runUntil (Call.run 3) [.process 1, .process 1] (mqttCommStartConnection w)).2
      (v.out.comm.state, v.out.steps)) = some (.connected, [.connect false]) := by decide +kernel
  obtain ⟨w, hw, hv⟩ := Option.map_eq_some_iff.mp hrun
  simp only [Prod.mk.injEq] at hv
  exact ⟨w, hw, hv.1, agreed_run hw 3 _ (by rw [hv.2]; exact ⟨by decide, by decide⟩)⟩

/-- An attempt fails, the next one succeeds, but the communicator is left in MQTT_ERROR: it
    replaces the transport under the connected client, whose next open then closes. -/
theorem failed_attempt_disagrees :
    ∃ w v, createdWith [false, true, true] = some w ∧
      runUntil (Call.run 3) [.process 2, .process 1, .process 1] (mqttCommStartConnection w) = (0, v) ∧
      v.out.comm.state = .connected ∧ v.client.xioHandle = none ∧ v.client.socketConnected = false ∧
      Step.connect true ∈ v.out.steps := by
  have hrun : (createdWith [false, true, true]).map (fun w =>
      let r := runUntil (Call.run 3) [.process 2, .process 1, .process 1] (mqttCommStartConnection w)
      ((r.1, r.2.out.comm.state, r.2.client.xioHandle), r.2.client.socketConnected, r.2.out.steps)) =
      some ((0, .connected, none), false, [.connect false, .connect false, .errorBranch true, .connect true]) := by
    decide +kernel
  obtain ⟨w, hw, hv⟩ := Option.map_eq_some_iff.mp hrun
  simp only [Prod.mk.injEq] at hv
  obtain ⟨⟨h0, hstate, hhandle⟩, hconn, hsteps⟩ := hv
  exact ⟨w, _, hw, Prod.ext h0 rfl, hstate, hhandle, hconn, by rw [hsteps]; decide⟩

end UMqtt.Comm

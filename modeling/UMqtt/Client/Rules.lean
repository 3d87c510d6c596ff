/-
  UMqtt.Client.Rules — what a whole call of the client keeps, from what its parts keep.

  A relation `R` between the world before and after that composes (`Rules`) and holds across
  the client's callbacks, its sends and its closes holds across every handler and every call
  that is made of them. Two packets are left to the one who uses a rule, a CONNACK and a
  PINGRESP, and the two places where a connection starts.
-/

import UMqtt.Client.Api
import UMqtt.Codec.TypeByte

namespace UMqtt.Client

open UMqtt.Lib UMqtt.Crt UMqtt.Codec UMqtt.Io

/-- Nothing is different but the codec, the packet state, the options, the disconnect callback
    and what the allocator has been asked. -/
structure Idle {σ : Type} (w w' : World σ) : Prop where
  xioHandle : w'.client.xioHandle = w.client.xioHandle
  packetSendTimeMs : w'.client.packetSendTimeMs = w.client.packetSendTimeMs
  fnOperationCallback : w'.client.fnOperationCallback = w.client.fnOperationCallback
  fnMessageRecv : w'.client.fnMessageRecv = w.client.fnMessageRecv
  fnOnErrorCallBack : w'.client.fnOnErrorCallBack = w.client.fnOnErrorCallBack
  keepAliveInterval : w'.client.keepAliveInterval = w.client.keepAliveInterval
  clientConnected : w'.client.clientConnected = w.client.clientConnected
  socketConnected : w'.client.socketConnected = w.client.socketConnected
  timeSincePing : w'.client.timeSincePing = w.client.timeSincePing
  maxPingRespTime : w'.client.maxPingRespTime = w.client.maxPingRespTime
  ticks : w'.ticks = w.ticks
  trace : w'.trace = w.trace
  out : w'.out = w.out

/-- The client notes the time of a send, and makes it. -/
def stamp {σ : Type} (ms : UInt32) (data : List UInt8) (w : World σ) : World σ :=
  { w with client := { w.client with packetSendTimeMs := ms } }.log (.send w.client.xioHandle data)

theorem sendPacketItem_stamp {σ : Type} {xio : Xio σ} {data : List UInt8} {w v : World σ} {ms : UInt32}
    (h : w.currentMs = (some ms, v)) :
    (sendPacketItem xio data w).2 = (xio.xioSend v.client.xioHandle data (stamp ms data v)).2 := by
  simp only [sendPacketItem, h]
  rfl

/-- The transport, as a close needs it. -/
structure CloseRules {σ : Type} (xio : Xio σ) (R : World σ → World σ → Prop) : Prop where
  refl : ∀ w, R w w
  trans : ∀ {u v w}, R u v → R v w → R u w
  close : ∀ h callback w, R w (xio.close h callback w).2
  dowork : ∀ h w, R w (xio.dowork h w)

/-- The transport, but for an open. -/
structure XioRules {σ : Type} (xio : Xio σ) (R : World σ → World σ → Prop) : Prop extends CloseRules xio R where
  send : ∀ h bytes w, R w (xio.send h bytes w).2

namespace CloseRules

variable {σ : Type} {xio : Xio σ} {app : App σ} {R : World σ → World σ → Prop} (h : CloseRules xio R)

include h

theorem xioClose (handle : Option XioHandle) (callback : Bool) (w : World σ) : R w (xio.xioClose handle callback w).2 := by
  cases handle with
  | none => exact h.refl w
  | some handle => exact h.close handle callback w

theorem xioDowork (handle : Option XioHandle) (w : World σ) : R w (xio.xioDowork handle w) := by
  cases handle with
  | none => exact h.refl w
  | some handle => exact h.dowork handle w

theorem closeLoop (retries : Nat) (w : World σ) : R w (Client.closeLoop xio retries w) := by
  induction retries generalizing w with
  | zero => exact h.refl w
  | succ retries ih =>
    unfold Client.closeLoop
    simp only
    split
    · exact h.trans (h.xioDowork _ w) (ih _)
    · exact h.xioDowork _ w

/-- `disconnected`: the connection was closed already. -/
theorem closeConnection_of {w : World σ} (disconnected : w.client.socketConnected = false → R w (app.callDisconnected w))
    (released : ∀ w, R w { w with client := { w.client with xioHandle := none } }) : R w (Client.closeConnection xio app w) := by
  unfold Client.closeConnection
  split
  · simp only
    split
    · exact h.trans (h.trans (h.xioClose _ true w) (h.closeLoop _ _)) (released _)
    · exact h.trans (h.xioClose _ true w) (released _)
  · rename_i hs
    exact disconnected (Bool.eq_false_iff.mpr hs)

theorem closeConnection (disconnected : ∀ w, w.client.socketConnected = false → R w (app.callDisconnected w))
    (released : ∀ w, R w { w with client := { w.client with xioHandle := none } }) (w : World σ) :
    R w (Client.closeConnection xio app w) := h.closeConnection_of (disconnected w) released

theorem sendPacketItem (ticks : ∀ w, R w w.currentMs.2) (stamped : ∀ ms data w, R w (stamp ms data w)) {data : List UInt8}
    (send : ∀ handle w, R w (xio.send handle data w).2) (w : World σ) : R w (Client.sendPacketItem xio data w).2 := by
  have hms := ticks w
  rcases hc : w.currentMs with ⟨ms, v⟩
  rw [hc] at hms
  cases ms with
  | none => simpa only [Client.sendPacketItem, hc] using hms
  | some ms =>
    rw [sendPacketItem_stamp hc]
    refine h.trans (h.trans hms (stamped ms data v)) ?_
    cases hx : v.client.xioHandle with
    | none => exact h.refl _
    | some handle => exact send handle _

end CloseRules

namespace XioRules

variable {σ : Type} {xio : Xio σ} {R : World σ → World σ → Prop} (h : XioRules xio R)

include h

theorem xioSend (handle : Option XioHandle) (bytes : List UInt8) (w : World σ) : R w (xio.xioSend handle bytes w).2 := by
  cases handle with
  | none => exact h.refl w
  | some handle => exact h.send handle bytes w

theorem sendPacketItem (ticks : ∀ w, R w w.currentMs.2) (stamped : ∀ ms data w, R w (stamp ms data w)) (data : List UInt8)
    (w : World σ) : R w (Client.sendPacketItem xio data w).2 :=
  h.toCloseRules.sendPacketItem ticks stamped (fun handle => h.send handle data) w

end XioRules

/-- Every operation but a CONNACK and a PINGRESP. -/
def Operation.Ordinary : Operation → Prop
  | .connack _ _ => False
  | .pingResponse => False
  | _ => True

/-- What `R` has to hold across in the handlers of packets and in the calls that send. A CONNECT is
    sent where a connection is taken, and nowhere else. -/
structure HandlerRules {σ : Type} (xio : Xio σ) (app : App σ) (R : World σ → World σ → Prop) : Prop where
  refl : ∀ w, R w w
  trans : ∀ {u v w}, R u v → R v w → R u w
  still : ∀ {w w'}, Idle w w' → w'.client.mqttOptions = w.client.mqttOptions →
    w'.client.disconnectCb = w.client.disconnectCb → R w w'
  send : ∀ {data} w, ¬ IsConnect data → R w (sendPacketItem xio data w).2
  operation : ∀ {o} w, o.Ordinary → R w (app.callOperation o w)
  message : ∀ m w, R w (app.callMessage m w)
  setErrorCallback : ∀ {e}, e ≠ .noPingResponse → ∀ w, R w (Client.setErrorCallback xio app e w)

/-- Of an `R` that holds across both parts of an error report, wherever they stand. -/
structure StepRules {σ : Type} (xio : Xio σ) (app : App σ) (R : World σ → World σ → Prop) : Prop
    extends HandlerRules xio app R where
  error : ∀ {e} w, e ≠ .noPingResponse → R w (app.callError e w)
  close : ∀ w, R w (closeConnection xio app w)
  setErrorCallback := fun he w => trans (error w he) (close _)

/-- The same of an `R` that minds neither the options nor the disconnect callback, nor what is sent. -/
structure Rules {σ : Type} (xio : Xio σ) (app : App σ) (R : World σ → World σ → Prop) : Prop where
  refl : ∀ w, R w w
  trans : ∀ {u v w}, R u v → R v w → R u w
  idle : ∀ {w w'}, Idle w w' → R w w'
  send : ∀ data w, R w (sendPacketItem xio data w).2
  operation : ∀ {o} w, o.Ordinary → R w (app.callOperation o w)
  message : ∀ m w, R w (app.callMessage m w)
  error : ∀ {e} w, e ≠ .noPingResponse → R w (app.callError e w)
  close : ∀ w, R w (closeConnection xio app w)

namespace HandlerRules

variable {σ : Type} {xio : Xio σ} {app : App σ} {R : World σ → World σ → Prop} (h : HandlerRules xio app R)

include h

theorem onIoError (w : World σ) : R w (Client.onIoError xio app w) := by
  unfold Client.onIoError
  split
  · exact h.setErrorCallback (by decide) w
  · exact h.refl w

/-! ## Packets -/

theorem sendReply {reply : UInt16 → Mallocs → Option Buffer × Mallocs} (packetId : UInt16) (w : World σ)
    (hr : ∀ {ms packet ms'}, reply packetId ms = (some packet, ms') → ¬ IsConnect packet.bytes) :
    R w (Client.sendReply xio app reply packetId w) := by
  unfold Client.sendReply
  split
  · exact h.trans (h.still (by constructor <;> rfl) (by rfl) (by rfl)) (h.setErrorCallback (e := .memoryError) (by decide) _)
  · rename_i hb
    exact h.trans (h.still (by constructor <;> rfl) (by rfl) (by rfl)) (h.send _ (hr hb))

omit h in
theorem decodePublish_ne_noPingResponse (flags : UInt8) (r : Reader) (len : Nat) (ms : Mallocs) :
    (decodePublish flags r len ms).verdict ≠ .error .noPingResponse := by
  unfold decodePublish
  simp only
  repeat' split
  all_goals simp

omit h in
theorem decodeSuback_ne_noPingResponse (r : Reader) (len : Nat) (ms : Mallocs) :
    (decodeSuback r len ms).verdict ≠ .error .noPingResponse := by
  unfold decodeSuback
  simp only
  split <;> simp

omit h in
/-- The handler reports no error but those of a packet. -/
theorem decode_ne_noPingResponse (client : MqttClient) (p : Packet) (ms : Mallocs) :
    (decode client p ms).verdict ≠ .error .noPingResponse := by
  have hpublish := decodePublish_ne_noPingResponse p.flags
  have hsuback := decodeSuback_ne_noPingResponse
  unfold decode
  simp only
  split
  · simp
  · split
    · simp
    · cases p.packet <;> simp only <;>
        first
        | (split <;> simp [hpublish, hsuback, decodeConnack, decodePublishAck, decodeUnsuback])
        | simp

omit h in
theorem publishAction_ordinary (packet : ControlPacketType) (packetId : UInt16) : (publishAction packet packetId).Ordinary := by
  unfold publishAction
  split <;> trivial

theorem act {verdict : Verdict} {w : World σ} (noPing : verdict ≠ .error .noPingResponse)
    (connack : ∀ session code, verdict = .connack session code → R w (Client.act xio app (.connack session code) w))
    (pingresp : verdict = .pingresp → R w (Client.act xio app .pingresp w)) : R w (Client.act xio app verdict w) := by
  cases verdict with
  | ignored => exact h.refl w
  | nullWrite => exact h.still (by constructor <;> rfl) (by rfl) (by rfl)
  | error e => exact h.setErrorCallback (by rintro rfl; exact noPing rfl) w
  | connack session code => exact connack session code rfl
  | pingresp => exact pingresp rfl
  | subscribeAck packetId codes => exact h.operation w trivial
  | unsubscribeAck packetId => exact h.operation w trivial
  | publish m =>
    have hm := h.message m w
    simp only [Client.act]
    cases m.qosInfo with
    | deliverExactlyOnce => exact h.trans hm (h.sendReply _ _ (constructPublishReply_not_connect (by decide)))
    | deliverAtLeastOnce => exact h.trans hm (h.sendReply _ _ (constructPublishReply_not_connect (by decide)))
    | _ => exact hm
  | publishAck packet packetId =>
    have ho := h.operation w (publishAction_ordinary packet packetId)
    simp only [Client.act]
    cases packet with
    | pubrec => exact h.trans ho (h.sendReply _ _ (constructPublishReply_not_connect (by decide)))
    | pubrel => exact h.trans ho (h.sendReply _ _ (constructPublishReply_not_connect (by decide)))
    | _ => exact ho

/-- `accepted`, `answered`: what a CONNACK and a PINGRESP change. -/
theorem recvComplete (logged : ∀ e w, R w (w.log e)) (mallocs : ∀ ms w, R w { w with mallocs := ms })
    (operation : ∀ o w, R w (app.callOperation o w))
    (accepted : ∀ w, R w { w with client := { w.client with clientConnected := true } })
    (answered : ∀ w, R w { w with client := { w.client with timeSincePing := 0 } }) (p : Packet) (w : World σ) :
    R w (recvCompleteCallback xio app p w) := by
  refine h.trans (h.trans (logged (.packet p) w) (mallocs _ _)) (h.act (decode_ne_noPingResponse _ _ _) ?_ ?_)
  · intro session code _
    simp only [Client.act]
    split
    · exact h.trans (operation _ _) (accepted _)
    · exact operation _ _
  · intro _
    simp only [Client.act]
    split
    · exact h.trans (answered _) (operation _ _)
    · exact answered _

theorem onBytesReceived (packet : ∀ p w, R w (recvCompleteCallback xio app p w)) (buffer : List UInt8) (w : World σ) :
    R w (Client.onBytesReceived xio app buffer w) := by
  have hbytes : R w (bytesReceived World.codecSlot (recvCompleteCallback xio app) buffer w).2 := by
    apply bytesReceived_keeps (I := R w) _ _ buffer (h.refl w)
    · exact fun x v hv => h.trans hv (h.still (by constructor <;> rfl) (by rfl) (by rfl))
    · exact fun p v hv => h.trans hv (packet p v)
  unfold Client.onBytesReceived
  simp only
  split
  · exact h.trans hbytes (h.setErrorCallback (by decide) _)
  · exact hbytes

/-! ## Calls -/

theorem sendBuilt (type : ControlPacketType) {packet : Option Buffer × Mallocs} (w : World σ)
    (hp : ∀ {p ms}, packet = (some p, ms) → ¬ IsConnect p.bytes) : R w (Client.sendBuilt xio type packet w).2 := by
  rcases packet with ⟨packet, ms⟩
  cases packet with
  | none => exact h.still (by constructor <;> rfl) (by rfl) (by rfl)
  | some packet => exact h.trans (h.still (by constructor <;> rfl) (by rfl) (by rfl)) (h.send _ (hp rfl))

theorem mqttClientPublish (msgHandle : Message) (w : World σ) : R w (Client.mqttClientPublish xio msgHandle w).2 :=
  h.sendBuilt _ w mqttCodecPublish_not_connect

theorem mqttClientSubscribe (packetId : UInt16) (subscribeList : List SubscribePayload) (w : World σ) :
    R w (Client.mqttClientSubscribe xio packetId subscribeList w).2 := by
  unfold Client.mqttClientSubscribe
  split
  · exact h.refl w
  · exact h.sendBuilt _ w mqttCodecSubscribe_not_connect

theorem mqttClientUnsubscribe (packetId : UInt16) (unsubscribeList : List CString) (w : World σ) :
    R w (Client.mqttClientUnsubscribe xio packetId unsubscribeList w).2 := by
  unfold Client.mqttClientUnsubscribe
  split
  · exact h.refl w
  · exact h.sendBuilt _ w mqttCodecUnsubscribe_not_connect

/-- `refused`: no DISCONNECT is built. `registered`: the callback is stored, and then a DISCONNECT is
    sent. `closed`: it is stored, and the connection is closed. `cleared`, `released`: the client
    lets go of its options, and behind a DISCONNECT of its transport. -/
theorem mqttClientDisconnect_from (callback : Option Nat) (u w : World σ)
    (refused : ∀ v, w.client.clientConnected = true → (mqttCodecDisconnect w.mallocs).1 = none → Idle w v →
      v.client.mqttOptions = w.client.mqttOptions → v.client.disconnectCb = w.client.disconnectCb → R u v)
    (registered : ∀ v, w.client.clientConnected = true → (mqttCodecDisconnect w.mallocs).1.isSome →
      v.client.disconnectCb = callback → Idle w v → v.client.mqttOptions = w.client.mqttOptions → R u v)
    (closed : ∀ v, w.client.clientConnected = false → v.client.disconnectCb = callback → Idle w v →
      v.client.mqttOptions = w.client.mqttOptions → R u (closeConnection xio app v))
    (cleared : ∀ v, R v { v with client := { v.client with mqttOptions := clearMqttOptions v.client.mqttOptions } })
    (released : ∀ v, w.client.clientConnected = true → R u v → R u { v with client := { v.client with xioHandle := none } }) :
    R u (Client.mqttClientDisconnect xio app callback w).2 := by
  unfold Client.mqttClientDisconnect
  simp only
  split
  · rename_i hc
    split
    · rename_i ms hd
      have hbuilt := refused { w with mallocs := ms, client := { w.client with packetState := .packetTypeError } } hc
        (by rw [hd]) (by constructor <;> rfl) rfl rfl
      exact h.trans (released _ hc hbuilt) (cleared _)
    · rename_i packet ms hd
      have hstored := registered
        { w with mallocs := ms, client := { w.client with disconnectCb := callback, packetState := .disconnect } }
        hc (by rw [hd]; rfl) rfl (by constructor <;> rfl) rfl
      have hsend := h.trans hstored (h.send _ (constructHeaderOnly_not_connect (by decide) hd))
      exact h.trans (released _ hc hsend) (cleared _)
  · rename_i hc
    exact h.trans (closed { w with client := { w.client with disconnectCb := callback } } (Bool.eq_false_iff.mpr hc) rfl
      (by constructor <;> rfl) rfl) (cleared _)

theorem keepAlive (ticks : ∀ w, R w w.currentMs.2) (report : ∀ w, R w (Client.setErrorCallback xio app .noPingResponse w))
    (cleared : ∀ w, R w { w with client :=
      { w.client with timeSincePing := 0, packetSendTimeMs := 0, packetState := .unknown } })
    (pinged : ∀ now w, R w { w with client := { w.client with timeSincePing := now } }) (w : World σ) :
    R w (Client.keepAlive xio app w) := by
  have hms := ticks w
  unfold Client.keepAlive
  rcases hc : w.currentMs with ⟨ms, v⟩
  rw [hc] at hms
  cases ms with
  | none => exact hms
  | some ms =>
    simp only
    split
    · exact h.trans (h.trans hms (report v)) (cleared _)
    · split
      · split
        · exact h.trans hms (h.still (by constructor <;> rfl) (by rfl) (by rfl))
        · rename_i packet ms' hb
          have hsend := h.trans (h.trans hms (h.still (by constructor <;> rfl) (by rfl) (by rfl)))
            (h.send { v with mallocs := ms' } (constructHeaderOnly_not_connect (by decide) hb))
          have hnow := ticks (sendPacketItem xio packet.bytes { v with mallocs := ms' }).2
          split
          · rename_i hu
            rw [hu] at hnow; exact h.trans hsend hnow
          · rename_i now u hu
            rw [hu] at hnow
            exact h.trans (h.trans hsend hnow) (pinged now u)
      · exact hms

theorem mqttClientDowork (w : World σ) (dowork : ∀ handle, R w (xio.dowork handle w))
    (keepAlive : ∀ v, R v (Client.keepAlive xio app v)) : R w (Client.mqttClientDowork xio app w) := by
  unfold Client.mqttClientDowork
  split
  · exact h.refl w
  · rename_i handle _
    simp only
    split
    · exact h.trans (dowork handle) (keepAlive _)
    · exact dowork handle

end HandlerRules

namespace StepRules

variable {σ : Type} {xio : Xio σ} {app : App σ} {R : World σ → World σ → Prop} (h : StepRules xio app R)

include h

theorem sendComplete (sendResult : SendResult) (w : World σ) : R w (Client.sendComplete xio app sendResult w) := by
  cases sendResult with
  | ok =>
    unfold Client.sendComplete
    simp only
    split
    · split
      · exact h.trans (h.operation (o := .disconnect) w trivial) (h.close _)
      · exact h.close w
    · exact h.refl w
  | error => exact h.setErrorCallback (by decide) w
  | cancelled => exact h.refl w

/-- `opened`: the client takes the connection. -/
theorem onOpenComplete (openResult : OpenResult) (w : World σ)
    (opened : openResult = .ok → w.client.socketConnected = false → R w (Client.onOpenComplete xio app openResult w)) :
    R w (Client.onOpenComplete xio app openResult w) := by
  by_cases ho : openResult = .ok ∧ w.client.socketConnected = false
  · exact opened ho.1 ho.2
  · unfold Client.onOpenComplete
    simp only [if_neg ho]
    split
    · exact h.trans (h.error w (by decide)) (h.close _)
    · exact h.close w

theorem mqttClientDisconnect (callback : Option Nat) (w : World σ)
    (registered : ∀ v, v.client.disconnectCb = callback → Idle w v → v.client.mqttOptions = w.client.mqttOptions →
      R w v)
    (cleared : ∀ v, R v { v with client := { v.client with mqttOptions := clearMqttOptions v.client.mqttOptions } })
    (released : ∀ v, w.client.clientConnected = true → R w v → R w { v with client := { v.client with xioHandle := none } }) :
    R w (Client.mqttClientDisconnect xio app callback w).2 :=
  h.mqttClientDisconnect_from callback w w (fun _ _ _ => h.still) (fun v _ _ => registered v)
    (fun v _ hcb hi ho => h.trans (registered v hcb hi ho) (h.close v)) cleared released

theorem keepAlive (ticks : ∀ w, R w w.currentMs.2) (report : ∀ w, R w (app.callError .noPingResponse w))
    (cleared : ∀ w, R w { w with client :=
      { w.client with timeSincePing := 0, packetSendTimeMs := 0, packetState := .unknown } })
    (pinged : ∀ now w, R w { w with client := { w.client with timeSincePing := now } }) (w : World σ) :
    R w (Client.keepAlive xio app w) :=
  h.toHandlerRules.keepAlive ticks (fun w => h.trans (report w) (h.close _)) cleared pinged w

end StepRules

namespace Rules

variable {σ : Type} {xio : Xio σ} {app : App σ} {R : World σ → World σ → Prop} (h : Rules xio app R)

include h

theorem steps : StepRules xio app R where
  refl := h.refl
  trans := h.trans
  still hi _ _ := h.idle hi
  send w _ := h.send _ w
  operation := h.operation
  message := h.message
  error := h.error
  close := h.close

/-- `opened`: the client takes the connection. -/
theorem onOpenComplete (openResult : OpenResult) (w : World σ)
    (opened : openResult = .ok → w.client.socketConnected = false →
      R w { w with client := { w.client with packetState := .connect, socketConnected := true } }) :
    R w (Client.onOpenComplete xio app openResult w) := by
  refine h.steps.onOpenComplete openResult w fun ho hs => ?_
  have hopen := opened ho hs
  unfold Client.onOpenComplete
  simp only [if_pos (And.intro ho hs)]
  split
  · exact h.trans hopen (h.idle (by constructor <;> rfl))
  · exact h.trans (h.trans hopen (h.idle (by constructor <;> rfl))) (h.send _ _)

/-- `released`: the client lets go of its transport behind a DISCONNECT. -/
theorem mqttClientDisconnect (callback : Option Nat) (w : World σ)
    (released : ∀ v, w.client.clientConnected = true → R w v → R w { v with client := { v.client with xioHandle := none } }) :
    R w (Client.mqttClientDisconnect xio app callback w).2 :=
  h.steps.mqttClientDisconnect callback w (fun _ _ hi _ => h.idle hi) (fun _ => h.idle (by constructor <;> rfl)) released

end Rules

end UMqtt.Client

/-
  UMqtt.Client.Surroundings — a client among a transport and an application that do anything.

  The transport answers each call of the client with a `Reaction`: the callbacks that it makes
  before it returns, and what it returns. The application answers each callback with calls of
  its own. Both may be followed, in the middle of such an answer, by more of the same:
  `perform n` lets this nest `n` deep, and a call beyond that is not made. Where the answers
  run out, the transport succeeds without a callback and the application does nothing.

  `notes` is a ghost: each call into the client, each call out of it and each return to it,
  with the `Moment` it happened at. `connections` counts the opens that the client has taken,
  `closing` says that the transport was asked to close since it was last asked to open.

  A relation that composes and holds across the answers (`ScriptRules`) holds across each call
  out of the client.
-/

import UMqtt.Client.Rules

namespace UMqtt.Client

open UMqtt.Lib UMqtt.Crt UMqtt.Codec UMqtt.Io

/-! ## Calls -/

inductive TransportCall where
  | openComplete (r : OpenResult)
  | bytesReceived (buffer : List UInt8)
  | ioError
  | sendComplete (r : SendResult)
  | closeComplete
  deriving DecidableEq, Repr

inductive ApiCall where
  | connect (xioHandle : XioHandle) (mqttOptions : MqttClientOptions)
  | publish (msgHandle : Message)
  | subscribe (packetId : UInt16) (subscribeList : List SubscribePayload)
  | unsubscribe (packetId : UInt16) (unsubscribeList : List CString)
  | disconnect (callback : Option Nat)
  | dowork
  deriving DecidableEq, Repr

/-- A call into the client. -/
inductive Entry where
  | transport (c : TransportCall)
  | api (c : ApiCall)
  deriving DecidableEq, Repr

/-- A call out of the client. -/
inductive Exit where
  | openIo (h : XioHandle)
  | close (h : XioHandle) (callback : Bool)
  | send (h : XioHandle) (bytes : List UInt8)
  | dowork (h : XioHandle)
  | operation (o : Operation)
  | message (m : Message)
  | error (e : EventError)
  | disconnected (callback : Nat)
  deriving DecidableEq, Repr

structure Reaction where
  calls : List TransportCall
  result : Nat
  deriving DecidableEq, Repr

/-! ## Moments -/

structure Moment where
  client : MqttClient
  mallocs : Mallocs
  ticks : List (Option UInt32)
  /-- PINGRESP packets delivered so far. -/
  pingresps : Nat
  connections : Nat
  closing : Bool
  /-- `mqtt_client_dowork` has just been called, and is about to let the transport work. -/
  polling : Bool

inductive Note where
  | called (c : Entry) (m : Moment)
  | asked (x : Exit) (m : Moment)
  | answered (x : Exit) (result : Nat) (before after : Moment)

structure Surroundings where
  transport : List Reaction
  application : List (List ApiCall)
  connections : Nat
  closing : Bool
  notes : List Note

abbrev Scripted := World Surroundings

def pingreqPacket : List UInt8 := [ControlPacketType.pingreq.value, 0]

def disconnectPacket : List UInt8 := [ControlPacketType.disconnect.value, 0]

def isPingresp : Event → Bool
  | .packet p => p.packet = .pingresp
  | _ => false

def Note.moment : Note → Moment
  | .called _ m => m
  | .asked _ m => m
  | .answered _ _ _ after => after

def Note.polls : Note → Bool
  | .called (.api .dowork) m => m.client.xioHandle.isSome
  | _ => false

def moment (w : Scripted) : Moment :=
  ⟨w.client, w.mallocs, w.ticks, w.trace.countP isPingresp, w.out.connections, w.out.closing,
    (w.out.notes.getLast?.map Note.polls).getD false⟩

def writeNote (n : Note) (w : Scripted) : Scripted := { w with out := { w.out with notes := w.out.notes ++ [n] } }

/-! ## Answers -/

/-- Whether a close has been asked for since the last open. -/
def Exit.closing : Exit → Bool → Bool
  | .openIo _, _ => false
  | .close _ _, _ => true
  | _, closing => closing

section Answers

variable (perform : Entry → Scripted → Scripted)

/-- The calls that are made before the client gets its answer. -/
def meanwhile (x : Exit) (calls : List Entry) (result : Nat) (w : Scripted) : Scripted :=
  let before := moment w
  let w := calls.foldl (fun w c => perform c w) (writeNote (.asked x before) w)
  writeNote (.answered x result before (moment w)) w

def nextReaction (x : Exit) (w : Scripted) : Reaction × Scripted :=
  (w.out.transport.headD ⟨[], 0⟩,
    { w with out := { w.out with transport := w.out.transport.tail, closing := x.closing w.out.closing } })

def nextCalls (w : Scripted) : List ApiCall × Scripted :=
  (w.out.application.headD [], { w with out := { w.out with application := w.out.application.tail } })

def askTransport (x : Exit) (w : Scripted) : Nat × Scripted :=
  let r := nextReaction x w
  (r.1.result, meanwhile perform x (r.1.calls.map .transport) r.1.result r.2)

def tellApplication (x : Exit) (w : Scripted) : Scripted :=
  let r := nextCalls w
  meanwhile perform x (r.1.map .api) 0 r.2

def scriptXio : Xio Surroundings where
  openIo h := askTransport perform (.openIo h)
  close h callback := askTransport perform (.close h callback)
  send h bytes := askTransport perform (.send h bytes)
  dowork h w := (askTransport perform (.dowork h) w).2

def scriptApp : App Surroundings where
  operation o := tellApplication perform (.operation o)
  message m := tellApplication perform (.message m)
  error e := tellApplication perform (.error e)
  disconnected callback := tellApplication perform (.disconnected callback)

end Answers

/-! ## Performing calls -/

def enter (xio : Xio Surroundings) (app : App Surroundings) (c : Entry) (w : Scripted) : Scripted :=
  match c with
  | .transport (.openComplete r) => onOpenComplete xio app r w
  | .transport (.bytesReceived buffer) => onBytesReceived xio app buffer w
  | .transport .ioError => onIoError xio app w
  | .transport (.sendComplete r) => sendComplete xio app r w
  | .transport .closeComplete => onConnectionClosed app w
  | .api (.connect h mqttOptions) => (mqttClientConnect xio (some h) mqttOptions w).2
  | .api (.publish msgHandle) => (mqttClientPublish xio msgHandle w).2
  | .api (.subscribe packetId subscribeList) => (mqttClientSubscribe xio packetId subscribeList w).2
  | .api (.unsubscribe packetId unsubscribeList) => (mqttClientUnsubscribe xio packetId unsubscribeList w).2
  | .api (.disconnect callback) => (mqttClientDisconnect xio app callback w).2
  | .api .dowork => mqttClientDowork xio app w

/-- The client takes this connection, and sends a CONNECT on it. -/
def takes (c : Entry) (client : MqttClient) : Bool := c = .transport (.openComplete .ok) ∧ client.socketConnected = false

def arrive (c : Entry) (w : Scripted) : Scripted :=
  let w := writeNote (.called c (moment w)) w
  if takes c w.client then { w with out := { w.out with connections := w.out.connections + 1 } } else w

def perform : Nat → Entry → Scripted → Scripted
  | 0, _, w => w
  | n + 1, c, w => enter (scriptXio (perform n)) (scriptApp (perform n)) c (arrive c w)

def performAll (n : Nat) (calls : List Entry) (w : Scripted) : Scripted := calls.foldl (fun w c => perform n c w) w

def acceptedConnack : List UInt8 := [0x20, 2, 0, 0]

/-- A client that has just been created, among such surroundings. -/
def scripted (client : MqttClient) (mallocs : Mallocs) (ticks : List (Option UInt32)) (transport : List Reaction)
    (application : List (List ApiCall)) : Scripted :=
  { client := client, mallocs := mallocs, ticks := ticks, crashed := false, trace := [],
    out := { transport := transport, application := application, connections := 0, closing := false, notes := [] } }

/-- The run of a fresh client over a clock with these readings. -/
def clocked (n : Nat) (calls : List Entry) (client : MqttClient) (mallocs : Mallocs) (readings : List UInt32)
    (transport : List Reaction) (application : List (List ApiCall)) : Scripted :=
  performAll n calls (scripted client mallocs (readings.map some) transport application)

def fourSeconds : MqttClientOptions := { clientId := some (.ofBlock [0x78]), keepAliveInterval := 4 }

/-! ## The clock -/

section Clock

variable {readings : List UInt32} {w : Scripted} {ticks : List (Option UInt32)}

/-- A reading that is not past the last one. -/
theorem currentMs_reading (ht : w.ticks ≠ []) (hr : w.ticks <:+ readings.map some) :
    ∃ ms ticks, w.ticks = some ms :: ticks ∧ w.currentMs = (some ms, { w with ticks := ticks }) := by
  obtain ⟨t, ticks, hticks⟩ := List.exists_cons_of_ne_nil ht
  rw [hticks] at hr
  obtain ⟨ms, -, rfl⟩ := List.mem_map.mp (hr.mem List.mem_cons_self)
  exact ⟨ms, ticks, hticks, by simp only [World.currentMs, hticks]⟩

theorem currentMs_some {v : Scripted} {ms : UInt32} (h : w.currentMs = (some ms, v)) (ht : w.ticks ≠ []) :
    w.ticks = some ms :: v.ticks ∧ v.out = w.out := by
  obtain ⟨t, ticks, hticks⟩ := List.exists_cons_of_ne_nil ht
  simp only [World.currentMs, hticks, Prod.mk.injEq] at h
  obtain ⟨rfl, rfl⟩ := h
  exact ⟨hticks, rfl⟩

/-- The clock does not go back. -/
theorem reading_le (hs : readings.Pairwise (· ≤ ·)) {a b : UInt32} (hr : some a :: ticks <:+ readings.map some)
    (hb : some b ∈ ticks) : a ≤ b := by
  have hsorted : (some a :: ticks).Pairwise fun x y => ∀ a ∈ x, ∀ b ∈ y, a ≤ b :=
    (List.pairwise_map.mpr (hs.imp fun h => by simpa using h)).sublist hr.sublist
  exact (List.pairwise_cons.mp hsorted).1 _ hb a rfl b rfl

theorem first_le (hs : readings.Pairwise (· ≤ ·)) {start : Nat} (hr : ticks <:+ readings.map some)
    (hstart : ∀ t ∈ ticks.head?.join, start ≤ t.toNat) (b : UInt32) (hb : some b ∈ ticks) : start ≤ b.toNat := by
  obtain ⟨x, rest, rfl⟩ := List.exists_cons_of_ne_nil (List.ne_nil_of_mem hb)
  obtain ⟨a, -, rfl⟩ := List.mem_map.mp (hr.mem List.mem_cons_self)
  have ha := hstart a rfl
  rcases List.mem_cons.mp hb with he | hb
  · obtain rfl := Option.some.inj he
    exact ha
  · exact ha.trans (UInt32.le_iff_toNat_le.mp (reading_le hs hr hb))

end Clock

/-! ## Rules -/

/-- A call out of the client that neither opens a connection nor says that it is closed. -/
def Exit.Ordinary : Exit → Prop
  | .openIo _ => False
  | .disconnected _ => False
  | .send _ bytes => ¬ IsConnect bytes
  | _ => True

/-- What `R` has to hold across, with `Plain` calls out of the client. -/
structure ScriptRules (perform : Entry → Scripted → Scripted) (Plain : Exit → Prop) (R : Scripted → Scripted → Prop) :
    Prop where
  refl : ∀ w, R w w
  trans : ∀ {u v w}, R u v → R v w → R u w
  perform : ∀ c w, R w (perform c w)
  asked : ∀ {x} w, Plain x → R w (writeNote (.asked x (moment w)) w)
  answered : ∀ {x} result before w, Plain x → R w (writeNote (.answered x result before (moment w)) w)
  nextReaction : ∀ x w, R w (nextReaction x w).2
  nextCalls : ∀ w, R w (nextCalls w).2

namespace ScriptRules

variable {perform : Entry → Scripted → Scripted} {Plain : Exit → Prop} {R : Scripted → Scripted → Prop}
  (h : ScriptRules perform Plain R)

include h

theorem calls (calls : List Entry) (w : Scripted) : R w (calls.foldl (fun w c => perform c w) w) := by
  induction calls generalizing w with
  | nil => exact h.refl w
  | cons c calls ih => exact h.trans (h.perform c w) (ih _)

theorem meanwhile {x : Exit} (hx : Plain x) (calls : List Entry) (result : Nat) (w : Scripted) :
    R w (Client.meanwhile perform x calls result w) :=
  h.trans (h.trans (h.asked w hx) (h.calls calls _)) (h.answered result _ _ hx)

theorem askTransport {x : Exit} (hx : Plain x) (w : Scripted) : R w (Client.askTransport perform x w).2 :=
  h.trans (h.nextReaction x w) (h.meanwhile hx _ _ _)

/-- The answer comes after everything else. -/
theorem askTransport_answered {x : Exit} (w : Scripted)
    (asked : R (Client.nextReaction x w).2 (writeNote (.asked x (moment (Client.nextReaction x w).2)) (Client.nextReaction x w).2)) :
    ∃ u, R (Client.nextReaction x w).2 u ∧ (Client.askTransport perform x w).2 =
      writeNote (.answered x (Client.nextReaction x w).1.result (moment (Client.nextReaction x w).2) (moment u)) u :=
  ⟨_, h.trans asked (h.calls _ _), rfl⟩

/-- A call out of the client whose own note is more than plain. -/
theorem askTransport_of {x : Exit} {v w : Scripted}
    (asked : R w (writeNote (.asked x (moment (Client.nextReaction x v).2)) (Client.nextReaction x v).2))
    (answered : ∀ result before u, R u (writeNote (.answered x result before (moment u)) u)) :
    R w (Client.askTransport perform x v).2 :=
  h.trans (h.trans asked (h.calls _ _)) (answered _ _ _)

theorem tellApplication_of {x : Exit} {v w : Scripted}
    (asked : R w (writeNote (.asked x (moment (Client.nextCalls v).2)) (Client.nextCalls v).2))
    (answered : ∀ result before u, R u (writeNote (.answered x result before (moment u)) u)) :
    R w (Client.tellApplication perform x v) :=
  h.trans (h.trans asked (h.calls _ _)) (answered _ _ _)

theorem tellApplication {x : Exit} (hx : Plain x) (w : Scripted) : R w (Client.tellApplication perform x w) :=
  h.trans (h.nextCalls w) (h.meanwhile hx _ _ _)

end ScriptRules

/-- `opened`: the options have been copied, and the open is asked for. -/
theorem mqttClientConnect_of {perform : Entry → Scripted → Scripted} {R : Scripted → Scripted → Prop}
    (trans : ∀ {u v w}, R u v → R v w → R u w) {u : Scripted} (handle : XioHandle) (mqttOptions : MqttClientOptions) (w : Scripted)
    (refused : (takeOptions handle mqttOptions w).1 ≠ 0 → R u (takeOptions handle mqttOptions w).2)
    (opened : (takeOptions handle mqttOptions w).1 = 0 →
      R u ((scriptXio perform).openIo handle (takeOptions handle mqttOptions w).2).2)
    (cleared : ∀ v : Scripted, R v { v with client := { v.client with mqttOptions := clearMqttOptions v.client.mqttOptions } }) :
    R u (mqttClientConnect (scriptXio perform) (some handle) mqttOptions w).2 := by
  simp only [mqttClientConnect]
  split
  · rename_i hr
    exact refused hr
  · rename_i hr
    have hopened := opened (not_not.mp hr)
    split
    · exact trans hopened (cleared _)
    · exact hopened

/-- The connection, its options and what it calls about its end are the same, and the surroundings too. -/
structure Framed (w w' : Scripted) : Prop where
  mqttOptions : w'.client.mqttOptions = w.client.mqttOptions
  disconnectCb : w'.client.disconnectCb = w.client.disconnectCb
  socketConnected : w'.client.socketConnected = w.client.socketConnected
  fnOnErrorCallBack : w'.client.fnOnErrorCallBack = w.client.fnOnErrorCallBack
  out : w'.out = w.out

theorem currentMs_framed (w : Scripted) : Framed w w.currentMs.2 := by
  unfold World.currentMs
  split <;> exact ⟨rfl, rfl, rfl, rfl, rfl⟩

/-- The same of an `R` that minds only these, and the calls out of the client. -/
structure OrdinaryRules (performed : Entry → Scripted → Scripted) (Plain : Exit → Prop) (R : Scripted → Scripted → Prop) :
    Prop extends ScriptRules performed Plain R where
  ordinary : ∀ {x : Exit}, x.Ordinary → Plain x
  framed : ∀ {w w'}, Framed w w' → R w w'

namespace OrdinaryRules

variable {perform : Entry → Scripted → Scripted} {Plain : Exit → Prop} {R : Scripted → Scripted → Prop}
  (h : OrdinaryRules perform Plain R)

include h

theorem closeRules : CloseRules (scriptXio perform) R where
  refl := h.refl
  trans := h.trans
  close handle callback w := h.askTransport (h.ordinary (x := .close handle callback) trivial) w
  dowork handle w := h.askTransport (h.ordinary (x := .dowork handle) trivial) w

theorem sendPacketItem {data : List UInt8} (hd : ∀ handle, Plain (.send handle data)) (w : Scripted) :
    R w (Client.sendPacketItem (scriptXio perform) data w).2 :=
  h.closeRules.sendPacketItem (fun w => h.framed (currentMs_framed w)) (fun _ _ _ => h.framed ⟨rfl, rfl, rfl, rfl, rfl⟩)
    (fun handle w => h.askTransport (hd handle) w) w

theorem tell {x : Exit} (hx : Plain x) (e : Event) (w : Scripted) : R w (Client.tellApplication perform x (w.log e)) := by
  have hlog : R w (w.log e) := h.framed ⟨rfl, rfl, rfl, rfl, rfl⟩
  exact h.trans hlog (h.tellApplication hx _)

theorem callError (e : EventError) (w : Scripted) : R w ((scriptApp perform).callError e w) := by
  unfold App.callError
  split
  · exact h.tell (h.ordinary (x := .error e) trivial) _ w
  · exact h.refl w

/-- The client takes the connection. -/
theorem onOpenComplete (w : Scripted) (hs : w.client.socketConnected = false) (plain : ∀ handle data, Plain (.send handle data))
    (taken : R w { w with client := { w.client with packetState := .connect, socketConnected := true } }) :
    R w (Client.onOpenComplete (scriptXio perform) (scriptApp perform) .ok w) := by
  simp only [Client.onOpenComplete, hs, and_self, if_true]
  split
  · exact h.trans taken (h.framed ⟨rfl, rfl, rfl, rfl, rfl⟩)
  · refine h.trans (h.trans taken ?_) (h.sendPacketItem (fun handle => plain handle _) _)
    exact h.framed ⟨rfl, rfl, rfl, rfl, rfl⟩

theorem mqttClientConnect {u : Scripted} (handle : XioHandle) (mqttOptions : MqttClientOptions) (w : Scripted)
    (refused : (takeOptions handle mqttOptions w).1 ≠ 0 → R u (takeOptions handle mqttOptions w).2)
    (opened : (takeOptions handle mqttOptions w).1 = 0 →
      R u ((scriptXio perform).openIo handle (takeOptions handle mqttOptions w).2).2)
    (cleared : ∀ v : Scripted, R v { v with client := { v.client with mqttOptions := clearMqttOptions v.client.mqttOptions } }) :
    R u (Client.mqttClientConnect (scriptXio perform) (some handle) mqttOptions w).2 :=
  mqttClientConnect_of (R := R) h.trans handle mqttOptions w refused opened cleared

theorem handlers (report : ∀ e w, R w (setErrorCallback (scriptXio perform) (scriptApp perform) e w)) :
    HandlerRules (scriptXio perform) (scriptApp perform) R where
  refl := h.refl
  trans := h.trans
  still hi ho hd := h.framed ⟨ho, hd, hi.socketConnected, hi.fnOnErrorCallBack, hi.out⟩
  send w hd := h.sendPacketItem (fun _ => h.ordinary hd) w
  operation {o} w _ := h.tell (h.ordinary (x := .operation o) trivial) _ w
  message m w := h.tell (h.ordinary (x := .message m) trivial) _ w
  setErrorCallback _ w := report _ w

end OrdinaryRules

/-- The disconnect callback may be invoked wherever the connection is closed. -/
structure FrameRules (performed : Entry → Scripted → Scripted) (Plain : Exit → Prop) (R : Scripted → Scripted → Prop) :
    Prop extends OrdinaryRules performed Plain R where
  disconnected : ∀ w : Scripted, w.client.socketConnected = false → R w ((scriptApp performed).callDisconnected w)

namespace FrameRules

variable {perform : Entry → Scripted → Scripted} {Plain : Exit → Prop} {R : Scripted → Scripted → Prop}
  (h : FrameRules perform Plain R)

include h

theorem closeConnection (w : Scripted) : R w (Client.closeConnection (scriptXio perform) (scriptApp perform) w) :=
  h.closeRules.closeConnection h.disconnected (fun _ => h.framed ⟨rfl, rfl, rfl, rfl, rfl⟩) w

theorem setErrorCallback (e : EventError) (w : Scripted) :
    R w (Client.setErrorCallback (scriptXio perform) (scriptApp perform) e w) :=
  h.trans (h.callError e w) (h.closeConnection _)

theorem steps : StepRules (scriptXio perform) (scriptApp perform) R where
  toHandlerRules := h.handlers h.setErrorCallback
  error w _ := h.callError _ w
  close := h.closeConnection

theorem onConnectionClosed (w : Scripted)
    (dropped : R w { w with client := { w.client with socketConnected := false, clientConnected := false } }) :
    R w (Client.onConnectionClosed (scriptApp perform) w) :=
  h.trans dropped (h.disconnected _ rfl)

end FrameRules

/-! ## Calls into the client -/

section Enter

variable {perform : Entry → Scripted → Scripted} {R : Scripted → Scripted → Prop}

/-- The calls that a relation may have to look at more closely are left open. -/
theorem HandlerRules.enter (h : HandlerRules (scriptXio perform) (scriptApp perform) R) (c : Entry) (w : Scripted)
    (openComplete : ∀ r, c = .transport (.openComplete r) → R w (Client.onOpenComplete (scriptXio perform) (scriptApp perform) r w))
    (sendComplete : ∀ r, c = .transport (.sendComplete r) → R w (Client.sendComplete (scriptXio perform) (scriptApp perform) r w))
    (closed : c = .transport .closeComplete → R w (onConnectionClosed (scriptApp perform) w))
    (connect : ∀ handle mqttOptions, c = .api (.connect handle mqttOptions) →
      R w (mqttClientConnect (scriptXio perform) (some handle) mqttOptions w).2)
    (disconnect : ∀ callback, c = .api (.disconnect callback) →
      R w (Client.mqttClientDisconnect (scriptXio perform) (scriptApp perform) callback w).2)
    (packet : ∀ p w, R w (recvCompleteCallback (scriptXio perform) (scriptApp perform) p w))
    (dowork : ∀ handle w, R w ((scriptXio perform).dowork handle w))
    (keepAlive : ∀ w, R w (Client.keepAlive (scriptXio perform) (scriptApp perform) w)) :
    R w (Client.enter (scriptXio perform) (scriptApp perform) c w) := by
  cases c with
  | transport c =>
    cases c with
    | openComplete r => exact openComplete r rfl
    | bytesReceived buffer => exact h.onBytesReceived packet buffer w
    | ioError => exact h.onIoError w
    | sendComplete r => exact sendComplete r rfl
    | closeComplete => exact closed rfl
  | api c =>
    cases c with
    | connect handle mqttOptions => exact connect handle mqttOptions rfl
    | publish msgHandle => exact h.mqttClientPublish msgHandle w
    | subscribe packetId subscribeList => exact h.mqttClientSubscribe packetId subscribeList w
    | unsubscribe packetId unsubscribeList => exact h.mqttClientUnsubscribe packetId unsubscribeList w
    | disconnect callback => exact disconnect callback rfl
    | dowork => exact h.mqttClientDowork w (fun handle => dowork handle w) keepAlive

theorem StepRules.enter (h : StepRules (scriptXio perform) (scriptApp perform) R) (c : Entry) (w : Scripted)
    (opened : c = .transport (.openComplete .ok) → w.client.socketConnected = false →
      R w (Client.onOpenComplete (scriptXio perform) (scriptApp perform) .ok w))
    (closed : c = .transport .closeComplete → R w (onConnectionClosed (scriptApp perform) w))
    (connect : ∀ handle mqttOptions, c = .api (.connect handle mqttOptions) →
      R w (mqttClientConnect (scriptXio perform) (some handle) mqttOptions w).2)
    (disconnect : ∀ callback, c = .api (.disconnect callback) →
      R w (Client.mqttClientDisconnect (scriptXio perform) (scriptApp perform) callback w).2)
    (packet : ∀ p w, R w (recvCompleteCallback (scriptXio perform) (scriptApp perform) p w))
    (dowork : ∀ handle w, R w ((scriptXio perform).dowork handle w))
    (keepAlive : ∀ w, R w (Client.keepAlive (scriptXio perform) (scriptApp perform) w)) :
    R w (Client.enter (scriptXio perform) (scriptApp perform) c w) := by
  refine h.toHandlerRules.enter c w (fun r hc => ?_) (fun r _ => h.sendComplete r w) closed connect disconnect packet dowork keepAlive
  refine h.onOpenComplete r w fun hr hs => ?_
  rw [hr] at hc ⊢
  exact opened hc hs

end Enter

/-- The calls that start or end a connection are left open, and how an error is reported. -/
theorem OrdinaryRules.enter {perform : Entry → Scripted → Scripted} {Plain : Exit → Prop} {R : Scripted → Scripted → Prop}
    (h : OrdinaryRules perform Plain R) (c : Entry) (w : Scripted)
    (report : ∀ e w, R w (Client.setErrorCallback (scriptXio perform) (scriptApp perform) e w))
    (openComplete : ∀ r, c = .transport (.openComplete r) →
      R w (Client.onOpenComplete (scriptXio perform) (scriptApp perform) r w))
    (sendComplete : ∀ r, c = .transport (.sendComplete r) →
      R w (Client.sendComplete (scriptXio perform) (scriptApp perform) r w))
    (closed : c = .transport .closeComplete → R w (Client.onConnectionClosed (scriptApp perform) w))
    (connect : ∀ handle mqttOptions, c = .api (.connect handle mqttOptions) →
      R w (Client.mqttClientConnect (scriptXio perform) (some handle) mqttOptions w).2)
    (disconnect : ∀ callback, c = .api (.disconnect callback) →
      R w (Client.mqttClientDisconnect (scriptXio perform) (scriptApp perform) callback w).2) :
    R w (Client.enter (scriptXio perform) (scriptApp perform) c w) := by
  have hh := h.handlers report
  refine hh.enter c w openComplete sendComplete closed connect disconnect ?_ ?_ ?_
  · exact hh.recvComplete (fun _ _ => h.framed ⟨rfl, rfl, rfl, rfl, rfl⟩) (fun _ _ => h.framed ⟨rfl, rfl, rfl, rfl, rfl⟩)
      (fun o w => h.tell (h.ordinary (x := .operation o) trivial) _ w) (fun _ => h.framed ⟨rfl, rfl, rfl, rfl, rfl⟩)
      fun _ => h.framed ⟨rfl, rfl, rfl, rfl, rfl⟩
  · exact fun handle w => h.askTransport (h.ordinary (x := .dowork handle) trivial) w
  · exact hh.keepAlive (fun w => h.framed (currentMs_framed w)) (report _)
      (fun _ => h.framed ⟨rfl, rfl, rfl, rfl, rfl⟩) fun _ _ => h.framed ⟨rfl, rfl, rfl, rfl, rfl⟩

theorem FrameRules.enter {perform : Entry → Scripted → Scripted} {Plain : Exit → Prop} {R : Scripted → Scripted → Prop}
    (h : FrameRules perform Plain R) (c : Entry) (w : Scripted)
    (opened : c = .transport (.openComplete .ok) → w.client.socketConnected = false →
      R w (Client.onOpenComplete (scriptXio perform) (scriptApp perform) .ok w))
    (closed : c = .transport .closeComplete → R w (Client.onConnectionClosed (scriptApp perform) w))
    (connect : ∀ handle mqttOptions, c = .api (.connect handle mqttOptions) →
      R w (Client.mqttClientConnect (scriptXio perform) (some handle) mqttOptions w).2)
    (disconnect : ∀ callback, c = .api (.disconnect callback) →
      R w (Client.mqttClientDisconnect (scriptXio perform) (scriptApp perform) callback w).2) :
    R w (Client.enter (scriptXio perform) (scriptApp perform) c w) := by
  refine h.toOrdinaryRules.enter c w h.setErrorCallback (fun r hc => ?_) (fun r _ => h.steps.sendComplete r w) closed connect
    disconnect
  refine h.steps.onOpenComplete r w fun hr hs => ?_
  rw [hr] at hc ⊢
  exact opened hc hs

/-! ## Notes are only added -/

theorem arrive_rest (c : Entry) (w : Scripted) : (arrive c w).mallocs = w.mallocs ∧ (arrive c w).ticks = w.ticks ∧
    (arrive c w).out.closing = w.out.closing := by
  unfold arrive
  simp only
  split <;> exact ⟨rfl, rfl, rfl⟩

def Grows (w w' : Scripted) : Prop := w.out.notes <+: w'.out.notes

theorem arrive_notes (c : Entry) (w : Scripted) : (arrive c w).out.notes = w.out.notes ++ [.called c (moment w)] := by
  unfold arrive
  simp only
  split <;> rfl

theorem arrive_client (c : Entry) (w : Scripted) : (arrive c w).client = w.client := by
  unfold arrive
  simp only
  split <;> rfl

section Grows

variable {perform : Entry → Scripted → Scripted} (hp : ∀ c w, Grows w (perform c w))

include hp

theorem grows_script : ScriptRules perform (fun _ => True) Grows where
  refl _ := List.prefix_refl _
  trans := List.IsPrefix.trans
  perform := hp
  asked _ _ := List.prefix_append _ _
  answered _ _ _ _ := List.prefix_append _ _
  nextReaction _ _ := List.prefix_refl _
  nextCalls _ := List.prefix_refl _

theorem grows_frame : FrameRules perform (fun _ => True) Grows where
  toScriptRules := grows_script hp
  ordinary _ := trivial
  framed h := by
    unfold Grows
    rw [h.out]
  disconnected w _ := by
    unfold App.callDisconnected
    split
    · exact List.prefix_refl _
    · rename_i callback _
      have hlog : Grows w (w.log (.disconnected callback)) := List.prefix_refl _
      exact hlog.trans ((grows_script hp).tellApplication (x := .disconnected callback) trivial _)

theorem enter_grows (c : Entry) (w : Scripted) : Grows w (enter (scriptXio perform) (scriptApp perform) c (arrive c w)) := by
  have hf := grows_frame hp
  have harrive : Grows w (arrive c w) := by
    unfold Grows
    rw [arrive_notes]
    exact List.prefix_append _ _
  refine harrive.trans (hf.enter c _ ?_ ?_ ?_ ?_)
  · intro _ hs
    exact hf.onOpenComplete _ hs (fun _ _ => trivial) (List.prefix_refl _)
  · intro _
    exact hf.onConnectionClosed _ (List.prefix_refl _)
  · intro handle mqttOptions _
    have htaken : Grows (arrive c w) (takeOptions handle mqttOptions (arrive c w)).2 := List.prefix_refl _
    exact hf.mqttClientConnect handle mqttOptions _ (fun _ => htaken)
      (fun _ => htaken.trans ((grows_script hp).askTransport (x := .openIo handle) trivial _)) fun _ => List.prefix_refl _
  · intro callback _
    refine hf.steps.mqttClientDisconnect callback _ ?_ (fun _ => List.prefix_refl _) fun v _ hv => hv.trans (List.prefix_refl _)
    intro v _ hi _
    unfold Grows
    rw [hi.out]

end Grows

theorem perform_grows (n : Nat) (c : Entry) (w : Scripted) : Grows w (perform n c w) := by
  induction n generalizing c w with
  | zero => exact List.prefix_refl _
  | succ n ih => exact enter_grows ih c w

/-- What every call keeps, calls one after the other keep. -/
theorem performAll_of {R : Scripted → Scripted → Prop} (refl : ∀ w, R w w) (trans : ∀ {u v w}, R u v → R v w → R u w)
    {n : Nat} (perform : ∀ c w, R w (Client.perform n c w)) (calls : List Entry) (w : Scripted) :
    R w (performAll n calls w) := by
  induction calls generalizing w with
  | nil => exact refl w
  | cons c calls ih => exact trans (perform c w) (ih _)

end UMqtt.Client

/-
  UMqtt.Comm.PacketIds — the packet identifiers of a communicator.

  `MQTT_Comm_Publish` and `MQTT_Comm_Subcribe` number their packets from one 16-bit counter,
  which only the second advances; nobody remembers which identifiers are outstanding. A run
  is any sequence of the two calls and of acknowledgements that the client is handed. Each
  packet sent is noted with the number of `MQTT_Comm_Subcribe` calls in front of it and with
  the packets that are unacknowledged at that moment (`Departure`).

  Proved (`identifiers_iff`): the identifiers of a run are non-zero and distinct in flight
  exactly when the counter has not come round to 0 and has moved, modulo 2^16, between any
  two packets in flight. Two PUBLISH packets in a row collide (`publish_twice_collides`).
-/

import UMqtt.Comm.Agreement

namespace UMqtt.Comm

open UMqtt.Lib UMqtt.Crt UMqtt.Codec UMqtt.Io UMqtt.Client

/-! ## Runs -/

/-- The packets that end an exchange. -/
inductive Ack where
  | puback
  | pubcomp
  | suback
  deriving DecidableEq, Repr

def Ack.type : Ack → ControlPacketType
  | .puback => .puback
  | .pubcomp => .pubcomp
  | .suback => .suback

/-- A call or an acknowledgement; what follows the identifier are a SUBACK's return codes. -/
inductive Action where
  | publish (topic : Option CString) (message : Option (List UInt8)) (exactlyOnce : Bool)
  | subcribe (topic : CString) (qos : QosValue)
  | acknowledge (ack : Ack) (packetId : UInt16) (codes : List UInt8)

/-- A packet on its way, with the `MQTT_Comm_Subcribe` calls in front of it. -/
structure InFlight where
  packet : Sent
  subcribes : Nat
  deriving DecidableEq, Repr

structure Departure where
  packet : InFlight
  others : List InFlight
  deriving DecidableEq, Repr

structure Traffic where
  w : Sys
  subcribes : Nat
  inFlight : List InFlight
  departures : List Departure

namespace Traffic

def depart (t : Traffic) (packet : Sent) : Traffic :=
  { t with inFlight := t.inFlight ++ [⟨packet, t.subcribes⟩],
           departures := t.departures ++ [⟨⟨packet, t.subcribes⟩, t.inFlight⟩] }

def called (t : Traffic) (w : Sys) : Traffic := (w.out.sent.drop t.w.out.sent.length).foldl depart { t with w := w }

def act (n : Nat) (t : Traffic) : Action → Traffic
  | .publish topic message exactlyOnce =>
    t.called (mqttCommPublish (systemXio quietApp n) topic message (if exactlyOnce then 2 else 1) t.w).2
  | .subcribe topic qos =>
    let t := t.called (mqttCommSubcribe (systemXio quietApp n) topic qos t.w).2
    { t with subcribes := t.subcribes + 1 }
  | .acknowledge ack packetId codes =>
    { t with
      w := recvCompleteCallback (systemXio quietApp n) quietApp
        ⟨ack.type, 0, some (Buffer.ofBytes (be16 packetId ++ codes))⟩ t.w,
      inFlight := t.inFlight.eraseP fun f => f.packet = ⟨ack.type, packetId⟩ }

def run (n : Nat) (actions : List Action) (w : Sys) : Traffic := actions.foldl (act n) ⟨w, 0, [], []⟩

end Traffic

/-! ## What a call takes from the counter -/

theorem mqttmessageCreate_packetId {packetId : UInt16} {topic : Option CString} {qos : QosValue} {message : List UInt8}
    {length : Nat} {ms ms' : Mallocs} {msg : Message} (h : mqttmessageCreate packetId topic qos message length ms = (.created msg, ms')) :
    msg.packetId = packetId := by
  unfold mqttmessageCreate at h
  repeat' split at h
  all_goals simp only [Prod.mk.injEq, CreateResult.created.injEq, reduceCtorEq, false_and] at h
  all_goals rw [← h.1]

section Calls

variable {xio : Xio Outside} (hx : Sound xio)

include hx

theorem mqttCommPublish_sent (topic : Option CString) (message : Option (List UInt8)) (qos : UInt8) (w : Sys) :
    let w' := (mqttCommPublish xio topic message qos w).2
    w'.out.comm.packetId = w.out.comm.packetId ∧
      (w'.out.sent = w.out.sent ∨ ∃ ack, w'.out.sent = w.out.sent ++ [⟨ack, w.out.comm.packetId⟩]) := by
  unfold mqttCommPublish
  split
  · exact ⟨rfl, Or.inl rfl⟩
  · split
    · split
      · exact ⟨rfl, Or.inl rfl⟩
      · exact ⟨rfl, Or.inl rfl⟩
      · rename_i msg ms hmsg
        have hid := mqttmessageCreate_packetId hmsg
        have hk : Keeps { w with mallocs := ms } (mqttClientPublish xio msg { w with mallocs := ms }).2 :=
          sendBuilt_keeps hx _ _ (by nofun)
        simp only
        split
        · exact ⟨hk.packetId, Or.inl hk.sent⟩
        · cases publishAckType msg.qosInfo with
          | none => exact ⟨hk.packetId, Or.inl hk.sent⟩
          | some ack =>
            refine ⟨hk.packetId, Or.inr ⟨ack, ?_⟩⟩
            simp only [noteSent, hid]
            rw [hk.sent]
    · exact ⟨rfl, Or.inl rfl⟩

theorem mqttCommSubcribe_sent (topic : CString) (qos : QosValue) (w : Sys) :
    let w' := (mqttCommSubcribe xio topic qos w).2
    w'.out.comm.packetId = w.out.comm.packetId + 1 ∧
      (w'.out.sent = w.out.sent ∨ ∃ ack, w'.out.sent = w.out.sent ++ [⟨ack, w.out.comm.packetId⟩]) := by
  obtain ⟨v, hv⟩ : ∃ v, v = onComm (fun c => { c with packetId := c.packetId + 1 }) w := ⟨_, rfl⟩
  have hid : v.out.comm.packetId = w.out.comm.packetId + 1 := by rw [hv]; rfl
  have hsent : v.out.sent = w.out.sent := by rw [hv]; rfl
  have hk := mqttClientSubscribe_keeps hx w.out.comm.packetId [⟨topic, qos⟩] v
  unfold mqttCommSubcribe
  simp only [← hv]
  split
  · exact ⟨hk.packetId.trans hid, Or.inl (hk.sent.trans hsent)⟩
  · refine ⟨hk.packetId.trans hid, Or.inr ⟨.suback, ?_⟩⟩
    simp only [noteSent]
    rw [hk.sent, hsent]

end Calls

/-! ## Numbering -/

/-- The identifier of a packet with so many `MQTT_Comm_Subcribe` calls in front of it. -/
def identifier (first : UInt16) (subcribes : Nat) : UInt16 := first + UInt16.ofNat subcribes

def InFlight.Numbered (first : UInt16) (f : InFlight) : Prop := f.packet.packetId = identifier first f.subcribes

theorem identifier_succ (first : UInt16) (subcribes : Nat) :
    identifier first (subcribes + 1) = identifier first subcribes + 1 := by
  simp only [identifier, UInt16.ofNat_add, UInt16.add_assoc]; rfl

theorem toNat_identifier (first : UInt16) (subcribes : Nat) :
    (identifier first subcribes).toNat = (first.toNat + subcribes) % 65536 := by
  simp only [identifier, UInt16.toNat_add, UInt16.toNat_ofNat']; omega

theorem identifier_ne_zero_iff (first : UInt16) (subcribes : Nat) :
    identifier first subcribes ≠ 0 ↔ (first.toNat + subcribes) % 65536 ≠ 0 := by
  rw [← toNat_identifier, ne_eq, ne_eq, ← UInt16.toNat_inj]; rfl

theorem identifier_ne_iff (first : UInt16) (k l : Nat) : identifier first k ≠ identifier first l ↔ k % 65536 ≠ l % 65536 := by
  rw [ne_eq, ← UInt16.toNat_inj, toNat_identifier, toNat_identifier]; omega

namespace Traffic

/-- Every identifier is the counter as it stood. -/
structure Numbered (first : UInt16) (t : Traffic) : Prop where
  counter : t.w.out.comm.packetId = identifier first t.subcribes
  inFlight : ∀ f ∈ t.inFlight, f.Numbered first
  departures : ∀ d ∈ t.departures, d.packet.Numbered first ∧ ∀ f ∈ d.others, f.Numbered first

theorem Numbered.depart {first : UInt16} {t : Traffic} (h : t.Numbered first) (packet : Sent)
    (hp : packet.packetId = identifier first t.subcribes) : (t.depart packet).Numbered first where
  counter := h.counter
  inFlight f hf := by
    rcases List.mem_append.mp hf with hf | hf
    · exact h.inFlight f hf
    · rw [List.mem_singleton.mp hf]; exact hp
  departures d hd := by
    rcases List.mem_append.mp hd with hd | hd
    · exact h.departures d hd
    · rw [List.mem_singleton.mp hd]; exact ⟨hp, h.inFlight⟩

/-- A call that has sent at most one packet, numbered with the counter in front of it. -/
theorem Numbered.called {first : UInt16} {t : Traffic} (h : t.Numbered first) {w : Sys}
    (hs : w.out.sent = t.w.out.sent ∨ ∃ ack, w.out.sent = t.w.out.sent ++ [⟨ack, t.w.out.comm.packetId⟩]) :
    (∀ f ∈ (t.called w).inFlight, f.Numbered first) ∧ (t.called w).subcribes = t.subcribes ∧ (t.called w).w = w ∧
      ∀ d ∈ (t.called w).departures, d.packet.Numbered first ∧ ∀ f ∈ d.others, f.Numbered first := by
  rcases hs with hs | ⟨ack, hs⟩
  · have hcalled : t.called w = { t with w := w } := by simp only [Traffic.called, hs, List.drop_length, List.foldl_nil]
    rw [hcalled]; exact ⟨h.inFlight, rfl, rfl, h.departures⟩
  · have hcalled : t.called w = { t.depart ⟨ack, t.w.out.comm.packetId⟩ with w := w } := by
      simp only [Traffic.called, hs, List.drop_left, List.foldl_cons, List.foldl_nil, Traffic.depart]
    have hd := h.depart ⟨ack, t.w.out.comm.packetId⟩ h.counter
    rw [hcalled]; exact ⟨hd.inFlight, rfl, rfl, hd.departures⟩

theorem Numbered.act {first : UInt16} (n : Nat) {t : Traffic} (h : t.Numbered first) (a : Action) :
    (t.act n a).Numbered first := by
  have hx := systemXio_sound n
  cases a with
  | publish topic message exactlyOnce =>
    obtain ⟨hid, hs⟩ := mqttCommPublish_sent hx topic message (if exactlyOnce then 2 else 1) t.w
    obtain ⟨hin, hsub, hw, hdep⟩ := h.called hs
    refine ⟨?_, hin, hdep⟩
    show (t.called _).w.out.comm.packetId = identifier first (t.called _).subcribes
    rw [hw, hsub, hid]; exact h.counter
  | subcribe topic qos =>
    obtain ⟨hid, hs⟩ := mqttCommSubcribe_sent hx topic qos t.w
    obtain ⟨hin, hsub, hw, hdep⟩ := h.called hs
    refine ⟨?_, hin, hdep⟩
    show (t.called _).w.out.comm.packetId = identifier first ((t.called _).subcribes + 1)
    rw [hw, hsub, hid, identifier_succ, h.counter]
  | acknowledge ack packetId codes =>
    have hk := recvComplete_keeps hx ⟨ack.type, 0, some (Buffer.ofBytes (be16 packetId ++ codes))⟩ t.w
    exact ⟨hk.packetId.trans h.counter, fun f hf => h.inFlight f (List.mem_of_mem_eraseP hf), h.departures⟩

theorem run_numbered (n : Nat) (actions : List Action) (w : Sys) : (run n actions w).Numbered w.out.comm.packetId := by
  have hstart : Numbered w.out.comm.packetId ⟨w, 0, [], []⟩ :=
    ⟨by simp [identifier], nofun, nofun⟩
  unfold run
  generalize (⟨w, 0, [], []⟩ : Traffic) = t at hstart ⊢
  induction actions generalizing t with
  | nil => exact hstart
  | cons a actions ih => exact ih _ (hstart.act n a)

end Traffic

/-- The identifiers sent are non-zero and differ from those in flight exactly when, at each
    packet sent, the counter has not come round to 0 and, modulo 2^16, there have been other
    numbers of `MQTT_Comm_Subcribe` calls in front of the packets in flight. -/
theorem identifiers_iff (n : Nat) (actions : List Action) (w : Sys) :
    (∀ d ∈ (Traffic.run n actions w).departures, d.packet.packet.packetId ≠ 0 ∧
        ∀ f ∈ d.others, f.packet.packetId ≠ d.packet.packet.packetId) ↔
      ∀ d ∈ (Traffic.run n actions w).departures, (w.out.comm.packetId.toNat + d.packet.subcribes) % 65536 ≠ 0 ∧
        ∀ f ∈ d.others, f.subcribes % 65536 ≠ d.packet.subcribes % 65536 := by
  have hnum := (Traffic.run_numbered n actions w).departures
  refine forall₂_congr fun d hd => ?_
  obtain ⟨hp, ho⟩ := hnum d hd
  rw [hp, identifier_ne_zero_iff]
  refine and_congr_right fun _ => forall₂_congr fun f hf => ?_
  rw [ho f hf, identifier_ne_iff]

/-- Two PUBLISH packets on a new connection, the first not yet acknowledged. -/
theorem publish_twice_collides :
    ∃ w, ((createdWith [true]).map fun w => (mqttCommProcess (systemXio quietApp 3) quietApp 1 (mqttCommStartConnection w)).2) =
        some w ∧
      (Traffic.run 3 [.publish (some device) (some [1]) false, .publish (some device) (some [2]) false] w).departures =
        [⟨⟨⟨.puback, 1⟩, 0⟩, []⟩, ⟨⟨⟨.puback, 1⟩, 0⟩, [⟨⟨.puback, 1⟩, 0⟩]⟩] := by
  have hrun : (((createdWith [true]).map fun w =>
      (mqttCommProcess (systemXio quietApp 3) quietApp 1 (mqttCommStartConnection w)).2).map fun w =>
      (Traffic.run 3 [.publish (some device) (some [1]) false, .publish (some device) (some [2]) false] w).departures) =
      some [⟨⟨⟨.puback, 1⟩, 0⟩, []⟩, ⟨⟨⟨.puback, 1⟩, 0⟩, [⟨⟨.puback, 1⟩, 0⟩]⟩] := by decide +kernel
  obtain ⟨w, hw, hd⟩ := Option.map_eq_some_iff.mp hrun
  exact ⟨w, hw, hd⟩

end UMqtt.Comm

/-
  UMqtt.Client.TickShift — the keep-alive of a client whose clock is ahead by a constant.

  The clock wraps, so `mqtt_client_dowork` takes differences of readings, and these are the same
  of a clock that is `c` ahead. `timeSincePing` is no reading where it is 0: then no PINGREQ is
  outstanding. A PINGREQ that is sent when the clock says 0 is forgotten.

  Proved (`decisions_shift`): the PINGREQ packets and the reports of MQTT_CLIENT_NO_PING_RESPONSE
  are the same in both runs, over all calls of a client that takes no new connection, if no
  reading that is stored for a PINGREQ is 0 in only one of them. `zero_forgotten` is a run with
  such a reading, where a PINGREQ without an answer is reported by the later clock only.
-/

import UMqtt.Client.TwoClocks
import UMqtt.Client.PingTimeout

namespace UMqtt.Client.TickShift

open UMqtt.Lib UMqtt.Crt UMqtt.Codec UMqtt.Io UMqtt.Client.TwoClocks

/-! ## What the keep-alive decides -/

def isDecision : Event → Bool
  | .send _ bytes => bytes = pingreqPacket
  | .error e => e = .noPingResponse
  | _ => false

/-- The PINGREQ packets sent and the missing answers reported. -/
def decisions (trace : List Event) : List Event := trace.filter isDecision

/-- The readings made right after a PINGREQ, which `timeSincePing` keeps. -/
def pingReadings (notes : List Note) : List UInt32 :=
  notes.filterMap fun n => match n with
    | .answered (.send _ bytes) _ _ after => if bytes = pingreqPacket then after.ticks.head?.join else none
    | _ => none

def shiftClient (c : UInt32) (client : MqttClient) : MqttClient :=
  { client with
    packetSendTimeMs := client.packetSendTimeMs + c
    timeSincePing := shiftPing c client.timeSincePing }

variable {c : UInt32} {m : Mode} {readings : List UInt32} {w w' : Scripted}

/-! ## Closing -/

section Client

variable {perform : Entry → Scripted → Scripted}
  (hp : ∀ {c m} e, Steady e → ∀ {w w'}, Beside c m w w' → Beside c m (perform e w) (perform e w'))

include hp

/-- A close leaves no transport, or no socket. -/
theorem closeConnection_ends (hs : SteadyScript w.out.transport w.out.application) :
    (closeConnection (scriptXio perform) (scriptApp perform) w).client.xioHandle = none ∨
      (closeConnection (scriptXio perform) (scriptApp perform) w).client.socketConnected = false := by
  unfold closeConnection
  split
  · exact Or.inl rfl
  · rename_i hsocket
    have hself : Beside 0 .noSocket w w := beside_self (Bool.eq_false_iff.mpr hsocket) hs
    exact Or.inr (callDisconnected_beside hp hself).clocks

/-! ## A PINGREQ -/

omit hp in
/-- A send is noted when it returns, unless there is no transport. -/
theorem sendPacketItem_noted {data : List UInt8} {ms : UInt32} {v : Scripted} (hms : w.currentMs = (some ms, v)) :
    (sendPacketItem (scriptXio perform) data w).2.client.xioHandle = none ∨ ∃ handle result before u,
      (sendPacketItem (scriptXio perform) data w).2 = writeNote (.answered (.send handle data) result before (moment u)) u := by
  rw [sendPacketItem_stamp hms]
  cases hx : v.client.xioHandle with
  | none => exact Or.inl hx
  | some handle => exact Or.inr ⟨handle, _, _, _, rfl⟩

omit hp in
theorem pingReadings_answered {handle : XioHandle} {result : Nat} {before : Moment} {u : Scripted} {now : UInt32}
    {ticks : List (Option UInt32)} (ht : u.ticks = some now :: ticks) :
    now ∈ pingReadings (writeNote (.answered (.send handle pingreqPacket) result before (moment u)) u).out.notes := by
  refine List.mem_filterMap.mpr ⟨_, List.mem_append_right _ List.mem_cons_self, ?_⟩
  simp [moment, ht]

omit hp in
/-- The time right after a PINGREQ is stored. -/
theorem pinged_beside {now : UInt32} {v v' : Scripted} (ht : w.ticks <:+ readings.map some) (hw : w.ticks ≠ [])
    (hnow : (sendPacketItem (scriptXio perform) pingreqPacket w).2.currentMs = (some now, v)) (hv : v.ticks ≠ [])
    (hclear : ∀ t ∈ pingReadings v.out.notes, Clear c t) (h : Beside c .shifted v v') :
    ∃ k, Beside c k { v with client := { v.client with timeSincePing := now } }
      { v' with client := { v'.client with timeSincePing := now + c } } := by
  obtain ⟨ms, ticks, -, hms⟩ := currentMs_reading hw ht
  have hsent := @sendPacketItem_noted w perform pingreqPacket ms _ hms
  generalize (sendPacketItem (scriptXio perform) pingreqPacket w).2 = u at hnow hsent
  have hticks : u.ticks = some now :: v.ticks ∧ v.client = u.client ∧ v.out = u.out := by
    unfold World.currentMs at hnow
    split at hnow
    · injection hnow with _ hu
      exact absurd (hu ▸ ‹u.ticks = []›) hv
    · injection hnow with ht hu
      rw [← ht, ← hu]
      exact ⟨‹_›, rfl, rfl⟩
  rcases hsent with hx | ⟨handle, result, before, u, rfl⟩
  · obtain ⟨k, hk, hdead⟩ := h.timeless (Or.inl (hticks.2.1 ▸ hx))
    exact ⟨k, hdead.retime hk v.client.packetSendTimeMs v'.client.packetSendTimeMs now (now + c)⟩
  · have hnow : Clear c now := hclear now (by rw [hticks.2.2]; exact pingReadings_answered hticks.1)
    exact ⟨.shifted, h.pinged hnow⟩

theorem keepAlive_beside (hgrows : ∀ e w, PingTimeout.Keeps [] w (perform e w)) (h : Beside c .shifted w w')
    (ht : w.ticks <:+ readings.map some) (hread : (keepAlive (scriptXio perform) (scriptApp perform) w).ticks ≠ [])
    (hclear : ∀ t ∈ pingReadings (keepAlive (scriptXio perform) (scriptApp perform) w).out.notes, Clear c t) :
    ∃ k, Beside c k (keepAlive (scriptXio perform) (scriptApp perform) w)
      (keepAlive (scriptXio perform) (scriptApp perform) w') := by
  have hticks : w.ticks ≠ [] := fun he =>
    hread (List.suffix_nil.mp (he ▸ (PingTimeout.keepAlive_keeps hgrows List.Pairwise.nil w).ticks))
  obtain ⟨ms, v, v', hv, hv', hclient, hclient', -, hvv⟩ := h.currentMs
  have hs : Shifted c v.client v'.client := by
    rw [hclient, hclient']
    exact h.clocks.resolve_left hticks
  have hvt : v.ticks <:+ readings.map some := by
    have hkeeps : PingTimeout.Keeps [] w w.currentMs.2 := PingTimeout.currentMs_keeps w
    rw [hv] at hkeeps
    exact hkeeps.ticks.trans ht
  rw [if_neg hticks] at hv'
  unfold keepAlive at hread hclear ⊢
  cases ms with
  | none =>
    simp only [hv, hv', Option.map_none]
    exact ⟨.shifted, hvv⟩
  | some ms =>
    simp only [hv] at hread hclear
    simp only [hv, hv', Option.map_some]
    have hmax : v'.client.maxPingRespTime = v.client.maxPingRespTime :=
      hvv.read (fun v => v.client.maxPingRespTime) fun _ _ _ _ _ => rfl
    have hinterval : v'.client.keepAliveInterval = v.client.keepAliveInterval :=
      hvv.read (fun v => v.client.keepAliveInterval) fun _ _ _ _ _ => rfl
    have hover : (0 < v'.client.timeSincePing ∧
        v'.client.maxPingRespTime.toUInt32 < (ms + c - v'.client.timeSincePing) / 1000) ↔
        (0 < v.client.timeSincePing ∧ v.client.maxPingRespTime.toUInt32 < (ms - v.client.timeSincePing) / 1000) := by
      rw [hmax]
      exact hs.overdue _ ms
    by_cases ho : 0 < v.client.timeSincePing ∧ v.client.maxPingRespTime.toUInt32 < (ms - v.client.timeSincePing) / 1000
    · rw [if_pos ho, if_pos (hover.mpr ho)]
      have herror := callError_beside hp .noPingResponse hvv
      obtain ⟨k, hk, hdead⟩ := (closeConnection_beside hp herror).timeless (closeConnection_ends hp herror.steady)
      have hstate := hdead.map (g := fun w => { w with client := { w.client with packetState := .unknown } })
        (by constructor <;> intros <;> first | rfl | assumption)
      exact ⟨k, hstate.retime hk 0 0 0 0⟩
    · rw [if_neg ho] at hread hclear
      rw [if_neg ho, if_neg (mt hover.mp ho), hs.due, hinterval]
      by_cases hd : v.client.keepAliveInterval.toUInt32 ≤ (ms - v.client.packetSendTimeMs) / 1000
      · rw [if_pos hd] at hread hclear
        rw [if_pos hd, if_pos hd]
        have hmallocs : v'.mallocs = v.mallocs := hvv.read (fun v => v.mallocs) fun _ _ _ _ _ => rfl
        rw [hmallocs]
        rcases hping : mqttCodecPing v.mallocs with ⟨_ | packet, ms'⟩
        · exact ⟨.shifted, hvv.withMallocs ms'⟩
        · have hbytes : packet.bytes = pingreqPacket := constructHeaderOnly_bytes hping
          simp only [hping, hbytes] at hread hclear
          simp only [hbytes]
          have hsent := sendPacketItem_beside hp pingreqPacket (hvv.withMallocs ms')
          obtain ⟨now, x, x', hx, hx', -, -, hempty, hxx⟩ := hsent.currentMs
          simp only [hx] at hread hclear
          simp only [hx, hx']
          cases now with
          | none =>
            simp only [Option.map_none, ite_self]
            exact ⟨.shifted, hxx⟩
          | some now =>
            have hx0 : (sendPacketItem (scriptXio perform) pingreqPacket { v with mallocs := ms' }).2.ticks ≠ [] :=
              fun he => hread (hempty he)
            simp only [if_neg hx0, Option.map_some]
            have hsuffix := ((PingTimeout.keeps_rules hgrows).send pingreqPacket { v with mallocs := ms' }).ticks
            have hv0 : v.ticks ≠ [] := fun he => hx0 (List.suffix_nil.mp (hsuffix.trans (by rw [he])))
            exact pinged_beside (w := { v with mallocs := ms' }) hvt hv0 hx hread hclear hxx
      · rw [if_neg hd, if_neg hd]
        exact ⟨.shifted, hvv⟩

theorem mqttClientDowork_beside (hgrows : ∀ e w, PingTimeout.Keeps [] w (perform e w)) (h : Beside c m w w')
    (ht : w.ticks <:+ readings.map some) (hread : (mqttClientDowork (scriptXio perform) (scriptApp perform) w).ticks ≠ [])
    (hclear : ∀ t ∈ pingReadings (mqttClientDowork (scriptXio perform) (scriptApp perform) w).out.notes, Clear c t) :
    ∃ k, Beside c k (mqttClientDowork (scriptXio perform) (scriptApp perform) w)
      (mqttClientDowork (scriptXio perform) (scriptApp perform) w') := by
  have hhandle : w'.client.xioHandle = w.client.xioHandle := h.read (fun w => w.client.xioHandle) fun _ _ _ _ _ => rfl
  unfold mqttClientDowork at hread hclear ⊢
  rw [hhandle]
  cases hx : w.client.xioHandle with
  | none => exact ⟨m, h⟩
  | some handle =>
    simp only [hx] at hread hclear
    have hworked := askTransport_beside hp (.dowork handle) h
    have hsuffix := ((PingTimeout.keeps_xio hgrows).dowork handle w).ticks
    change Beside c m ((scriptXio perform).dowork handle w) ((scriptXio perform).dowork handle w') at hworked
    simp only [hworked.read (fun w => w.client.socketConnected) fun _ _ _ _ _ => rfl,
      hworked.read (fun w => w.client.clientConnected) fun _ _ _ _ _ => rfl,
      hworked.read (fun w => w.client.keepAliveInterval) fun _ _ _ _ _ => rfl]
    split
    · rename_i hlive
      rw [if_pos hlive] at hread hclear
      cases m with
      | shifted => exact keepAlive_beside hp hgrows hworked (hsuffix.trans ht) hread hclear
      | noHandle => exact absurd (hx.symm.trans h.clocks) nofun
      | noSocket => exact absurd (hlive.1.symm.trans hworked.clocks) nofun
    · exact ⟨m, hworked⟩

end Client

/-! ## Runs -/

theorem perform_ticks (n : Nat) (e : Entry) (w : Scripted) : (perform n e w).ticks <:+ w.ticks := by
  have hkeeps : PingTimeout.Keeps [] w (perform n e w) := PingTimeout.perform_keeps List.Pairwise.nil n e w
  exact hkeeps.ticks

theorem performAll_grows (n : Nat) (calls : List Entry) (w : Scripted) :
    (performAll n calls w).ticks <:+ w.ticks ∧ w.out.notes <+: (performAll n calls w).out.notes := by
  refine performAll_of (R := fun w w' => w'.ticks <:+ w.ticks ∧ w.out.notes <+: w'.out.notes) ?_ ?_ ?_ calls w
  · exact fun w => ⟨List.suffix_refl _, List.prefix_refl _⟩
  · exact fun h h' => ⟨h'.1.trans h.1, h.2.trans h'.2⟩
  · exact fun e w => ⟨perform_ticks n e w, perform_grows n e w⟩

theorem pingReadings_earlier {notes notes' : List Note} (h : notes <+: notes') (hc : ∀ t ∈ pingReadings notes', Clear c t) :
    ∀ t ∈ pingReadings notes, Clear c t := fun t ht => hc t ((h.sublist.filterMap _).subset ht)

/-- A call from outside, which may be `mqtt_client_dowork`. -/
theorem perform_shift (n : Nat) {e : Entry} (he : Steady e ∨ e = .api .dowork) (h : Beside c m w w')
    (ht : w.ticks <:+ readings.map some) (hread : (perform n e w).ticks ≠ [])
    (hclear : ∀ t ∈ pingReadings (perform n e w).out.notes, Clear c t) : ∃ k, Beside c k (perform n e w) (perform n e w') := by
  rcases he with he | rfl
  · exact ⟨m, perform_beside n e he h⟩
  · cases n with
    | zero => exact ⟨m, h⟩
    | succ n =>
      have harrive : Beside c m (arrive (.api .dowork) w) (arrive (.api .dowork) w') := arrive_beside nofun h
      exact mqttClientDowork_beside (perform_beside n) (PingTimeout.perform_keeps List.Pairwise.nil n) harrive ht hread hclear

theorem performAll_shift (n : Nat) {calls : List Entry} (hcalls : ∀ e ∈ calls, Steady e ∨ e = .api .dowork) (h : Beside c m w w')
    (ht : w.ticks <:+ readings.map some) (hread : (performAll n calls w).ticks ≠ [])
    (hclear : ∀ t ∈ pingReadings (performAll n calls w).out.notes, Clear c t) :
    ∃ k, Beside c k (performAll n calls w) (performAll n calls w') := by
  induction calls generalizing m w w' with
  | nil => exact ⟨m, h⟩
  | cons e calls ih =>
    obtain ⟨hticks, hnotes⟩ := performAll_grows n calls (perform n e w)
    obtain ⟨k, hk⟩ := perform_shift n (hcalls e List.mem_cons_self) h ht
      (fun he => hread (List.suffix_nil.mp (he ▸ hticks))) (pingReadings_earlier hnotes hclear)
    exact ih (fun e he => hcalls e (List.mem_cons_of_mem _ he)) hk ((perform_ticks n e w).trans ht) hread hclear

theorem decisions_shift (n : Nat) (calls : List Entry) (client : MqttClient) (mallocs : Mallocs) (readings : List UInt32)
    (transport : List Reaction) (application : List (List ApiCall)) (c : UInt32)
    (hcalls : ∀ e ∈ calls, Steady e ∨ e = .api .dowork) (hscript : SteadyScript transport application)
    (hread : (clocked n calls client mallocs readings transport application).ticks ≠ [])
    (hstart : client.timeSincePing ≠ 0 → client.timeSincePing + c ≠ 0)
    (hclear : ∀ t ∈ pingReadings (clocked n calls client mallocs readings transport application).out.notes, Clear c t) :
    decisions (clocked n calls (shiftClient c client) mallocs (readings.map (· + c)) transport application).trace =
      decisions (clocked n calls client mallocs readings transport application).trace := by
  have hoff : (shiftClient c client).timeSincePing = 0 ↔ client.timeSincePing = 0 := by
    simp only [shiftClient, shiftPing]
    split
    · exact ⟨fun _ => ‹_›, fun _ => rfl⟩
    · exact ⟨fun h => absurd h (hstart ‹_›), fun h => absurd h ‹_›⟩
  have hstart : Beside c .shifted (scripted client mallocs (readings.map some) transport application)
      (scripted (shiftClient c client) mallocs ((readings.map (· + c)).map some) transport application) := by
    refine ⟨⟨client.packetSendTimeMs + c, shiftPing c client.timeSincePing, [], ?_⟩, Or.inr ⟨rfl, rfl, hoff⟩, hscript⟩
    simp [scripted, recast, shiftClient, shiftReadings, Function.comp_def]
  obtain ⟨k, hk⟩ := performAll_shift n hcalls hstart (List.suffix_refl _) hread hclear
  have htrace := hk.read (fun w => w.trace) fun _ _ _ _ _ => rfl
  exact congrArg decisions htrace

/-! ## The clock at 0 -/

/-- Connected, with a keep-alive of four seconds and two seconds for an answer; its last packet is sent
    five seconds before the clock wraps. -/
def lateClient : MqttClient :=
  { MqttClient.init true true true with
    xioHandle := some 0, clientConnected := true, socketConnected := true, keepAliveInterval := 4, maxPingRespTime := 2
    packetSendTimeMs := 0xFFFFEC78 }

/-- A PINGREQ is due, the clock wraps behind it, and three seconds later there is no answer. -/
def wrappingReadings (pinged : UInt32) : List UInt32 := [0xFFFFFFFE, 0xFFFFFFFF, pinged, 3001, 3001]

theorem wrapping_shift : Event.error .noPingResponse ∈
      (clocked 1 [.api .dowork, .api .dowork] lateClient [] (wrappingReadings 1) [] []).trace ∧
    decisions (clocked 1 [.api .dowork, .api .dowork] (shiftClient 5 lateClient) []
        ((wrappingReadings 1).map (· + 5)) [] []).trace =
      decisions (clocked 1 [.api .dowork, .api .dowork] lateClient [] (wrappingReadings 1) [] []).trace := by
  have hcalls : ∀ e ∈ [Entry.api .dowork, .api .dowork], Steady e ∨ e = .api .dowork := fun e he => Or.inr (by simpa using he)
  have hpinged : pingReadings (clocked 1 [.api .dowork, .api .dowork] lateClient [] (wrappingReadings 1) [] []).out.notes = [1] := by
    decide +kernel
  refine ⟨by decide +kernel,
    decisions_shift 1 _ lateClient [] _ [] [] 5 hcalls ⟨nofun, nofun⟩ (by decide +kernel) (fun h => absurd rfl h) ?_⟩
  rw [hpinged]
  intro t ht
  obtain rfl := List.mem_singleton.mp ht
  decide

theorem zero_forgotten :
    (clocked 1 [.api .dowork, .api .dowork] lateClient [] (wrappingReadings 0) [] []).ticks ≠ [] ∧
    decisions (clocked 1 [.api .dowork, .api .dowork] lateClient [] (wrappingReadings 0) [] []).trace =
      [.send (some 0) pingreqPacket] ∧
    decisions (clocked 1 [.api .dowork, .api .dowork] (shiftClient 1 lateClient) []
        ((wrappingReadings 0).map (· + 1)) [] []).trace =
      [.send (some 0) pingreqPacket, .error .noPingResponse] := by
  decide +kernel

end UMqtt.Client.TickShift

/-
  UMqtt.Client.PingTimeout — which PINGREQ a report of MQTT_CLIENT_NO_PING_RESPONSE is about.

  `timeSincePing` is the one thing the client remembers of a PINGREQ. It is set after every
  PINGREQ, and cleared by a PINGRESP and by a report; nothing else clears it, neither a close
  nor a new connection.

  Proved (`reports_justified`): over readings of the clock that never go back, each report is
  about a PINGREQ of the current connection, with no PINGRESP since and more than
  `maxPingRespTime` whole seconds ago, in every run that is `Timely`: no connection is taken
  while `timeSincePing` is set, and each PINGREQ is taken by a transport, with no PINGRESP and
  no connection in the middle of its `xio_send`. `ping_outlives_connection` is a run in which a
  PINGREQ of an earlier connection is reported.
-/

import UMqtt.Lib.History
import UMqtt.Client.Surroundings

namespace UMqtt.Client.PingTimeout

open UMqtt.Lib UMqtt.Crt UMqtt.Codec UMqtt.Io

/-! ## Reports -/

/-- The moments at which a PINGREQ was passed to a transport that took it. -/
def pingreqs (notes : List Note) : List Moment :=
  notes.filterMap fun n => match n with
    | .answered (.send _ bytes) result before _ => if bytes = pingreqPacket ∧ result = 0 then some before else none
    | _ => none

def LastReading (readings : List UInt32) (now : UInt32) (m : Moment) : Prop :=
  ∃ used, readings.map some = used ++ some now :: m.ticks

/-- A PINGREQ of this connection is without its PINGRESP for too long. -/
def Overdue (readings : List UInt32) (sent : List Moment) (m : Moment) : Prop :=
  ∃ m0 ∈ sent, ∃ now, LastReading readings now m ∧ m0.connections = m.connections ∧ m0.pingresps = m.pingresps ∧
    m.client.maxPingRespTime.toNat < (now.toNat - m0.client.packetSendTimeMs.toNat) / 1000

def Justified (readings : List UInt32) (before : List Note) (n : Note) : Prop :=
  ∀ m, n = .asked (.error .noPingResponse) m → Overdue readings (pingreqs before) m

/-! ## Timely runs -/

def Note.Timely : Note → Prop
  | .called (.transport (.openComplete .ok)) m => m.client.socketConnected = false → m.client.timeSincePing = 0
  | .answered (.send _ bytes) result before after => bytes = pingreqPacket →
    result = 0 ∧ after.pingresps = before.pingresps ∧ after.connections = before.connections
  | _ => True

instance : DecidablePred Note.Timely := fun n => by
  rcases n with ⟨c | c, m⟩ | ⟨x, m⟩ | ⟨x, result, before, after⟩
  · rcases c with (_ | _ | _) | _
    · exact inferInstanceAs (Decidable (m.client.socketConnected = false → m.client.timeSincePing = 0))
    all_goals exact inferInstanceAs (Decidable True)
  · exact inferInstanceAs (Decidable True)
  · exact inferInstanceAs (Decidable True)
  · rcases x with _ | _ | ⟨h, bytes⟩ | _
    rotate_left 2
    · exact inferInstanceAs (Decidable (bytes = pingreqPacket →
        result = 0 ∧ after.pingresps = before.pingresps ∧ after.connections = before.connections))
    all_goals exact inferInstanceAs (Decidable True)

structure Timely (w : Scripted) : Prop where
  notes : ∀ n ∈ w.out.notes, Note.Timely n
  taken : Event.send none pingreqPacket ∉ w.trace
  /-- The readings are not used up. -/
  ticks : w.ticks ≠ []

/-- The PINGREQ behind `timeSincePing`. -/
def Outstanding (w : Scripted) : Prop :=
  ∃ m0 ∈ pingreqs w.out.notes, m0.connections = w.out.connections ∧ m0.pingresps = w.trace.countP isPingresp ∧
    m0.client.packetSendTimeMs ≤ w.client.timeSincePing ∧ ∀ t, some t ∈ w.ticks → w.client.timeSincePing ≤ t

structure Watched (readings : List UInt32) (w : Scripted) : Prop where
  ticks : w.ticks <:+ readings.map some
  outstanding : w.client.timeSincePing ≠ 0 → Outstanding w
  reports : Throughout (Justified readings) w.out.notes

structure Keeps (readings : List UInt32) (w w' : Scripted) : Prop where
  timely : Timely w' → Timely w
  ticks : w'.ticks <:+ w.ticks
  watched : Timely w' → Watched readings w → Watched readings w'

variable {readings : List UInt32} {w w' w'' : Scripted}

theorem Keeps.trans (h : Keeps readings w w') (h' : Keeps readings w' w'') : Keeps readings w w'' where
  timely ht := h.timely (h'.timely ht)
  ticks := h'.ticks.trans h.ticks
  watched ht hw := h'.watched ht (h.watched (h'.timely ht) hw)

/-- Nothing is different but what no PINGREQ depends on. -/
theorem keeps_same (hping : w'.client.timeSincePing = w.client.timeSincePing) (hticks : w'.ticks = w.ticks)
    (htrace : w'.trace = w.trace) (hnotes : w'.out.notes = w.out.notes) (hc : w'.out.connections = w.out.connections) :
    Keeps readings w w' where
  timely ht := ⟨hnotes ▸ ht.notes, htrace ▸ ht.taken, hticks ▸ ht.ticks⟩
  ticks := by rw [hticks]
  watched _ hw := by
    refine ⟨hticks ▸ hw.ticks, ?_, hnotes ▸ hw.reports⟩
    unfold Outstanding
    rw [hping, hticks, htrace, hnotes, hc]
    exact hw.outstanding

theorem Keeps.rfl : Keeps readings w w := keeps_same (.refl _) (.refl _) (.refl _) (.refl _) (.refl _)

/-- No PINGREQ is outstanding. -/
theorem cleared_keeps (w : Scripted) : Keeps readings w { w with client :=
    { w.client with timeSincePing := 0, packetSendTimeMs := 0, packetState := .unknown } } where
  timely ht := ⟨ht.notes, ht.taken, ht.ticks⟩
  ticks := List.suffix_refl _
  watched _ hw := ⟨hw.ticks, fun h => absurd (.refl _) h, hw.reports⟩

theorem log_keeps {e : Event} (he : isPingresp e = false) (w : Scripted) : Keeps readings w (w.log e) where
  timely ht := ⟨ht.notes, fun h => ht.taken (List.mem_append_left _ h), ht.ticks⟩
  ticks := List.suffix_refl _
  watched _ hw := by
    refine ⟨hw.ticks, ?_, hw.reports⟩
    have hcount : (w.log e).trace.countP isPingresp = w.trace.countP isPingresp := by simp [World.log, he]
    intro h
    obtain ⟨m0, hm, hc, hp, hs⟩ := hw.outstanding h
    exact ⟨m0, hm, hc, hp.trans hcount.symm, hs⟩

theorem pingreqs_append (notes notes' : List Note) : pingreqs (notes ++ notes') = pingreqs notes ++ pingreqs notes' :=
  List.filterMap_append

theorem note_keeps_of {n : Note} (h : Keeps readings w w')
    (hn : Timely w → Watched readings w → Watched readings w' → Justified readings w'.out.notes n) :
    Keeps readings w (writeNote n w') := by
  have htimely : Timely (writeNote n w') → Timely w' := fun ht =>
    ⟨fun m hm => ht.notes m (List.mem_append_left _ hm), ht.taken, ht.ticks⟩
  refine ⟨fun ht => h.timely (htimely ht), h.ticks, fun ht hw => ?_⟩
  have hw' := h.watched (htimely ht) hw
  refine ⟨hw'.ticks, ?_, throughout_concat.mpr ⟨hw'.reports, hn (h.timely (htimely ht)) hw hw'⟩⟩
  intro hping
  obtain ⟨m0, hm, hrest⟩ := hw'.outstanding hping
  refine ⟨m0, ?_, hrest⟩
  show m0 ∈ pingreqs (w'.out.notes ++ [n])
  rw [pingreqs_append]
  exact List.mem_append_left _ hm

/-- Any note but a report. -/
theorem note_keeps {n : Note} (hn : ∀ m, n ≠ .asked (.error .noPingResponse) m) (w : Scripted) :
    Keeps readings w (writeNote n w) :=
  note_keeps_of Keeps.rfl fun _ _ _ m hm => absurd hm (hn m)

theorem currentMs_keeps (w : Scripted) : Keeps readings w w.currentMs.2 := by
  unfold World.currentMs
  split
  · exact Keeps.rfl
  · rename_i t ticks ht
    have hsuffix : ticks <:+ w.ticks := by rw [ht]; exact List.suffix_cons t ticks
    refine ⟨fun h => ⟨h.notes, h.taken, by rw [ht]; exact List.cons_ne_nil _ _⟩, hsuffix, fun _ hw => ?_⟩
    refine ⟨hsuffix.trans hw.ticks, ?_, hw.reports⟩
    intro h
    obtain ⟨m0, hm, hc, hp, hsent, hlater⟩ := hw.outstanding h
    exact ⟨m0, hm, hc, hp, hsent, fun t ht => hlater t (hsuffix.mem ht)⟩

/-! ## The client -/

section Client

variable {perform : Entry → Scripted → Scripted} (hp : ∀ c w, Keeps readings w (perform c w))

include hp

theorem keeps_script : ScriptRules perform (· ≠ .error .noPingResponse) (Keeps readings) where
  refl _ := Keeps.rfl
  trans := Keeps.trans
  perform := hp
  asked w hx := note_keeps (by rintro m ⟨⟩; exact hx rfl) w
  answered _ _ w _ := note_keeps (by simp) w
  nextReaction _ _ := keeps_same (.refl _) (.refl _) (.refl _) (.refl _) (.refl _)
  nextCalls _ := keeps_same (.refl _) (.refl _) (.refl _) (.refl _) (.refl _)

theorem keeps_xio : XioRules (scriptXio perform) (Keeps readings) where
  refl _ := Keeps.rfl
  trans := Keeps.trans
  close _ _ w := (keeps_script hp).askTransport (by simp) w
  send _ _ w := (keeps_script hp).askTransport (by simp) w
  dowork _ w := (keeps_script hp).askTransport (by simp) w

theorem callOperation_keeps (o : Operation) (w : Scripted) : Keeps readings w ((scriptApp perform).callOperation o w) :=
  (log_keeps (.refl _) w).trans ((keeps_script hp).tellApplication (by simp) _)

theorem callDisconnected_keeps (w : Scripted) : Keeps readings w ((scriptApp perform).callDisconnected w) := by
  unfold App.callDisconnected
  split
  · exact Keeps.rfl
  · exact (log_keeps (.refl _) w).trans ((keeps_script hp).tellApplication (by simp) _)

omit hp in
theorem stamp_keeps (ms : UInt32) (data : List UInt8) (w : Scripted) : Keeps readings w (stamp ms data w) := by
  have hset : Keeps readings w { w with client := { w.client with packetSendTimeMs := ms } } :=
    keeps_same (.refl _) (.refl _) (.refl _) (.refl _) (.refl _)
  exact hset.trans (log_keeps (.refl _) _)

theorem keeps_rules : Rules (scriptXio perform) (scriptApp perform) (Keeps readings) where
  refl _ := Keeps.rfl
  trans := Keeps.trans
  idle h := keeps_same h.timeSincePing h.ticks h.trace (by rw [h.out]) (by rw [h.out])
  send := (keeps_xio hp).sendPacketItem currentMs_keeps stamp_keeps
  operation w _ := callOperation_keeps hp _ w
  message m w := (log_keeps (.refl _) w).trans ((keeps_script hp).tellApplication (by simp) _)
  error w he := by
    unfold App.callError
    split
    · exact (log_keeps (.refl _) w).trans ((keeps_script hp).tellApplication (by simpa using he) _)
    · exact Keeps.rfl
  close := (keeps_xio hp).closeConnection (fun w _ => callDisconnected_keeps hp w) fun w =>
    keeps_same (.refl _) (.refl _) (.refl _) (.refl _) (.refl _)

/-! ## PINGRESP -/

omit hp in
theorem decode_pingresp {client : MqttClient} {p : Packet} {ms : Mallocs} :
    (decode client p ms).verdict = .pingresp ↔ p.packet = .pingresp := by
  have hpublish : ∀ r len, (decodePublish p.flags r len ms).verdict ≠ .pingresp := by
    intro r len
    unfold decodePublish
    simp only
    repeat' split
    all_goals simp
  have hsuback : ∀ r len, (decodeSuback r len ms).verdict ≠ .pingresp := by
    intro r len
    unfold decodeSuback
    simp only
    split <;> simp
  unfold decode
  simp only
  split
  · rename_i h
    exact iff_of_false (by simp) h.2
  · split
    · rename_i h
      exact iff_of_false (by simp) h.2
    · cases p.packet <;> simp only [reduceCtorEq, iff_false]
      all_goals split <;> simp [hpublish, hsuback, decodeConnack, decodePublishAck, decodeUnsuback]

/-- A PINGRESP is counted and clears `timeSincePing` at once. -/
theorem recvComplete_keeps (p : Packet) (w : Scripted) :
    Keeps readings w (recvCompleteCallback (scriptXio perform) (scriptApp perform) p w) := by
  unfold recvCompleteCallback
  simp only
  by_cases hping : p.packet = .pingresp
  · have hcleared : Keeps readings w { w.log (.packet p) with
        mallocs := (decode w.client p w.mallocs).mallocs, client := { w.client with timeSincePing := 0 } } := by
      refine ⟨fun ht => ⟨ht.notes, fun h => ht.taken (List.mem_append_left _ h), ht.ticks⟩, List.suffix_refl _, ?_⟩
      exact fun _ hw => ⟨hw.ticks, fun h => absurd (.refl _) h, hw.reports⟩
    have hv : (decode w.client p w.mallocs).verdict = .pingresp := decode_pingresp.mpr hping
    simp only [World.log] at hcleared ⊢
    rw [hv]
    simp only [act]
    split
    · exact hcleared.trans (callOperation_keeps hp _ _)
    · exact hcleared
  · have hlog : Keeps readings w { w.log (.packet p) with mallocs := (decode w.client p w.mallocs).mallocs } := by
      have hother : isPingresp (.packet p) = false := by simp [isPingresp, hping]
      exact (log_keeps hother w).trans (keeps_same (.refl _) (.refl _) (.refl _) (.refl _) (.refl _))
    refine hlog.trans ((keeps_rules hp).steps.act (HandlerRules.decode_ne_noPingResponse _ _ _) ?_ ?_)
    · intro session code _
      have hop := callOperation_keeps hp (.connack session code)
        { w.log (.packet p) with mallocs := (decode w.client p w.mallocs).mallocs }
      simp only [act]
      split
      · exact hop.trans (keeps_same (.refl _) (.refl _) (.refl _) (.refl _) (.refl _))
      · exact hop
    · intro hv
      exact absurd (decode_pingresp.mp hv) hping

/-! ## The keep-alive -/

/-- A PINGREQ that is taken is outstanding when `xio_send` returns. -/
theorem sent_outstanding (hw : Watched readings w)
    (ht : Timely (sendPacketItem (scriptXio perform) pingreqPacket w).2) :
    ∃ m0 ∈ pingreqs (sendPacketItem (scriptXio perform) pingreqPacket w).2.out.notes,
      m0.connections = (sendPacketItem (scriptXio perform) pingreqPacket w).2.out.connections ∧
      m0.pingresps = (sendPacketItem (scriptXio perform) pingreqPacket w).2.trace.countP isPingresp ∧
      ∃ ticks, w.ticks = some m0.client.packetSendTimeMs :: ticks ∧
        (sendPacketItem (scriptXio perform) pingreqPacket w).2.ticks <:+ ticks := by
  have hsend := (keeps_rules hp).send pingreqPacket w
  obtain ⟨ms, ticks, hticks, hms⟩ := currentMs_reading (hsend.timely ht).ticks hw.ticks
  rw [sendPacketItem_stamp hms] at ht ⊢
  cases hx : w.client.xioHandle with
  | none =>
    have hnone : Event.send none pingreqPacket ∈ (stamp ms pingreqPacket { w with ticks := ticks }).trace := by
      simp [stamp, World.log, hx]
    simp only [hx] at ht
    exact absurd hnone ht.taken
  | some h =>
    simp only [hx] at ht ⊢
    obtain ⟨u, hu, hanswer⟩ := (keeps_script hp).askTransport_answered (x := .send h pingreqPacket)
      (stamp ms pingreqPacket { w with ticks := ticks }) (note_keeps (by simp) _)
    have hask : ((scriptXio perform).xioSend (some h) pingreqPacket (stamp ms pingreqPacket { w with ticks := ticks })).2 = _ :=
      hanswer
    rw [hask] at ht ⊢
    obtain ⟨hresult, hpingresps, hconnections⟩ := ht.notes _ (List.mem_append_right _ List.mem_cons_self) (.refl _)
    refine ⟨moment (nextReaction (.send h pingreqPacket) (stamp ms pingreqPacket { w with ticks := ticks })).2, ?_,
      hconnections.symm, hpingresps.symm, ticks, hticks, hu.ticks⟩
    simp only [writeNote, pingreqs_append, List.mem_append]
    exact Or.inr (by simp [pingreqs, hresult])

omit hp in
theorem overdue_seconds {now ping sent : UInt32} {max : UInt16} (hsent : sent ≤ ping) (hping : ping ≤ now)
    (hover : max.toUInt32 < (now - ping) / 1000) : max.toNat < (now.toNat - sent.toNat) / 1000 := by
  have hsub : (now - ping).toNat = now.toNat - ping.toNat := UInt32.toNat_sub_of_le _ _ hping
  have hlt := UInt32.lt_iff_toNat_lt.mp hover
  rw [UInt32.toNat_div, hsub, UInt16.toNat_toUInt32] at hlt
  have hle := UInt32.le_iff_toNat_le.mp hsent
  exact lt_of_lt_of_le hlt (Nat.div_le_div_right (Nat.sub_le_sub_left hle _))

/-- The report is about the PINGREQ that is outstanding. -/
theorem report_keeps {ms : UInt32} {v : Scripted} (hc : w.currentMs = (some ms, v)) (hping : 0 < v.client.timeSincePing)
    (hover : v.client.maxPingRespTime.toUInt32 < (ms - v.client.timeSincePing) / 1000) :
    Keeps readings w ((scriptApp perform).callError .noPingResponse v) := by
  have hv : Keeps readings w w.currentMs.2 := currentMs_keeps w
  rw [hc] at hv
  unfold App.callError
  split
  · obtain ⟨u, hu⟩ : ∃ u, u = (nextCalls (v.log (.error .noPingResponse))).2 := ⟨_, rfl⟩
    have hwu : Keeps readings w u := by
      rw [hu]
      exact (hv.trans (log_keeps (.refl _) v)).trans ((keeps_script hp).nextCalls _)
    have huv : u.client = v.client ∧ u.ticks = v.ticks := by rw [hu]; exact ⟨rfl, rfl⟩
    have hreport : Keeps readings w (writeNote (.asked (.error .noPingResponse) (moment u)) u) := by
      refine note_keeps_of hwu ?_
      rintro ht hw hw' m ⟨⟩
      obtain ⟨now, ticks, hticks, hms⟩ := currentMs_reading ht.ticks hw.ticks
      obtain ⟨rfl, rfl⟩ : now = ms ∧ { w with ticks := ticks } = v := by simpa [hms] using hc
      have hne : w.client.timeSincePing ≠ 0 := by
        rintro h0
        rw [show ({ w with ticks := ticks } : Scripted).client.timeSincePing = 0 from h0] at hping
        exact absurd hping (by decide)
      obtain ⟨m0, hm, hconn, hresp, hsent, -⟩ := hw'.outstanding (by rw [huv.1]; exact hne)
      obtain ⟨-, -, -, -, -, hlater⟩ := hw.outstanding hne
      obtain ⟨used, hused⟩ := hw.ticks
      refine ⟨m0, hm, now, ⟨used, ?_⟩, hconn, hresp, ?_⟩
      · rw [← hused, hticks]
        exact congrArg (fun l => used ++ some now :: l) huv.2.symm
      · rw [huv.1] at hsent
        have hnow : w.client.timeSincePing ≤ now := hlater now (by rw [hticks]; exact List.mem_cons_self)
        show u.client.maxPingRespTime.toNat < _
        rw [huv.1]
        exact overdue_seconds hsent hnow hover
    rw [hu] at hreport
    exact (keeps_script hp).tellApplication_of hreport fun _ _ _ => note_keeps (by simp) _
  · exact hv

/-- After a PINGREQ, the time is taken once more. -/
theorem ping_keeps (hs : readings.Pairwise (· ≤ ·)) {now : UInt32} {v : Scripted}
    (hc : (sendPacketItem (scriptXio perform) pingreqPacket w).2.currentMs = (some now, v)) :
    Keeps readings w { v with client := { v.client with timeSincePing := now } } := by
  have hsend := (keeps_rules hp).send pingreqPacket w
  have hsent := sent_outstanding hp (w := w)
  obtain ⟨u, hu⟩ : ∃ u, u = (sendPacketItem (scriptXio perform) pingreqPacket w).2 := ⟨_, rfl⟩
  rw [← hu] at hsend hsent hc
  have hms : Keeps readings u u.currentMs.2 := currentMs_keeps u
  rw [hc] at hms
  have hwv := hsend.trans hms
  have htimely : Timely { v with client := { v.client with timeSincePing := now } } → Timely v := fun ht =>
    ⟨ht.notes, ht.taken, ht.ticks⟩
  refine ⟨fun ht => hwv.timely (htimely ht), hwv.ticks, ?_⟩
  intro ht hw
  have hwatched := hwv.watched (htimely ht) hw
  refine ⟨hwatched.ticks, fun _ => ?_, hwatched.reports⟩
  have htu := hms.timely (htimely ht)
  have huw := hsend.watched htu hw
  obtain ⟨m0, hm, hconn, hresp, ticks, hticks, hsuffix⟩ := hsent hw htu
  obtain ⟨now', rest, hrest, hreading⟩ := currentMs_reading htu.ticks huw.ticks
  obtain ⟨rfl, rfl⟩ : now' = now ∧ { u with ticks := rest } = v := by simpa [hreading] using hc
  refine ⟨m0, hm, hconn, hresp, ?_, ?_⟩
  · exact reading_le hs (hticks ▸ hw.ticks) (hsuffix.mem (hrest ▸ List.mem_cons_self))
  · exact fun t ht => reading_le hs (hrest ▸ huw.ticks) ht

theorem keepAlive_keeps (hs : readings.Pairwise (· ≤ ·)) (w : Scripted) :
    Keeps readings w (keepAlive (scriptXio perform) (scriptApp perform) w) := by
  have hms : Keeps readings w w.currentMs.2 := currentMs_keeps w
  unfold keepAlive
  rcases hc : w.currentMs with ⟨ms, v⟩
  rw [hc] at hms
  cases ms with
  | none => exact hms
  | some ms =>
    simp only
    split
    · rename_i hover
      have hreport := report_keeps hp hc hover.1 hover.2
      exact (hreport.trans ((keeps_rules hp).close _)).trans (cleared_keeps _)
    · split
      · rcases hping : mqttCodecPing v.mallocs with ⟨_ | packet, ms'⟩
        · exact hms.trans (keeps_same (.refl _) (.refl _) (.refl _) (.refl _) (.refl _))
        · have hbytes : packet.bytes = pingreqPacket := constructHeaderOnly_bytes hping
          obtain ⟨u, hu⟩ : ∃ u, u = { v with mallocs := ms' } := ⟨_, rfl⟩
          have hwu : Keeps readings w u := by
            rw [hu]
            exact hms.trans (keeps_same (.refl _) (.refl _) (.refl _) (.refl _) (.refl _))
          simp only [hbytes, ← hu]
          split
          · rename_i hnow
            have hnone : Keeps readings (sendPacketItem (scriptXio perform) pingreqPacket u).2 _ := currentMs_keeps _
            rw [hnow] at hnone
            exact (hwu.trans ((keeps_rules hp).send _ u)).trans hnone
          · rename_i hnow
            exact hwu.trans (ping_keeps hp hs hnow)
      · exact hms

/-! ## Runs -/

omit hp in
/-- No PINGREQ is outstanding where a connection is taken. -/
theorem arrive_keeps (c : Entry) (w : Scripted) : Keeps readings w (arrive c w) := by
  have hnote : Keeps readings w (writeNote (.called c (moment w)) w) := note_keeps (by simp) w
  unfold arrive
  simp only
  split
  · rename_i htakes
    refine ⟨fun ht => hnote.timely ⟨ht.notes, ht.taken, ht.ticks⟩, hnote.ticks, fun ht hw => ?_⟩
    have hwatched := hnote.watched ⟨ht.notes, ht.taken, ht.ticks⟩ hw
    refine ⟨hwatched.ticks, fun hping => absurd ?_ hping, hwatched.reports⟩
    obtain ⟨rfl, hs⟩ := of_decide_eq_true htakes
    exact ht.notes _ (List.mem_append_right _ List.mem_cons_self) hs
  · exact hnote

theorem mqttClientConnect_keeps (h : XioHandle) (mqttOptions : MqttClientOptions) (w : Scripted) :
    Keeps readings w (mqttClientConnect (scriptXio perform) (some h) mqttOptions w).2 := by
  have htake : Keeps readings w (takeOptions h mqttOptions w).2 :=
    keeps_same (.refl _) (.refl _) (.refl _) (.refl _) (.refl _)
  exact mqttClientConnect_of (R := Keeps readings) Keeps.trans h mqttOptions w (fun _ => htake)
    (fun _ => htake.trans ((keeps_script hp).askTransport (x := .openIo h) (by simp) _))
    fun _ => keeps_same (.refl _) (.refl _) (.refl _) (.refl _) (.refl _)

theorem enter_keeps (hs : readings.Pairwise (· ≤ ·)) (c : Entry) (w : Scripted) :
    Keeps readings w (enter (scriptXio perform) (scriptApp perform) c w) := by
  have hr := keeps_rules hp
  have hset : ∀ {v v' : Scripted}, v'.client.timeSincePing = v.client.timeSincePing → v'.ticks = v.ticks →
      v'.trace = v.trace → v'.out = v.out → Keeps readings v v' := by
    intro v v' hping hticks htrace hout
    exact keeps_same hping hticks htrace (by rw [hout]) (by rw [hout])
  refine hr.steps.enter c w ?_ ?_ ?_ ?_ (recvComplete_keeps hp) (fun h w => (keeps_xio hp).dowork h w) (keepAlive_keeps hp hs)
  · intro _ _
    exact hr.onOpenComplete .ok w fun _ _ => hset (.refl _) (.refl _) (.refl _) (.refl _)
  · intro _
    have hdrop : Keeps readings w { w with client := { w.client with socketConnected := false, clientConnected := false } } :=
      hset (.refl _) (.refl _) (.refl _) (.refl _)
    exact hdrop.trans (callDisconnected_keeps hp _)
  · exact fun h mqttOptions _ => mqttClientConnect_keeps hp h mqttOptions w
  · intro callback _
    refine hr.mqttClientDisconnect callback w fun v _ hwv => ?_
    exact hwv.trans (hset (.refl _) (.refl _) (.refl _) (.refl _))

end Client

theorem perform_keeps (hs : readings.Pairwise (· ≤ ·)) (n : Nat) (c : Entry) (w : Scripted) :
    Keeps readings w (perform n c w) := by
  induction n generalizing c w with
  | zero => exact Keeps.rfl
  | succ n ih => exact (arrive_keeps c w).trans (enter_keeps ih hs c _)

theorem performAll_keeps (hs : readings.Pairwise (· ≤ ·)) (n : Nat) (calls : List Entry) (w : Scripted) :
    Keeps readings w (performAll n calls w) :=
  performAll_of (fun _ => Keeps.rfl) Keeps.trans (perform_keeps hs n) calls w

theorem reports_justified (n : Nat) (calls : List Entry) (msgRecv opCallback onErrorCallBack : Bool) (mallocs : Mallocs)
    (readings : List UInt32) (transport : List Reaction) (application : List (List ApiCall))
    (hs : readings.Pairwise (· ≤ ·))
    (ht : Timely (clocked n calls (.init msgRecv opCallback onErrorCallBack) mallocs readings transport application)) :
    Throughout (Justified readings)
      (clocked n calls (.init msgRecv opCallback onErrorCallBack) mallocs readings transport application).out.notes := by
  have hstart : Watched readings
      (scripted (.init msgRecv opCallback onErrorCallBack) mallocs (readings.map some) transport application) :=
    ⟨List.suffix_refl _, fun h => absurd (.refl _) h, throughout_nil⟩
  exact ((performAll_keeps hs n calls _).watched ht hstart).reports

/-! ## PINGREQ packets without an answer -/

def shortReadings : List UInt32 := [1000, 5000, 5000, 5000, 8000, 9000]

def unanswered : Scripted :=
  clocked 4 [.api (.connect 0 fourSeconds), .api .dowork, .api .dowork] (.init true true true) [] shortReadings
    [⟨[.openComplete .ok], 0⟩, ⟨[], 0⟩, ⟨[.bytesReceived acceptedConnack], 0⟩, ⟨[], 0⟩, ⟨[], 0⟩, ⟨[.closeComplete], 0⟩] []

theorem unanswered_justified :
    Event.error .noPingResponse ∈ unanswered.trace ∧ Throughout (Justified shortReadings) unanswered.out.notes :=
  ⟨by decide +kernel,
    reports_justified 4 _ true true true [] shortReadings _ [] (by decide)
      ⟨by decide +kernel, by decide +kernel, by decide +kernel⟩⟩

def longReadings : List UInt32 := [1000, 5000, 5000, 5000, 6000, 8000, 9000]

def reconnected : Scripted :=
  clocked 4
    [.api (.connect 0 fourSeconds), .api .dowork, .transport .ioError, .api (.connect 1 fourSeconds), .api .dowork]
    (.init true true true) [] longReadings
    [⟨[.openComplete .ok], 0⟩, ⟨[], 0⟩, ⟨[.bytesReceived acceptedConnack], 0⟩, ⟨[], 0⟩, ⟨[.closeComplete], 0⟩, ⟨[], 0⟩,
      ⟨[.openComplete .ok], 0⟩, ⟨[], 0⟩, ⟨[.bytesReceived acceptedConnack], 0⟩, ⟨[.closeComplete], 0⟩] []

def reports (notes : List Note) : List Moment :=
  notes.filterMap fun n => match n with
    | .asked (.error .noPingResponse) m => some m
    | _ => none

theorem ping_outlives_connection :
    (longReadings.Pairwise (· ≤ ·) ∧ 0 ∉ longReadings ∧ reconnected.ticks ≠ []) ∧
      ¬ Throughout (Justified longReadings) reconnected.out.notes := by
  refine ⟨by decide +kernel, fun h => ?_⟩
  have hstale : ∃ m ∈ reports reconnected.out.notes, ∀ m0 ∈ pingreqs reconnected.out.notes, m0.connections ≠ m.connections := by
    decide +kernel
  obtain ⟨m, hm, hother⟩ := hstale
  obtain ⟨n, hn, hreport⟩ := List.mem_filterMap.mp hm
  obtain ⟨before, after, hnotes⟩ := List.append_of_mem hn
  have hasked : n = .asked (.error .noPingResponse) m := by
    split at hreport
    · obtain rfl := Option.some.inj hreport
      rfl
    · cases hreport
  obtain ⟨m0, hm0, -, -, hconn, -⟩ := h before n after hnotes m hasked
  refine hother m0 ?_ hconn
  rw [hnotes, pingreqs_append]
  exact List.mem_append_left _ hm0

end UMqtt.Client.PingTimeout

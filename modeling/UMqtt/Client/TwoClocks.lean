/-
  UMqtt.Client.TwoClocks — two clients that nothing but their clocks tells apart.

  The second world is the first with other times stored, later readings to come and other notes
  (`recast`): its clock is ahead by `c`. Whether the stored times are ahead by `c` too, or do not
  matter any more, is the `Mode` of the pair.

  The client itself looks at its times in `keepAlive` only, so every other handler and every
  other call takes such a pair to such a pair, in each of the modes (`perform_beside`). Left out
  are the calls that take a connection, and `mqtt_client_dowork`.
-/

import UMqtt.Client.Surroundings

namespace UMqtt.Client.TwoClocks

open UMqtt.Lib UMqtt.Crt UMqtt.Codec UMqtt.Io

/-! ## Calls of a client that stays connected -/

/-- Neither the start of a connection, nor `mqtt_client_dowork`. -/
def Steady : Entry → Prop
  | .transport (.openComplete _) => False
  | .api (.connect _ _) => False
  | .api .dowork => False
  | _ => True

instance : DecidablePred Steady := fun e => by
  unfold Steady
  split <;> infer_instance

structure SteadyScript (transport : List Reaction) (application : List (List ApiCall)) : Prop where
  transport : ∀ r ∈ transport, ∀ e ∈ r.calls, Steady (.transport e)
  application : ∀ cs ∈ application, ∀ e ∈ cs, Steady (.api e)

/-! ## Pairs -/

/-- Other times, other readings to come, other notes. -/
def recast (sent ping : UInt32) (ticks : List (Option UInt32)) (notes : List Note) (w : Scripted) : Scripted :=
  { w with
    client := { w.client with packetSendTimeMs := sent, timeSincePing := ping }
    ticks := ticks
    out := { w.out with notes := notes } }

def shiftReadings (c : UInt32) (ticks : List (Option UInt32)) : List (Option UInt32) := ticks.map (Option.map (· + c))

/-- The time of an outstanding PINGREQ; 0 says that there is none. -/
def shiftPing (c ping : UInt32) : UInt32 := if ping = 0 then 0 else ping + c

/-- The stored times of the second client are the first one's, `c` later. -/
structure Shifted (c : UInt32) (client client' : MqttClient) : Prop where
  sent : client'.packetSendTimeMs = client.packetSendTimeMs + c
  ping : client'.timeSincePing = shiftPing c client.timeSincePing
  outstanding : client'.timeSincePing = 0 ↔ client.timeSincePing = 0

/-- Neither clock reads 0, or both do. -/
def Clear (c t : UInt32) : Prop := t = 0 ↔ t + c = 0

instance (c t : UInt32) : Decidable (Clear c t) := by
  unfold Clear
  infer_instance

/-- A client without its transport or its socket looks at no time. -/
inductive Mode where
  | shifted
  | noHandle
  | noSocket

/-- Behind the last reading there is nothing to compare. -/
def Clocks (c : UInt32) : Mode → Scripted → MqttClient → Prop
  | .shifted, w, client' => w.ticks = [] ∨ Shifted c w.client client'
  | .noHandle, w, _ => w.client.xioHandle = none
  | .noSocket, w, _ => w.client.socketConnected = false

structure Beside (c : UInt32) (m : Mode) (w w' : Scripted) : Prop where
  same : ∃ sent ping notes, w' = recast sent ping (shiftReadings c w.ticks) notes w
  clocks : Clocks c m w w'.client
  steady : SteadyScript w.out.transport w.out.application

/-- `g` has nothing to do with the times, and connects nothing. -/
structure Indifferent (g : Scripted → Scripted) : Prop where
  recast : ∀ sent ping ticks notes w, g (recast sent ping ticks notes w) = recast sent ping ticks notes (g w)
  sent : ∀ w, (g w).client.packetSendTimeMs = w.client.packetSendTimeMs
  ping : ∀ w, (g w).client.timeSincePing = w.client.timeSincePing
  ticks : ∀ w, (g w).ticks = w.ticks
  xioHandle : ∀ w, w.client.xioHandle = none → (g w).client.xioHandle = none
  socketConnected : ∀ w, w.client.socketConnected = false → (g w).client.socketConnected = false
  steady : ∀ w, SteadyScript w.out.transport w.out.application →
    SteadyScript (g w).out.transport (g w).out.application

section Pairs

variable {c : UInt32} {m : Mode} {w w' : Scripted}

theorem Beside.map (h : Beside c m w w') {g : Scripted → Scripted} (hg : Indifferent g) : Beside c m (g w) (g w') := by
  obtain ⟨sent, ping, notes, rfl⟩ := h.same
  refine ⟨⟨sent, ping, notes, by rw [hg.recast, hg.ticks]⟩, ?_, hg.steady w h.steady⟩
  have hclocks := h.clocks
  rw [hg.recast]
  cases m with
  | shifted =>
    rcases hclocks with ht | hs
    · exact Or.inl ((hg.ticks w).trans ht)
    · refine Or.inr ⟨hs.sent.trans ?_, hs.ping.trans ?_, ?_⟩
      · rw [hg.sent]
      · rw [hg.ping]
      · rw [hg.ping]; exact hs.outstanding
  | noHandle => exact hg.xioHandle w hclocks
  | noSocket => exact hg.socketConnected w hclocks

/-- What is not of the times is the same of both. -/
theorem Beside.read (h : Beside c m w w') {α : Type} (k : Scripted → α)
    (hk : ∀ sent ping ticks notes w, k (recast sent ping ticks notes w) = k w) : k w' = k w := by
  obtain ⟨sent, ping, notes, rfl⟩ := h.same
  exact hk _ _ _ _ w

theorem Beside.ticks (h : Beside c m w w') : w'.ticks = shiftReadings c w.ticks := by
  obtain ⟨sent, ping, notes, rfl⟩ := h.same
  rfl

theorem Beside.note (h : Beside c m w w') (n n' : Note) : Beside c m (writeNote n w) (writeNote n' w') := by
  obtain ⟨sent, ping, notes, rfl⟩ := h.same
  have hclocks := h.clocks
  refine ⟨⟨sent, ping, notes ++ [n'], rfl⟩, ?_, h.steady⟩
  cases m with
  | shifted => exact hclocks
  | noHandle => exact hclocks
  | noSocket => exact hclocks

theorem Beside.log (h : Beside c m w w') (e : Event) : Beside c m (w.log e) (w'.log e) :=
  h.map (g := fun w => w.log e) (by constructor <;> intros <;> first | rfl | assumption)

theorem Beside.withMallocs (h : Beside c m w w') (ms : Mallocs) : Beside c m { w with mallocs := ms } { w' with mallocs := ms } :=
  h.map (g := fun w => { w with mallocs := ms }) (by constructor <;> intros <;> first | rfl | assumption)

/-- The next reading is a failure of both, or `c` later of the second. -/
theorem Beside.currentMs (h : Beside c m w w') :
    ∃ ms v v', w.currentMs = (ms, v) ∧ w'.currentMs = ((if w.ticks = [] then ms else ms.map (· + c)), v') ∧
      v.client = w.client ∧ v'.client = w'.client ∧ (w.ticks = [] → v.ticks = []) ∧ Beside c m v v' := by
  have ht := h.ticks
  have hclocks := h.clocks
  cases hw : w.ticks with
  | nil =>
    rw [hw] at ht
    exact ⟨some 0, w, w', by simp only [World.currentMs, hw], by simp only [World.currentMs, ht, shiftReadings, List.map_nil, if_true],
      rfl, rfl, fun _ => hw, h⟩
  | cons t ticks =>
    rw [hw] at ht
    refine ⟨t, { w with ticks := ticks }, { w' with ticks := shiftReadings c ticks }, by simp only [World.currentMs, hw],
      by simp only [World.currentMs, ht, shiftReadings, List.map_cons, if_neg (List.cons_ne_nil t ticks)], rfl, rfl,
      fun he => absurd he (List.cons_ne_nil _ _), ?_⟩
    obtain ⟨sent, ping, notes, rfl⟩ := h.same
    refine ⟨⟨sent, ping, notes, rfl⟩, ?_, h.steady⟩
    cases m with
    | shifted => exact Or.inr (hclocks.resolve_left (by rw [hw]; exact List.cons_ne_nil t ticks))
    | noHandle => exact hclocks
    | noSocket => exact hclocks

/-- Both note the time of a send. -/
theorem Beside.stamp (h : Beside c m w w') {ms ms' : UInt32} (hms : w.ticks = [] ∨ ms' = ms + c) (data : List UInt8) :
    Beside c m (Client.stamp ms data w) (Client.stamp ms' data w') := by
  have hclocks := h.clocks
  obtain ⟨sent, ping, notes, rfl⟩ := h.same
  refine ⟨⟨ms', ping, notes, rfl⟩, ?_, h.steady⟩
  cases m with
  | shifted =>
    rcases hclocks with ht | hs
    · exact Or.inl ht
    · rcases hms with ht | hms
      · exact Or.inl ht
      · exact Or.inr ⟨hms, hs.ping, hs.outstanding⟩
  | noHandle => exact hclocks
  | noSocket => exact hclocks

/-- A PINGRESP leaves neither of them a time to compare. -/
theorem Beside.answered (h : Beside c m w w') : Beside c m { w with client := { w.client with timeSincePing := 0 } }
    { w' with client := { w'.client with timeSincePing := 0 } } := by
  have hclocks := h.clocks
  obtain ⟨sent, ping, notes, rfl⟩ := h.same
  refine ⟨⟨sent, 0, notes, rfl⟩, ?_, h.steady⟩
  cases m with
  | shifted => exact hclocks.imp id fun hs => ⟨hs.sent, rfl, Iff.rfl⟩
  | noHandle => exact hclocks
  | noSocket => exact hclocks

/-- A PINGREQ is outstanding of both. -/
theorem Beside.pinged (h : Beside c .shifted w w') {now : UInt32} (hnow : Clear c now) :
    Beside c .shifted { w with client := { w.client with timeSincePing := now } }
      { w' with client := { w'.client with timeSincePing := now + c } } := by
  have hclocks := h.clocks
  obtain ⟨sent, ping, notes, rfl⟩ := h.same
  refine ⟨⟨sent, now + c, notes, rfl⟩, hclocks.imp id fun hs => ⟨hs.sent, ?_, hnow.symm⟩, h.steady⟩
  show now + c = shiftPing c now
  unfold shiftPing
  split
  · rename_i h0
    exact hnow.mp h0
  · rfl

/-- Both miss the answer, or neither. -/
theorem Shifted.overdue {client client' : MqttClient} (h : Shifted c client client') (max : UInt32) (ms : UInt32) :
    (0 < client'.timeSincePing ∧ max < (ms + c - client'.timeSincePing) / 1000) ↔
      (0 < client.timeSincePing ∧ max < (ms - client.timeSincePing) / 1000) := by
  by_cases h0 : client.timeSincePing = 0
  · have h0' := h.outstanding.mpr h0
    rw [h0, h0']
    exact ⟨fun hlt => absurd hlt.1 (by decide), fun hlt => absurd hlt.1 (by decide)⟩
  · have h0' : client'.timeSincePing ≠ 0 := fun he => h0 (h.outstanding.mp he)
    have hpos : 0 < client.timeSincePing := UInt32.pos_iff_ne_zero.mpr h0
    have hpos' : 0 < client'.timeSincePing := UInt32.pos_iff_ne_zero.mpr h0'
    have hsub : ms + c - client'.timeSincePing = ms - client.timeSincePing := by
      rw [h.ping, shiftPing, if_neg h0, add_sub_add_right_eq_sub]
    rw [hsub]
    exact ⟨fun hlt => ⟨hpos, hlt.2⟩, fun hlt => ⟨hpos', hlt.2⟩⟩

/-- Both are due for a PINGREQ, or neither. -/
theorem Shifted.due {client client' : MqttClient} (h : Shifted c client client') (ms : UInt32) :
    ms + c - client'.packetSendTimeMs = ms - client.packetSendTimeMs := by
  rw [h.sent, add_sub_add_right_eq_sub]

/-- A world beside itself. -/
theorem beside_self (hc : Clocks 0 m w w.client) (hs : SteadyScript w.out.transport w.out.application) : Beside 0 m w w := by
  refine ⟨⟨w.client.packetSendTimeMs, w.client.timeSincePing, w.out.notes, ?_⟩, hc, hs⟩
  have hticks : shiftReadings 0 w.ticks = w.ticks := by simp [shiftReadings]
  rw [hticks]
  rfl

theorem Beside.timeless (h : Beside c m w w') (hk : w.client.xioHandle = none ∨ w.client.socketConnected = false) :
    ∃ k ≠ .shifted, Beside c k w w' := by
  rcases hk with hx | hx
  · exact ⟨.noHandle, nofun, h.same, hx, h.steady⟩
  · exact ⟨.noSocket, nofun, h.same, hx, h.steady⟩

/-- Where times do not matter, any will do. -/
theorem Beside.retime (h : Beside c m w w') (hm : m ≠ .shifted) (sent sent' ping ping' : UInt32) :
    Beside c m { w with client := { w.client with timeSincePing := ping, packetSendTimeMs := sent } }
      { w' with client := { w'.client with timeSincePing := ping', packetSendTimeMs := sent' } } := by
  have hclocks := h.clocks
  obtain ⟨_, _, notes, rfl⟩ := h.same
  refine ⟨⟨sent', ping', notes, rfl⟩, ?_, h.steady⟩
  cases m with
  | shifted => exact absurd rfl hm
  | noHandle => exact hclocks
  | noSocket => exact hclocks

end Pairs

/-! ## Answers of the surroundings -/

section Client

variable {c : UInt32} {m : Mode} {perform : Entry → Scripted → Scripted}
  (hp : ∀ e, Steady e → ∀ {w w'}, Beside c m w w' → Beside c m (perform e w) (perform e w')) {w w' : Scripted}

include hp

theorem calls_beside (calls : List Entry) (hcalls : ∀ e ∈ calls, Steady e) (h : Beside c m w w') :
    Beside c m (calls.foldl (fun w e => perform e w) w) (calls.foldl (fun w e => perform e w) w') := by
  induction calls generalizing w w' with
  | nil => exact h
  | cons e calls ih =>
    exact ih (fun e he => hcalls e (List.mem_cons_of_mem _ he)) (hp e (hcalls e List.mem_cons_self) h)

theorem meanwhile_beside (x : Exit) {calls : List Entry} (hcalls : ∀ e ∈ calls, Steady e) (result : Nat) (h : Beside c m w w') :
    Beside c m (meanwhile perform x calls result w) (meanwhile perform x calls result w') :=
  (calls_beside hp calls hcalls (h.note _ _)).note _ _

theorem askTransport_beside (x : Exit) (h : Beside c m w w') :
    Beside c m (askTransport perform x w).2 (askTransport perform x w').2 := by
  have hreaction : (nextReaction x w').1 = (nextReaction x w).1 := h.read (fun w => (nextReaction x w).1) fun _ _ _ _ _ => rfl
  have hcalls : ∀ e ∈ (nextReaction x w).1.calls.map Entry.transport, Steady e := by
    intro e he
    obtain ⟨t, ht, rfl⟩ := List.mem_map.mp he
    have hsteady := h.steady.transport
    unfold nextReaction at ht
    cases hr : w.out.transport with
    | nil => simp [hr] at ht
    | cons r rs => exact hsteady r (by rw [hr]; exact List.mem_cons_self) t (by simpa [hr] using ht)
  have hnext : Beside c m (nextReaction x w).2 (nextReaction x w').2 := by
    refine h.map (g := fun w => (nextReaction x w).2) ⟨fun _ _ _ _ _ => rfl, fun _ => rfl, fun _ => rfl, fun _ => rfl,
      fun _ h => h, fun _ h => h, fun w h => ⟨fun r hr => h.transport r (List.mem_of_mem_tail hr), h.application⟩⟩
  simp only [askTransport, hreaction]
  exact meanwhile_beside hp x hcalls _ hnext

theorem tellApplication_beside (x : Exit) (h : Beside c m w w') :
    Beside c m (tellApplication perform x w) (tellApplication perform x w') := by
  have hanswer : (nextCalls w').1 = (nextCalls w).1 := h.read (fun w => (nextCalls w).1) fun _ _ _ _ _ => rfl
  have hcalls : ∀ e ∈ (nextCalls w).1.map Entry.api, Steady e := by
    intro e he
    obtain ⟨t, ht, rfl⟩ := List.mem_map.mp he
    have hsteady := h.steady.application
    unfold nextCalls at ht
    cases hr : w.out.application with
    | nil => simp [hr] at ht
    | cons r rs => exact hsteady r (by rw [hr]; exact List.mem_cons_self) t (by simpa [hr] using ht)
  have hnext : Beside c m (nextCalls w).2 (nextCalls w').2 := by
    refine h.map (g := fun w => (nextCalls w).2) ⟨fun _ _ _ _ _ => rfl, fun _ => rfl, fun _ => rfl, fun _ => rfl,
      fun _ h => h, fun _ h => h, fun w h => ⟨h.transport, fun r hr => h.application r (List.mem_of_mem_tail hr)⟩⟩
  simp only [tellApplication, hanswer]
  exact meanwhile_beside hp x hcalls _ hnext

theorem callOperation_beside (o : Operation) (h : Beside c m w w') :
    Beside c m ((scriptApp perform).callOperation o w) ((scriptApp perform).callOperation o w') :=
  tellApplication_beside hp _ (h.log _)

theorem callMessage_beside (msg : Message) (h : Beside c m w w') :
    Beside c m ((scriptApp perform).callMessage msg w) ((scriptApp perform).callMessage msg w') :=
  tellApplication_beside hp _ (h.log _)

theorem callError_beside (e : EventError) (h : Beside c m w w') :
    Beside c m ((scriptApp perform).callError e w) ((scriptApp perform).callError e w') := by
  simp only [App.callError, h.read (fun w => w.client.fnOnErrorCallBack) fun _ _ _ _ _ => rfl]
  split
  · exact tellApplication_beside hp _ (h.log _)
  · exact h

theorem callDisconnected_beside (h : Beside c m w w') :
    Beside c m ((scriptApp perform).callDisconnected w) ((scriptApp perform).callDisconnected w') := by
  simp only [App.callDisconnected, h.read (fun w => w.client.disconnectCb) fun _ _ _ _ _ => rfl]
  split
  · exact h
  · exact tellApplication_beside hp _ (h.log _)

/-! ## Handlers -/

theorem close_beside (handle : Option XioHandle) (callback : Bool) (h : Beside c m w w') :
    Beside c m ((scriptXio perform).xioClose handle callback w).2 ((scriptXio perform).xioClose handle callback w').2 := by
  cases handle with
  | none => exact h
  | some handle => exact askTransport_beside hp _ h

theorem send_beside (handle : Option XioHandle) (bytes : List UInt8) (h : Beside c m w w') :
    Beside c m ((scriptXio perform).xioSend handle bytes w).2 ((scriptXio perform).xioSend handle bytes w').2 := by
  cases handle with
  | none => exact h
  | some handle => exact askTransport_beside hp _ h

theorem dowork_beside (handle : Option XioHandle) (h : Beside c m w w') :
    Beside c m ((scriptXio perform).xioDowork handle w) ((scriptXio perform).xioDowork handle w') := by
  cases handle with
  | none => exact h
  | some handle => exact askTransport_beside hp _ h

theorem closeLoop_beside (retries : Nat) (h : Beside c m w w') :
    Beside c m (closeLoop (scriptXio perform) retries w) (closeLoop (scriptXio perform) retries w') := by
  induction retries generalizing w w' with
  | zero => exact h
  | succ retries ih =>
    have hround := dowork_beside hp w.client.xioHandle h
    unfold closeLoop
    simp only [h.read (fun w => w.client.xioHandle) fun _ _ _ _ _ => rfl,
      hround.read (fun w => w.client.clientConnected) fun _ _ _ _ _ => rfl]
    split
    · exact ih hround
    · exact hround

theorem closeConnection_beside (h : Beside c m w w') :
    Beside c m (closeConnection (scriptXio perform) (scriptApp perform) w)
      (closeConnection (scriptXio perform) (scriptApp perform) w') := by
  have hclose := close_beside hp w.client.xioHandle true h
  have hrelease : ∀ {v v' : Scripted}, Beside c m v v' →
      Beside c m { v with client := { v.client with xioHandle := none } } { v' with client := { v'.client with xioHandle := none } } :=
    fun hv => hv.map (g := fun v => { v with client := { v.client with xioHandle := none } })
      (by constructor <;> intros <;> first | rfl | assumption)
  simp only [closeConnection, h.read (fun w => w.client.socketConnected) fun _ _ _ _ _ => rfl,
    h.read (fun w => w.client.xioHandle) fun _ _ _ _ _ => rfl, hclose.read (fun w => w.client.disconnectCb) fun _ _ _ _ _ => rfl]
  split
  · split
    · exact hrelease (closeLoop_beside hp _ hclose)
    · exact hrelease hclose
  · exact callDisconnected_beside hp h

theorem setErrorCallback_beside (e : EventError) (h : Beside c m w w') :
    Beside c m (setErrorCallback (scriptXio perform) (scriptApp perform) e w)
      (setErrorCallback (scriptXio perform) (scriptApp perform) e w') :=
  closeConnection_beside hp (callError_beside hp e h)

theorem sendComplete_beside (r : SendResult) (h : Beside c m w w') :
    Beside c m (sendComplete (scriptXio perform) (scriptApp perform) r w)
      (sendComplete (scriptXio perform) (scriptApp perform) r w') := by
  cases r with
  | ok =>
    simp only [sendComplete, h.read (fun w => w.client.packetState) fun _ _ _ _ _ => rfl,
      h.read (fun w => w.client.fnOperationCallback) fun _ _ _ _ _ => rfl]
    split
    · split
      · exact closeConnection_beside hp (callOperation_beside hp _ h)
      · exact closeConnection_beside hp h
    · exact h
  | error => exact setErrorCallback_beside hp _ h
  | cancelled => exact h

theorem onIoError_beside (h : Beside c m w w') :
    Beside c m (onIoError (scriptXio perform) (scriptApp perform) w) (onIoError (scriptXio perform) (scriptApp perform) w') := by
  simp only [onIoError, h.read (fun w => w.client.fnOperationCallback) fun _ _ _ _ _ => rfl]
  split
  · exact setErrorCallback_beside hp _ h
  · exact h

theorem onConnectionClosed_beside (h : Beside c m w w') :
    Beside c m (onConnectionClosed (scriptApp perform) w) (onConnectionClosed (scriptApp perform) w') := by
  have hdrop := h.map (g := fun w => { w with client := { w.client with socketConnected := false, clientConnected := false } })
    (by constructor <;> intros <;> first | rfl | assumption)
  exact callDisconnected_beside hp hdrop

/-! ## Packets -/

theorem sendPacketItem_beside (data : List UInt8) (h : Beside c m w w') :
    Beside c m (sendPacketItem (scriptXio perform) data w).2 (sendPacketItem (scriptXio perform) data w').2 := by
  obtain ⟨ms, v, v', hv, hv', -, -, hticks, hvv⟩ := h.currentMs
  cases ms with
  | none =>
    simp only [sendPacketItem, hv, hv', Option.map_none, ite_self]
    exact hvv
  | some ms =>
    obtain ⟨ms', hms', hms⟩ : ∃ ms', w'.currentMs = (some ms', v') ∧ (v.ticks = [] ∨ ms' = ms + c) := by
      rw [hv']
      by_cases ht : w.ticks = []
      · exact ⟨ms, by rw [if_pos ht], Or.inl (hticks ht)⟩
      · exact ⟨ms + c, by rw [if_neg ht, Option.map_some], Or.inr rfl⟩
    rw [sendPacketItem_stamp hv, sendPacketItem_stamp hms', hvv.read (fun w => w.client.xioHandle) fun _ _ _ _ _ => rfl]
    exact send_beside hp _ _ (hvv.stamp hms data)

theorem sendReply_beside (reply : UInt16 → Mallocs → Option Buffer × Mallocs) (packetId : UInt16) (h : Beside c m w w') :
    Beside c m (sendReply (scriptXio perform) (scriptApp perform) reply packetId w)
      (sendReply (scriptXio perform) (scriptApp perform) reply packetId w') := by
  simp only [sendReply, h.read (fun w => w.mallocs) fun _ _ _ _ _ => rfl]
  rcases reply packetId w.mallocs with ⟨_ | packet, ms⟩
  · exact setErrorCallback_beside hp _ (h.withMallocs ms)
  · exact sendPacketItem_beside hp _ (h.withMallocs ms)

theorem act_beside (verdict : Verdict) (h : Beside c m w w') :
    Beside c m (act (scriptXio perform) (scriptApp perform) verdict w) (act (scriptXio perform) (scriptApp perform) verdict w') := by
  cases verdict with
  | ignored => exact h
  | connack session code =>
    have ho := callOperation_beside hp (.connack session code) h
    simp only [act]
    split
    · exact ho.map (g := fun w => { w with client := { w.client with clientConnected := true } })
        (by constructor <;> intros <;> first | rfl | assumption)
    · exact ho
  | publish msg =>
    have hm := callMessage_beside hp msg h
    simp only [act]
    split
    · exact sendReply_beside hp _ _ hm
    · exact sendReply_beside hp _ _ hm
    · exact hm
  | publishAck packet packetId =>
    have ho := callOperation_beside hp (publishAction packet packetId) h
    simp only [act]
    split
    · exact sendReply_beside hp _ _ ho
    · exact sendReply_beside hp _ _ ho
    · exact ho
  | subscribeAck packetId codes => exact callOperation_beside hp _ h
  | unsubscribeAck packetId => exact callOperation_beside hp _ h
  | pingresp =>
    have hcallback : w'.client.fnOperationCallback = w.client.fnOperationCallback :=
      h.read (fun w => w.client.fnOperationCallback) fun _ _ _ _ _ => rfl
    simp only [act]
    by_cases ho : w.client.fnOperationCallback = true
    · rw [if_pos ho, if_pos (hcallback.trans ho)]
      exact callOperation_beside hp _ h.answered
    · rw [if_neg ho, if_neg (hcallback ▸ ho)]
      exact h.answered
  | error e => exact setErrorCallback_beside hp e h
  | nullWrite =>
    exact h.map (g := fun w => { w with crashed := true }) (by constructor <;> intros <;> first | rfl | assumption)

theorem recvComplete_beside (p : Packet) (h : Beside c m w w') :
    Beside c m (recvCompleteCallback (scriptXio perform) (scriptApp perform) p w)
      (recvCompleteCallback (scriptXio perform) (scriptApp perform) p w') := by
  have hdecoded : decode w'.client p w'.mallocs = decode w.client p w.mallocs :=
    h.read (fun w => decode w.client p w.mallocs) fun _ _ _ _ _ => rfl
  have hd := (h.log (.packet p)).withMallocs (decode w.client p w.mallocs).mallocs
  have hclient : decode (w'.log (.packet p)).client p (w'.log (.packet p)).mallocs = decode w.client p w.mallocs := hdecoded
  have hclient' : decode (w.log (.packet p)).client p (w.log (.packet p)).mallocs = decode w.client p w.mallocs := rfl
  simp only [recvCompleteCallback, hclient, hclient']
  exact act_beside hp _ hd

theorem onBytesReceived_beside (buffer : List UInt8) (h : Beside c m w w') :
    Beside c m (onBytesReceived (scriptXio perform) (scriptApp perform) buffer w)
      (onBytesReceived (scriptXio perform) (scriptApp perform) buffer w') := by
  have hbytes := bytesReceived_rel (s := World.codecSlot) (t := World.codecSlot) (R := Beside c m)
    (fun {w w'} h => h.read (fun w => World.codecSlot.get w) fun _ _ _ _ _ => rfl)
    (fun x h => h.map (g := fun w => World.codecSlot.set x w) (by constructor <;> intros <;> first | rfl | assumption))
    (recvComplete_beside hp) buffer h
  simp only [onBytesReceived, ← hbytes.1]
  split
  · exact setErrorCallback_beside hp _ hbytes.2
  · exact hbytes.2

/-! ## Calls -/

theorem sendBuilt_beside (type : ControlPacketType) (packet : Option Buffer × Mallocs) (h : Beside c m w w') :
    Beside c m (sendBuilt (scriptXio perform) type packet w).2 (sendBuilt (scriptXio perform) type packet w').2 := by
  rcases packet with ⟨_ | packet, ms⟩
  · exact h.withMallocs ms
  · have hstate := h.map (g := fun w => { w with mallocs := ms, client := { w.client with packetState := type } })
      (by constructor <;> intros <;> first | rfl | assumption)
    exact sendPacketItem_beside hp _ hstate

theorem mqttClientDisconnect_beside (callback : Option Nat) (h : Beside c m w w') :
    Beside c m (mqttClientDisconnect (scriptXio perform) (scriptApp perform) callback w).2
      (mqttClientDisconnect (scriptXio perform) (scriptApp perform) callback w').2 := by
  have hconnected : w'.client.clientConnected = w.client.clientConnected :=
    h.read (fun w => w.client.clientConnected) fun _ _ _ _ _ => rfl
  have hmallocs : w'.mallocs = w.mallocs := h.read (fun w => w.mallocs) fun _ _ _ _ _ => rfl
  by_cases hc : w.client.clientConnected = true
  · have hforget : ∀ {v v' : Scripted}, Beside c m v v' → Beside c m
        { v with client := { v.client with mqttOptions := clearMqttOptions v.client.mqttOptions, xioHandle := none } }
        { v' with client := { v'.client with mqttOptions := clearMqttOptions v'.client.mqttOptions, xioHandle := none } } :=
      fun hv => hv.map
        (g := fun v => { v with client := { v.client with mqttOptions := clearMqttOptions v.client.mqttOptions, xioHandle := none } })
        (by constructor <;> intros <;> first | rfl | assumption)
    simp only [mqttClientDisconnect, if_pos hc, if_pos (hconnected.trans hc), hmallocs]
    rcases mqttCodecDisconnect w.mallocs with ⟨_ | packet, ms⟩
    · have hunbuilt := h.map (g := fun w => { w with mallocs := ms, client := { w.client with packetState := .packetTypeError } })
        (by constructor <;> intros <;> first | rfl | assumption)
      exact hforget hunbuilt
    · have hstored := h.map
        (g := fun w => { w with mallocs := ms, client := { w.client with disconnectCb := callback, packetState := .disconnect } })
        (by constructor <;> intros <;> first | rfl | assumption)
      exact hforget (sendPacketItem_beside hp _ hstored)
  · have hstored := h.map (g := fun w => { w with client := { w.client with disconnectCb := callback } })
      (by constructor <;> intros <;> first | rfl | assumption)
    simp only [mqttClientDisconnect, if_neg hc, if_neg (hconnected ▸ hc : ¬ w'.client.clientConnected = true)]
    exact (closeConnection_beside hp hstored).map
      (g := fun v => { v with client := { v.client with mqttOptions := clearMqttOptions v.client.mqttOptions } })
      (by constructor <;> intros <;> first | rfl | assumption)

theorem enter_beside {e : Entry} (he : Steady e) (h : Beside c m w w') :
    Beside c m (enter (scriptXio perform) (scriptApp perform) e w) (enter (scriptXio perform) (scriptApp perform) e w') := by
  cases e with
  | transport e =>
    cases e with
    | openComplete r => exact he.elim
    | bytesReceived buffer => exact onBytesReceived_beside hp buffer h
    | ioError => exact onIoError_beside hp h
    | sendComplete r => exact sendComplete_beside hp r h
    | closeComplete => exact onConnectionClosed_beside hp h
  | api e =>
    have hmallocs : w'.mallocs = w.mallocs := h.read (fun w => w.mallocs) fun _ _ _ _ _ => rfl
    cases e with
    | connect handle mqttOptions => exact he.elim
    | publish msgHandle =>
      simp only [enter, mqttClientPublish, hmallocs]
      exact sendBuilt_beside hp _ _ h
    | subscribe packetId subscribeList =>
      simp only [enter, mqttClientSubscribe, hmallocs]
      split
      · exact h
      · exact sendBuilt_beside hp _ _ h
    | unsubscribe packetId unsubscribeList =>
      simp only [enter, mqttClientUnsubscribe, hmallocs]
      split
      · exact h
      · exact sendBuilt_beside hp _ _ h
    | disconnect callback => exact mqttClientDisconnect_beside hp callback h
    | dowork => exact he.elim

end Client

/-! ## Runs -/

variable {c : UInt32} {m : Mode} {w w' : Scripted}

/-- No connection is taken. -/
theorem arrive_beside {e : Entry} (he : ∀ r, e ≠ .transport (.openComplete r)) (h : Beside c m w w') :
    Beside c m (arrive e w) (arrive e w') := by
  have htakes : ∀ client, takes e client = false := fun client => decide_eq_false fun ht => he .ok ht.1
  simp only [arrive, htakes, Bool.false_eq_true, if_false]
  exact h.note _ _

theorem steady_ne_openComplete {e : Entry} (he : Steady e) (r : OpenResult) : e ≠ .transport (.openComplete r) := by
  rintro rfl
  exact he

theorem perform_beside (n : Nat) (e : Entry) (he : Steady e) {w w' : Scripted} (h : Beside c m w w') :
    Beside c m (perform n e w) (perform n e w') := by
  induction n generalizing e w w' with
  | zero => exact h
  | succ n ih => exact enter_beside ih he (arrive_beside (steady_ne_openComplete he) h)

end UMqtt.Client.TwoClocks

/-
  UMqtt.Client.Prompts — why a client sends what it sends, in any run.

  A packet is sent for one of five reasons: the application has called, an open is complete, the
  application has been told of a message or of an acknowledgement that wants a reply, or a poll
  of the transport has found the line idle. Each of these is a note, and the note alone says
  what is asked of the codec (`Note.request`) and, from what the allocator and the tick counter
  answer next, whether it gets as far as the transport (`Note.sends`).

  `prompted_run`: whatever the transport and the application do, and however they call back into
  the client, each send is directly behind the note that prompts it, and each note that
  prompts a send has it directly behind itself. So nothing is sent twice, late, or unasked.
-/

import UMqtt.Client.Surroundings
import UMqtt.Codec.Conforming
import UMqtt.Lib.History

namespace UMqtt.Client.Prompts

open UMqtt.Lib UMqtt.Crt UMqtt.Codec UMqtt.Io UMqtt.Client

/-! ## Prompts -/

def Message.reply (m : Message) : Option Request :=
  match m.qosInfo with
  | .deliverExactlyOnce => some (.publishReceived m.packetId)
  | .deliverAtLeastOnce => some (.publishAck m.packetId)
  | _ => none

def Message.request (m : Message) : Option Request :=
  m.getTopicName.map fun topicName =>
    .publish m.qosInfo m.isDuplicateMsg m.isMessageRetained m.packetId topicName m.payload

/-- The line has been idle for the keep-alive interval, and no PINGRESP is overdue. -/
def Moment.idle (m : Moment) (currentMs : UInt32) : Bool :=
  ¬ (0 < m.client.timeSincePing ∧
      m.client.maxPingRespTime.toUInt32 < (currentMs - m.client.timeSincePing) / 1000) ∧
    m.client.keepAliveInterval.toUInt32 ≤ (currentMs - m.client.packetSendTimeMs) / 1000

/-- What the keep-alive part asks for. -/
def Moment.ping (m : Moment) : Option Request :=
  match m.ticks.headD (some 0) with
  | none => none
  | some currentMs =>
    if (m.client.socketConnected ∧ m.client.clientConnected ∧ 0 < m.client.keepAliveInterval) ∧
        Moment.idle m currentMs then some .ping
    else none

def Note.request : Note → Option Request
  | .called (.transport (.openComplete .ok)) m =>
    if m.client.socketConnected then none else some (.connect m.client.mqttOptions)
  | .called (.api (.publish msgHandle)) _ => Message.request msgHandle
  | .called (.api (.subscribe packetId subscribeList)) _ =>
    if subscribeList.length = 0 ∨ packetId = 0 then none else some (.subscribe packetId subscribeList)
  | .called (.api (.unsubscribe packetId unsubscribeList)) _ =>
    if unsubscribeList.length = 0 ∨ packetId = 0 then none else some (.unsubscribe packetId unsubscribeList)
  | .called (.api (.disconnect _)) m => if m.client.clientConnected then some .disconnect else none
  | .answered (.message m) _ _ _ => Message.reply m
  | .answered (.operation (.publishRecv packetId)) _ _ _ => some (.publishRelease packetId)
  | .answered (.operation (.publishRel packetId)) _ _ _ => some (.publishComplete packetId)
  | .answered (.dowork _) _ before after => if before.polling then Moment.ping after else none
  | _ => none

/-- The readings that are left for the send: the keep-alive part has used one. -/
def Note.readings : Note → List (Option UInt32)
  | .answered (.dowork _) _ _ after => after.ticks.tail
  | n => (Note.moment n).ticks

/-- A packet that can be built, at a time that can be read, for a transport that is there. -/
def handed (r : Request) (mallocs : Mallocs) (ticks : List (Option UInt32)) (xioHandle : Option XioHandle) :
    Option (XioHandle × List UInt8) :=
  match (r.encode mallocs).1, ticks.headD (some 0), xioHandle with
  | some packet, some _, some h => some (h, packet.bytes)
  | _, _, _ => none

def Note.sends (n : Note) : Option (XioHandle × List UInt8) :=
  (Note.request n).bind fun r => handed r (Note.moment n).mallocs (Note.readings n) (Note.moment n).client.xioHandle

def Note.sent : Note → Option (XioHandle × List UInt8)
  | .asked (.send h bytes) _ => some (h, bytes)
  | _ => none

/-- A send if and only if the note before it prompts one, and then that. -/
def Prompted (before : List Note) (n : Note) : Prop := Note.sent n = before.getLast?.bind Note.sends

/-! ## What is due -/

def due (w : Scripted) : Option (XioHandle × List UInt8) := w.out.notes.getLast?.bind Note.sends

/-- Nothing has to be sent next, and no poll is about to be made. -/
structure Calm (w : Scripted) : Prop where
  due : due w = none
  polling : (moment w).polling = false

/-- The notes of what has happened are prompted, and it is over. -/
structure Answers (w w' : Scripted) : Prop where
  calm : Calm w'
  prompted : Throughout Prompted w.out.notes → Throughout Prompted w'.out.notes

def Follows (w w' : Scripted) : Prop := Calm w → Answers w w'

variable {w w' w'' : Scripted}

theorem Answers.trans (h : Answers w w') (h' : Follows w' w'') : Answers w w'' :=
  ⟨(h' h.calm).calm, fun hp => (h' h.calm).prompted (h.prompted hp)⟩

theorem Follows.trans (h : Follows w w') (h' : Follows w' w'') : Follows w w'' := fun hc => (h hc).trans h'

theorem calm_same (hn : w'.out.notes = w.out.notes) (hc : Calm w) : Calm w' := by
  refine ⟨?_, ?_⟩
  · unfold due
    rw [hn]
    exact hc.due
  · simp only [moment, hn]
    exact hc.polling

theorem follows_same (hn : w'.out.notes = w.out.notes) : Follows w w' := by
  intro hc
  exact ⟨calm_same hn hc, by rw [hn]; exact id⟩

theorem Follows.rfl : Follows w w := follows_same (.refl _)

@[simp] theorem due_writeNote (n : Note) (w : Scripted) : due (writeNote n w) = Note.sends n := by
  simp only [due, writeNote, List.getLast?_append, List.getLast?_singleton, Option.some_or, Option.bind_some]

@[simp] theorem polling_writeNote (n : Note) (w : Scripted) : (moment (writeNote n w)).polling = Note.polls n := by
  simp only [moment, writeNote, List.getLast?_append, List.getLast?_singleton, Option.some_or, Option.map_some,
    Option.getD_some]

theorem writeNote_prompted {n : Note} (hn : Note.sent n = due w) (hp : Throughout Prompted w.out.notes) :
    Throughout Prompted (writeNote n w).out.notes :=
  throughout_concat.mpr ⟨hp, hn⟩

/-- One more note, of which nothing comes. -/
theorem writeNote_answers {n : Note} (hn : Note.sent n = due w) (hs : Note.sends n = none) (hpolls : Note.polls n = false) :
    Answers w (writeNote n w) :=
  ⟨⟨by rw [due_writeNote, hs], by rw [polling_writeNote, hpolls]⟩, writeNote_prompted hn⟩

/-- The same but for this request, which is still to be seen to. -/
structure Asks (r : Option Request) (w w' : Scripted) : Prop where
  due : due w' = r.bind fun r => handed r w'.mallocs w'.ticks w'.client.xioHandle
  polling : (moment w').polling = false
  prompted : Throughout Prompted w.out.notes → Throughout Prompted w'.out.notes

theorem Asks.nothing (h : Asks none w w') : Answers w w' := ⟨⟨h.due, h.polling⟩, h.prompted⟩

/-- There is no packet for it. -/
theorem Asks.unbuilt {r : Request} {ms : Mallocs} (h : Asks (some r) w w') (he : r.encode w'.mallocs = (none, ms)) :
    Answers w w' := by
  refine ⟨⟨?_, h.polling⟩, h.prompted⟩
  rw [h.due]
  simp only [Option.bind_some, handed, he]

section Client

variable {perform : Entry → Scripted → Scripted} (hp : ∀ c w, Follows w (perform c w))

include hp

theorem calls_follows (calls : List Entry) (w : Scripted) : Follows w (calls.foldl (fun w c => perform c w) w) := by
  induction calls generalizing w with
  | nil => exact Follows.rfl
  | cons c calls ih => exact (hp c w).trans (ih _)

/-- A call out of the client, up to its answer. -/
theorem meanwhile_answers {x : Exit} (calls : List Entry) (result : Nat) (hx : Note.sent (.asked x (moment w)) = due w) :
    ∃ u, Answers w u ∧ meanwhile perform x calls result w = writeNote (.answered x result (moment w) (moment u)) u := by
  have hasked : Answers w (writeNote (.asked x (moment w)) w) := writeNote_answers hx (.refl _) (.refl _)
  exact ⟨_, hasked.trans (calls_follows hp calls _), .refl _⟩

theorem askTransport_answers {x : Exit} (hx : ∀ m, Note.sent (.asked x m) = due w) :
    ∃ result before u, before.polling = (moment w).polling ∧ Answers w u ∧
      (askTransport perform x w).2 = writeNote (.answered x result before (moment u)) u := by
  obtain ⟨u, hu, hm⟩ := meanwhile_answers hp ((nextReaction x w).1.calls.map .transport) (nextReaction x w).1.result
    (w := (nextReaction x w).2) (hx _)
  exact ⟨_, moment (nextReaction x w).2, u, .refl _, ⟨hu.calm, hu.prompted⟩, hm⟩

theorem tellApplication_answers {x : Exit} (e : Event) (hx : ∀ m, Note.sent (.asked x m) = due w) :
    ∃ before u, Answers w u ∧
      tellApplication perform x (w.log e) = writeNote (.answered x 0 before (moment u)) u := by
  obtain ⟨u, hu, hm⟩ := meanwhile_answers hp ((nextCalls (w.log e)).1.map .api) 0 (w := (nextCalls (w.log e)).2) (hx _)
  exact ⟨_, u, ⟨hu.calm, hu.prompted⟩, hm⟩

omit hp in
/-- The answer asks for this. -/
theorem Answers.asks {u : Scripted} (h : Answers w u) {x : Exit} {result : Nat} {before : Moment} {r : Option Request}
    (hr : Note.request (.answered x result before (moment u)) = r)
    (hticks : Note.readings (.answered x result before (moment u)) = u.ticks) :
    Asks r w (writeNote (.answered x result before (moment u)) u) := by
  refine ⟨?_, by rw [polling_writeNote]; exact .refl _, fun hw => writeNote_prompted h.calm.due.symm (h.prompted hw)⟩
  rw [due_writeNote, Note.sends, hr, hticks]
  exact .refl _

/-- The transport is asked for something else than a send. -/
theorem exit_follows {x : Exit} (hx : ∀ m, Note.sent (.asked x m) = none)
    (hr : ∀ result before after, before.polling = false → Note.request (.answered x result before after) = none)
    (w : Scripted) : Follows w (askTransport perform x w).2 := by
  intro hw
  obtain ⟨result, before, u, hb, hu, hask⟩ := askTransport_answers hp (w := w) fun m => (hx m).trans hw.due.symm
  have hnone : Note.request (.answered x result before (moment u)) = none := hr _ _ _ (hb.trans hw.polling)
  rw [hask]
  refine ⟨⟨?_, by rw [polling_writeNote]; exact .refl _⟩, fun h => writeNote_prompted hu.calm.due.symm (hu.prompted h)⟩
  rw [due_writeNote, Note.sends, hnone]
  exact .refl _

theorem send_answers {h : XioHandle} {bytes : List UInt8} (hd : due w = some (h, bytes)) :
    Answers w (askTransport perform (.send h bytes) w).2 := by
  obtain ⟨result, before, u, -, hu, hask⟩ := askTransport_answers hp (x := .send h bytes) fun m => hd.symm
  rw [hask]
  exact Asks.nothing (hu.asks (x := .send h bytes) (.refl _) (.refl _))

theorem tell_asks {x : Exit} (e : Event) (hx : ∀ m, Note.sent (.asked x m) = none) {r : Option Request}
    (hr : ∀ before after, Note.request (.answered x 0 before after) = r)
    (hticks : ∀ before after, Note.readings (.answered x 0 before after) = after.ticks) (hw : Calm w) :
    Asks r w (tellApplication perform x (w.log e)) := by
  obtain ⟨before, u, hu, htell⟩ := tellApplication_answers hp (w := w) e fun m => (hx m).trans hw.due.symm
  rw [htell]
  exact hu.asks (hr _ _) (hticks _ _)

/-! ## Sending -/

omit hp in
theorem currentMs_eq (w : Scripted) : w.currentMs = (w.ticks.headD (some 0), { w with ticks := w.ticks.tail }) := by
  rcases w with ⟨client, mallocs, ticks, crashed, trace, out⟩
  cases ticks <;> rfl

theorem sendPacketItem_answers {data : List UInt8} (hpolling : (moment w).polling = false)
    (hd : due w = match w.ticks.headD (some 0), w.client.xioHandle with
      | some _, some h => some (h, data)
      | _, _ => none) :
    Answers w (sendPacketItem (scriptXio perform) data w).2 := by
  have hcalm : due w = none → Calm w := fun h => ⟨h, hpolling⟩
  have hc := currentMs_eq w
  cases hm : w.ticks.headD (some 0) with
  | none =>
    rw [hm] at hc hd
    have hsame : Follows w (sendPacketItem (scriptXio perform) data w).2 := follows_same (by simp only [sendPacketItem, hc])
    exact hsame (hcalm hd)
  | some ms =>
    rw [hm] at hc hd
    rw [sendPacketItem_stamp hc]
    cases hx : w.client.xioHandle with
    | none =>
      rw [hx] at hd
      have hsame : Follows w ((scriptXio perform).xioSend none data (stamp ms data { w with ticks := w.ticks.tail })).2 :=
        follows_same (.refl _)
      exact hsame (hcalm hd)
    | some h =>
      rw [hx] at hd
      have hstamped : due (stamp ms data { w with ticks := w.ticks.tail }) = some (h, data) := hd
      have hsend := send_answers hp hstamped
      exact ⟨hsend.calm, hsend.prompted⟩

/-- The packet is handed over, or the clock or the transport is not there. -/
theorem Asks.built {r : Request} {packet : Buffer} {ms : Mallocs} {v : Scripted} (h : Asks (some r) w w')
    (he : r.encode w'.mallocs = (some packet, ms)) (hout : v.out = w'.out) (hticks : v.ticks = w'.ticks)
    (hhandle : v.client.xioHandle = w'.client.xioHandle) :
    Answers w (sendPacketItem (scriptXio perform) packet.bytes v).2 := by
  have hdue : Prompts.due v = Prompts.due w' := by
    unfold Prompts.due
    rw [hout]
  have hpolling : (moment v).polling = (moment w').polling := by simp only [moment, hout]
  have hsend : Answers v (sendPacketItem (scriptXio perform) packet.bytes v).2 := by
    apply sendPacketItem_answers hp (hpolling.trans h.polling)
    rw [hdue, h.due, hticks, hhandle]
    simp only [Option.bind_some, handed, he]
    cases w'.ticks.headD (some 0) <;> cases w'.client.xioHandle <;> rfl
  exact ⟨hsend.calm, fun hw => hsend.prompted (by rw [hout]; exact h.prompted hw)⟩

/-! ## Callbacks of the transport -/

theorem close_rules : CloseRules (scriptXio perform) Follows where
  refl _ := Follows.rfl
  trans := Follows.trans
  close h callback w := exit_follows hp (x := .close h callback) (fun _ => rfl) (fun _ _ _ _ => rfl) w
  dowork h w := exit_follows hp (x := .dowork h) (fun _ => rfl) (fun _ _ _ hb => by simp [Note.request, hb]) w

/-- The application is told of something that it is not answered for. -/
theorem tell_follows {x : Exit} (e : Event) (hx : ∀ m, Note.sent (.asked x m) = none)
    (hr : ∀ before after, Note.request (.answered x 0 before after) = none)
    (hticks : ∀ before after, Note.readings (.answered x 0 before after) = after.ticks) (w : Scripted) :
    Follows w (tellApplication perform x (w.log e)) :=
  fun hw => (tell_asks hp e hx hr hticks hw).nothing

theorem callDisconnected_follows (w : Scripted) : Follows w ((scriptApp perform).callDisconnected w) := by
  unfold App.callDisconnected
  split
  · exact Follows.rfl
  · rename_i callback _
    exact tell_follows hp (x := .disconnected callback) _ (fun _ => rfl) (fun _ _ => rfl) (fun _ _ => rfl) w

theorem closeConnection_follows (w : Scripted) : Follows w (closeConnection (scriptXio perform) (scriptApp perform) w) :=
  (close_rules hp).closeConnection (fun w _ => callDisconnected_follows hp w) (fun _ => follows_same (.refl _)) w

theorem callError_follows (e : EventError) (w : Scripted) : Follows w ((scriptApp perform).callError e w) := by
  unfold App.callError
  split
  · exact tell_follows hp (x := .error e) _ (fun _ => rfl) (fun _ _ => rfl) (fun _ _ => rfl) w
  · exact Follows.rfl

theorem setErrorCallback_follows (e : EventError) (w : Scripted) :
    Follows w (setErrorCallback (scriptXio perform) (scriptApp perform) e w) :=
  (callError_follows hp e w).trans (closeConnection_follows hp _)

theorem sendComplete_follows (sendResult : SendResult) (w : Scripted) :
    Follows w (sendComplete (scriptXio perform) (scriptApp perform) sendResult w) := by
  cases sendResult with
  | ok =>
    have htell := tell_follows hp (x := .operation .disconnect) (.operation .disconnect) (fun _ => rfl) (fun _ _ => rfl)
      (fun _ _ => rfl) w
    unfold sendComplete
    simp only
    split
    · split
      · exact htell.trans (closeConnection_follows hp _)
      · exact closeConnection_follows hp w
    · exact Follows.rfl
  | error => exact setErrorCallback_follows hp _ w
  | cancelled => exact Follows.rfl

theorem onIoError_follows (w : Scripted) : Follows w (onIoError (scriptXio perform) (scriptApp perform) w) := by
  unfold onIoError
  split
  · exact setErrorCallback_follows hp _ w
  · exact Follows.rfl

theorem onConnectionClosed_follows (w : Scripted) : Follows w (onConnectionClosed (scriptApp perform) w) := by
  have hdropped : Follows w { w with client := { w.client with socketConnected := false, clientConnected := false } } :=
    follows_same (.refl _)
  exact hdropped.trans (callDisconnected_follows hp _)

/-! ## Packets -/

theorem sendReply_answers {r : Request} {reply : UInt16 → Mallocs → Option Buffer × Mallocs} {packetId : UInt16}
    (h : Asks (some r) w w') (he : r.encode w'.mallocs = reply packetId w'.mallocs) :
    Answers w (sendReply (scriptXio perform) (scriptApp perform) reply packetId w') := by
  unfold sendReply
  split
  · rename_i ms hr
    have hmallocs : Follows w' { w' with mallocs := ms } := follows_same (.refl _)
    exact (h.unbuilt (he.trans hr)).trans (hmallocs.trans (setErrorCallback_follows hp _ _))
  · rename_i pubRel ms hr
    exact h.built hp (he.trans hr) (.refl _) (.refl _) (.refl _)

theorem act_follows (verdict : Verdict) (w : Scripted) : Follows w (act (scriptXio perform) (scriptApp perform) verdict w) := by
  have htell : ∀ {o} (w : Scripted), (∀ before after, Note.request (.answered (.operation o) 0 before after) = none) →
      Follows w ((scriptApp perform).callOperation o w) := fun {o} w hr =>
    tell_follows hp (x := .operation o) (.operation o) (fun _ => rfl) hr (fun _ _ => rfl) w
  cases verdict with
  | ignored => exact Follows.rfl
  | connack isSessionPresent returnCode =>
    have hconnack := htell (o := .connack isSessionPresent returnCode) w fun _ _ => rfl
    simp only [act]
    split
    · exact hconnack.trans (follows_same (.refl _))
    · exact hconnack
  | publish m =>
    intro hw
    have hmessage : Asks (Message.reply m) w ((scriptApp perform).callMessage m w) :=
      tell_asks hp (x := .message m) (.message m) (fun _ => rfl) (fun _ _ => rfl) (fun _ _ => rfl) hw
    simp only [act]
    unfold Message.reply at hmessage
    cases hq : m.qosInfo with
    | deliverExactlyOnce =>
      rw [hq] at hmessage
      exact sendReply_answers hp hmessage (.refl _)
    | deliverAtLeastOnce =>
      rw [hq] at hmessage
      exact sendReply_answers hp hmessage (.refl _)
    | _ =>
      rw [hq] at hmessage
      exact hmessage.nothing
  | publishAck packet packetId =>
    intro hw
    have hasks : ∀ r,
        (∀ before after, Note.request (.answered (.operation (publishAction packet packetId)) 0 before after) = r) →
        Asks r w ((scriptApp perform).callOperation (publishAction packet packetId) w) := fun r hr =>
      tell_asks hp (x := .operation (publishAction packet packetId)) (.operation (publishAction packet packetId))
        (fun _ => rfl) hr (fun _ _ => rfl) hw
    simp only [act]
    cases packet with
    | pubrec => exact sendReply_answers hp (hasks _ fun _ _ => rfl) (.refl _)
    | pubrel => exact sendReply_answers hp (hasks _ fun _ _ => rfl) (.refl _)
    | _ => exact (hasks none fun _ _ => rfl).nothing
  | subscribeAck packetId qosReturn => exact htell w fun _ _ => rfl
  | unsubscribeAck packetId => exact htell w fun _ _ => rfl
  | pingresp =>
    have hanswered : Follows w { w with client := { w.client with timeSincePing := 0 } } := follows_same (.refl _)
    simp only [act]
    split
    · exact hanswered.trans (htell _ fun _ _ => rfl)
    · exact hanswered
  | error e => exact setErrorCallback_follows hp e w
  | nullWrite => exact follows_same (.refl _)

theorem recvComplete_follows (p : Packet) (w : Scripted) :
    Follows w (recvCompleteCallback (scriptXio perform) (scriptApp perform) p w) := by
  have hdecoded : Follows w { w.log (.packet p) with mallocs := (decode w.client p w.mallocs).mallocs } :=
    follows_same (.refl _)
  exact hdecoded.trans (act_follows hp _ _)

theorem onBytesReceived_follows (buffer : List UInt8) (w : Scripted) :
    Follows w (onBytesReceived (scriptXio perform) (scriptApp perform) buffer w) := by
  have hbytes : Follows w (bytesReceived World.codecSlot
      (recvCompleteCallback (scriptXio perform) (scriptApp perform)) buffer w).2 := by
    apply bytesReceived_keeps (I := Follows w) _ _ buffer Follows.rfl
    · exact fun x v hv => hv.trans (follows_same (.refl _))
    · exact fun p v hv => hv.trans (recvComplete_follows hp p v)
  unfold onBytesReceived
  simp only
  split
  · exact hbytes.trans (setErrorCallback_follows hp _ _)
  · exact hbytes

/-! ## Calls -/

omit hp in
theorem arrive_out (c : Entry) (w : Scripted) :
    (arrive c w).out.notes = w.out.notes ++ [.called c (moment w)] ∧ (arrive c w).client = w.client ∧
      (arrive c w).mallocs = w.mallocs ∧ (arrive c w).ticks = w.ticks := by
  unfold arrive
  simp only
  split <;> exact ⟨rfl, rfl, rfl, rfl⟩

omit hp in
theorem arrive_prompted (c : Entry) (hw : Calm w) (h : Throughout Prompted w.out.notes) :
    Throughout Prompted (arrive c w).out.notes := by
  rw [(arrive_out c w).1]
  exact throughout_concat.mpr ⟨h, hw.due.symm⟩

omit hp in
theorem due_arrive (c : Entry) (w : Scripted) :
    due (arrive c w) = (Note.request (.called c (moment w))).bind fun r => handed r w.mallocs w.ticks w.client.xioHandle := by
  simp only [due, (arrive_out c w).1, List.getLast?_append, List.getLast?_singleton, Option.some_or, Option.bind_some]
  rfl

omit hp in
theorem polling_arrive (c : Entry) (w : Scripted) : (moment (arrive c w)).polling = Note.polls (.called c (moment w)) := by
  simp only [moment, (arrive_out c w).1, List.getLast?_append, List.getLast?_singleton, Option.some_or, Option.map_some,
    Option.getD_some]

omit hp in
/-- A call that does not poll. -/
theorem arrive_asks {c : Entry} {r : Option Request} (hr : Note.request (.called c (moment w)) = r)
    (hpolls : Note.polls (.called c (moment w)) = false) (hw : Calm w) : Asks r w (arrive c w) := by
  obtain ⟨-, hclient, hmallocs, hticks⟩ := arrive_out c w
  refine ⟨?_, (polling_arrive c w).trans hpolls, arrive_prompted c hw⟩
  rw [due_arrive, hr, hclient, hmallocs, hticks]

theorem sendBuilt_answers {r : Request} (type : ControlPacketType) (h : Asks (some r) w w') :
    Answers w (sendBuilt (scriptXio perform) type (r.encode w'.mallocs) w').2 := by
  rcases he : r.encode w'.mallocs with ⟨_ | packet, ms⟩
  · exact (h.unbuilt he).trans (follows_same (.refl _))
  · exact h.built hp he (.refl _) (.refl _) (.refl _)

theorem mqttClientPublish_answers (msgHandle : Message) (h : Asks (Message.request msgHandle) w w') :
    Answers w (mqttClientPublish (scriptXio perform) msgHandle w').2 := by
  unfold Message.request at h
  unfold mqttClientPublish
  cases ht : msgHandle.getTopicName with
  | none =>
    rw [ht] at h
    exact h.nothing.trans (follows_same (.refl _))
  | some topicName =>
    rw [ht] at h
    exact sendBuilt_answers hp .publish h

theorem mqttClientDisconnect_answers (callback : Option Nat)
    (h : Asks (if w'.client.clientConnected then some .disconnect else none) w w') :
    Answers w (mqttClientDisconnect (scriptXio perform) (scriptApp perform) callback w').2 := by
  unfold mqttClientDisconnect
  by_cases hc : w'.client.clientConnected = true
  · simp only [if_pos hc] at h ⊢
    rcases he : mqttCodecDisconnect w'.mallocs with ⟨_ | packet, ms⟩
    · exact (h.unbuilt he).trans (follows_same (.refl _))
    · have hbuilt := h.built hp he (.refl _) (.refl _) (.refl _)
        (v := { w' with mallocs := ms, client := { w'.client with disconnectCb := callback, packetState := .disconnect } })
      exact hbuilt.trans (follows_same (.refl _))
  · simp only [if_neg hc] at h ⊢
    have hstored : Follows w' { w' with client := { w'.client with disconnectCb := callback } } := follows_same (.refl _)
    have hclosed := hstored.trans (closeConnection_follows hp _)
    exact (h.nothing.trans hclosed).trans (follows_same (.refl _))

theorem mqttClientConnect_follows (h : XioHandle) (mqttOptions : MqttClientOptions) (w : Scripted) :
    Follows w (mqttClientConnect (scriptXio perform) (some h) mqttOptions w).2 := by
  have htaken : Follows w (takeOptions h mqttOptions w).2 := follows_same (.refl _)
  refine mqttClientConnect_of (R := Follows) Follows.trans h mqttOptions w (fun _ => htaken) (fun _ => ?_)
    fun _ => follows_same (.refl _)
  exact htaken.trans (exit_follows hp (x := .openIo h) (fun _ => rfl) (fun _ _ _ _ => rfl) _)

theorem onOpenComplete_answers (openResult : OpenResult)
    (h : Asks (Note.request (.called (.transport (.openComplete openResult)) (moment w'))) w w') :
    Answers w (onOpenComplete (scriptXio perform) (scriptApp perform) openResult w') := by
  unfold onOpenComplete
  by_cases ho : openResult = .ok ∧ w'.client.socketConnected = false
  · obtain ⟨rfl, hs⟩ := ho
    have hr : Note.request (.called (.transport (.openComplete .ok)) (moment w')) = some (.connect w'.client.mqttOptions) :=
      if_neg (by rw [show (moment w').client = w'.client from rfl, hs]; exact Bool.false_ne_true)
    rw [hr] at h
    simp only [hs, and_self, if_true]
    rcases he : mqttCodecConnect w'.client.mqttOptions w'.mallocs with ⟨_ | packet, ms⟩
    · exact (h.unbuilt he).trans (follows_same (.refl _))
    · exact h.built hp he (.refl _) (.refl _) (.refl _)
  · have hr : Note.request (.called (.transport (.openComplete openResult)) (moment w')) = none := by
      cases openResult with
      | ok => exact if_pos (Bool.not_eq_false _ ▸ fun hs => ho ⟨rfl, hs⟩)
      | _ => rfl
    rw [hr] at h
    simp only [if_neg ho]
    split
    · exact h.nothing.trans ((callError_follows hp _ _).trans (closeConnection_follows hp _))
    · exact h.nothing.trans (closeConnection_follows hp _)

/-- The poll of a connected client is over. -/
theorem keepAlive_answers (hflags : w.client.socketConnected ∧ w.client.clientConnected ∧ 0 < w.client.keepAliveInterval)
    (hpolling : (moment w).polling = false)
    (hd : due w = (Moment.ping (moment w)).bind fun r => handed r w.mallocs w.ticks.tail w.client.xioHandle) :
    Answers w (keepAlive (scriptXio perform) (scriptApp perform) w) := by
  have hc := currentMs_eq w
  have hnothing : Moment.ping (moment w) = none → Calm w := fun h => ⟨by rw [hd, h]; exact .refl _, hpolling⟩
  have hread : Follows w { w with ticks := w.ticks.tail } := follows_same (.refl _)
  cases hm : w.ticks.headD (some 0) with
  | none =>
    rw [hm] at hc
    have hping : Moment.ping (moment w) = none := by
      simp only [Moment.ping, show (moment w).ticks.headD (some 0) = none from hm]
    simp only [keepAlive, hc]
    exact hread (hnothing hping)
  | some currentMs =>
    rw [hm] at hc
    have hping : Moment.ping (moment w) = if Moment.idle (moment w) currentMs then some .ping else none := by
      simp only [Moment.ping, show (moment w).ticks.headD (some 0) = some currentMs from hm,
        show (moment w).client = w.client from rfl, hflags, and_self, true_and]
    have hidle : Moment.idle (moment w) currentMs = true ↔
        ¬ (0 < w.client.timeSincePing ∧ w.client.maxPingRespTime.toUInt32 < (currentMs - w.client.timeSincePing) / 1000) ∧
          w.client.keepAliveInterval.toUInt32 ≤ (currentMs - w.client.packetSendTimeMs) / 1000 := decide_eq_true_iff
    simp only [keepAlive, hc]
    split
    · -- A PINGRESP is overdue.
      rename_i hover
      have hnone := hnothing (hping.trans (if_neg fun hi => (hidle.mp hi).1 hover))
      have hclosed := hread.trans (setErrorCallback_follows hp .noPingResponse { w with ticks := w.ticks.tail })
      exact (hclosed hnone).trans (follows_same (.refl _))
    · rename_i hover
      split
      · rename_i hlate
        have hasks : Asks (some .ping) w { w with ticks := w.ticks.tail } := by
          refine ⟨?_, hpolling, id⟩
          have hsome := hping.trans (if_pos (hidle.mpr ⟨hover, hlate⟩))
          rw [hsome] at hd
          exact hd
        rcases he : mqttCodecPing w.mallocs with ⟨_ | packet, ms⟩
        · exact (hasks.unbuilt he).trans (follows_same (.refl _))
        · have hsend := hasks.built hp he (.refl _) (.refl _) (.refl _) (v := { w with ticks := w.ticks.tail, mallocs := ms })
          simp only [currentMs_eq]
          cases (sendPacketItem (scriptXio perform) packet.bytes { w with ticks := w.ticks.tail, mallocs := ms }).2.ticks.headD
            (some 0) with
          | none => exact hsend.trans (follows_same (.refl _))
          | some now => exact hsend.trans (follows_same (.refl _))
      · rename_i hlate
        exact hread (hnothing (hping.trans (if_neg fun hi => hlate (hidle.mp hi).2)))

theorem dowork_answers (hw : Calm w) :
    Answers w (mqttClientDowork (scriptXio perform) (scriptApp perform) (arrive (.api .dowork) w)) := by
  obtain ⟨a, ha⟩ : ∃ a, a = arrive (.api .dowork) w := ⟨_, .refl _⟩
  have hclient : a.client = w.client := by rw [ha, (arrive_out _ w).2.1]
  rw [← ha]
  unfold mqttClientDowork
  cases hx : a.client.xioHandle with
  | none =>
    have hpolls : Note.polls (.called (.api .dowork) (moment w)) = false := by
      simp only [Note.polls, show (moment w).client = w.client from rfl, ← hclient, hx, Option.isSome_none]
    rw [ha]
    exact (arrive_asks (.refl _) hpolls hw).nothing
  | some h =>
    have hdue : due a = none := by rw [ha, due_arrive]; exact .refl _
    have hprompted : Throughout Prompted w.out.notes → Throughout Prompted a.out.notes := by
      rw [ha]
      exact arrive_prompted _ hw
    have hpolling : (moment a).polling = true := by
      rw [hclient] at hx
      simp only [ha, polling_arrive, Note.polls, show (moment w).client = w.client from rfl, hx, Option.isSome_some]
    obtain ⟨result, before, u, hb, hu, hask⟩ := askTransport_answers hp (w := a) (x := .dowork h) fun m => hdue.symm
    rw [hpolling] at hb
    have hdone : (scriptXio perform).dowork h a = writeNote (.answered (.dowork h) result before (moment u)) u := hask
    have hlinked : Throughout Prompted w.out.notes →
        Throughout Prompted (writeNote (.answered (.dowork h) result before (moment u)) u).out.notes := fun hw =>
      writeNote_prompted hu.calm.due.symm (hu.prompted (hprompted hw))
    have hping : due (writeNote (.answered (.dowork h) result before (moment u)) u) =
        (Moment.ping (moment u)).bind fun r => handed r u.mallocs u.ticks.tail u.client.xioHandle := by
      simp only [due_writeNote, Note.sends, Note.request, hb, if_true]
      rfl
    simp only [hdone]
    split
    · rename_i hflags
      have hkept := keepAlive_answers hp hflags (by rw [polling_writeNote]; exact .refl _) hping
      exact ⟨hkept.calm, fun hw => hkept.prompted (hlinked hw)⟩
    · rename_i hflags
      have hnone : Moment.ping (moment u) = none := by
        unfold Moment.ping
        split
        · rfl
        · exact if_neg fun h => hflags h.1
      refine ⟨⟨by rw [hping, hnone]; exact .refl _, by rw [polling_writeNote]; exact .refl _⟩, hlinked⟩

theorem enter_answers (c : Entry) (hw : Calm w) :
    Answers w (enter (scriptXio perform) (scriptApp perform) c (arrive c w)) := by
  have hasks : ∀ r, Note.request (.called c (moment w)) = r → Note.polls (.called c (moment w)) = false →
      Asks r w (arrive c w) := fun r hr hpolls => arrive_asks hr hpolls hw
  have hclient : (moment (arrive c w)).client = (moment w).client := (arrive_out c w).2.1
  cases c with
  | transport c =>
    have hnone := hasks none
    cases c with
    | openComplete r =>
      refine onOpenComplete_answers hp r (hasks _ ?_ (.refl _))
      cases r with
      | ok => simp only [Note.request, hclient]
      | _ => rfl
    | bytesReceived buffer => exact (hnone (.refl _) (.refl _)).nothing.trans (onBytesReceived_follows hp buffer _)
    | ioError => exact (hnone (.refl _) (.refl _)).nothing.trans (onIoError_follows hp _)
    | sendComplete r => exact (hnone (.refl _) (.refl _)).nothing.trans (sendComplete_follows hp r _)
    | closeComplete => exact (hnone (.refl _) (.refl _)).nothing.trans (onConnectionClosed_follows hp _)
  | api c =>
    cases c with
    | connect h mqttOptions =>
      exact (hasks none (.refl _) (.refl _)).nothing.trans (mqttClientConnect_follows hp h mqttOptions _)
    | publish msgHandle => exact mqttClientPublish_answers hp msgHandle (hasks _ (.refl _) (.refl _))
    | subscribe packetId subscribeList =>
      unfold enter mqttClientSubscribe
      by_cases hno : subscribeList.length = 0 ∨ packetId = 0
      · simp only [if_pos hno]
        exact (hasks none (if_pos hno) (.refl _)).nothing
      · simp only [if_neg hno]
        exact sendBuilt_answers hp .subscribe (hasks _ (if_neg hno) (.refl _))
    | unsubscribe packetId unsubscribeList =>
      unfold enter mqttClientUnsubscribe
      by_cases hno : unsubscribeList.length = 0 ∨ packetId = 0
      · simp only [if_pos hno]
        exact (hasks none (if_pos hno) (.refl _)).nothing
      · simp only [if_neg hno]
        exact sendBuilt_answers hp .unsubscribe (hasks _ (if_neg hno) (.refl _))
    | disconnect callback =>
      refine mqttClientDisconnect_answers hp callback (hasks _ ?_ (.refl _))
      rw [(arrive_out (.api (.disconnect callback)) w).2.1]
      rfl
    | dowork => exact dowork_answers hp hw

end Client

/-! ## Runs -/

theorem perform_follows (n : Nat) (c : Entry) (w : Scripted) : Follows w (perform n c w) := by
  induction n generalizing c w with
  | zero => exact Follows.rfl
  | succ n ih => exact fun hw => enter_answers ih c hw

theorem new_client_answers (n : Nat) (calls : List Entry) (msgRecv opCallback onErrorCallBack : Bool) (mallocs : Mallocs)
    (ticks : List (Option UInt32)) (transport : List Reaction) (application : List (List ApiCall)) :
    Answers (scripted (.init msgRecv opCallback onErrorCallBack) mallocs ticks transport application) (performAll n calls
      (scripted (.init msgRecv opCallback onErrorCallBack) mallocs ticks transport application)) := by
  have hrun : Follows (scripted (.init msgRecv opCallback onErrorCallBack) mallocs ticks transport application) _ :=
    performAll_of (fun _ => Follows.rfl) Follows.trans (perform_follows n) calls _
  exact hrun ⟨.refl _, .refl _⟩

/-- In the run of a new client, each send is what the note before it prompts, and there is no other
    note behind one that prompts a send; at the end nothing is due. -/
theorem prompted_run (n : Nat) (calls : List Entry) (msgRecv opCallback onErrorCallBack : Bool) (mallocs : Mallocs)
    (ticks : List (Option UInt32)) (transport : List Reaction) (application : List (List ApiCall)) :
    Throughout Prompted (performAll n calls
        (scripted (.init msgRecv opCallback onErrorCallBack) mallocs ticks transport application)).out.notes ∧
      due (performAll n calls
        (scripted (.init msgRecv opCallback onErrorCallBack) mallocs ticks transport application)) = none := by
  have hrun := new_client_answers n calls msgRecv opCallback onErrorCallBack mallocs ticks transport application
  exact ⟨hrun.prompted throughout_nil, hrun.calm.due⟩

end UMqtt.Client.Prompts

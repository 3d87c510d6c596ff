/-
  UMqtt.Client.Opening — what comes of an open that the transport reports as successful.

  The client takes the connection, builds a CONNECT, reads the clock and passes the CONNECT to
  its transport. Where one of these fails it logs an error: there is no callback, and the
  transport stays open.

  Proved (`open_outcome`): the CONNECT is the first packet of the connection, the only CONNECT on
  it and taken by the transport, or the error callback is invoked and the transport is closed, if
  a CONNECT can be passed on and `xio_send` succeeds, or the transport itself reports the error
  from inside that `xio_send` and then closes (`Reports`). Where it only reports that a send is
  complete, `xio_send` has to succeed. `will_without_message_idles` is a connect call after which
  nothing happens.
-/

import UMqtt.Client.Surroundings

namespace UMqtt.Client.Opening

open UMqtt.Lib UMqtt.Crt UMqtt.Codec UMqtt.Io

def openOk : Entry := .transport (.openComplete .ok)

/-! ## Outcomes -/

def Note.ConnectOn (connection : Nat) : Note → Prop
  | .asked (.send _ bytes) m => IsConnect bytes ∧ m.connections = connection
  | _ => False

/-- A CONNECT is the first thing that the client does, the transport takes it, and there is no other on
    this connection. -/
def Handed (w w' : Scripted) : Prop :=
  ∃ handle packet before after nested, IsConnect packet ∧
    w'.out.notes = w.out.notes ++ .called openOk (moment w) :: .asked (.send handle packet) before ::
      (nested ++ [.answered (.send handle packet) 0 before after]) ∧
    before.connections = w.out.connections + 1 ∧ ∀ n ∈ nested, ¬ Note.ConnectOn (w.out.connections + 1) n

def newNotes (w w' : Scripted) : List Note := w'.out.notes.drop w.out.notes.length

/-- The error callback is invoked, `xio_close` succeeds and the close completes. -/
def Surfaced (w w' : Scripted) : Prop :=
  (∃ e m, .asked (.error e) m ∈ newNotes w w') ∧
    (∃ handle callback before after, .answered (.close handle callback) 0 before after ∈ newNotes w w') ∧
      ∃ m, .called (.transport .closeComplete) m ∈ newNotes w w'

/-- The transport has just been asked to send the CONNECT, if the client gets that far. -/
def connecting (w : Scripted) : Option Scripted :=
  let w := arrive openOk w
  match mqttCodecConnect w.client.mqttOptions w.mallocs with
  | (none, _) => none
  | (some connPacket, mallocs) =>
    match { w with mallocs := mallocs,
                   client := { w.client with packetState := .connect, socketConnected := true } }.currentMs with
    | (none, _) => none
    | (some ms, w) => w.client.xioHandle.map fun handle =>
      let w := (nextReaction (.send handle connPacket.bytes) (stamp ms connPacket.bytes w)).2
      writeNote (.asked (.send handle connPacket.bytes) (moment w)) w

/-- The answer of the transport to its next call, and to the one behind it. -/
def answer (w : Scripted) : Reaction := w.out.transport.headD ⟨[], 0⟩

def secondAnswer (w : Scripted) : Reaction := w.out.transport.tail.headD ⟨[], 0⟩

/-! ## What it takes -/

/-- A CONNECT can be built of the options, the clock can be read, and there is a transport. -/
structure Ready (w : Scripted) : Prop where
  built : (mqttCodecConnect w.client.mqttOptions w.mallocs).1 ≠ none
  tick : w.ticks.head? ≠ some none
  transport : w.client.xioHandle ≠ none

/-- The transport says no more than that a send is complete. -/
def Quiet (calls : List TransportCall) : Prop := ∀ c ∈ calls, c = .sendComplete .ok ∨ c = .sendComplete .cancelled

/-- A report of the transport that the client passes on, where it has the callbacks for it. -/
def Passed (client : MqttClient) (c : TransportCall) : Prop :=
  client.fnOnErrorCallBack = true ∧ (c = .sendComplete .error ∨ c = .ioError ∧ client.fnOperationCallback = true)

/-- From inside the `xio_send` the transport reports an error, the application does nothing about
    it, and the transport closes when it is asked to. -/
structure Reports (w : Scripted) : Prop where
  report : ∃ quiet c rest, (answer w).calls = quiet ++ c :: rest ∧ Quiet quiet ∧ Passed w.client c
  application : w.out.application.headD [] = []
  closes : ∃ rest, secondAnswer w = ⟨.closeComplete :: rest, 0⟩

/-! ## Nested calls -/

/-- Notes are added, none of them of a CONNECT on a connection before the next. -/
structure Follows (k : Nat) (w w' : Scripted) : Prop where
  connections : w.out.connections ≤ w'.out.connections
  notes : k ≤ w.out.connections → ∃ more, w'.out.notes = w.out.notes ++ more ∧ ∀ n ∈ more, ¬ Note.ConnectOn k n

variable {k : Nat} {w w' w'' : Scripted}

theorem Follows.trans (h : Follows k w w') (h' : Follows k w' w'') : Follows k w w'' where
  connections := h.connections.trans h'.connections
  notes hk := by
    obtain ⟨more, hm, hn⟩ := h.notes hk
    obtain ⟨more', hm', hn'⟩ := h'.notes (hk.trans h.connections)
    refine ⟨more ++ more', by rw [hm', hm, List.append_assoc], ?_⟩
    intro n hmem
    rcases List.mem_append.mp hmem with hmem | hmem
    · exact hn n hmem
    · exact hn' n hmem

theorem follows_out (h : w'.out.notes = w.out.notes) (hc : w'.out.connections = w.out.connections) : Follows k w w' :=
  ⟨by rw [hc], fun _ => ⟨[], by rw [h, List.append_nil], by simp⟩⟩

theorem Follows.rfl : Follows k w w := follows_out (.refl _) (.refl _)

theorem note_follows {n : Note} (hn : k ≤ w.out.connections → ¬ Note.ConnectOn k n) : Follows k w (writeNote n w) :=
  ⟨le_refl _, fun hk => ⟨[n], .refl _, fun m hm => by rw [List.mem_singleton.mp hm]; exact hn hk⟩⟩

def Plain : Exit → Prop
  | .send _ bytes => ¬ IsConnect bytes
  | _ => True

section Client

variable {perform : Entry → Scripted → Scripted} (hp : ∀ c w, Follows k w (perform c w))

include hp

theorem follows_script : ScriptRules perform Plain (Follows k) where
  refl _ := Follows.rfl
  trans := Follows.trans
  perform := hp
  asked {x} w hx := note_follows fun _ => by
    cases x with
    | send handle bytes => exact fun h => hx h.1
    | _ => exact id
  answered _ _ _ _ := note_follows fun _ => id
  nextReaction _ _ := follows_out (.refl _) (.refl _)
  nextCalls _ := follows_out (.refl _) (.refl _)

theorem follows_frame : FrameRules perform Plain (Follows k) where
  toScriptRules := follows_script hp
  ordinary {x} hx := by
    cases x with
    | send handle bytes => exact hx
    | _ => trivial
  framed h := follows_out (by rw [h.out]) (by rw [h.out])
  disconnected w _ := by
    unfold App.callDisconnected
    split
    · exact Follows.rfl
    · rename_i callback _
      have hlog : Follows k w (w.log (.disconnected callback)) := follows_out (.refl _) (.refl _)
      exact hlog.trans ((follows_script hp).tellApplication (x := .disconnected callback) trivial _)

theorem mqttClientConnect_follows (h : XioHandle) (mqttOptions : MqttClientOptions) (w : Scripted) :
    Follows k w (mqttClientConnect (scriptXio perform) (some h) mqttOptions w).2 := by
  have htaken : Follows k w (takeOptions h mqttOptions w).2 := follows_out (.refl _) (.refl _)
  exact (follows_frame hp).mqttClientConnect h mqttOptions w (fun _ => htaken)
    (fun _ => htaken.trans ((follows_script hp).askTransport (x := .openIo h) trivial _))
    fun _ => follows_out (.refl _) (.refl _)

/-- A call by which no connection is taken. -/
theorem enter_follows {c : Entry} (hc : takes c w.client = false) :
    Follows k w (enter (scriptXio perform) (scriptApp perform) c (arrive c w)) := by
  have hf := follows_frame hp
  have harrive : arrive c w = writeNote (.called c (moment w)) w := by
    unfold arrive
    simp only [writeNote, hc, Bool.false_eq_true, if_false]
  rw [harrive]
  have hnote : Follows k w (writeNote (.called c (moment w)) w) := note_follows fun _ => id
  refine hnote.trans (hf.enter c _ ?_ ?_ ?_ ?_)
  · intro hopen hs
    have hs : w.client.socketConnected = false := hs
    simp [takes, hopen, hs] at hc
  · intro _
    exact hf.onConnectionClosed _ (follows_out (.refl _) (.refl _))
  · exact fun h mqttOptions _ => mqttClientConnect_follows hp h mqttOptions _
  · intro callback _
    exact hf.steps.mqttClientDisconnect callback _ (fun v _ hi _ => follows_out (by rw [hi.out]) (by rw [hi.out]))
      (fun _ => follows_out (.refl _) (.refl _)) fun v _ hv => hv.trans (follows_out (.refl _) (.refl _))

end Client

/-! ## A connection that is taken -/

/-- The client ends with passing on a CONNECT, or does nothing that the surroundings notice. -/
theorem openOk_cases (perform : Entry → Scripted → Scripted) (hs : w.client.socketConnected = false) :
    (connecting w = none ∧ (enter (scriptXio perform) (scriptApp perform) openOk (arrive openOk w)).out = (arrive openOk w).out) ∨
      ∃ handle packet v, IsConnect packet ∧ v.out = (arrive openOk w).out ∧
        connecting w = some (writeNote (.asked (.send handle packet) (moment (nextReaction (.send handle packet) v).2))
          (nextReaction (.send handle packet) v).2) ∧
        enter (scriptXio perform) (scriptApp perform) openOk (arrive openOk w) =
          (askTransport perform (.send handle packet) v).2 := by
  obtain ⟨u, hu⟩ : ∃ u, u = arrive openOk w := ⟨_, .refl _⟩
  have hus : u.client.socketConnected = false := by
    rw [hu]
    unfold arrive
    simp only
    split <;> exact hs
  rw [← hu]
  have henter : enter (scriptXio perform) (scriptApp perform) openOk u =
      onOpenComplete (scriptXio perform) (scriptApp perform) .ok u := .refl _
  rw [henter]
  simp only [onOpenComplete, connecting, hus, and_self, if_true, ← hu]
  rcases hb : mqttCodecConnect u.client.mqttOptions u.mallocs with ⟨connPacket, mallocs⟩
  cases connPacket with
  | none => exact Or.inl ⟨.refl _, .refl _⟩
  | some connPacket =>
    simp only [sendPacketItem]
    rcases hms : World.currentMs { u with mallocs := mallocs,
                                          client := { u.client with packetState := .connect, socketConnected := true } }
      with ⟨ms, v⟩
    have hout : v.out = u.out := by
      have hframed := (currentMs_framed
        { u with mallocs := mallocs, client := { u.client with packetState := .connect, socketConnected := true } }).out
      rw [hms] at hframed
      exact hframed
    cases ms with
    | none => exact Or.inl ⟨.refl _, hout⟩
    | some ms =>
      cases hx : v.client.xioHandle with
      | none =>
        refine Or.inl ⟨by simp only [hx, Option.map_none], ?_⟩
        change ((scriptXio perform).xioSend v.client.xioHandle connPacket.bytes (stamp ms connPacket.bytes v)).2.out = u.out
        rw [hx]
        exact hout
      | some handle =>
        refine Or.inr ⟨handle, connPacket.bytes, stamp ms connPacket.bytes v, mqttCodecConnect_isConnect hb, hout, ?_, ?_⟩
        · simp only [hx, Option.map_some]
        · change ((scriptXio perform).xioSend v.client.xioHandle connPacket.bytes (stamp ms connPacket.bytes v)).2 = _
          rw [hx]
          exact .refl _

theorem arrive_openOk (hs : w.client.socketConnected = false) :
    (arrive openOk w).out.notes = w.out.notes ++ [.called openOk (moment w)] ∧
      (arrive openOk w).out.connections = w.out.connections + 1 ∧ (arrive openOk w).out.transport = w.out.transport := by
  have htakes : takes openOk w.client = true := by simp [takes, openOk, hs]
  unfold arrive
  simp only [writeNote, htakes, if_true, and_self]

/-- The CONNECT of a connection comes behind the ones before. -/
theorem connect_follows {handle : XioHandle} {packet : List UInt8} {v : Scripted} (hs : w.client.socketConnected = false)
    (hout : v.out = (arrive openOk w).out) :
    Follows k w (writeNote (.asked (.send handle packet) (moment (nextReaction (.send handle packet) v).2))
      (nextReaction (.send handle packet) v).2) := by
  obtain ⟨hnotes, hconnections, -⟩ := arrive_openOk hs
  rw [← hout] at hnotes hconnections
  have hmoment : (moment (nextReaction (.send handle packet) v).2).connections = w.out.connections + 1 := hconnections
  refine ⟨?_, fun hk => ?_⟩
  · change w.out.connections ≤ v.out.connections
    omega
  refine ⟨[.called openOk (moment w), .asked (.send handle packet) (moment (nextReaction (.send handle packet) v).2)], ?_, ?_⟩
  · change v.out.notes ++ [_] = _
    rw [hnotes, List.append_assoc]
    exact .refl _
  · intro n hn
    rcases List.mem_cons.mp hn with rfl | hn
    · exact id
    · obtain rfl := List.mem_singleton.mp hn
      intro ⟨_, hcon⟩
      omega

theorem perform_follows (n : Nat) (c : Entry) (w : Scripted) : Follows k w (perform n c w) := by
  induction n generalizing c w with
  | zero => exact Follows.rfl
  | succ n ih =>
    cases hc : takes c w.client with
    | false => exact enter_follows ih hc
    | true =>
      obtain ⟨rfl, hs⟩ : c = openOk ∧ w.client.socketConnected = false := by simpa [takes, openOk] using hc
      obtain ⟨hnotes, hconnections, -⟩ := arrive_openOk hs
      have harrive : Follows k w (arrive openOk w) := by
        refine ⟨by omega, fun _ => ⟨_, hnotes, fun m hm => ?_⟩⟩
        rw [List.mem_singleton.mp hm]
        exact id
      change Follows k w (enter (scriptXio (perform n)) (scriptApp (perform n)) openOk (arrive openOk w))
      rcases openOk_cases (perform n) hs with ⟨-, hout⟩ | ⟨handle, packet, v, -, hout, -, hsend⟩
      · exact harrive.trans (follows_out (by rw [hout]) (by rw [hout]))
      · rw [hsend]
        exact (follows_script ih).askTransport_of (connect_follows hs hout) fun _ _ _ => note_follows fun _ => id

/-! ## New notes -/

theorem newNotes_append {more : List Note} (h : w'.out.notes = w.out.notes ++ more) : newNotes w w' = more := by
  rw [newNotes, h, List.drop_left]

/-- Of the notes around the nested calls, none is of an error or a close. -/
theorem surfaced_iff {u v : Scripted} {handle : XioHandle} {packet : List UInt8} {m before after : Moment} {result : Nat}
    {nested : List Note}
    (hw : w'.out.notes = w.out.notes ++ .called openOk m :: .asked (.send handle packet) before ::
      (nested ++ [.answered (.send handle packet) result before after]))
    (hv : v.out.notes = u.out.notes ++ nested) : Surfaced w w' ↔ Surfaced u v := by
  have hopen : Entry.transport .closeComplete ≠ openOk := by decide
  unfold Surfaced
  rw [newNotes_append hw, newNotes_append hv]
  simp [hopen]

/-- What the transport notices of a connection that is taken: nothing, or a CONNECT and what it does itself meanwhile. -/
theorem connect_passed (n : Nat) (hs : w.client.socketConnected = false) :
    (connecting w = none ∧ (perform (n + 1) openOk w).out.notes = w.out.notes ++ [.called openOk (moment w)]) ∨
      ∃ handle packet before after u nested, IsConnect packet ∧ connecting w = some u ∧
        before.connections = w.out.connections + 1 ∧
        (perform (n + 1) openOk w).out.notes = w.out.notes ++ .called openOk (moment w) :: .asked (.send handle packet) before ::
          (nested ++ [.answered (.send handle packet) (answer w).result before after]) ∧
        (((answer w).calls.map .transport).foldl (fun w c => perform n c w) u).out.notes = u.out.notes ++ nested ∧
        ∀ nt ∈ nested, ¬ Note.ConnectOn (w.out.connections + 1) nt := by
  obtain ⟨hnotes, hconnections, htransport⟩ := arrive_openOk hs
  have hperform : perform (n + 1) openOk w =
      enter (scriptXio (perform n)) (scriptApp (perform n)) openOk (arrive openOk w) := .refl _
  rw [hperform]
  rcases openOk_cases (perform n) hs with ⟨hnone, hout⟩ | ⟨handle, packet, v, hconnect, hout, hsome, hsend⟩
  · exact Or.inl ⟨hnone, by rw [hout, hnotes]⟩
  · have hanswer : (nextReaction (.send handle packet) v).1 = answer w := by
      unfold nextReaction answer
      rw [hout, htransport]
    obtain ⟨before, hbefore⟩ : ∃ before, before = moment (nextReaction (.send handle packet) v).2 := ⟨_, .refl _⟩
    obtain ⟨u, hu⟩ : ∃ u, u = writeNote (.asked (.send handle packet) before) (nextReaction (.send handle packet) v).2 :=
      ⟨_, .refl _⟩
    have hunotes : u.out.notes = w.out.notes ++ [.called openOk (moment w), .asked (.send handle packet) before] := by
      rw [hu]
      change v.out.notes ++ [_] = _
      rw [hout, hnotes, List.append_assoc]
      exact .refl _
    have hucon : u.out.connections = w.out.connections + 1 := by
      rw [hu, ← hconnections, ← hout]
      exact .refl _
    have hbcon : before.connections = w.out.connections + 1 := by
      rw [hbefore, ← hconnections, ← hout]
      exact .refl _
    obtain ⟨nested, hnested, hfree⟩ := ((follows_script (k := w.out.connections + 1) (perform_follows n)).calls
      ((answer w).calls.map .transport) u).notes (by omega)
    obtain ⟨v', hv'⟩ : ∃ v', v' = ((answer w).calls.map .transport).foldl (fun w c => perform n c w) u := ⟨_, .refl _⟩
    have hend : (askTransport (perform n) (.send handle packet) v).2 =
        writeNote (.answered (.send handle packet) (answer w).result before (moment v')) v' := by
      rw [hv', hu, hbefore, ← hanswer]
      exact .refl _
    refine Or.inr ⟨handle, packet, before, moment v', u, nested, hconnect, by rw [hsome, hu, hbefore], hbcon, ?_, hnested, hfree⟩
    rw [hsend, hend]
    change v'.out.notes ++ [_] = _
    rw [hv', hnested, hunotes]
    simp

/-- Where no CONNECT is passed on, nothing is. -/
theorem idle (n : Nat) (hs : w.client.socketConnected = false) (hnone : connecting w = none) :
    ¬ (Handed w (perform (n + 1) openOk w) ∨ Surfaced w (perform (n + 1) openOk w)) := by
  rcases connect_passed n hs with ⟨-, hnotes⟩ | ⟨_, _, _, _, u, _, -, hu, -⟩
  · rintro (⟨_, _, _, _, nested, -, hh, -⟩ | ⟨⟨e, m, he⟩, -⟩)
    · have hlength := congrArg List.length (hnotes.symm.trans hh)
      simp at hlength
    · rw [newNotes_append hnotes] at he
      simp at he
  · rw [hnone] at hu
    cases hu

/-- The client while the transport is asked to send the CONNECT. -/
structure Connecting (w u : Scripted) : Prop where
  packetState : u.client.packetState = .connect
  socketConnected : u.client.socketConnected = true
  transport : u.client.xioHandle ≠ none
  operation : u.client.fnOperationCallback = w.client.fnOperationCallback
  error : u.client.fnOnErrorCallBack = w.client.fnOnErrorCallBack
  answers : u.out.transport = w.out.transport.tail
  application : u.out.application = w.out.application

theorem currentMs_same (w : Scripted) : w.currentMs.2.client = w.client ∧ w.currentMs.2.out = w.out ∧
    (w.currentMs.1 = none ↔ w.ticks.head? = some none) := by
  unfold World.currentMs
  split
  · rename_i ht
    exact ⟨.refl _, .refl _, by simp [ht]⟩
  · rename_i ht
    exact ⟨.refl _, .refl _, by simp [ht]⟩

/-- The transport is asked exactly if the CONNECT can be built and timed. -/
theorem connecting_cases (w : Scripted) :
    (¬ Ready w ∧ connecting w = none) ∨ (Ready w ∧ ∃ u, connecting w = some u ∧ Connecting w u) := by
  obtain ⟨v, hv⟩ : ∃ v, v = arrive openOk w := ⟨_, .refl _⟩
  obtain ⟨hclient, hmallocs, hticks, htransport, happlication⟩ : v.client = w.client ∧ v.mallocs = w.mallocs ∧
      v.ticks = w.ticks ∧ v.out.transport = w.out.transport ∧ v.out.application = w.out.application := by
    rw [hv]
    unfold arrive
    simp only
    split <;> exact ⟨.refl _, .refl _, .refl _, .refl _, .refl _⟩
  unfold connecting
  simp only [← hv, hclient, hmallocs]
  rcases hb : mqttCodecConnect w.client.mqttOptions w.mallocs with ⟨connPacket, mallocs⟩
  cases connPacket with
  | none => exact Or.inl ⟨fun h => h.built (by rw [hb]), .refl _⟩
  | some connPacket =>
    obtain ⟨taken, htaken⟩ : ∃ taken : Scripted, taken =
        { v with mallocs := mallocs, client := { w.client with packetState := .connect, socketConnected := true } } :=
      ⟨_, .refl _⟩
    obtain ⟨hsame, hout, htick⟩ := currentMs_same taken
    simp only [← htaken]
    rcases hms : taken.currentMs with ⟨ms, asking⟩
    rw [hms] at hsame hout htick
    have hasking : asking.client = { w.client with packetState := .connect, socketConnected := true } := by
      rw [htaken] at hsame
      exact hsame
    rw [htaken] at hout htick
    change _ = none ↔ v.ticks.head? = some none at htick
    rw [hticks] at htick
    cases ms with
    | none => exact Or.inl ⟨fun h => h.tick (htick.mp (.refl _)), .refl _⟩
    | some ms =>
      have hhandle : asking.client.xioHandle = w.client.xioHandle := by rw [hasking]
      cases hx : w.client.xioHandle with
      | none => exact Or.inl ⟨fun h => h.transport hx, congrArg (Option.map _) (hhandle.trans hx)⟩
      | some handle =>
        refine Or.inr ⟨⟨by simp [hb], fun h => by simpa using htick.mpr h, by simp [hx]⟩, _,
          congrArg (Option.map _) (hhandle.trans hx), ?_⟩
        refine ⟨?_, ?_, ?_, ?_, ?_, ?_, ?_⟩
        · exact congrArg MqttClient.packetState hasking
        · exact congrArg MqttClient.socketConnected hasking
        · exact fun h => absurd (hx.symm.trans (hhandle.symm.trans h)) (by simp)
        · change asking.client.fnOperationCallback = _
          rw [hasking]
        · change asking.client.fnOnErrorCallBack = _
          rw [hasking]
        · exact congrArg List.tail ((congrArg Surroundings.transport hout).trans htransport)
        · exact (congrArg Surroundings.application hout).trans happlication

/-! ## What the transport reports meanwhile -/

/-- While no DISCONNECT has been sent, it does nothing that a send is complete. -/
theorem perform_quiet (n : Nat) {c : TransportCall} (hc : c = .sendComplete .ok ∨ c = .sendComplete .cancelled) {u : Scripted}
    (hp : u.client.packetState = .connect) :
    perform (n + 1) (.transport c) u = writeNote (.called (.transport c) (moment u)) u := by
  have harrive : arrive (.transport c) u = writeNote (.called (.transport c) (moment u)) u := by
    rcases hc with rfl | rfl <;> simp [arrive, takes]
  change enter _ _ (.transport c) (arrive (.transport c) u) = _
  rw [harrive]
  rcases hc with rfl | rfl
  · simp [enter, sendComplete, writeNote, hp]
  · rfl

/-- Such a list of reports only leaves the notes of them. -/
theorem calls_quiet (n : Nat) (calls : List TransportCall) (hq : Quiet calls) {u : Scripted}
    (hp : u.client.packetState = .connect) :
    ∃ notes,
      (calls.map .transport).foldl (fun w c => perform (n + 1) c w) u = { u with out := { u.out with notes := u.out.notes ++ notes } } ∧
      ∀ note ∈ notes, ∃ c m, note = .called (.transport c) m := by
  induction calls generalizing u with
  | nil => exact ⟨[], by simp, by simp⟩
  | cons c calls ih =>
    rw [List.map_cons, List.foldl_cons, perform_quiet n (hq c List.mem_cons_self) hp]
    obtain ⟨notes, hrun, hcalled⟩ := ih (fun c hc => hq c (List.mem_cons_of_mem _ hc))
      (u := writeNote (.called (.transport c) (moment u)) u) hp
    refine ⟨.called (.transport c) (moment u) :: notes, ?_, ?_⟩
    · rw [hrun]
      simp [writeNote]
    · intro note hnote
      rcases List.mem_cons.mp hnote with rfl | hnote
      · exact ⟨c, _, .refl _⟩
      · exact hcalled note hnote

/-- Then no error is told. -/
theorem quiet_unsurfaced (n : Nat) {u : Scripted} (hc : Connecting w u) (hq : Quiet (answer w).calls) :
    ¬ Surfaced u (((answer w).calls.map .transport).foldl (fun w c => perform (n + 1) c w) u) := by
  obtain ⟨notes, hrun, hcalled⟩ := calls_quiet n (answer w).calls hq hc.packetState
  rw [hrun]
  rintro ⟨⟨e, m, hmem⟩, -⟩
  rw [newNotes_append rfl] at hmem
  obtain ⟨c, m', hnote⟩ := hcalled _ hmem
  cases hnote

/-! ## An error that the transport reports -/

theorem Follows.grows (h : Follows 0 w w') : w.out.notes <+: w'.out.notes := by
  obtain ⟨more, hmore, -⟩ := h.notes (Nat.zero_le _)
  exact ⟨more, hmore.symm⟩

theorem closeRules_grows (n : Nat) : CloseRules (scriptXio (perform n)) (Follows 0) :=
  (follows_frame (perform_follows n)).closeRules

/-- An application that does nothing about an error. -/
theorem callError_told (perform : Entry → Scripted → Scripted) (e : EventError) {v : Scripted}
    (herror : v.client.fnOnErrorCallBack = true) (happ : v.out.application.headD [] = []) :
    ∃ m m', ((scriptApp perform).callError e v).out.notes = v.out.notes ++ [.asked (.error e) m, .answered (.error e) 0 m m'] ∧
      ((scriptApp perform).callError e v).client = v.client ∧
        ((scriptApp perform).callError e v).out.transport = v.out.transport := by
  have hcalls : (nextCalls (v.log (.error e))).1 = [] := happ
  simp only [App.callError, herror, if_true, scriptApp, tellApplication, hcalls, List.map_nil, meanwhile, List.foldl_nil]
  exact ⟨_, _, by simp only [writeNote, List.append_assoc]; exact .refl _, .refl _, .refl _⟩

/-- A call that the transport makes is noted in front of what it leads to. -/
theorem closeComplete_noted (n : Nat) (rest : List TransportCall) (u : Scripted) :
    ∃ more, (((TransportCall.closeComplete :: rest).map Entry.transport).foldl (fun w c => perform (n + 1) c w) u).out.notes =
      u.out.notes ++ .called (.transport .closeComplete) (moment u) :: more := by
  have hfirst : Follows 0 (writeNote (.called (.transport .closeComplete) (moment u)) u)
      (perform (n + 1) (.transport .closeComplete) u) :=
    (follows_frame (k := 0) (perform_follows n)).onConnectionClosed _ (follows_out (.refl _) (.refl _))
  obtain ⟨more, hmore⟩ := (hfirst.trans ((follows_script (perform_follows (n + 1))).calls (rest.map Entry.transport) _)).grows
  refine ⟨more, hmore.symm.trans ?_⟩
  simp only [writeNote, List.append_assoc, List.cons_append, List.nil_append]

/-- A transport that closes when it is asked to. -/
theorem close_completes (n : Nat) (handle : XioHandle) {u : Scripted} {rest : List TransportCall}
    (hclose : u.out.transport.headD ⟨[], 0⟩ = ⟨.closeComplete :: rest, 0⟩) :
    ∃ before m more before' after, (askTransport (perform (n + 1)) (.close handle true) u).1 = 0 ∧
      (askTransport (perform (n + 1)) (.close handle true) u).2.out.notes =
        u.out.notes ++ .asked (.close handle true) before :: .called (.transport .closeComplete) m ::
          (more ++ [.answered (.close handle true) 0 before' after]) := by
  obtain ⟨reacted, hreaction, hnotes⟩ : ∃ reacted,
      nextReaction (.close handle true) u = (⟨.closeComplete :: rest, 0⟩, reacted) ∧ reacted.out.notes = u.out.notes :=
    ⟨_, Prod.ext hclose (.refl _), .refl _⟩
  obtain ⟨asked, hasked⟩ : ∃ asked, asked = writeNote (.asked (.close handle true) (moment reacted)) reacted := ⟨_, .refl _⟩
  obtain ⟨more, hmore⟩ := closeComplete_noted n rest asked
  refine ⟨moment reacted, moment asked, more, moment reacted, ?_⟩
  rw [askTransport, hreaction]
  simp only [meanwhile, ← hasked]
  have hnoted : asked.out.notes = u.out.notes ++ [.asked (.close handle true) (moment reacted)] := by
    rw [hasked, ← hnotes]
    exact .refl _
  generalize List.foldl _ asked _ = completed at hmore ⊢
  refine ⟨moment completed, trivial, ?_⟩
  rw [writeNote, hmore, hnoted]
  simp only [List.append_assoc, List.cons_append, List.nil_append]

/-- A client that tells an error to an application that does nothing about it, and a transport
    that closes when it is asked to. -/
theorem setErrorCallback_surfaces (n : Nat) (e : EventError) {v : Scripted} {rest : List TransportCall}
    (herror : v.client.fnOnErrorCallBack = true) (hs : v.client.socketConnected = true) (hx : v.client.xioHandle ≠ none)
    (happ : v.out.application.headD [] = []) (hclose : v.out.transport.headD ⟨[], 0⟩ = ⟨.closeComplete :: rest, 0⟩) :
    v.out.notes <+: (setErrorCallback (scriptXio (perform (n + 1))) (scriptApp (perform (n + 1))) e v).out.notes ∧
      Surfaced v (setErrorCallback (scriptXio (perform (n + 1))) (scriptApp (perform (n + 1))) e v) := by
  obtain ⟨handle, hx⟩ := Option.ne_none_iff_exists'.mp hx
  obtain ⟨m, m', hnotes, hclient, htransport⟩ := callError_told (perform (n + 1)) e herror happ
  have hend : setErrorCallback (scriptXio (perform (n + 1))) (scriptApp (perform (n + 1))) e v =
      closeConnection (scriptXio (perform (n + 1))) (scriptApp (perform (n + 1)))
        ((scriptApp (perform (n + 1))).callError e v) := .refl _
  rw [hend]
  generalize (scriptApp (perform (n + 1))).callError e v = told at hnotes hclient htransport ⊢
  obtain ⟨before, completed, more, before', after, hresult, hclosed⟩ :=
    close_completes n handle (by rw [htransport]; exact hclose)
  have hask : (scriptXio (perform (n + 1))).xioClose told.client.xioHandle true told =
      askTransport (perform (n + 1)) (.close handle true) told := by
    rw [hclient, hx]
    exact .refl _
  obtain ⟨last, hlast⟩ : (askTransport (perform (n + 1)) (.close handle true) told).2.out.notes <+:
      (closeConnection (scriptXio (perform (n + 1))) (scriptApp (perform (n + 1))) told).out.notes := by
    unfold closeConnection
    rw [if_pos (by rw [hclient]; exact hs), hask]
    simp only
    split
    · exact ((closeRules_grows (n + 1)).closeLoop _ _).grows
    · exact List.prefix_refl _
  rw [hclosed, hnotes] at hlast
  simp only [List.append_assoc, List.cons_append, List.nil_append] at hlast
  refine ⟨⟨_, hlast⟩, ?_⟩
  unfold Surfaced
  rw [newNotes_append hlast.symm]
  exact ⟨⟨e, m, by simp⟩, ⟨handle, true, before', after, by simp⟩, ⟨completed, by simp⟩⟩

theorem newNotes_mem {u : Scripted} {note : Note} (h : w.out.notes <+: u.out.notes) (h' : u.out.notes <+: w'.out.notes)
    (hn : note ∈ newNotes u w' ∨ note ∈ newNotes w u) : note ∈ newNotes w w' := by
  obtain ⟨more, hmore⟩ := h
  obtain ⟨more', hmore'⟩ := h'
  rw [newNotes_append hmore'.symm, newNotes_append hmore.symm] at hn
  have hall : w'.out.notes = w.out.notes ++ (more ++ more') := by rw [← hmore', ← hmore, List.append_assoc]
  rw [newNotes_append hall]
  exact List.mem_append.mpr hn.symm

/-- What has surfaced in the middle has surfaced. -/
theorem Surfaced.within {u v : Scripted} (h : Surfaced u v) (hw : w.out.notes <+: u.out.notes) (hu : u.out.notes <+: v.out.notes)
    (hv : v.out.notes <+: w'.out.notes) : Surfaced w w' := by
  have hmem : ∀ {note}, note ∈ newNotes u v → note ∈ newNotes w w' := fun hn =>
    newNotes_mem hw (hu.trans hv) (Or.inl (newNotes_mem hu hv (Or.inr hn)))
  obtain ⟨⟨e, m, he⟩, ⟨handle, callback, before, after, hc⟩, m', hm⟩ := h
  exact ⟨⟨e, m, hmem he⟩, ⟨handle, callback, before, after, hmem hc⟩, m', hmem hm⟩

/-- A report of the transport surfaces. -/
theorem reports_surfaced (n : Nat) {u : Scripted} (hc : Connecting w u) (hr : Reports w) :
    Surfaced u (((answer w).calls.map .transport).foldl (fun w c => perform (n + 2) c w) u) := by
  obtain ⟨quiet, c, rest, hcalls, hquiet, herror, hkind⟩ := hr.report
  obtain ⟨rest', hclose⟩ := hr.closes
  rw [hcalls, List.map_append, List.foldl_append]
  obtain ⟨notes, hrun, -⟩ := calls_quiet (n + 1) quiet hquiet hc.packetState
  rw [hrun, List.map_cons, List.foldl_cons]
  obtain ⟨v, hv⟩ : ∃ v : Scripted, v = { u with out := { u.out with notes := u.out.notes ++ notes } } := ⟨_, .refl _⟩
  rw [← hv]
  obtain ⟨called, hcalled⟩ : ∃ called, called = writeNote (.called (.transport c) (moment v)) v := ⟨_, .refl _⟩
  have hclient : called.client = u.client := by rw [hcalled, hv]; exact .refl _
  obtain ⟨e, hperform⟩ : ∃ e, perform (n + 2) (.transport c) v =
      setErrorCallback (scriptXio (perform (n + 1))) (scriptApp (perform (n + 1))) e called := by
    rw [hcalled]
    rcases hkind with rfl | ⟨rfl, hop⟩
    · exact ⟨.communicationError, .refl _⟩
    · refine ⟨.connectionError, ?_⟩
      have hopv : v.client.fnOperationCallback = true := by rw [hv]; exact hc.operation.trans hop
      exact if_pos hopv
  have happlication : called.out.application.headD [] = [] := by
    rw [hcalled, hv]
    change u.out.application.headD [] = []
    rw [hc.application]
    exact hr.application
  have hcloses : called.out.transport.headD ⟨[], 0⟩ = ⟨.closeComplete :: rest', 0⟩ := by
    rw [hcalled, hv]
    change u.out.transport.headD ⟨[], 0⟩ = _
    rw [hc.answers]
    exact hclose
  have hsurfaces := setErrorCallback_surfaces n e (by rw [hclient, hc.error]; exact herror)
    (by rw [hclient]; exact hc.socketConnected) (by rw [hclient]; exact hc.transport) happlication hcloses
  rw [← hperform] at hsurfaces
  refine hsurfaces.2.within ?_ hsurfaces.1 ((follows_script (k := 0) (perform_follows (n + 2))).calls _ _).grows
  rw [hcalled, hv]
  exact (List.prefix_append u.out.notes notes).trans (List.prefix_append _ _)

/-! ## What comes of it -/

/-- The CONNECT goes out or an error surfaces, if the CONNECT can be passed on and `xio_send` takes
    it or reports an error itself; and where it reports no more than completed sends, only if it
    takes it. -/
theorem open_outcome (n : Nat) (w : Scripted) (hs : w.client.socketConnected = false) :
    (Ready w ∧ ((answer w).result = 0 ∨ Reports w) →
      Handed w (perform (n + 3) openOk w) ∨ Surfaced w (perform (n + 3) openOk w)) ∧
    (Handed w (perform (n + 3) openOk w) ∨ Surfaced w (perform (n + 3) openOk w) →
      Ready w ∧ ((answer w).result = 0 ∨ ¬ Quiet (answer w).calls)) := by
  rcases connect_passed (n + 2) hs with ⟨hnone, -⟩ | ⟨handle, packet, before, after, u, nested, hconnect, hu, hbefore, hnotes,
    hnested, hfree⟩
  · have hready : ¬ Ready w := by
      rcases connecting_cases w with ⟨hready, -⟩ | ⟨-, u, hu, -⟩
      · exact hready
      · rw [hnone] at hu
        cases hu
    exact ⟨fun h => absurd h.1 hready, fun h => absurd h (idle (n + 2) hs hnone)⟩
  · obtain ⟨hready, hconnecting⟩ : Ready w ∧ Connecting w u := by
      rcases connecting_cases w with ⟨-, hnone⟩ | ⟨hready, u', hu', hconnecting⟩
      · rw [hu] at hnone
        cases hnone
      · rw [hu] at hu'
        exact ⟨hready, Option.some.inj hu' ▸ hconnecting⟩
    rw [surfaced_iff hnotes hnested]
    refine ⟨fun ⟨_, hor⟩ => ?_, fun h => ⟨hready, ?_⟩⟩
    · rcases hor with hzero | hreports
      · rw [hzero] at hnotes
        exact Or.inl ⟨handle, packet, before, after, nested, hconnect, hnotes, hbefore, hfree⟩
      · exact Or.inr (reports_surfaced n hconnecting hreports)
    · rcases h with ⟨_, _, _, _, nested', -, hh, -⟩ | hsurfaced
      · have htail := List.append_cancel_left (hnotes.symm.trans hh)
        simp only [List.cons.injEq, true_and] at htail
        have hlast := (List.append_inj' htail.2 (.refl _)).2
        simp only [List.cons.injEq, Note.answered.injEq, and_true] at hlast
        exact Or.inl hlast.2.1
      · exact Or.inr fun hquiet => quiet_unsurfaced (n + 1) hconnecting hquiet hsurfaced

def opening (mqttOptions : MqttClientOptions) (transport : List Reaction) : Nat × Scripted :=
  takeOptions 0 mqttOptions (scripted (.init true true true) [] [] transport [])

def plainOptions : MqttClientOptions := { clientId := some (.ofBlock [0x78]) }

/-- The transport takes the CONNECT, or fails and closes. -/
theorem plainOptions_handed :
    (Handed (opening plainOptions []).2 (perform 3 openOk (opening plainOptions []).2) ∨
      Surfaced (opening plainOptions []).2 (perform 3 openOk (opening plainOptions []).2)) ∧
      let failing := (opening plainOptions [⟨[.ioError], 1⟩, ⟨[.closeComplete], 0⟩]).2
      Handed failing (perform 3 openOk failing) ∨ Surfaced failing (perform 3 openOk failing) := by
  have hready : ∀ transport, Ready (opening plainOptions transport).2 := fun transport =>
    ⟨show (mqttCodecConnect plainOptions []).1 ≠ none by decide +kernel, nofun, nofun⟩
  refine ⟨(open_outcome 0 _ (.refl _)).1 ⟨hready _, Or.inl (.refl _)⟩, (open_outcome 0 _ (.refl _)).1 ⟨hready _, Or.inr ?_⟩⟩
  exact ⟨⟨[], .ioError, [], .refl _, nofun, .refl _, Or.inr ⟨.refl _, .refl _⟩⟩, .refl _, [], .refl _⟩

def willOnly : MqttClientOptions := { clientId := some (.ofBlock [0x78]), willTopic := some (.ofBlock [0x77]) }

def idling : Scripted :=
  performAll 4 [.api (.connect 0 willOnly)] (scripted (.init true true true) [] [] [⟨[.openComplete .ok], 0⟩] [])

theorem will_without_message_idles :
    ((opening willOnly []).1 = 0 ∧ ¬ (Handed (opening willOnly []).2 (perform 3 openOk (opening willOnly []).2) ∨
      Surfaced (opening willOnly []).2 (perform 3 openOk (opening willOnly []).2))) ∧
      idling.trace = [] ∧ idling.client.socketConnected = true := by
  refine ⟨⟨by decide +kernel, idle 2 (.refl _) (Option.isNone_iff_eq_none.mp (by decide +kernel))⟩, ?_⟩
  decide +kernel

end UMqtt.Client.Opening

/-
  UMqtt.Client.Flags — what the client knows about its connection: `clientConnected`,
  `socketConnected` and `xioHandle`.

  The three change in different callbacks, and some of these run in the middle of others. The
  application calls nothing from its callbacks but `mqtt_client_disconnect`
  (`OnlyDisconnects`).

  Proved (`flags_run`): an accepted client is connected, and a connected client has its
  transport, after every call of a run that is `Orderly`: a DISCONNECT can be built, and its
  connection is closed when `xio_send` returns; a close is complete when `xio_close` returns,
  or, without a disconnect callback, when the transport next works; no open completes that was
  closed since; and the connection is there still when the callback for its CONNACK returns.
  `disconnect_breaks_flags` shows two runs that are not.
-/

import UMqtt.Client.Surroundings

namespace UMqtt.Client

open UMqtt.Lib UMqtt.Crt UMqtt.Codec UMqtt.Io

structure Flags (client : MqttClient) : Prop where
  accepted : client.clientConnected = true → client.socketConnected = true
  transport : client.socketConnected = true → client.xioHandle ≠ none

/-! ## Orderly runs -/

def OnlyDisconnects (w : Scripted) : Prop := ∀ calls ∈ w.out.application, ∀ c ∈ calls, ∃ callback, c = ApiCall.disconnect callback

def Note.Orderly : Note → Prop
  | .called (.transport (.openComplete .ok)) m =>
    m.client.socketConnected = false → m.client.xioHandle ≠ none ∧ m.closing = false
  | .called (.api (.disconnect _)) m =>
    m.client.clientConnected = true → (mqttCodecDisconnect m.mallocs).1.isSome ∧ (m.ticks.headD (some 0)).isSome
  | .answered (.send _ bytes) _ _ after => bytes = disconnectPacket → after.client.socketConnected = false
  | .answered (.close _ true) _ _ after => after.client.socketConnected = true → after.client.disconnectCb = none
  | .answered (.dowork _) _ before after => before.closing = true → after.client.socketConnected = false
  | .answered (.operation (.connack _ code)) _ _ after => code = 0 → after.client.socketConnected = true
  | _ => True

def Orderly (w : Scripted) : Prop := ∀ n ∈ w.out.notes, n.Orderly

instance : DecidablePred Note.Orderly := fun n => by
  unfold Note.Orderly
  split <;> infer_instance

instance (w : Scripted) : Decidable (Orderly w) := List.decidableBAll _ _

/-- What holds across every call that is made from inside of another. -/
structure Kept (w w' : Scripted) : Prop where
  application : OnlyDisconnects w'
  orderly : Orderly w' → Orderly w
  closing : w.out.closing = true → w'.out.closing = true
  flags : Orderly w' → Flags w.client → Flags w'.client
  closed : Orderly w' → w.out.closing = true → w.client.socketConnected = false → w'.client.socketConnected = false

def Follows (w w' : Scripted) : Prop := OnlyDisconnects w → Kept w w'

variable {w w' w'' : Scripted}

theorem Follows.trans (h : Follows w w') (h' : Follows w' w'') : Follows w w'' := by
  intro ho
  have hk := h ho
  have hk' := h' hk.application
  refine ⟨hk'.application, fun hw => hk.orderly (hk'.orderly hw), fun hc => hk'.closing (hk.closing hc), ?_, ?_⟩
  · exact fun hw hf => hk'.flags hw (hk.flags (hk'.orderly hw) hf)
  · exact fun hw hc hs => hk'.closed hw (hk.closing hc) (hk.closed (hk'.orderly hw) hc hs)

/-- Changes that are not of the flags, nor of what this looks at in the surroundings. -/
theorem follows_same (happ : w'.out.application = w.out.application) (hnotes : w'.out.notes = w.out.notes)
    (hclosing : w'.out.closing = w.out.closing) (hc : w'.client.clientConnected = w.client.clientConnected)
    (hs : w'.client.socketConnected = w.client.socketConnected) (hx : w'.client.xioHandle = w.client.xioHandle) :
    Follows w w' := by
  intro ho
  refine ⟨?_, ?_, by rw [hclosing]; exact id, ?_, fun _ _ h => hs.trans h⟩
  · unfold OnlyDisconnects; rw [happ]; exact ho
  · unfold Orderly; rw [hnotes]; exact id
  · intro _ hf
    exact ⟨by rw [hc, hs]; exact hf.accepted, by rw [hs, hx]; exact hf.transport⟩

theorem Follows.rfl : Follows w w := follows_same (.refl _) (.refl _) (.refl _) (.refl _) (.refl _) (.refl _)

theorem note_follows (n : Note) (w : Scripted) : Follows w (writeNote n w) := by
  intro ho
  refine ⟨ho, ?_, id, fun _ hf => hf, fun _ _ h => h⟩
  exact fun h m hm => h m (List.mem_append_left _ hm)

theorem orderly_note {n : Note} (h : Orderly (writeNote n w)) : n.Orderly := h n (List.mem_append_right _ (by simp))

/-- The client is told that its connection is closed. -/
theorem drop_follows (w : Scripted) :
    Follows w { w with client := { w.client with socketConnected := false, clientConnected := false } } := fun ho =>
  ⟨ho, id, id, fun _ _ => ⟨nofun, nofun⟩, fun _ _ _ => rfl⟩

/-! ## The surroundings -/

/-- A call that a callback of the client may lead to. -/
def Nested : Entry → Prop
  | .transport _ => True
  | .api (.disconnect _) => True
  | _ => False

theorem transportCalls_nested (calls : List TransportCall) : ∀ c ∈ calls.map Entry.transport, Nested c := by
  intro c hc
  obtain ⟨t, -, rfl⟩ := List.mem_map.mp hc
  trivial

section Answers

variable {perform : Entry → Scripted → Scripted} (hp : ∀ c w, Nested c → Follows w (perform c w))

include hp

theorem calls_follows {calls : List Entry} (hc : ∀ c ∈ calls, Nested c) (w : Scripted) :
    Follows w (calls.foldl (fun w c => perform c w) w) := by
  induction calls generalizing w with
  | nil => exact Follows.rfl
  | cons c calls ih =>
    exact (hp c w (hc c List.mem_cons_self)).trans (ih (fun x hx => hc x (List.mem_cons_of_mem _ hx)) _)

theorem meanwhile_follows (x : Exit) {calls : List Entry} (hc : ∀ c ∈ calls, Nested c) (result : Nat) (w : Scripted) :
    Follows w (meanwhile perform x calls result w) :=
  ((note_follows _ w).trans (calls_follows hp hc _)).trans (note_follows _ _)

/-- Any call of the transport, but an open. -/
theorem askTransport_follows (x : Exit) (hx : ∀ h, x ≠ .openIo h) (w : Scripted) : Follows w (askTransport perform x w).2 := by
  have hnext : Follows w (nextReaction x w).2 := by
    intro ho
    refine ⟨ho, id, ?_, fun _ hf => hf, fun _ _ h => h⟩
    intro hc
    cases x with
    | openIo h => exact absurd rfl (hx h)
    | close h callback => rfl
    | _ => exact hc
  exact hnext.trans (meanwhile_follows hp x (transportCalls_nested _) _ _)

theorem tellApplication_follows (x : Exit) (w : Scripted) : Follows w (tellApplication perform x w) := by
  intro ho
  have hnext : Follows w (nextCalls w).2 := by
    intro ho
    exact ⟨fun calls hm => ho calls (List.mem_of_mem_tail hm), id, id, fun _ hf => hf, fun _ _ h => h⟩
  refine (hnext.trans (meanwhile_follows hp x ?_ _ _)) ho
  intro c hc
  obtain ⟨a, ha, rfl⟩ := List.mem_map.mp hc
  have hmem : (nextCalls w).1 ∈ w.out.application ∨ (nextCalls w).1 = [] := by
    unfold nextCalls
    cases w.out.application with
    | nil => exact Or.inr rfl
    | cons calls rest => exact Or.inl List.mem_cons_self
  rcases hmem with hm | hm
  · obtain ⟨callback, rfl⟩ := ho _ hm a ha
    trivial
  · rw [hm] at ha; cases ha

end Answers

/-! ## The client -/

theorem log_follows (e : Event) (w : Scripted) : Follows w (w.log e) :=
  follows_same (.refl _) (.refl _) (.refl _) (.refl _) (.refl _) (.refl _)

theorem currentMs_follows (w : Scripted) : Follows w w.currentMs.2 := by
  unfold World.currentMs
  split <;> exact follows_same (.refl _) (.refl _) (.refl _) (.refl _) (.refl _) (.refl _)

section Client

variable {perform : Entry → Scripted → Scripted} (hp : ∀ c w, Nested c → Follows w (perform c w))

include hp

theorem xio_follows : XioRules (scriptXio perform) Follows where
  refl _ := Follows.rfl
  trans := Follows.trans
  close h callback w := askTransport_follows hp _ (by simp) w
  send h bytes w := askTransport_follows hp _ (by simp) w
  dowork h w := askTransport_follows hp _ (by simp) w

theorem callOperation_follows (o : Operation) (w : Scripted) : Follows w ((scriptApp perform).callOperation o w) :=
  (log_follows _ w).trans (tellApplication_follows hp _ _)

theorem callError_follows (e : EventError) (w : Scripted) : Follows w ((scriptApp perform).callError e w) := by
  unfold App.callError
  split
  · exact (log_follows _ w).trans (tellApplication_follows hp _ _)
  · exact Follows.rfl

theorem callDisconnected_follows (w : Scripted) : Follows w ((scriptApp perform).callDisconnected w) := by
  unfold App.callDisconnected
  split
  · exact Follows.rfl
  · exact (log_follows _ w).trans (tellApplication_follows hp _ _)

/-- The transport keeps being closed, while it is asked for something else. -/
theorem asked_closing (x : Exit) (hw : OnlyDisconnects w) (hc : x.closing w.out.closing = true) :
    (askTransport perform x w).2.out.closing = true :=
  (meanwhile_follows hp x (transportCalls_nested (nextReaction x w).1.calls) (nextReaction x w).1.result
    (nextReaction x w).2 hw).closing hc

/-- A transport that was asked to close is closed once it has worked. -/
theorem closeLoop_closes (retries : Nat) (hw : OnlyDisconnects w) (hc : w.out.closing = true) (hf : Flags w.client)
    (ho : Orderly (closeLoop (scriptXio perform) (retries + 1) w)) :
    (closeLoop (scriptXio perform) (retries + 1) w).client.socketConnected = false := by
  obtain ⟨v, hv⟩ : ∃ v, v = (scriptXio perform).xioDowork w.client.xioHandle w := ⟨_, rfl⟩
  have hworked : Orderly v → v.client.socketConnected = false ∧ v.out.closing = true := by
    intro hov
    rw [hv] at hov ⊢
    cases hh : w.client.xioHandle with
    | none =>
      refine ⟨?_, hc⟩
      cases hs : w.client.socketConnected with
      | false => exact hs
      | true => exact absurd hh (hf.transport hs)
    | some h =>
      rw [hh] at hov
      exact ⟨orderly_note hov hc, asked_closing hp (.dowork h) hw hc⟩
  have hwv : Follows w v := by rw [hv]; exact (xio_follows hp).xioDowork _ w
  have hov : Follows v (closeLoop (scriptXio perform) retries v) := (xio_follows hp).closeLoop retries v
  simp only [closeLoop, ← hv] at ho ⊢
  split at ho
  · rename_i hcc
    rw [if_pos hcc]
    have hkv := hov (hwv hw).application
    obtain ⟨hs, hcl⟩ := hworked (hkv.orderly ho)
    exact hkv.closed ho hcl hs
  · rename_i hcc
    rw [if_neg hcc]
    exact (hworked ho).1

theorem closeConnection_follows (w : Scripted) : Follows w (closeConnection (scriptXio perform) (scriptApp perform) w) := by
  intro honly
  unfold closeConnection
  split
  · rename_i hs
    obtain ⟨v, hv⟩ : ∃ v, v = ((scriptXio perform).xioClose w.client.xioHandle true w).2 := ⟨_, rfl⟩
    have hwv : Follows w v := by rw [hv]; exact (xio_follows hp).xioClose _ true w
    obtain ⟨u, hu⟩ : ∃ u, u = if v.client.disconnectCb.isNone then closeLoop (scriptXio perform) maxCloseRetries v else v :=
      ⟨_, rfl⟩
    have hvu : Follows v u := by
      rw [hu]
      split
      · exact (xio_follows hp).closeLoop _ v
      · exact Follows.rfl
    simp only [← hv, ← hu]
    have hkv := hwv honly
    have hku := hvu hkv.application
    have hk := (hwv.trans hvu) honly
    refine ⟨hk.application, hk.orderly, hk.closing, ?_, fun _ _ hs' => absurd (hs'.symm.trans hs) (by decide)⟩
    intro ho hf
    obtain ⟨h, hh⟩ := Option.ne_none_iff_exists'.mp (hf.transport hs)
    have hov := hku.orderly ho
    have hclosing : v.out.closing = true := by rw [hv, hh]; exact asked_closing hp (.close h true) honly rfl
    have hcb : v.client.socketConnected = true → v.client.disconnectCb = none := by
      rw [hv, hh] at hov ⊢
      exact orderly_note hov
    have hsu : u.client.socketConnected = false := by
      cases hsv : v.client.socketConnected with
      | false => exact hku.closed ho hclosing hsv
      | true =>
        rw [if_pos (by rw [hcb hsv]; rfl)] at hu
        rw [hu] at ho ⊢
        exact closeLoop_closes hp 1 hkv.application hclosing (hkv.flags hov hf) ho
    exact ⟨(hk.flags ho hf).accepted, fun ht => absurd (hsu.symm.trans ht) (by decide)⟩
  · exact callDisconnected_follows hp w honly

theorem follows_rules : Rules (scriptXio perform) (scriptApp perform) Follows where
  refl _ := Follows.rfl
  trans := Follows.trans
  idle h := follows_same (by rw [h.out]) (by rw [h.out]) (by rw [h.out]) h.clientConnected h.socketConnected h.xioHandle
  send := (xio_follows hp).sendPacketItem currentMs_follows fun _ _ _ =>
    follows_same (.refl _) (.refl _) (.refl _) (.refl _) (.refl _) (.refl _)
  operation w _ := callOperation_follows hp _ w
  message m w := (log_follows _ w).trans (tellApplication_follows hp _ _)
  error w _ := callError_follows hp _ w
  close := closeConnection_follows hp

/-- A CONNACK is accepted on a connection that is there still. -/
theorem act_connack_follows (session : Bool) (code : UInt8) (w : Scripted) :
    Follows w (act (scriptXio perform) (scriptApp perform) (.connack session code) w) := by
  intro honly
  have hop := callOperation_follows hp (.connack session code) w
  have hk := hop honly
  simp only [act]
  split
  · rename_i hcode
    refine ⟨hk.application, hk.orderly, hk.closing, ?_, hk.closed⟩
    intro ho hf
    have hanswered : Orderly ((scriptApp perform).callOperation (.connack session code) w) := ho
    exact ⟨fun _ => orderly_note hanswered hcode, (hk.flags ho hf).transport⟩
  · exact hk

theorem recvComplete_follows (p : Packet) (w : Scripted) :
    Follows w (recvCompleteCallback (scriptXio perform) (scriptApp perform) p w) := by
  have hread : Follows w { w.log (.packet p) with mallocs := (decode w.client p w.mallocs).mallocs } :=
    follows_same (.refl _) (.refl _) (.refl _) (.refl _) (.refl _) (.refl _)
  refine hread.trans ((follows_rules hp).steps.act (HandlerRules.decode_ne_noPingResponse _ _ _) ?_ ?_)
  · intro session code _
    exact act_connack_follows hp session code _
  · intro _
    have hseen : ∀ v : Scripted, Follows v { v with client := { v.client with timeSincePing := 0 } } := fun _ =>
      follows_same (.refl _) (.refl _) (.refl _) (.refl _) (.refl _) (.refl _)
    simp only [act]
    split
    · exact (hseen _).trans (callOperation_follows hp _ _)
    · exact hseen _

omit hp in
/-- A DISCONNECT that is sent is out, and its connection closed, when the call returns. -/
theorem sent_closes (hx : w.client.xioHandle ≠ none) (ht : (w.ticks.headD (some 0)).isSome)
    (ho : Orderly (sendPacketItem (scriptXio perform) disconnectPacket w).2) :
    (sendPacketItem (scriptXio perform) disconnectPacket w).2.client.socketConnected = false := by
  obtain ⟨h, hh⟩ := Option.ne_none_iff_exists'.mp hx
  obtain ⟨ms, v, hms, hv⟩ : ∃ ms v, w.currentMs = (some ms, v) ∧ v.client.xioHandle = some h := by
    unfold World.currentMs
    cases hticks : w.ticks with
    | nil => exact ⟨0, w, rfl, hh⟩
    | cons t ticks =>
      rw [hticks] at ht
      obtain ⟨ms, rfl⟩ := Option.isSome_iff_exists.mp ht
      exact ⟨ms, { w with ticks := ticks }, rfl, hh⟩
  have hsent : (sendPacketItem (scriptXio perform) disconnectPacket w).2 =
      (askTransport perform (.send h disconnectPacket) (stamp ms disconnectPacket v)).2 := by
    rw [sendPacketItem_stamp hms, hv]
    rfl
  rw [hsent] at ho ⊢
  exact orderly_note ho rfl

theorem mqttClientDisconnect_follows (callback : Option Nat) (w : Scripted)
    (hready : Orderly w → w.client.clientConnected = true →
      (mqttCodecDisconnect w.mallocs).1.isSome ∧ (w.ticks.headD (some 0)).isSome) :
    Follows w (mqttClientDisconnect (scriptXio perform) (scriptApp perform) callback w).2 := by
  by_cases hc : w.client.clientConnected = true
  · intro honly
    unfold mqttClientDisconnect
    rw [if_pos hc]
    rcases hd : mqttCodecDisconnect w.mallocs with ⟨_ | packet, ms⟩
    · refine ⟨honly, id, id, ?_, fun _ _ hs => hs⟩
      intro ho _
      have hbuilt := (hready ho hc).1
      rw [hd] at hbuilt
      cases hbuilt
    · obtain ⟨u, hu⟩ : ∃ u : Scripted, u = { w with mallocs := ms, client :=
        { w.client with disconnectCb := callback, packetState := .disconnect } } := ⟨_, rfl⟩
      have hwu : Follows w u := by
        rw [hu]
        exact follows_same (.refl _) (.refl _) (.refl _) (.refl _) (.refl _) (.refl _)
      have hbytes : packet.bytes = disconnectPacket := constructHeaderOnly_bytes hd
      have hsend := (follows_rules hp).send disconnectPacket u
      simp only [hbytes, ← hu]
      have hk := (hwu.trans hsend) honly
      refine ⟨hk.application, hk.orderly, hk.closing, ?_, hk.closed⟩
      intro ho hf
      have hready := hready (hk.orderly ho) hc
      have hx : u.client.xioHandle ≠ none := by rw [hu]; exact hf.transport (hf.accepted hc)
      have hs := sent_closes hx (by rw [hu]; exact hready.2) ho
      exact ⟨(hk.flags ho hf).accepted, fun ht => absurd (hs.symm.trans ht) (by decide)⟩
  · exact (follows_rules hp).mqttClientDisconnect callback w fun v h => absurd h hc

omit hp in
theorem arrive_follows (c : Entry) (w : Scripted) : Follows w (arrive c w) := by
  unfold arrive
  simp only
  split
  · exact (note_follows _ w).trans (follows_same (.refl _) (.refl _) (.refl _) (.refl _) (.refl _) (.refl _))
  · exact note_follows _ w

omit hp in
theorem orderly_arrive {c : Entry} (h : Orderly (arrive c w)) : (Note.called c (moment w)).Orderly := by
  unfold arrive at h
  simp only at h
  split at h <;> exact h _ (List.mem_append_right _ List.mem_cons_self)

/-- The open that completes is of a transport that is there. -/
theorem onOpenComplete_follows (r : OpenResult) (w : Scripted) :
    Follows w (onOpenComplete (scriptXio perform) (scriptApp perform) r (arrive (.transport (.openComplete r)) w)) := by
  refine (arrive_follows _ w).trans ((follows_rules hp).onOpenComplete r _ ?_)
  rintro rfl hs
  have hclient := arrive_client (.transport (.openComplete .ok)) w
  obtain ⟨-, -, hclosing⟩ := arrive_rest (.transport (.openComplete .ok)) w
  intro honly
  have hopen : Orderly (arrive (.transport (.openComplete .ok)) w) →
      w.client.xioHandle ≠ none ∧ w.out.closing = false := by
    intro ho
    exact orderly_arrive ho (by rw [hclient] at hs; exact hs)
  refine ⟨honly, id, id, ?_, ?_⟩
  · intro ho _
    exact ⟨fun _ => rfl, fun _ => by rw [hclient]; exact (hopen ho).1⟩
  · intro ho hc
    rw [hclosing, (hopen ho).2] at hc
    cases hc

theorem enter_follows {c : Entry} (hc : Nested c) (w : Scripted) :
    Follows w (enter (scriptXio perform) (scriptApp perform) c (arrive c w)) := by
  have ha := arrive_follows c w
  cases c with
  | transport c =>
    cases c with
    | openComplete r => exact onOpenComplete_follows hp r w
    | bytesReceived buffer => exact ha.trans ((follows_rules hp).steps.onBytesReceived (recvComplete_follows hp) buffer _)
    | ioError => exact ha.trans ((follows_rules hp).steps.onIoError _)
    | sendComplete r => exact ha.trans ((follows_rules hp).steps.sendComplete r _)
    | closeComplete => exact ha.trans ((drop_follows _).trans (callDisconnected_follows hp _))
  | api c =>
    cases c with
    | disconnect callback =>
      refine ha.trans (mqttClientDisconnect_follows hp callback _ ?_)
      obtain ⟨hmallocs, hticks, -⟩ := arrive_rest (.api (.disconnect callback)) w
      intro ho
      rw [arrive_client, hmallocs, hticks]
      exact orderly_arrive ho
    | _ => exact hc.elim

end Client

theorem perform_follows (n : Nat) (c : Entry) (w : Scripted) (hc : Nested c) : Follows w (perform n c w) := by
  induction n generalizing c w with
  | zero => exact Follows.rfl
  | succ n ih => exact enter_follows (fun c w hc => ih c w hc) hc w

/-! ## Runs -/

/-- What holds across a call from outside: the client may be given another transport. -/
structure Runs (w w' : Scripted) : Prop where
  application : OnlyDisconnects w → OnlyDisconnects w'
  orderly : OnlyDisconnects w → Orderly w' → Orderly w
  flags : OnlyDisconnects w → Orderly w' → Flags w.client → Flags w'.client

theorem Follows.runs (h : Follows w w') : Runs w w' :=
  ⟨fun honly => (h honly).application, fun honly => (h honly).orderly, fun honly => (h honly).flags⟩

theorem Runs.trans (h : Runs w w') (h' : Runs w' w'') : Runs w w'' where
  application honly := h'.application (h.application honly)
  orderly honly ho := h.orderly honly (h'.orderly (h.application honly) ho)
  flags honly ho hf :=
    h'.flags (h.application honly) ho (h.flags honly (h'.orderly (h.application honly) ho) hf)

theorem takeOptions_runs (h : XioHandle) (mqttOptions : MqttClientOptions) (w : Scripted) :
    Runs w (takeOptions h mqttOptions w).2 where
  application honly := honly
  orderly _ ho := ho
  flags _ _ hf := ⟨hf.accepted, fun _ => Option.some_ne_none h⟩

section Client

variable {perform : Entry → Scripted → Scripted} (hp : ∀ c w, Nested c → Follows w (perform c w))

include hp

theorem openIo_runs (h : XioHandle) (w : Scripted) : Runs w ((scriptXio perform).openIo h w).2 := by
  have hnext : Runs w (nextReaction (.openIo h) w).2 := ⟨id, fun _ ho => ho, fun _ _ hf => hf⟩
  exact hnext.trans (meanwhile_follows hp _ (transportCalls_nested _) _ _).runs

theorem mqttClientConnect_runs (h : XioHandle) (mqttOptions : MqttClientOptions) (w : Scripted) :
    Runs w (mqttClientConnect (scriptXio perform) (some h) mqttOptions w).2 := by
  have htake := takeOptions_runs h mqttOptions w
  refine mqttClientConnect_of (R := Runs) Runs.trans h mqttOptions w (fun _ => htake) (fun _ => htake.trans (openIo_runs hp h _)) fun v => ?_
  exact Follows.runs (follows_same (.refl _) (.refl _) (.refl _) (.refl _) (.refl _) (.refl _))

theorem mqttClientDowork_follows (w : Scripted) : Follows w (mqttClientDowork (scriptXio perform) (scriptApp perform) w) := by
  refine (follows_rules hp).steps.mqttClientDowork w (fun h => askTransport_follows hp _ (by simp) w) fun v => ?_
  exact (follows_rules hp).steps.keepAlive currentMs_follows (callError_follows hp .noPingResponse)
    (fun _ => follows_same (.refl _) (.refl _) (.refl _) (.refl _) (.refl _) (.refl _))
    (fun _ _ => follows_same (.refl _) (.refl _) (.refl _) (.refl _) (.refl _) (.refl _)) v

theorem enter_runs (c : Entry) (w : Scripted) : Runs w (enter (scriptXio perform) (scriptApp perform) c (arrive c w)) := by
  have ha := arrive_follows c w
  cases c with
  | transport c =>
    have hc : Nested (.transport c) := trivial
    exact (enter_follows hp hc w).runs
  | api c =>
    cases c with
    | connect h mqttOptions => exact ha.runs.trans (mqttClientConnect_runs hp h mqttOptions _)
    | publish msgHandle => exact (ha.trans ((follows_rules hp).steps.mqttClientPublish msgHandle _)).runs
    | subscribe packetId subscribeList =>
      exact (ha.trans ((follows_rules hp).steps.mqttClientSubscribe packetId subscribeList _)).runs
    | unsubscribe packetId unsubscribeList =>
      exact (ha.trans ((follows_rules hp).steps.mqttClientUnsubscribe packetId unsubscribeList _)).runs
    | disconnect callback =>
      have hc : Nested (.api (.disconnect callback)) := trivial
      exact (enter_follows hp hc w).runs
    | dowork => exact (ha.trans (mqttClientDowork_follows hp _)).runs

end Client

theorem perform_runs (n : Nat) (c : Entry) (w : Scripted) : Runs w (perform n c w) := by
  cases n with
  | zero => exact Follows.rfl.runs
  | succ n => exact enter_runs (fun c w hc => perform_follows n c w hc) c w

theorem performAll_runs (n : Nat) (calls : List Entry) (w : Scripted) : Runs w (performAll n calls w) :=
  performAll_of (fun _ => Follows.rfl.runs) Runs.trans (perform_runs n) calls w

theorem init_flags (msgRecv opCallback onErrorCallBack : Bool) : Flags (MqttClient.init msgRecv opCallback onErrorCallBack) := by
  constructor <;> simp [MqttClient.init]

/-- After each of the calls. -/
theorem flags_run (n : Nat) (msgRecv opCallback onErrorCallBack : Bool) (mallocs : Mallocs) (ticks : List (Option UInt32))
    (transport : List Reaction) (application : List (List ApiCall)) (done calls : List Entry)
    (honly : ∀ calls ∈ application, ∀ c ∈ calls, ∃ callback, c = ApiCall.disconnect callback)
    (ho : Orderly (performAll n (done ++ calls)
      (scripted (.init msgRecv opCallback onErrorCallBack) mallocs ticks transport application))) :
    Flags (performAll n done
      (scripted (.init msgRecv opCallback onErrorCallBack) mallocs ticks transport application)).client := by
  obtain ⟨w, hw⟩ : ∃ w, w = scripted (.init msgRecv opCallback onErrorCallBack) mallocs ticks transport application :=
    ⟨_, rfl⟩
  have hwo : OnlyDisconnects w := by rw [hw]; exact honly
  have hwf : Flags w.client := by rw [hw]; exact init_flags msgRecv opCallback onErrorCallBack
  rw [← hw] at ho ⊢
  have hdone := performAll_runs n done w
  unfold performAll at ho
  rw [List.foldl_append] at ho
  exact hdone.flags hwo ((performAll_runs n calls _).orderly (hdone.application hwo) ho) hwf

/-! ## Runs with a DISCONNECT -/

/-- A connection is opened, its CONNACK arrives, and then come these calls. -/
def connectedRun (reactions : List Reaction) (application : List (List ApiCall)) (calls : List Entry) : Scripted :=
  performAll 4 (.api (.connect 0 { clientId := some (.ofBlock [0x78]) }) :: .api .dowork :: calls)
    (scripted (.init true true true) [] []
      (⟨[.openComplete .ok], 0⟩ :: ⟨[], 0⟩ :: ⟨[.bytesReceived acceptedConnack], 0⟩ :: reactions) application)

def disconnectInCallback : Scripted :=
  connectedRun [⟨[.sendComplete .ok], 0⟩, ⟨[.closeComplete], 0⟩] [[.disconnect none]] []

def disconnectQueued : Scripted := connectedRun [⟨[], 0⟩] [] [.api (.disconnect none)]

theorem disconnect_breaks_flags :
    (disconnectInCallback.client.clientConnected = true ∧ disconnectInCallback.client.socketConnected = false) ∧
      disconnectQueued.client.socketConnected = true ∧ disconnectQueued.client.xioHandle = none := by
  decide +kernel

def disconnectSent : Scripted :=
  connectedRun [⟨[.sendComplete .ok], 0⟩, ⟨[.closeComplete], 0⟩] [] [.api (.disconnect none)]

theorem disconnectSent_flags : Flags disconnectSent.client :=
  flags_run 4 true true true [] [] _ _ _ [] (by simp) (by decide +kernel)

end UMqtt.Client

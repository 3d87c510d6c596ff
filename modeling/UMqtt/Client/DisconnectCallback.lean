/-
  UMqtt.Client.DisconnectCallback — how often the callback of a disconnect is invoked.

  `mqtt_client_disconnect` stores a callback, and nothing takes it out again: each close that
  completes invokes it, and so does each `close_connection` that finds the socket closed. It is
  `owed` from the call that stores it up to its invocation, or to the next open.

  The close that it is for is `awaited`: from a disconnect of a client that is connected, until
  one completes, or another connection is asked for. Where a close completes with a callback
  stored that is not awaited, or an error is reported on a closed socket with one stored
  (`Stale`), it is invoked once more.

  Proved (`callback_run`): in a run of the client among any surroundings where neither happens, a
  callback is only invoked while it is owed. `failed_open_invokes_again` is a run where the open
  of a later connection fails.
-/

import UMqtt.Client.Surroundings
import UMqtt.Lib.History

namespace UMqtt.Client.DisconnectCallback

open UMqtt.Lib UMqtt.Crt UMqtt.Codec UMqtt.Io

/-! ## What is owed -/

/-- A call of `mqtt_client_disconnect` that cannot build its DISCONNECT stores nothing. -/
def Refused (m : Moment) : Prop := m.client.clientConnected = true ∧ (mqttCodecDisconnect m.mallocs).1 = none

instance (m : Moment) : Decidable (Refused m) := inferInstanceAs (Decidable (_ ∧ _))

def owedAfter (owed : Option Nat) : Note → Option Nat
  | .called (.api (.disconnect callback)) m => if Refused m then owed else callback
  | .called (.transport (.openComplete .ok)) m => if m.client.socketConnected then owed else none
  | .asked (.disconnected _) _ => none
  | .asked (.openIo _) _ => none
  | _ => owed

/-- The callback of the last disconnect, if it has not been invoked and no connection was opened since. -/
def owed (notes : List Note) : Option Nat := notes.foldl owedAfter none

theorem owed_concat (notes : List Note) (n : Note) : owed (notes ++ [n]) = owedAfter (owed notes) n := by
  simp [owed]

def Owed (before : List Note) : Note → Prop
  | .asked (.disconnected callback) _ => owed before = some callback
  | _ => True

instance (before : List Note) : DecidablePred (Owed before) := fun n => by
  rcases n with ⟨c, m⟩ | ⟨x, m⟩ | ⟨x, result, sent, after⟩
  · exact inferInstanceAs (Decidable True)
  · cases x with
    | disconnected callback => exact inferInstanceAs (Decidable (owed before = some callback))
    | _ => exact inferInstanceAs (Decidable True)
  · exact inferInstanceAs (Decidable True)

/-! ## Orderly runs -/

def awaitedAfter (awaited : Bool) : Note → Bool
  | .called (.api (.disconnect _)) m => if Refused m then awaited else m.client.clientConnected || m.client.socketConnected
  | .called (.api (.connect _ _)) _ => false
  | .called (.transport (.openComplete .ok)) m => awaited && m.client.socketConnected
  | .called (.transport .closeComplete) _ => false
  | _ => awaited

/-- The last disconnect found a connection, and neither has a close completed since, nor another
    connection been asked for or taken. -/
def awaited (notes : List Note) : Bool := notes.foldl awaitedAfter false

theorem awaited_concat (notes : List Note) (n : Note) : awaited (notes ++ [n]) = awaitedAfter (awaited notes) n := by
  simp [awaited]

/-- The socket is closed, and a callback is stored. -/
def Stale (m : Moment) : Prop := m.client.socketConnected = false ∧ m.client.disconnectCb ≠ none

instance (m : Moment) : Decidable (Stale m) := inferInstanceAs (Decidable (_ ∧ _))

/-- The calls that invoke a stored callback, and the moments at which the client goes on to close
    the connection. A client without an error callback has no such moment, and is given no
    callback. -/
def Orderly (before : List Note) : Note → Prop
  | .called (.transport .closeComplete) m => m.client.disconnectCb = none ∨ awaited before = true
  | .called (.transport (.sendComplete .ok)) m => m.client.packetState = .disconnect → ¬ Stale m
  | .called (.api (.disconnect callback)) m => callback = none ∨ m.client.fnOnErrorCallBack = true
  | .answered (.operation .disconnect) _ _ after => ¬ Stale after
  | .answered (.error _) _ _ after => ¬ Stale after
  | _ => True

instance (before : List Note) : DecidablePred (Orderly before) := fun n => by
  rcases n with ⟨c | c, m⟩ | ⟨x, m⟩ | ⟨x, result, sent, after⟩
  · cases c with
    | closeComplete => exact inferInstanceAs (Decidable (_ ∨ _))
    | sendComplete r =>
      cases r with
      | ok => exact inferInstanceAs (Decidable (_ → _))
      | _ => exact inferInstanceAs (Decidable True)
    | _ => exact inferInstanceAs (Decidable True)
  · cases c with
    | disconnect callback => exact inferInstanceAs (Decidable (_ ∨ _))
    | _ => exact inferInstanceAs (Decidable True)
  · exact inferInstanceAs (Decidable True)
  · cases x with
    | operation o =>
      cases o with
      | disconnect => exact inferInstanceAs (Decidable (¬ _))
      | _ => exact inferInstanceAs (Decidable True)
    | error e => exact inferInstanceAs (Decidable (¬ _))
    | _ => exact inferInstanceAs (Decidable True)

structure Kept (w : Scripted) : Prop where
  owed : Throughout Owed w.out.notes
  stored : awaited w.out.notes = true → w.client.disconnectCb = DisconnectCallback.owed w.out.notes
  guarded : w.client.disconnectCb ≠ none → w.client.fnOnErrorCallBack = true

structure Follows (w w' : Scripted) : Prop where
  notes : Grows w w'
  kept : Throughout Orderly w'.out.notes → Kept w → Kept w'

variable {u v w w' w'' : Scripted} {n : Note}

theorem orderly_before (h : Grows w w') (ho : Throughout Orderly w'.out.notes) : Throughout Orderly w.out.notes := by
  obtain ⟨more, hm⟩ := h
  rw [← hm] at ho
  exact ho.of_append

theorem Follows.trans (h : Follows w w') (h' : Follows w' w'') : Follows w w'' where
  notes := List.IsPrefix.trans h.notes h'.notes
  kept ho hw := h'.kept ho (h.kept (orderly_before h'.notes ho) hw)

/-- What is known of the beginning may be used. -/
theorem follows_of (hn : Grows w w') (h : Throughout Orderly w'.out.notes → Kept w → Follows w w') : Follows w w' :=
  ⟨hn, fun ho hw => (h ho hw).kept ho hw⟩

theorem follows_same (hc : w'.client.disconnectCb = w.client.disconnectCb)
    (he : w'.client.fnOnErrorCallBack = w.client.fnOnErrorCallBack) (hn : w'.out.notes = w.out.notes) : Follows w w' := by
  refine ⟨by unfold Grows; rw [hn], fun _ hw => ⟨by rw [hn]; exact hw.owed, ?_, ?_⟩⟩
  · rw [hc, hn]
    exact hw.stored
  · rw [hc, he]
    exact hw.guarded

theorem Follows.rfl : Follows w w := follows_same (.refl _) (.refl _) (.refl _)

theorem framed_follows (h : Framed w w') : Follows w w' := follows_same h.disconnectCb h.fnOnErrorCallBack (by rw [h.out])

/-- One more note that settles nothing. -/
theorem note_follows (hn : ∀ before, Owed before n)
    (hs : ∀ before, awaited (before ++ [n]) = true → awaited before = true ∧ owed (before ++ [n]) = owed before) :
    Follows w (writeNote n w) := by
  refine ⟨List.prefix_append _ _, fun _ hw => ⟨throughout_concat.mpr ⟨hw.owed, hn _⟩, fun ha => ?_, hw.guarded⟩⟩
  obtain ⟨hbefore, howed⟩ := hs _ ha
  exact (hw.stored hbefore).trans howed.symm

/-- A call out of the client that neither opens a transport nor invokes the callback. -/
def Plain : Exit → Prop
  | .openIo _ => False
  | .disconnected _ => False
  | _ => True

theorem asked_follows {x : Exit} (hx : Plain x) (m : Moment) (w : Scripted) : Follows w (writeNote (.asked x m) w) := by
  refine note_follows (fun _ => ?_) fun _ ha => ?_
  · cases x with
    | disconnected callback => exact hx.elim
    | _ => trivial
  · rw [awaited_concat] at ha
    rw [owed_concat]
    cases x with
    | openIo h => exact hx.elim
    | disconnected callback => exact hx.elim
    | _ => exact ⟨ha, .refl _⟩

theorem answered_follows {x : Exit} (result : Nat) (before after : Moment) (w : Scripted) :
    Follows w (writeNote (.answered x result before after) w) := by
  refine note_follows (fun _ => trivial) fun _ ha => ?_
  rw [awaited_concat] at ha
  rw [owed_concat]
  exact ⟨ha, .refl _⟩

/-! ## Invocations -/

section Client

variable {perform : Entry → Scripted → Scripted} (hp : ∀ c w, Follows w (perform c w))

include hp

theorem follows_script : ScriptRules perform Plain Follows where
  refl _ := Follows.rfl
  trans := Follows.trans
  perform := hp
  asked w hx := asked_follows hx _ w
  answered _ _ w _ := answered_follows _ _ _ w
  nextReaction _ _ := follows_same (.refl _) (.refl _) (.refl _)
  nextCalls _ := follows_same (.refl _) (.refl _) (.refl _)

theorem follows_ordinary : OrdinaryRules perform Plain Follows where
  toScriptRules := follows_script hp
  ordinary {x} hx := by
    cases x with
    | openIo h => exact hx
    | disconnected callback => exact hx
    | _ => trivial
  framed := framed_follows

theorem grows_client : FrameRules perform (fun _ => True) Grows := grows_frame fun c w => (hp c w).notes

/-- Where it is the one owed and no close is awaited, the stored callback is invoked. -/
theorem invoked_follows (hn : Grows u v) (hv : Throughout Orderly v.out.notes → Kept u → Kept v ∧
      (v.client.disconnectCb ≠ none → owed v.out.notes = v.client.disconnectCb ∧ awaited v.out.notes = false))
    (hs : v.client.socketConnected = false) : Follows u ((scriptApp perform).callDisconnected v) := by
  refine follows_of (List.IsPrefix.trans hn ((grows_client hp).disconnected v hs)) fun ho hu => ?_
  obtain ⟨hkept, hstored⟩ := hv (orderly_before ((grows_client hp).disconnected v hs) ho) hu
  have huv : Follows u v := ⟨hn, fun _ _ => hkept⟩
  refine huv.trans ?_
  unfold App.callDisconnected
  split
  · exact Follows.rfl
  · rename_i callback hc
    obtain ⟨howed, hawaited⟩ := hstored (by rw [hc]; exact nofun)
    obtain ⟨x, hx⟩ : ∃ x, x = (nextCalls (v.log (.disconnected callback))).2 := ⟨_, .refl _⟩
    have hlog : Follows v x := by
      rw [hx]
      exact follows_same (.refl _) (.refl _) (.refl _)
    have hinvoked : Follows x (writeNote (.asked (.disconnected callback) (moment x)) x) := by
      have hnotes : x.out.notes = v.out.notes := by
        rw [hx]
        exact .refl _
      refine ⟨List.prefix_append _ _, fun _ hk => ⟨throughout_concat.mpr ⟨hk.owed, ?_⟩, fun ha => ?_, hk.guarded⟩⟩
      · rw [hnotes]
        exact howed.trans hc
      · change awaited (x.out.notes ++ [.asked (.disconnected callback) (moment x)]) = true at ha
        rw [awaited_concat, hnotes] at ha
        exact absurd (hawaited.symm.trans ha) nofun
    rw [hx] at hlog hinvoked
    exact (follows_script hp).tellApplication_of (hlog.trans hinvoked) fun result before u => answered_follows result before _ u

/-! ## Closing -/

/-- A connection is closed while its socket is, or with no callback stored. -/
theorem close_follows
    (hs : Throughout Orderly w.out.notes → Kept w → w.client.socketConnected = false → w.client.disconnectCb = none) :
    Follows w (closeConnection (scriptXio perform) (scriptApp perform) w) := by
  have hgrows := (grows_client hp).closeConnection w
  refine follows_of hgrows fun ho hw => (follows_ordinary hp).closeRules.closeConnection_of (fun hsocket => ?_) fun _ => ?_
  · have hnone := hs (orderly_before hgrows ho) hw hsocket
    simp only [App.callDisconnected, hnone]
    exact Follows.rfl
  · exact follows_same (.refl _) (.refl _) (.refl _)

omit hp in
/-- The application returns to the client. -/
theorem told_unstale {x : Exit} (ho : Throughout Orderly (tellApplication perform x w).out.notes)
    (hx : ∀ before result m after, Orderly before (.answered x result m after) → ¬ Stale after)
    (hs : (tellApplication perform x w).client.socketConnected = false) :
    (tellApplication perform x w).client.disconnectCb = none := by
  obtain ⟨y, before, hy⟩ : ∃ y before, tellApplication perform x w = writeNote (.answered x 0 before (moment y)) y :=
    ⟨_, _, .refl _⟩
  rw [hy] at ho hs ⊢
  by_contra hc
  exact hx _ _ _ _ (throughout_concat.mp ho).2 ⟨hs, hc⟩

/-- An error is reported on an open socket, or with no callback stored. -/
theorem setErrorCallback_follows (e : EventError) (w : Scripted) :
    Follows w (setErrorCallback (scriptXio perform) (scriptApp perform) e w) := by
  refine follows_of ((grows_client hp).setErrorCallback e w) fun _ hw => ?_
  refine ((follows_ordinary hp).callError e w).trans (close_follows hp fun ho _ hs => ?_)
  unfold App.callError at ho hs ⊢
  split at ho
  · rename_i herror
    rw [if_pos herror] at hs ⊢
    exact told_unstale ho (fun _ _ _ _ h => h) hs
  · rename_i herror
    rw [if_neg herror]
    by_contra hc
    exact herror (hw.guarded hc)

/-- `sent`: a DISCONNECT. -/
theorem sendComplete_follows (r : SendResult) (w : Scripted)
    (sent : r = .ok → Throughout Orderly w.out.notes → w.client.packetState = .disconnect → ¬ Stale (moment w)) :
    Follows w (sendComplete (scriptXio perform) (scriptApp perform) r w) := by
  cases r with
  | ok =>
    unfold sendComplete
    simp only
    split
    · rename_i hpacket
      split
      · have htold : Follows w ((scriptApp perform).callOperation .disconnect w) :=
          (follows_ordinary hp).tell (x := .operation .disconnect) trivial _ w
        exact htold.trans (close_follows hp fun ho _ hs => told_unstale ho (fun _ _ _ _ h => h) hs)
      · refine close_follows hp fun ho _ hs => ?_
        by_contra hc
        exact sent (.refl _) ho hpacket ⟨hs, hc⟩
    · exact Follows.rfl
  | error => exact setErrorCallback_follows hp _ w
  | cancelled => exact Follows.rfl

theorem onOpenComplete_follows (r : OpenResult) (w : Scripted) :
    Follows w (onOpenComplete (scriptXio perform) (scriptApp perform) r w) := by
  by_cases hr : r = .ok ∧ w.client.socketConnected = false
  · rw [hr.1]
    exact (follows_ordinary hp).onOpenComplete w hr.2 (fun _ _ => trivial) (follows_same (.refl _) (.refl _) (.refl _))
  · unfold onOpenComplete
    simp only [if_neg hr]
    split
    · exact setErrorCallback_follows hp _ w
    · rename_i hs
      exact close_follows hp fun _ _ hsocket => absurd hsocket hs

/-! ## Calls -/

omit hp in
theorem arrive_follows {c : Entry} (hc : ∀ callback, c ≠ .api (.disconnect callback)) (w : Scripted) :
    Follows w (arrive c w) := by
  have hnote : Follows w (writeNote (.called c (moment w)) w) := by
    refine note_follows (fun _ => trivial) fun before ha => ?_
    rw [awaited_concat] at ha
    rw [owed_concat]
    cases c with
    | transport c =>
      cases c with
      | openComplete r =>
        cases r with
        | ok =>
          obtain ⟨hbefore, hs⟩ := (Bool.and_eq_true _ _).mp ha
          exact ⟨hbefore, if_pos hs⟩
        | _ => exact ⟨ha, .refl _⟩
      | closeComplete => cases ha
      | _ => exact ⟨ha, .refl _⟩
    | api c =>
      cases c with
      | connect h mqttOptions => cases ha
      | disconnect callback => exact absurd (.refl _) (hc callback)
      | _ => exact ⟨ha, .refl _⟩
  refine hnote.trans (follows_same ?_ ?_ ?_)
  · rw [arrive_client]
    exact .refl _
  · rw [arrive_client]
    exact .refl _
  · rw [arrive_notes]
    exact .refl _

/-- A close completes. -/
theorem onConnectionClosed_follows (w : Scripted) :
    Follows w (onConnectionClosed (scriptApp perform) (arrive (.transport .closeComplete) w)) := by
  have hnotes := arrive_notes (.transport .closeComplete) w
  have hclient := arrive_client (.transport .closeComplete) w
  have harrive : Follows w (arrive (.transport .closeComplete) w) := arrive_follows (c := .transport .closeComplete) (fun _ => nofun) w
  refine invoked_follows hp harrive.notes (fun ho hw => ?_) (.refl _)
  have hk := harrive.kept ho hw
  refine ⟨⟨hk.owed, hk.stored, hk.guarded⟩, fun hc => ?_⟩
  change (arrive (.transport .closeComplete) w).client.disconnectCb ≠ none at hc
  change owed (arrive (.transport .closeComplete) w).out.notes = (arrive (.transport .closeComplete) w).client.disconnectCb ∧
    awaited (arrive (.transport .closeComplete) w).out.notes = false
  change Throughout Orderly (arrive (.transport .closeComplete) w).out.notes at ho
  rw [hclient] at hc ⊢
  rw [hnotes] at ho ⊢
  have hawaited : awaited w.out.notes = true := (throughout_concat.mp ho).2.resolve_left hc
  rw [owed_concat, awaited_concat]
  exact ⟨(hw.stored hawaited).symm, .refl _⟩

theorem mqttClientConnect_follows (h : XioHandle) (mqttOptions : MqttClientOptions) (w : Scripted) :
    Follows w (mqttClientConnect (scriptXio perform) (some h) mqttOptions (arrive (.api (.connect h mqttOptions)) w)).2 := by
  obtain ⟨v, hv⟩ : ∃ v, v = (takeOptions h mqttOptions (arrive (.api (.connect h mqttOptions)) w)).2 := ⟨_, .refl _⟩
  have harrive : Follows w (arrive (.api (.connect h mqttOptions)) w) :=
    arrive_follows (c := .api (.connect h mqttOptions)) (fun _ => nofun) w
  have htaken : Follows w v := by
    rw [hv]
    exact harrive.trans (follows_same (.refl _) (.refl _) (.refl _))
  have hnotes : v.out.notes = w.out.notes ++ [.called (.api (.connect h mqttOptions)) (moment w)] := by
    rw [hv, ← arrive_notes]
    exact .refl _
  refine (follows_ordinary hp).mqttClientConnect h mqttOptions _ (fun _ => by rw [← hv]; exact htaken) (fun _ => ?_)
    fun _ => follows_same (.refl _) (.refl _) (.refl _)
  rw [← hv]
  obtain ⟨x, hx⟩ : ∃ x, x = (nextReaction (.openIo h) v).2 := ⟨_, .refl _⟩
  have hreaction : Follows w x := by
    rw [hx]
    exact htaken.trans (follows_same (.refl _) (.refl _) (.refl _))
  -- no close is awaited, whatever is stored
  have hopen : Follows x (writeNote (.asked (.openIo h) (moment x)) x) := by
    refine ⟨List.prefix_append _ _, fun _ hk => ⟨throughout_concat.mpr ⟨hk.owed, trivial⟩, fun ha => ?_, hk.guarded⟩⟩
    have hxv : x.out.notes = v.out.notes := by
      rw [hx]
      exact .refl _
    change awaited (x.out.notes ++ [.asked (.openIo h) (moment x)]) = true at ha
    rw [hxv, hnotes, awaited_concat, awaited_concat] at ha
    cases ha
  rw [hx] at hreaction hopen
  exact (follows_script hp).askTransport_of (hreaction.trans hopen) fun result before u => answered_follows result before _ u

omit hp in
/-- A disconnect that is taken: its callback is stored, and owed. -/
theorem stored_follows {callback : Option Nat} {v : Scripted} (hstores : ¬ Refused (moment w)) (hcb : v.client.disconnectCb = callback)
    (herror : v.client.fnOnErrorCallBack = w.client.fnOnErrorCallBack)
    (hv : v.out.notes = w.out.notes ++ [.called (.api (.disconnect callback)) (moment w)]) :
    Follows w v ∧ owed v.out.notes = callback ∧
      awaited v.out.notes = (w.client.clientConnected || w.client.socketConnected) := by
  have howed : owed v.out.notes = callback := by
    rw [hv, owed_concat]
    exact if_neg hstores
  have hgrows : Grows w v := by
    unfold Grows
    rw [hv]
    exact List.prefix_append _ _
  refine ⟨⟨hgrows, fun ho hw => ⟨?_, fun _ => hcb.trans howed.symm, fun hc => ?_⟩⟩, howed, ?_⟩
  · rw [hv]
    exact throughout_concat.mpr ⟨hw.owed, trivial⟩
  · rw [hv] at ho
    rw [hcb] at hc
    rw [herror]
    exact (throughout_concat.mp ho).2.resolve_left hc
  · rw [hv, awaited_concat]
    exact if_neg hstores

theorem mqttClientDisconnect_follows (callback : Option Nat) (w : Scripted) :
    Follows w (mqttClientDisconnect (scriptXio perform) (scriptApp perform) callback
      (arrive (.api (.disconnect callback)) w)).2 := by
  have hf := follows_ordinary hp
  obtain ⟨u, hu⟩ : ∃ u, u = arrive (.api (.disconnect callback)) w := ⟨_, .refl _⟩
  have hnotes : u.out.notes = w.out.notes ++ [.called (.api (.disconnect callback)) (moment w)] := by
    rw [hu, arrive_notes]
  have hclient : u.client = w.client := by rw [hu, arrive_client]
  have hmallocs : u.mallocs = w.mallocs := by rw [hu, (arrive_rest _ _).1]
  rw [← hu]
  have hstored : ∀ v, ¬ Refused (moment w) → v.client.disconnectCb = callback → Idle u v →
      Follows w v ∧ owed v.out.notes = callback ∧
        awaited v.out.notes = (w.client.clientConnected || w.client.socketConnected) := fun v hstores hcb hi =>
    stored_follows hstores hcb (by rw [hi.fnOnErrorCallBack, hclient]) (by rw [hi.out, hnotes])
  have hh := hf.handlers (setErrorCallback_follows hp)
  refine hh.mqttClientDisconnect_from callback w u ?_ ?_ ?_ (fun _ => follows_same (.refl _) (.refl _) (.refl _))
    fun v _ hv => hv.trans (follows_same (.refl _) (.refl _) (.refl _))
  · intro v hc hnone hi _ hcb
    rw [hclient] at hc hcb
    rw [hmallocs] at hnone
    have hrefused : Refused (moment w) := ⟨hc, hnone⟩
    have hnote : Follows w (writeNote (.called (.api (.disconnect callback)) (moment w)) w) := by
      refine note_follows (fun _ => trivial) fun before ha => ?_
      rw [awaited_concat] at ha
      rw [owed_concat]
      exact ⟨(if_pos hrefused).symm.trans ha, if_pos hrefused⟩
    refine hnote.trans (follows_same hcb ?_ ?_)
    · rw [hi.fnOnErrorCallBack, hclient]
      exact .refl _
    · rw [hi.out, hnotes]
      exact .refl _
  · intro v hc hbuilt hcb hi _
    rw [hmallocs] at hbuilt
    refine (hstored v (fun hrefused => ?_) hcb hi).1
    have hsome := hbuilt
    rw [show (mqttCodecDisconnect w.mallocs).1 = none from hrefused.2] at hsome
    cases hsome
  · intro v hc hcb hi _
    rw [hclient] at hc
    obtain ⟨hv, howed, hawaited⟩ := hstored v (fun hrefused => absurd (hc.symm.trans hrefused.1) nofun) hcb hi
    by_cases hs : v.client.socketConnected = true
    · refine hv.trans (close_follows hp fun _ _ hsocket => ?_)
      exact absurd (hs.symm.trans hsocket) nofun
    · have hsocket : v.client.socketConnected = false := Bool.eq_false_iff.mpr hs
      have hclose : closeConnection (scriptXio perform) (scriptApp perform) v = (scriptApp perform).callDisconnected v :=
        if_neg hs
      rw [hclose]
      refine invoked_follows hp hv.notes (fun ho hw => ⟨hv.kept ho hw, fun _ => ⟨howed.trans hcb.symm, ?_⟩⟩) hsocket
      rw [hi.socketConnected, hclient] at hsocket
      rw [hawaited, hc, hsocket]
      exact .refl _

theorem enter_follows (c : Entry) (w : Scripted) :
    Follows w (enter (scriptXio perform) (scriptApp perform) c (arrive c w)) := by
  have hf := follows_ordinary hp
  by_cases hclose : c = .transport .closeComplete
  · rw [hclose]
    exact onConnectionClosed_follows hp w
  by_cases hconnect : ∃ h mqttOptions, c = .api (.connect h mqttOptions)
  · obtain ⟨h, mqttOptions, rfl⟩ := hconnect
    exact mqttClientConnect_follows hp h mqttOptions w
  by_cases hdisconnect : ∃ callback, c = .api (.disconnect callback)
  · obtain ⟨callback, rfl⟩ := hdisconnect
    exact mqttClientDisconnect_follows hp callback w
  have harrive : Follows w (arrive c w) := arrive_follows (fun callback hc => hdisconnect ⟨callback, hc⟩) w
  refine harrive.trans (hf.enter c _ (setErrorCallback_follows hp) ?_ ?_ ?_ ?_ ?_)
  · exact fun r _ => onOpenComplete_follows hp r _
  · intro r hc
    refine sendComplete_follows hp r _ fun hr ho hpacket hstale => ?_
    rw [arrive_notes, hc, hr] at ho
    rw [arrive_client] at hpacket
    refine (throughout_concat.mp ho).2 hpacket ⟨?_, ?_⟩
    · have hs := hstale.1
      simp only [moment, arrive_client] at hs
      exact hs
    · have hcb := hstale.2
      simp only [moment, arrive_client] at hcb
      exact hcb
  · exact fun hc => absurd hc hclose
  · exact fun h mqttOptions hc => absurd ⟨h, mqttOptions, hc⟩ hconnect
  · exact fun callback hc => absurd ⟨callback, hc⟩ hdisconnect

end Client

theorem perform_follows (n : Nat) (c : Entry) (w : Scripted) : Follows w (perform n c w) := by
  induction n generalizing c w with
  | zero => exact Follows.rfl
  | succ n ih => exact enter_follows ih c w

/-! ## Runs -/

theorem callback_run (n : Nat) (calls : List Entry) (msgRecv opCallback onErrorCallBack : Bool) (mallocs : Mallocs)
    (ticks : List (Option UInt32)) (transport : List Reaction) (application : List (List ApiCall))
    (ho : Throughout Orderly (performAll n calls
      (scripted (.init msgRecv opCallback onErrorCallBack) mallocs ticks transport application)).out.notes) :
    Throughout Owed (performAll n calls
      (scripted (.init msgRecv opCallback onErrorCallBack) mallocs ticks transport application)).out.notes := by
  obtain ⟨w, hw⟩ : ∃ w, w = scripted (.init msgRecv opCallback onErrorCallBack) mallocs ticks transport application :=
    ⟨_, .refl _⟩
  have hstart : Kept w := by
    rw [hw]
    exact ⟨throughout_nil, nofun, fun hc => absurd (.refl _) hc⟩
  rw [← hw] at ho ⊢
  exact ((performAll_of (fun _ => Follows.rfl) Follows.trans (perform_follows n) calls w).kept ho hstart).owed

def clientX : MqttClientOptions := { clientId := some (.ofBlock [0x78]) }

def disconnected (callback : Nat) : List Entry :=
  [.api (.connect 0 clientX), .api .dowork, .api (.disconnect (some callback))]

def disconnectedReactions : List Reaction :=
  [⟨[.openComplete .ok], 0⟩, ⟨[], 0⟩, ⟨[.bytesReceived acceptedConnack], 0⟩, ⟨[.sendComplete .ok], 0⟩,
    ⟨[.closeComplete], 0⟩]

/-- The second connection is taken with the callback of the first one stored. -/
def disconnectedTwice : Scripted :=
  performAll 4 (disconnected 7 ++ disconnected 8)
    (scripted (.init true true true) [] [] (disconnectedReactions ++ disconnectedReactions) [])

theorem disconnectedTwice_owed :
    disconnectedTwice.trace.filter (fun e => e = .disconnected 7 ∨ e = .disconnected 8) = [.disconnected 7, .disconnected 8] ∧
      Throughout Orderly disconnectedTwice.out.notes ∧ Throughout Owed disconnectedTwice.out.notes :=
  ⟨by decide +kernel, by decide +kernel, callback_run 4 _ true true true [] [] _ [] (by decide +kernel)⟩

/-- The same client connects again, and the open fails. -/
def reconnectFailed : Scripted :=
  performAll 4 (disconnected 7 ++ [.api (.connect 1 clientX)])
    (scripted (.init true true true) [] [] (disconnectedReactions ++ [⟨[.openComplete .error], 0⟩]) [])

theorem failed_open_invokes_again :
    reconnectFailed.trace.count (.disconnected 7) = 2 ∧ ¬ Throughout Owed reconnectFailed.out.notes := by
  decide +kernel

end UMqtt.Client.DisconnectCallback

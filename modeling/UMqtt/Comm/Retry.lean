/-
  UMqtt.Comm.Retry — the retry loop of `MQTT_Comm_Process` after failed attempts.

  In the MQTT_CONNECTING branch an attempt whose open fails makes the client report an
  error, which leaves the communicator in MQTT_ERROR; the loop goes on all the same, and
  behind it the state becomes MQTT_CONNECTED only if it is MQTT_CONNECTING still.

  Proved (`process_reconnects_iff`), for every number of failed attempts in front of one
  that connects and whatever callbacks the application has: `MQTT_Comm_Process` returns
  with its client connected, and the communicator runs that connection if and only if
  there was no failed attempt. After one, the next call destroys the transport
  (`failed_attempt_not_reconnected`).
-/

import UMqtt.Comm.Agreement

namespace UMqtt.Comm

open UMqtt.Lib UMqtt.Crt UMqtt.Codec UMqtt.Io UMqtt.Client

/-! ## Attempts -/

def attempt (xio : Xio Outside) (w : Sys) : Nat × Sys :=
  let w := note (.connect w.client.socketConnected) w
  mqttClientConnect xio w.out.comm.xioHandle w.out.comm.mqttOptions w

/-- The options are taken, but the transport's open fails. -/
def OpenFails (xio : Xio Outside) (w : Sys) : Prop :=
  let w := note (.connect w.client.socketConnected) w
  ∃ h, w.out.comm.xioHandle = some h ∧ (takeOptions h w.out.comm.mqttOptions w).1 = 0 ∧
    (xio.openIo h (takeOptions h w.out.comm.mqttOptions w).2).1 ≠ 0

/-- So many attempts fail, and the next one does not. -/
def FailThenConnect (xio : Xio Outside) : Nat → Sys → Prop
  | 0, w => (attempt xio w).1 = 0
  | failures + 1, w => OpenFails xio w ∧ FailThenConnect xio failures (attempt xio w).2

theorem connectLoop_succ (xio : Xio Outside) (attempts : Nat) (w : Sys) :
    connectLoop xio (attempts + 1) w =
      if (attempt xio w).1 ≠ 0 then connectLoop xio attempts (attempt xio w).2 else (0, (attempt xio w).2) := rfl

/-- A client that is not connected yet, and will report a failed open of the communicator's
    transport. -/
structure Waiting (h : XioHandle) (w : Sys) : Prop where
  handle : w.out.comm.xioHandle = some h
  live : h ∈ w.out.live
  errorCallBack : w.client.fnOnErrorCallBack = true
  closed : w.client.socketConnected = false

/-- The communicator runs the client's connection over `h`: its next call does nothing else. -/
structure Reconnected (xio : Xio Outside) (app : App Outside) (h : XioHandle) (w : Sys) : Prop where
  state : w.out.comm.state = .connected
  client : w.client.xioHandle = some h ∧ w.client.socketConnected = true
  handle : w.out.comm.xioHandle = some h
  live : h ∈ w.out.live
  process : ∀ attempts, mqttCommProcess xio app attempts w = (0, mqttClientDowork xio app w)

/-! ## What an open does to the client -/

theorem takeOptions_kept (h : XioHandle) (mqttOptions : MqttClientOptions) (w : Sys) :
    let v := (takeOptions h mqttOptions w).2
    v.out = w.out ∧ v.client.xioHandle = some h ∧ v.client.socketConnected = w.client.socketConnected ∧
      v.client.fnOnErrorCallBack = w.client.fnOnErrorCallBack :=
  ⟨rfl, rfl, rfl, rfl⟩

/-- A packet that is no DISCONNECT is sent without a callback. -/
theorem systemXio_send_same (app : App Outside) (n : Nat) (h : XioHandle) (bytes : List UInt8) {w : Sys}
    (hp : w.client.packetState ≠ .disconnect) : Same w ((systemXio app n).send h bytes w).2 := by
  cases n with
  | zero => exact Same.rfl
  | succ n =>
    simp only [systemXio, socketXio, whenLive]
    split
    · apply (send_invariant (systemXio app n) app h hp).socketioSend
      constructor <;> rfl
    · exact dead_same w

theorem sendPacketItem_same (app : App Outside) (n : Nat) (data : List UInt8) {w : Sys}
    (hp : w.client.packetState ≠ .disconnect) : Same w (sendPacketItem (systemXio app n) data w).2 := by
  have hms := currentMs_same w
  unfold sendPacketItem
  rcases h : w.currentMs with ⟨ms, v⟩
  rw [h] at hms
  cases ms with
  | none => exact hms
  | some ms =>
    obtain ⟨u, hu⟩ : ∃ u, u = { v with client := { v.client with packetSendTimeMs := ms } }.log (.send v.client.xioHandle data) :=
      ⟨_, rfl⟩
    have hvu : Same w u := hms.trans (by rw [hu]; constructor <;> rfl)
    simp only [← hu]
    cases u.client.xioHandle with
    | none => exact hvu
    | some h => exact hvu.trans (systemXio_send_same app n h data (by rw [hvu.packetState]; exact hp))

/-- A client that learns of its open takes the connection, whether or not its CONNECT gets out. -/
theorem onOpenComplete_connects (app : App Outside) (n : Nat) {w : Sys} (hs : w.client.socketConnected = false) :
    Same { w with client := { w.client with packetState := .connect, socketConnected := true } }
      (onOpenComplete (systemXio app n) app .ok w) := by
  obtain ⟨v, hv⟩ : ∃ v : Sys, v = { w with client := { w.client with packetState := .connect, socketConnected := true } } :=
    ⟨_, rfl⟩
  have hsent : ∀ bytes u, Same v u → Same v (sendPacketItem (systemXio app n) bytes u).2 := by
    intro bytes u hu
    apply hu.trans
    apply sendPacketItem_same
    rw [hu.packetState, hv]; exact nofun
  rw [← hv]
  simp only [onOpenComplete, hs, and_self, if_true]
  split
  · rw [hv]; constructor <;> rfl
  · exact hsent _ _ (by rw [hv]; constructor <;> rfl)

/-- A client that learns that its open has failed reports that. -/
theorem onOpenComplete_reports (cbs : CommCallbacks) (xio : Xio Outside) {w : Sys} (hs : w.client.socketConnected = false)
    (he : w.client.fnOnErrorCallBack = true) :
    (onOpenComplete xio (commApp cbs) .error w).client = w.client ∧
      (onOpenComplete xio (commApp cbs) .error w).out = (setState .error w).out := by
  obtain ⟨v, hv⟩ : ∃ v, v = setState .error (w.log (.error .connectionError)) := ⟨_, rfl⟩
  have hcall : (commApp cbs).callError .connectionError w = v := by rw [hv, App.callError, if_pos he]; rfl
  have hsv : v.client.socketConnected = false := by rw [hv]; exact hs
  have hclose : onOpenComplete xio (commApp cbs) .error w = (commApp cbs).callDisconnected v := by
    simp only [onOpenComplete, reduceCtorEq, hs, false_and, if_false, if_true, hcall, closeConnection, hsv,
      Bool.false_eq_true]
  obtain ⟨hclient, hout⟩ := callDisconnected_kept cbs v
  rw [hclose]
  exact ⟨hclient.trans (by rw [hv]; rfl), hout.trans (by rw [hv]; rfl)⟩

/-! ## Attempts of a waiting client -/

section Attempts

variable (cbs : CommCallbacks) (n : Nat) {h : XioHandle} {w : Sys}

/-- A failed attempt leaves the communicator in MQTT_ERROR, and the client as it was. -/
theorem attempt_fails (hw : Waiting h w) (hf : OpenFails (systemXio (commApp cbs) (n + 1)) w) :
    let r := attempt (systemXio (commApp cbs) (n + 1)) w
    r.1 ≠ 0 ∧ Waiting h r.2 ∧ r.2.out.comm.state = .error := by
  intro r
  obtain ⟨u, hu⟩ : ∃ u, u = note (.connect w.client.socketConnected) w := ⟨_, rfl⟩
  obtain ⟨h', hh', hcloned, hopen⟩ := hf
  obtain rfl : h = h' := Option.some.inj (hw.handle.symm.trans hh')
  rw [← hu] at hcloned hopen
  obtain ⟨v, hv⟩ : ∃ v, v = (takeOptions h u.out.comm.mqttOptions u).2 := ⟨_, rfl⟩
  obtain ⟨hout, -, hconn, hcall⟩ := takeOptions_kept h u.out.comm.mqttOptions u
  have huh : u.out.comm.xioHandle = some h := by rw [hu]; exact hw.handle
  simp only [← hv] at hout hconn hcall hopen
  have hlive : h ∈ v.out.live := by rw [hout, hu]; exact hw.live
  obtain ⟨s, hsame, hres, hs⟩ := socketXio_openIo (systemXio (commApp cbs) n) (commApp cbs) hlive
  have hs0 : s.1 ≠ 0 := by
    intro h0
    rw [show (systemXio (commApp cbs) (n + 1)).openIo h v = _ from hs] at hopen
    exact hopen h0
  rw [if_neg hs0] at hs
  have hclosed : s.2.client.socketConnected = false := by
    rw [hsame.socketConnected, hconn, hu]; exact hw.closed
  have herr : s.2.client.fnOnErrorCallBack = true := by
    rw [hsame.errorCallBack, hcall, hu]; exact hw.errorCallBack
  obtain ⟨hclient', hout'⟩ := onOpenComplete_reports cbs (systemXio (commApp cbs) n) hclosed herr
  obtain ⟨t, ht⟩ : ∃ t, t = onOpenComplete (systemXio (commApp cbs) n) (commApp cbs) .error s.2 := ⟨_, rfl⟩
  rw [← ht] at hclient' hout' hs
  have hr : r = (failure, { t with client := { t.client with mqttOptions := clearMqttOptions t.client.mqttOptions } }) := by
    show mqttClientConnect _ _ _ _ = _
    simp only [mqttClientConnect, ← hu, huh, hcloned, ← hv, systemXio, hs, ne_eq, hs0, not_true_eq_false, not_false_eq_true,
      if_true, if_false]
  have hcomm : t.out.comm = { u.out.comm with state := .error } := by
    rw [hout', ← hout, ← hsame.comm]; rfl
  rw [hr]
  refine ⟨show Crt.failure ≠ 0 by decide, ⟨?_, ?_, ?_, ?_⟩, ?_⟩
  · rw [show t.out.comm = _ from hcomm]; exact huh
  · rw [show t.out.live = s.2.out.live by rw [hout']; rfl, hsame.live]; exact hlive
  · rw [show t.client.fnOnErrorCallBack = _ from congrArg _ hclient']; exact herr
  · rw [show t.client.socketConnected = _ from congrArg _ hclient']; exact hclosed
  · rw [show t.out.comm = _ from hcomm]

/-- An attempt that does not fail connects the client, and leaves the communicator's state alone. -/
theorem attempt_connects (hw : Waiting h w) (h0 : (attempt (systemXio (commApp cbs) (n + 1)) w).1 = 0) :
    let v := (attempt (systemXio (commApp cbs) (n + 1)) w).2
    v.client.xioHandle = some h ∧ v.client.socketConnected = true ∧ v.out.comm = w.out.comm ∧ v.out.live = w.out.live := by
  obtain ⟨u, hu⟩ : ∃ u, u = note (.connect w.client.socketConnected) w := ⟨_, rfl⟩
  obtain ⟨v, hv⟩ : ∃ v, v = (takeOptions h u.out.comm.mqttOptions u).2 := ⟨_, rfl⟩
  obtain ⟨hout, hhandle, hconn, -⟩ := takeOptions_kept h u.out.comm.mqttOptions u
  have huh : u.out.comm.xioHandle = some h := by rw [hu]; exact hw.handle
  simp only [← hv] at hout hhandle hconn
  obtain ⟨s, hsame, hres, hs⟩ :=
    socketXio_openIo (systemXio (commApp cbs) n) (commApp cbs) (show h ∈ v.out.live by rw [hout, hu]; exact hw.live)
  simp only [attempt, ← hu, mqttClientConnect, huh, ← hv, systemXio, hs] at h0 ⊢
  split at h0
  · exact absurd h0 (show Crt.failure ≠ 0 by decide)
  · rename_i hcloned
    rw [if_neg hcloned]
    split at h0
    · exact absurd h0 (show Crt.failure ≠ 0 by decide)
    · rename_i hs0
      rw [if_neg hs0, if_pos (not_not.mp hs0)]
      have hclosed : s.2.client.socketConnected = false := by
        rw [hsame.socketConnected, hconn, hu]; exact hw.closed
      have htaken := onOpenComplete_connects (commApp cbs) n hclosed
      refine ⟨htaken.xioHandle.trans (hsame.xioHandle.trans hhandle), htaken.socketConnected, ?_, ?_⟩
      · exact htaken.comm.trans (hsame.comm.trans (by rw [hout, hu]; rfl))
      · exact htaken.live.trans (hsame.live.trans (by rw [hout, hu]; rfl))

/-- The loop ends with the client connected; the communicator is in MQTT_ERROR if an attempt
    has failed. -/
theorem connectLoop_reconnects {failures attempts : Nat} (hw : Waiting h w)
    (hf : FailThenConnect (systemXio (commApp cbs) (n + 1)) failures w) (ha : failures < attempts) :
    let r := connectLoop (systemXio (commApp cbs) (n + 1)) attempts w
    r.1 = 0 ∧ r.2.client.xioHandle = some h ∧ r.2.client.socketConnected = true ∧ r.2.out.comm.xioHandle = some h ∧
      h ∈ r.2.out.live ∧ r.2.out.comm.state = if failures = 0 then w.out.comm.state else .error := by
  induction failures generalizing w attempts with
  | zero =>
    obtain ⟨attempts, rfl⟩ := Nat.exists_eq_add_of_lt ha
    obtain ⟨hhandle, hconn, hcomm, hlive⟩ := attempt_connects cbs n hw hf
    simp only [Nat.zero_add, connectLoop_succ, show (attempt _ w).1 = 0 from hf, ne_eq, not_true_eq_false, if_false, if_true]
    exact ⟨trivial, hhandle, hconn, by rw [hcomm]; exact hw.handle, by rw [hlive]; exact hw.live, by rw [hcomm]⟩
  | succ failures ih =>
    obtain ⟨attempts, rfl⟩ : ∃ k, attempts = k + 1 := ⟨attempts - 1, by omega⟩
    obtain ⟨hfail, hrest⟩ := hf
    obtain ⟨hne, hwaiting, herror⟩ := attempt_fails cbs n hw hfail
    have hloop := ih hwaiting hrest (show failures < attempts by omega)
    simp only [connectLoop_succ, if_pos hne]
    rw [herror, ite_self] at hloop
    rw [if_neg (Nat.succ_ne_zero _)]
    exact hloop

end Attempts

/-! ## The call and the one that follows it -/

/-- The communicator ends up running the connection it has made if and only if no attempt
    has failed in front of it. -/
theorem process_reconnects_iff (cbs : CommCallbacks) (n : Nat) {h : XioHandle} {w : Sys}
    (hw : Waiting h w) (hstate : w.out.comm.state = .connecting) {failures attempts : Nat}
    (hf : FailThenConnect (systemXio (commApp cbs) (n + 1)) failures w) (ha : failures < attempts) :
    let r := mqttCommProcess (systemXio (commApp cbs) (n + 1)) (commApp cbs) attempts w
    r.1 = 0 ∧ (Reconnected (systemXio (commApp cbs) (n + 1)) (commApp cbs) h r.2 ↔ failures = 0) := by
  obtain ⟨r, hr⟩ : ∃ r, r = connectLoop (systemXio (commApp cbs) (n + 1)) attempts w := ⟨_, rfl⟩
  obtain ⟨h0, hclient, hconn, hhandle, hlive, hend⟩ := connectLoop_reconnects cbs n hw hf ha
  rw [← hr] at h0 hclient hconn hhandle hlive hend
  simp only [mqttCommProcess, hstate, ← hr, h0, ne_eq, not_true_eq_false, if_false, true_and]
  constructor
  · intro hrec
    by_contra hne
    have hs := hrec.state
    rw [if_neg hne] at hend
    rw [hend] at hs
    simp only [reduceCtorEq, if_false] at hs
    exact absurd (hend.symm.trans hs) (by decide)
  · intro hzero
    rw [if_pos hzero, hstate] at hend
    rw [if_pos hend]
    exact ⟨rfl, ⟨hclient, hconn⟩, hhandle, hlive, fun _ => rfl⟩

/-- The first attempt connects. -/
theorem first_attempt_reconnected :
    ∃ w, createdWith [true] = some w ∧
      let r := mqttCommProcess (systemXio quietApp 2) quietApp 1 (mqttCommStartConnection w)
      r.1 = 0 ∧ (Reconnected (systemXio quietApp 2) quietApp 0 r.2 ↔ 0 = 0) := by
  have hrun : (createdWith [true]).map (fun w =>
      let v := mqttCommStartConnection w
      ((v.out.comm.xioHandle, v.out.live, v.client.fnOnErrorCallBack, v.client.socketConnected),
        (attempt (systemXio quietApp 2) v).1)) = some ((some 0, [0], true, false), 0) := by decide +kernel
  obtain ⟨w, hw, hv⟩ := Option.map_eq_some_iff.mp hrun
  simp only [Prod.mk.injEq] at hv
  obtain ⟨⟨hhandle, hlive, herr, hclosed⟩, hconnects⟩ := hv
  have hwaiting : Waiting 0 (mqttCommStartConnection w) := ⟨hhandle, by rw [hlive]; decide, herr, hclosed⟩
  exact ⟨w, hw, process_reconnects_iff .inert 1 hwaiting rfl hconnects (by decide)⟩

/-- The second attempt connects, but the next call destroys the connected client's transport. -/
theorem failed_attempt_not_reconnected :
    ∃ w, createdWith [false, true] = some w ∧
      let v := mqttCommStartConnection w
      Waiting 0 v ∧ v.out.comm.state = .connecting ∧ FailThenConnect (systemXio quietApp 2) 1 v ∧
        let r := mqttCommProcess (systemXio quietApp 2) quietApp 2 v
        r.1 = 0 ∧ r.2.client.socketConnected = true ∧ r.2.client.xioHandle = some 0 ∧
          ¬ Reconnected (systemXio quietApp 2) quietApp 0 r.2 ∧
          0 ∉ (mqttCommProcess (systemXio quietApp 2) quietApp 1 r.2).2.out.live := by
  have hstart : (createdWith [false, true]).map (fun w =>
      let v := mqttCommStartConnection w
      let u := note (.connect v.client.socketConnected) v
      let t := takeOptions 0 u.out.comm.mqttOptions u
      ((v.out.comm.xioHandle, v.out.live, v.client.fnOnErrorCallBack, v.client.socketConnected),
        (t.1, ((systemXio quietApp 2).openIo 0 t.2).1),
        (attempt (systemXio quietApp 2) (attempt (systemXio quietApp 2) v).2).1)) =
      some ((some 0, [0], true, false), (0, Crt.failure), 0) := by decide +kernel
  have hend : (createdWith [false, true]).map (fun w =>
      let r := mqttCommProcess (systemXio quietApp 2) quietApp 2 (mqttCommStartConnection w)
      ((r.1, r.2.client.socketConnected, r.2.client.xioHandle, r.2.out.comm.state),
        (mqttCommProcess (systemXio quietApp 2) quietApp 1 r.2).2.out.live)) =
      some ((0, true, some 0, .error), [1]) := by decide +kernel
  obtain ⟨w, hw, hv⟩ := Option.map_eq_some_iff.mp hstart
  rw [hw] at hend
  simp only [Option.map_some, Option.some.injEq, Prod.mk.injEq] at hv hend
  obtain ⟨⟨hhandle, hlive, herr, hclosed⟩, ⟨hcloned, hopen⟩, hconnects⟩ := hv
  obtain ⟨⟨h0, hconn, hclient, hstate⟩, hgone⟩ := hend
  refine ⟨w, hw, ⟨hhandle, by rw [hlive]; decide, herr, hclosed⟩, rfl, ?_, h0, hconn, hclient, ?_, by rw [hgone]; decide⟩
  · exact ⟨⟨0, hhandle, hcloned, by rw [hopen]; decide⟩, hconnects⟩
  · exact fun hrec => absurd (hstate.symm.trans hrec.state) (by decide)

end UMqtt.Comm

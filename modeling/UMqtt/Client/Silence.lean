/-
  UMqtt.Client.Silence — what follows an error report on the same connection.

  `setErrorCallback` invokes the error callback and closes the connection, but what called it
  goes on: the codec with the rest of the chunk, the handler of a packet with its reply, and the
  application with calls of its own.

  A world is `Hushed` when no socket is open and the client knows it. From every report that is
  made over the client's own connection (`Owns`) the close leads there (`setErrorCallback_closes`),
  and only `mqtt_client_connect` leads out again. What each function of the client keeps in a run
  whose notes all meet their conditions is `Follows`, over any transport that keeps it (`Sound`).
-/

import UMqtt.Client.OverSocket

namespace UMqtt.Client.OverSocket

open UMqtt.Lib UMqtt.Crt UMqtt.Codec UMqtt.Io

/-! ## The invariant -/

def Calm (w : Sys) : Prop := ∀ n ∈ w.out.notes, n.Meets

structure Hushed (w : Sys) : Prop where
  socketConnected : w.client.socketConnected = false
  closed : ∀ h, (w.out.sockets h).ioState ≠ .opened

structure Fine (w : Sys) : Prop where
  silent : Silent w
  owns : reported w = true → Owns w.client w.out.sockets

/-- What every part of a call keeps, in a run that is calm as a whole (`C`). -/
structure Keeps (C : Prop) (w w' : Sys) : Prop where
  notes : w.out.notes <+: w'.out.notes
  fine : C → Fine w → Fine w'

structure Follows (C : Prop) (w w' : Sys) : Prop extends Keeps C w w' where
  hushed : C → Fine w → (reported w = true → Hushed w) → reported w' = true → Hushed w'

/-- Behind a close an error report leaves nothing open. -/
structure Closes (C : Prop) (w w' : Sys) : Prop extends Keeps C w w' where
  closed : C → Fine w → reported w' = true → Hushed w'

/-- Nothing that the invariant looks at is different, and no socket has been opened. -/
structure Still (w w' : Sys) : Prop where
  notes : w'.out.notes = w.out.notes
  trace : w'.trace = w.trace
  past : w'.out.past = w.out.past
  socketConnected : w'.client.socketConnected = w.client.socketConnected
  xioHandle : w'.client.xioHandle = w.client.xioHandle
  sockets : ∀ h, (w'.out.sockets h).ioState = .opened → (w.out.sockets h).ioState = .opened

section Basics

variable {C : Prop} {u v w w' w'' : Sys}

theorem Calm.before (h : Calm w') (hn : w.out.notes <+: w'.out.notes) : Calm w := fun n hm => h n (hn.subset hm)

theorem Hushed.owns (h : Hushed w) : Owns w.client w.out.sockets :=
  ⟨fun hs => absurd (h.socketConnected.symm.trans hs) (by decide), fun handle ho => absurd ho (h.closed handle)⟩

theorem Owns.hushed (h : Owns w.client w.out.sockets) (hs : w.client.socketConnected = false) : Hushed w :=
  ⟨hs, fun handle ho => absurd (hs.symm.trans (h.own handle ho).1) (by decide)⟩

theorem Keeps.trans (h : Keeps C w w') (h' : Keeps C w' w'') : Keeps C w w'' :=
  ⟨h.notes.trans h'.notes, fun c hw => h'.fine c (h.fine c hw)⟩

theorem Follows.trans_fine (h : Follows C w w') (h' : Follows (C ∧ Fine w) w' w'') : Follows C w w'' :=
  ⟨⟨h.notes.trans h'.notes, fun c hw => h'.fine ⟨c, hw⟩ (h.fine c hw)⟩,
    fun c hw hh => h'.hushed ⟨c, hw⟩ (h.fine c hw) (h.hushed c hw hh)⟩

theorem Follows.trans (h : Follows C w w') (h' : Follows C w' w'') : Follows C w w'' :=
  ⟨h.toKeeps.trans h'.toKeeps, fun c hw hh => h'.hushed c (h.fine c hw) (h.hushed c hw hh)⟩

theorem Closes.follows (h : Closes C w w') : Follows C w w' := ⟨h.toKeeps, fun c hw _ => h.closed c hw⟩

theorem Keeps.closes (h : Keeps C w w') (h' : Closes C w' w'') : Closes C w w'' :=
  ⟨h.trans h'.toKeeps, fun c hw => h'.closed c (h.fine c hw)⟩

theorem Closes.trans (h : Closes C w w') (h' : Follows C w' w'') : Closes C w w'' :=
  ⟨h.toKeeps.trans h'.toKeeps, fun c hw => h'.hushed c (h.fine c hw) fun hr => h.closed c hw hr⟩

/-- An error reported since then has had its connection closed. -/
theorem Follows.closes (h : Follows C w w') (hr : C → reported w = false) : Closes C w w' :=
  ⟨h.toKeeps, fun c hw => h.hushed c hw fun hr' => absurd ((hr c).symm.trans hr') (by decide)⟩

/-- Where no error has been reported, anything may change beside the trace. -/
theorem unreported_follows (notes : w.out.notes <+: w'.out.notes) (trace : w'.trace = w.trace)
    (past : w'.out.past = w.out.past) (hr : C → reported w = false) : Follows C w w' := by
  have hrep : reported w' = reported w := by rw [reported, reported, trace]
  refine ⟨⟨notes, fun c hw => ⟨?_, ?_⟩⟩, ?_⟩
  · rw [Silent, past, trace]
    exact hw.silent
  · intro hr'
    exact absurd ((hr c).symm.trans (hrep.symm.trans hr')) (by decide)
  · intro c _ _ hr'
    exact absurd ((hr c).symm.trans (hrep.symm.trans hr')) (by decide)

theorem still_follows (h : Still w w') : Follows C w w' := by
  have hrep : reported w' = reported w := by rw [reported, reported, h.trace]
  refine ⟨⟨by rw [h.notes], fun _ hw => ⟨?_, ?_⟩⟩, ?_⟩
  · rw [Silent, h.past, h.trace]
    exact hw.silent
  · intro hr
    have howns := hw.owns (hrep.symm.trans hr)
    refine ⟨?_, ?_⟩
    · rw [h.socketConnected, h.xioHandle]
      exact howns.held
    · intro handle ho
      rw [h.socketConnected, h.xioHandle]
      exact howns.own handle (h.sockets handle ho)
  · intro _ _ hh hr
    have hhush := hh (hrep.symm.trans hr)
    exact ⟨h.socketConnected.trans hhush.socketConnected, fun handle ho => hhush.closed handle (h.sockets handle ho)⟩

/-- Only the client has changed, or what it is given. -/
theorem Still.inner (out : w'.out = w.out) (trace : w'.trace = w.trace)
    (socketConnected : w'.client.socketConnected = w.client.socketConnected)
    (xioHandle : w'.client.xioHandle = w.client.xioHandle) : Still w w' := by
  refine ⟨by rw [out], trace, by rw [out], socketConnected, xioHandle, fun handle ho => ?_⟩
  rw [out] at ho
  exact ho

theorem Follows.same : Follows C w w := still_follows (.inner rfl rfl rfl rfl)

theorem writeNotes_follows (ns : List Note) (w : Sys) : Follows C w (writeNotes ns w) :=
  ⟨⟨List.prefix_append _ _, fun _ hw => ⟨hw.silent, hw.owns⟩⟩, fun _ _ hh hr => ⟨(hh hr).socketConnected, (hh hr).closed⟩⟩

/-! ## The trace -/

theorem reported_log (e : Event) (w : Sys) : reported (w.log e) = (reported w || isError e) := by
  simp [reported, World.log]

theorem Silent.log (h : Silent w) {e : Event} (hr : reports e = true → reported w = false) : Silent (w.log e) := by
  intro trace ht
  rcases List.mem_append.mp ht with ht | ht
  · exact h trace (List.mem_append_left _ ht)
  · rw [List.mem_singleton.mp ht]
    have hsilent : SilentTrace w.trace := h w.trace (List.mem_append_right _ (List.mem_singleton_self _))
    refine List.pairwise_append.mpr ⟨hsilent, List.pairwise_singleton _ _, ?_⟩
    intro e₁ h₁ e₂ h₂ herror
    rw [List.mem_singleton.mp h₂]
    cases he : reports e with
    | false => exact .refl _
    | true =>
      have hnone := List.any_eq_false.mp (hr he) e₁ h₁
      exact absurd herror hnone

/-- Anything but an error report. -/
theorem log_follows {e : Event} (he : isError e = false) (hr : C → reports e = true → reported w = false) :
    Follows C w (w.log e) := by
  have hrep : reported (w.log e) = reported w := by rw [reported_log, he, Bool.or_false]
  refine ⟨⟨List.prefix_refl _, fun c hw => ⟨hw.silent.log (hr c), ?_⟩⟩, ?_⟩
  · intro h
    exact hw.owns (hrep.symm.trans h)
  · intro _ _ hh h
    exact ⟨(hh (hrep.symm.trans h)).socketConnected, (hh (hrep.symm.trans h)).closed⟩

end Basics

/-! ## The application -/

section Application

variable {C : Prop} {perform : ApiCall → Sys → Sys}
  (hp : ∀ {C : Prop} (c : ApiCall) (w : Sys), (C → Calm (perform c w)) → Follows C w (perform c w))

include hp

theorem calls_follows (calls : List ApiCall) (w : Sys) (hC : C → Calm (calls.foldl (fun w c => perform c w) w)) :
    Follows C w (calls.foldl (fun w c => perform c w) w) := by
  induction calls generalizing w with
  | nil => exact Follows.same
  | cons c calls ih =>
    have hrest := ih (perform c w) hC
    exact (hp c w fun h => (hC h).before hrest.notes).trans hrest

theorem respond_follows (x : Exit) (w : Sys) (hC : C → Calm (respond perform x w)) : Follows C w (respond perform x w) := by
  have htail : Still w { w with out := { w.out with application := w.out.application.tail } } :=
    ⟨rfl, rfl, rfl, rfl, rfl, fun _ h => h⟩
  have hcalls := calls_follows hp (w.out.application.headD [])
    { w with out := { w.out with application := w.out.application.tail } } fun h => (hC h).before (List.prefix_append _ _)
  exact (still_follows htail).trans (hcalls.trans (writeNotes_follows _ _))

omit hp in
/-- If the error was reported by then, no reply is due. -/
theorem respond_returned {x : Exit} {w : Sys} (hC : Calm (respond perform x w)) (hx : Replies x) :
    reported (respond perform x w) = false := by
  refine Bool.eq_false_iff.mpr fun hr => ?_
  exact hC (.returned x (moment _)) (List.mem_append_right _ (List.mem_singleton_self _)) hr hx

theorem callOperation_follows (o : Operation) (w : Sys) (hC : C → Calm ((application perform).callOperation o w))
    (hr : C → reported w = false) : Follows C w ((application perform).callOperation o w) := by
  have hrespond := respond_follows hp (.operation o) (w.log (.operation o)) hC
  exact (log_follows (.refl _) fun c _ => hr c).trans hrespond

theorem callMessage_follows (m : Message) (w : Sys) (hC : C → Calm ((application perform).callMessage m w))
    (hr : C → reported w = false) : Follows C w ((application perform).callMessage m w) := by
  have hrespond := respond_follows hp (.message m) (w.log (.message m)) hC
  exact (log_follows (.refl _) fun c _ => hr c).trans hrespond

theorem callDisconnected_follows (w : Sys) (hC : C → Calm ((application perform).callDisconnected w)) :
    Follows C w ((application perform).callDisconnected w) := by
  unfold App.callDisconnected at hC ⊢
  split at hC
  · exact Follows.same
  · rename_i callback _
    have hrespond := respond_follows hp (.disconnected callback) (w.log (.disconnected callback)) hC
    exact (log_follows (.refl _) nofun).trans hrespond

/-- The report itself, made over the client's own connection. -/
theorem callError_keeps (e : EventError) (w : Sys) (hC : C → Calm ((application perform).callError e w))
    (hr : C → reported w = false) : Keeps C w ((application perform).callError e w) := by
  unfold App.callError at hC ⊢
  split at hC
  · rename_i hset
    rw [if_pos hset]
    let u := w.log (.error e)
    have hrespond := respond_follows hp (.error e) (writeNotes [.reporting (moment u)] u) hC
    have hreport : Keeps C w u := by
      refine ⟨List.prefix_refl _, fun c hw => ⟨hw.silent.log fun _ => hr c, fun _ => ?_⟩⟩
      have hcalm : Calm (writeNotes [.reporting (moment u)] u) := (hC c).before hrespond.notes
      exact hcalm (.reporting (moment u)) (List.mem_append_right _ (List.mem_singleton_self _))
    exact hreport.trans ((writeNotes_follows _ _).trans hrespond).toKeeps
  · rename_i hset
    rw [if_neg hset]
    exact Follows.same.toKeeps

end Application

/-! ## Transports -/

structure Sound (xio : Xio Outside) : Prop where
  close : ∀ {C : Prop} (h : XioHandle) (w : Sys), (C → Calm (xio.close h true w).2) →
    w.client.xioHandle = some h → Closes C w (xio.close h true w).2
  send : ∀ {C : Prop} (h : XioHandle) (bytes : List UInt8) (w : Sys), (C → Calm (xio.send h bytes w).2) →
    (C → reported w = false) → Follows C w (xio.send h bytes w).2
  dowork : ∀ {C : Prop} (h : XioHandle) (w : Sys), (C → Calm (xio.dowork h w)) → Follows C w (xio.dowork h w)
  openIo : ∀ {C : Prop} (h : XioHandle) (w : Sys), (C → Calm (xio.openIo h w).2) → (C → reported w = false) →
    Follows C w (xio.openIo h w).2

section Handlers

variable {C : Prop} {xio : Xio Outside} (hx : Sound xio) {perform : ApiCall → Sys → Sys}
  (hp : ∀ {C : Prop} (c : ApiCall) (w : Sys), (C → Calm (perform c w)) → Follows C w (perform c w))

/-! ## Closing -/

section Closing

include hx

theorem xioDowork_follows (h : Option XioHandle) (w : Sys) (hC : C → Calm (xio.xioDowork h w)) :
    Follows C w (xio.xioDowork h w) := by
  cases h with
  | none => exact Follows.same
  | some h => exact hx.dowork h w hC

theorem closeLoop_follows (retries : Nat) (w : Sys) (hC : C → Calm (closeLoop xio retries w)) :
    Follows C w (closeLoop xio retries w) := by
  induction retries generalizing w with
  | zero => exact Follows.same
  | succ retries ih =>
    unfold closeLoop at hC ⊢
    simp only at hC ⊢
    split at hC
    · rename_i hc
      rw [if_pos hc]
      have hrest := ih _ hC
      exact (xioDowork_follows hx _ w fun c => (hC c).before hrest.notes).trans hrest
    · rename_i hc
      rw [if_neg hc]
      exact xioDowork_follows hx _ w hC

end Closing

/-- The handle is forgotten when nothing is open any more. -/
theorem Closes.release {w w' : Sys} (h : Closes C w w') :
    Closes C w { w' with client := { w'.client with xioHandle := none } } := by
  have hhush : C → Fine w → reported w' = true →
      Hushed { w' with client := { w'.client with xioHandle := none } } := fun c hw hr =>
    ⟨(h.closed c hw hr).socketConnected, (h.closed c hw hr).closed⟩
  exact ⟨⟨h.notes, fun c hw => ⟨(h.fine c hw).silent, fun hr => (hhush c hw hr).owns⟩⟩, hhush⟩

include hx hp

theorem closeConnection_closes (w : Sys) (hC : C → Calm (closeConnection xio (application perform) w)) :
    Closes C w (closeConnection xio (application perform) w) := by
  unfold closeConnection at hC ⊢
  by_cases hs : w.client.socketConnected = true
  · simp only [if_pos hs] at hC ⊢
    have hloop : ∀ v : Sys, (C → Calm (if v.client.disconnectCb.isNone then closeLoop xio maxCloseRetries v else v)) →
        Follows C v (if v.client.disconnectCb.isNone then closeLoop xio maxCloseRetries v else v) := by
      intro v hv
      split at hv
      · rename_i hn
        rw [if_pos hn]
        exact closeLoop_follows hx _ v hv
      · rename_i hn
        rw [if_neg hn]
        exact Follows.same
    have hrest := hloop (xio.xioClose w.client.xioHandle true w).2 hC
    have hclose : Closes C w (xio.xioClose w.client.xioHandle true w).2 := by
      cases hh : w.client.xioHandle with
      | none =>
        -- An error that was reported without a transport is none of the client's own.
        refine ⟨Follows.same.toKeeps, ?_⟩
        intro _ hw hr
        exact absurd hh ((hw.owns hr).held hs)
      | some h =>
        rw [hh] at hC hrest
        exact hx.close h w (fun c => (hC c).before hrest.notes) hh
    exact (hclose.trans hrest).release
  · have hs' : w.client.socketConnected = false := Bool.eq_false_iff.mpr hs
    simp only [if_neg hs] at hC ⊢
    have hcb := callDisconnected_follows hp w hC
    exact ⟨hcb.toKeeps, fun c hw => hcb.hushed c hw fun hr => (hw.owns hr).hushed hs'⟩

theorem setErrorCallback_closes (e : EventError) (w : Sys) (hC : C → Calm (setErrorCallback xio (application perform) e w))
    (hr : C → reported w = false) : Closes C w (setErrorCallback xio (application perform) e w) := by
  have hclose := closeConnection_closes hx hp ((application perform).callError e w) hC
  exact (callError_keeps hp e w (fun c => (hC c).before hclose.notes) hr).closes hclose

theorem onIoError_follows (w : Sys) (hC : C → Calm (onIoError xio (application perform) w)) (hr : C → reported w = false) :
    Follows C w (onIoError xio (application perform) w) := by
  unfold onIoError at hC ⊢
  split at hC
  · rename_i hf
    rw [if_pos hf]
    exact (setErrorCallback_closes hx hp _ w hC hr).follows
  · rename_i hf
    rw [if_neg hf]
    exact Follows.same

/-! ## Sending -/

theorem sendComplete_follows (w : Sys) (hC : C → Calm (sendComplete xio (application perform) .ok w))
    (hr : C → reported w = false) : Follows C w (sendComplete xio (application perform) .ok w) := by
  unfold sendComplete at hC ⊢
  simp only at hC ⊢
  by_cases hd : w.client.packetState = .disconnect
  · rw [if_pos hd] at hC ⊢
    by_cases hf : w.client.fnOperationCallback = true
    · rw [if_pos hf] at hC ⊢
      have hclose := (closeConnection_closes hx hp _ hC).follows
      exact (callOperation_follows hp .disconnect w (fun c => (hC c).before hclose.notes) hr).trans hclose
    · rw [if_neg hf] at hC ⊢
      exact (closeConnection_closes hx hp w hC).follows
  · rw [if_neg hd]
    exact Follows.same

omit hx hp in
theorem currentMs_still (w : Sys) : Still w w.currentMs.2 := by
  unfold World.currentMs
  split <;> exact .inner rfl rfl rfl rfl

omit hx hp in
theorem still_reported {w w' : Sys} (h : Still w w') : reported w' = reported w := by
  rw [reported, reported, h.trace]

omit hp in
theorem sendPacketItem_follows (data : List UInt8) (w : Sys) (hC : C → Calm (sendPacketItem xio data w).2)
    (hr : C → reported w = false) : Follows C w (sendPacketItem xio data w).2 := by
  have hms := currentMs_still w
  rcases hw : w.currentMs with ⟨ms, v⟩
  rw [hw] at hms
  cases ms with
  | none =>
    simp only [sendPacketItem, hw]
    exact still_follows hms
  | some ms =>
    rw [sendPacketItem_stamp hw] at hC ⊢
    have hrv : C → reported v = false := fun c => (still_reported hms).trans (hr c)
    have hsent : Follows C { v with client := { v.client with packetSendTimeMs := ms } } (stamp ms data v) :=
      log_follows (.refl _) fun c _ => hrv c
    have hstamp : Still v { v with client := { v.client with packetSendTimeMs := ms } } :=
      .inner rfl rfl rfl rfl
    have hstamped : Follows C w (stamp ms data v) :=
      (still_follows hms).trans ((still_follows hstamp).trans hsent)
    have hquiet : C → reported (stamp ms data v) = false := by
      intro c
      rw [stamp, reported_log]
      exact (Bool.or_false _).trans (hrv c)
    cases hh : v.client.xioHandle with
    | none => exact hstamped
    | some h =>
      rw [hh] at hC
      exact hstamped.trans (hx.send h data _ hC hquiet)

theorem sendReply_follows (reply : UInt16 → Mallocs → Option Buffer × Mallocs) (packetId : UInt16) (w : Sys)
    (hC : C → Calm (sendReply xio (application perform) reply packetId w)) (hr : C → reported w = false) :
    Follows C w (sendReply xio (application perform) reply packetId w) := by
  have hms : ∀ ms, Still w { w with mallocs := ms } := fun ms => .inner rfl rfl rfl rfl
  unfold sendReply at hC ⊢
  rcases hb : reply packetId w.mallocs with ⟨packet, ms⟩
  rw [hb] at hC
  cases packet with
  | none => exact (still_follows (hms ms)).trans (setErrorCallback_closes hx hp .memoryError _ hC hr).follows
  | some packet => exact (still_follows (hms ms)).trans (sendPacketItem_follows hx packet.bytes _ hC hr)

theorem onOpenComplete_follows (r : OpenResult) (w : Sys) (hC : C → Calm (onOpenComplete xio (application perform) r w))
    (hr : C → reported w = false) : Follows C w (onOpenComplete xio (application perform) r w) := by
  unfold onOpenComplete at hC ⊢
  by_cases ho : r = .ok ∧ w.client.socketConnected = false
  · have hopen : ∀ ms, Follows C w { w with
        mallocs := ms, client := { w.client with packetState := .connect, socketConnected := true } } := fun _ =>
      unreported_follows (List.prefix_refl _) (.refl _) (.refl _) hr
    simp only [if_pos ho] at hC ⊢
    rcases hb : mqttCodecConnect w.client.mqttOptions w.mallocs with ⟨packet, ms⟩
    rw [hb] at hC
    cases packet with
    | none => exact hopen ms
    | some packet => exact (hopen ms).trans (sendPacketItem_follows hx packet.bytes _ hC hr)
  · rw [if_neg ho] at hC ⊢
    by_cases hs : w.client.socketConnected = false
    · rw [if_pos hs] at hC ⊢
      exact (setErrorCallback_closes hx hp .connectionError w hC hr).follows
    · rw [if_neg hs] at hC ⊢
      exact (closeConnection_closes hx hp w hC).follows

/-! ## Packets -/

/-- A callback, and then the reply. -/
theorem replied_follows {w v : Sys} (reply : UInt16 → Mallocs → Option Buffer × Mallocs) (packetId : UInt16)
    (hC : C → Calm (sendReply xio (application perform) reply packetId v)) (hcall : (C → Calm v) → Follows C w v)
    (hr : Calm v → reported v = false) : Follows C w (sendReply xio (application perform) reply packetId v) := by
  have hgrows := (sendReply_follows hx hp reply packetId v False.elim False.elim).notes
  have hv : C → Calm v := fun c => (hC c).before hgrows
  exact (hcall hv).trans (sendReply_follows hx hp reply packetId v hC fun c => hr (hv c))

theorem act_follows (verdict : Verdict) (w : Sys) (hC : C → Calm (act xio (application perform) verdict w))
    (hr : C → reported w = true → Unheard w.client verdict) : Follows C w (act xio (application perform) verdict w) := by
  have hloud : ¬ Unheard w.client verdict → C → reported w = false := fun hn c => Bool.eq_false_iff.mpr fun h => hn (hr c h)
  cases verdict with
  | ignored => exact Follows.same
  | nullWrite => exact still_follows (.inner rfl rfl rfl rfl)
  | error e => exact (setErrorCallback_closes hx hp e w hC (hloud id)).follows
  | subscribeAck packetId codes => exact callOperation_follows hp _ w hC (hloud id)
  | unsubscribeAck packetId => exact callOperation_follows hp _ w hC (hloud id)
  | connack session code =>
    have hset : ∀ v : Sys, Still v { v with client := { v.client with clientConnected := true } } :=
      fun _ => .inner rfl rfl rfl rfl
    simp only [act] at hC ⊢
    split at hC
    · rename_i hc
      rw [if_pos hc]
      exact (callOperation_follows hp _ w hC (hloud id)).trans (still_follows (hset _))
    · rename_i hc
      rw [if_neg hc]
      exact callOperation_follows hp _ w hC (hloud id)
  | pingresp =>
    have hset : Still w { w with client := { w.client with timeSincePing := 0 } } :=
      .inner rfl rfl rfl rfl
    simp only [act] at hC ⊢
    by_cases hf : w.client.fnOperationCallback = true
    · rw [if_pos hf] at hC ⊢
      have hn : ¬ Unheard w.client .pingresp := fun h => absurd (hf.symm.trans h) (by decide)
      exact (still_follows hset).trans (callOperation_follows hp _ _ hC (hloud hn))
    · rw [if_neg hf]
      exact still_follows hset
  | publish m =>
    have hcall := callMessage_follows (C := C) hp m w
    simp only [act] at hC ⊢
    cases hq : m.qosInfo with
    | deliverExactlyOnce =>
      rw [hq] at hC
      exact replied_follows hx hp _ _ hC (fun hv => hcall hv (hloud id)) fun hv => respond_returned hv (.inl hq)
    | deliverAtLeastOnce =>
      rw [hq] at hC
      exact replied_follows hx hp _ _ hC (fun hv => hcall hv (hloud id)) fun hv => respond_returned hv (.inr hq)
    | _ =>
      rw [hq] at hC
      exact hcall hC (hloud id)
  | publishAck packet packetId =>
    have hcall := callOperation_follows (C := C) hp (publishAction packet packetId) w
    simp only [act] at hC ⊢
    cases packet with
    | pubrec => exact replied_follows hx hp _ _ hC (fun hv => hcall hv (hloud id)) fun hv => respond_returned hv trivial
    | pubrel => exact replied_follows hx hp _ _ hC (fun hv => hcall hv (hloud id)) fun hv => respond_returned hv trivial
    | _ => exact hcall hC (hloud id)

theorem recvComplete_follows (p : Packet) (w : Sys) (hC : C → Calm (recvCompleteCallback xio (application perform) p w))
    (hr : C → reported w = true → Unheard w.client (decode w.client p w.mallocs).verdict) :
    Follows C w (recvCompleteCallback xio (application perform) p w) := by
  have hms : Still (w.log (.packet p)) { w.log (.packet p) with mallocs := (decode w.client p w.mallocs).mallocs } :=
    .inner rfl rfl rfl rfl
  have hlog : Follows C w (w.log (.packet p)) := log_follows (.refl _) nofun
  refine hlog.trans ((still_follows hms).trans (act_follows hx hp _ _ hC fun c h => hr c ?_))
  rw [still_reported hms, reported_log] at h
  exact (Bool.or_false _).symm.trans h

/-! ## Bytes -/

omit hx hp in
theorem codec_still (x : CodecInstance × Mallocs) (w : Sys) : Still w (World.codecSlot.set x w) :=
  .inner rfl rfl rfl rfl

omit hx hp in
/-- A byte that the codec refuses completes no packet. -/
theorem advance_failed {c : CodecInstance} {ms : Mallocs} {b : UInt8} (h : (advance c ms b).result ≠ 0) :
    (advance c ms b).complete = false := by
  unfold advance at h ⊢
  by_cases hf : c.fault.isSome = true
  · rw [if_pos hf]
  · rw [if_neg hf] at h ⊢
    cases hs : c.codecState with
    | payload => exact .refl _
    | fixedHeader =>
      simp only [hs] at h ⊢
      by_cases hu : c.currPacket = .unknown
      · rw [if_pos hu] at h
        exact absurd (.refl _) h
      · rw [if_neg hu] at h ⊢
        simp only at h ⊢
        rw [if_neg h]
        exact decide_eq_false nofun
    | varHeader =>
      simp only [hs] at h ⊢
      cases hd : c.headerData with
      | none => simp [hd] at h
      | some data =>
        simp only [hd] at h ⊢
        split at h
        · exact .refl _
        · split at h
          · exact absurd (.refl _) h
          · rename_i hfull
            rw [if_neg hfull]

theorem byte_follows (b : UInt8) (w : Sys)
    (hC : C → Calm (receiveByte World.codecSlot (recvCompleteCallback xio (application perform)) b w).2)
    (hb : C → (Note.byte b (moment w)).Meets) :
    Follows C w (receiveByte World.codecSlot (recvCompleteCallback xio (application perform)) b w).2 := by
  have hset := codec_still ((advance w.client.codec w.mallocs b).codec, (advance w.client.codec w.mallocs b).mallocs) w
  unfold receiveByte at hC ⊢
  simp only at hC ⊢
  split at hC
  · rename_i hc
    rw [if_pos hc]
    have hpacket := recvComplete_follows (C := C) hx hp
      (World.codecSlot.get (World.codecSlot.set ((advance w.client.codec w.mallocs b).codec,
        (advance w.client.codec w.mallocs b).mallocs) w)).1.packet
      (World.codecSlot.set ((advance w.client.codec w.mallocs b).codec, (advance w.client.codec w.mallocs b).mallocs) w) hC
      fun c hr => (hb c ((still_reported hset).symm.trans hr)).2 hc
    exact (still_follows hset).trans (hpacket.trans (still_follows (codec_still _ _)))
  · rename_i hc
    rw [if_neg hc]
    exact still_follows hset

/-- A chunk that the codec refuses has reported no error on its way. -/
theorem bytes_follow (bytes : List UInt8) (w : Sys)
    (hC : C → Calm (runUntil (receiveByte World.codecSlot (recvCompleteCallback xio (application perform))) bytes w).2)
    (hb : C → ∀ n ∈ byteNotes xio (application perform) bytes w, n.Meets) :
    Follows C w (runUntil (receiveByte World.codecSlot (recvCompleteCallback xio (application perform))) bytes w).2 ∧
      (C → (runUntil (receiveByte World.codecSlot (recvCompleteCallback xio (application perform))) bytes w).1 ≠ 0 →
        reported (runUntil (receiveByte World.codecSlot (recvCompleteCallback xio (application perform))) bytes w).2 =
          false) := by
  induction bytes generalizing w with
  | nil => exact ⟨Follows.same, fun _ h => absurd (.refl _) h⟩
  | cons b bytes ih =>
    have hfirst : C → (Note.byte b (moment w)).Meets := fun c => hb c _ List.mem_cons_self
    rw [runUntil_cons] at hC ⊢
    by_cases h0 : (receiveByte World.codecSlot (recvCompleteCallback xio (application perform)) b w).1 = 0
    · rw [if_pos h0] at hC ⊢
      obtain ⟨hrest, hrefused⟩ := ih _ hC fun c n hn => hb c n (List.mem_cons_of_mem _ (by rw [if_pos h0]; exact hn))
      exact ⟨(byte_follows hx hp b w (fun c => (hC c).before hrest.notes) hfirst).trans hrest, hrefused⟩
    · rw [if_neg h0] at hC ⊢
      refine ⟨byte_follows hx hp b w hC hfirst, fun c _ => ?_⟩
      have hquiet : reported w = false := by
        refine Bool.eq_false_iff.mpr fun hr => h0 ?_
        exact (hfirst c hr).1
      have hcomplete : (advance w.client.codec w.mallocs b).complete = false := advance_failed h0
      have hsame : (receiveByte World.codecSlot (recvCompleteCallback xio (application perform)) b w).2 =
          World.codecSlot.set ((advance w.client.codec w.mallocs b).codec,
            (advance w.client.codec w.mallocs b).mallocs) w := by
        unfold receiveByte
        exact if_neg (Bool.eq_false_iff.mp hcomplete)
      rw [hsame]
      exact (still_reported (codec_still _ _)).trans hquiet

theorem onBytesReceived_follows {received : List UInt8} (hne : received ≠ []) (w : Sys)
    (hC : C → Calm (writeNotes (byteNotes xio (application perform) received w)
      (onBytesReceived xio (application perform) received w))) :
    Follows C w (writeNotes (byteNotes xio (application perform) received w)
      (onBytesReceived xio (application perform) received w)) := by
  have hb : C → ∀ n ∈ byteNotes xio (application perform) received w, n.Meets :=
    fun c n hn => hC c n (List.mem_append_right _ hn)
  have hcalm : C → Calm (onBytesReceived xio (application perform) received w) :=
    fun c => (hC c).before (List.prefix_append _ _)
  suffices h : Follows C w (onBytesReceived xio (application perform) received w) from h.trans (writeNotes_follows _ _)
  unfold onBytesReceived at hcalm ⊢
  rw [bytesReceived_ne_nil _ _ hne] at hcalm ⊢
  have hchunk := bytes_follow (C := C) hx hp received w
  simp only at hcalm ⊢
  split at hcalm
  · rename_i hrefused
    rw [if_pos hrefused]
    have hgrows := (setErrorCallback_closes hx hp .parseError (runUntil (receiveByte World.codecSlot
      (recvCompleteCallback xio (application perform))) received w).2 False.elim False.elim).notes
    obtain ⟨hbytes, hquiet⟩ := hchunk (fun c => (hcalm c).before hgrows) hb
    exact hbytes.trans (setErrorCallback_closes hx hp .parseError _ hcalm fun c => hquiet c hrefused).follows
  · rename_i hrefused
    rw [if_neg hrefused]
    exact (hchunk hcalm hb).1

/-! ## Calls of the application -/

omit hx hp in
theorem currentMs_now (w : Sys) : w.currentMs.1 = (moment w).now := by
  simp only [World.currentMs, moment, Moment.now]
  cases w.ticks <;> rfl

omit hp in
/-- Without a packet, or without a clock, nothing is sent. -/
theorem sendBuilt_follows (type : ControlPacketType) (packet : Option Buffer × Mallocs) (w : Sys)
    (hC : C → Calm (sendBuilt xio type packet w).2)
    (hr : C → reported w = true → packet.1 = none ∨ (moment w).now = none) :
    Follows C w (sendBuilt xio type packet w).2 := by
  rcases packet with ⟨packet, ms⟩
  cases packet with
  | none => exact still_follows (.inner rfl rfl rfl rfl)
  | some packet =>
    have hbuilt : Still w { w with mallocs := ms, client := { w.client with packetState := type } } :=
      .inner rfl rfl rfl rfl
    have hnow := currentMs_now { w with mallocs := ms, client := { w.client with packetState := type } }
    unfold sendBuilt at hC ⊢
    by_cases hn : (moment w).now = none
    · have hms := currentMs_still { w with mallocs := ms, client := { w.client with packetState := type } }
      rcases hw : World.currentMs { w with mallocs := ms, client := { w.client with packetState := type } } with ⟨now, v⟩
      rw [hw] at hms hnow
      have hnone : now = none := hnow.trans hn
      subst hnone
      simp only [sendPacketItem, hw]
      exact (still_follows hbuilt).trans (still_follows hms)
    · refine (still_follows hbuilt).trans (sendPacketItem_follows hx packet.bytes _ hC fun c => ?_)
      refine Bool.eq_false_iff.mpr fun h => ?_
      rcases hr c h with hp | ht
      · cases hp
      · exact hn ht

omit hx hp in
theorem arrive_called {c : ApiCall} {w w' : Sys} (hw : Calm w') (h : (arrive c w).out.notes <+: w'.out.notes) :
    (Note.called c (moment w)).Meets := by
  refine hw _ (h.subset ?_)
  unfold arrive
  cases c <;> exact List.mem_append_right _ (List.mem_singleton_self _)

omit hp in
/-- A call that sends what it has built, if that makes it one that sends. -/
theorem called_follows {c : ApiCall} (type : ControlPacketType) (packet : Option Buffer × Mallocs) (w : Sys)
    (hc : arrive c w = writeNotes [.called c (moment w)] w)
    (hs : (moment w).now ≠ none → packet.1 ≠ none → Sends c (moment w))
    (hC : C → Calm (sendBuilt xio type packet (arrive c w)).2) :
    Follows C w (sendBuilt xio type packet (arrive c w)).2 := by
  have hgrows := (sendBuilt_follows hx type packet (arrive c w) False.elim False.elim).notes
  have hwritten : Follows C w (arrive c w) := by
    rw [hc]
    exact writeNotes_follows _ w
  refine hwritten.trans (sendBuilt_follows hx type packet _ hC fun calm hr => ?_)
  rw [hc] at hr ⊢
  by_contra hn
  rw [not_or] at hn
  exact arrive_called (hC calm) hgrows hr (hs hn.2 hn.1)

omit hp in
theorem publish_follows (msgHandle : Message) (w : Sys)
    (hC : C → Calm (mqttClientPublish xio msgHandle (arrive (.publish msgHandle) w)).2) :
    Follows C w (mqttClientPublish xio msgHandle (arrive (.publish msgHandle) w)).2 :=
  called_follows hx .publish _ w (.refl _) (fun ht hb => ⟨ht, hb⟩) hC

omit hp in
theorem subscribe_follows (packetId : UInt16) (subscribeList : List SubscribePayload) (w : Sys)
    (hC : C → Calm (mqttClientSubscribe xio packetId subscribeList (arrive (.subscribe packetId subscribeList) w)).2) :
    Follows C w (mqttClientSubscribe xio packetId subscribeList (arrive (.subscribe packetId subscribeList) w)).2 := by
  unfold mqttClientSubscribe at hC ⊢
  by_cases hl : subscribeList.length = 0 ∨ packetId = 0
  · rw [if_pos hl]
    exact writeNotes_follows _ w
  · rw [if_neg hl] at hC ⊢
    exact called_follows hx .subscribe _ w (.refl _) (fun ht hb => ⟨ht, hl, hb⟩) hC

omit hp in
theorem unsubscribe_follows (packetId : UInt16) (unsubscribeList : List CString) (w : Sys)
    (hC : C → Calm (mqttClientUnsubscribe xio packetId unsubscribeList
      (arrive (.unsubscribe packetId unsubscribeList) w)).2) :
    Follows C w (mqttClientUnsubscribe xio packetId unsubscribeList
      (arrive (.unsubscribe packetId unsubscribeList) w)).2 := by
  unfold mqttClientUnsubscribe at hC ⊢
  by_cases hl : unsubscribeList.length = 0 ∨ packetId = 0
  · rw [if_pos hl]
    exact writeNotes_follows _ w
  · rw [if_neg hl] at hC ⊢
    exact called_follows hx .unsubscribe _ w (.refl _) (fun ht hb => ⟨ht, hl, hb⟩) hC

theorem disconnect_follows (callback : Option Nat) (w : Sys)
    (hC : C → Calm (mqttClientDisconnect xio (application perform) callback (arrive (.disconnect callback) w)).2) :
    Follows C w (mqttClientDisconnect xio (application perform) callback (arrive (.disconnect callback) w)).2 := by
  have hcb : ∀ v : Sys, Still v { v with client := { v.client with disconnectCb := callback } } :=
    fun _ => .inner rfl rfl rfl rfl
  have hopts : ∀ v : Sys, Still v { v with
      client := { v.client with mqttOptions := clearMqttOptions v.client.mqttOptions } } := fun _ =>
    .inner rfl rfl rfl rfl
  unfold mqttClientDisconnect at hC ⊢
  by_cases hc : (arrive (.disconnect callback) w).client.clientConnected = true
  · simp only [if_pos hc] at hC ⊢
    have hquiet : ∀ {v : Sys}, (arrive (.disconnect callback) w).out.notes <+: v.out.notes → (C → Calm v) → C →
        reported (arrive (.disconnect callback) w) = false := fun hg hv calm =>
      Bool.eq_false_iff.mpr fun hr => arrive_called (hv calm) hg hr hc
    have harrive : Follows C w (arrive (.disconnect callback) w) := writeNotes_follows _ w
    rcases hb : mqttCodecDisconnect (arrive (.disconnect callback) w).mallocs with ⟨packet, ms⟩
    rw [hb] at hC
    cases packet with
    | none =>
      have hunbuilt : Still (arrive (.disconnect callback) w) { arrive (.disconnect callback) w with
          mallocs := ms, client := { (arrive (.disconnect callback) w).client with packetState := .packetTypeError } } :=
        .inner rfl rfl rfl rfl
      have hclosed := (still_follows hunbuilt).closes (hquiet (List.prefix_refl _) hC)
      exact harrive.toKeeps.closes (hclosed.trans (still_follows (hopts _))).release |>.follows
    | some packet =>
      have hbuilt : Still (arrive (.disconnect callback) w) { arrive (.disconnect callback) w with
          mallocs := ms, client := { (arrive (.disconnect callback) w).client with
            disconnectCb := callback, packetState := .disconnect } } :=
        .inner rfl rfl rfl rfl
      have hgrows := (sendPacketItem_follows hx packet.bytes { arrive (.disconnect callback) w with
          mallocs := ms, client := { (arrive (.disconnect callback) w).client with
            disconnectCb := callback, packetState := .disconnect } } False.elim False.elim).notes
      have hr := hquiet hgrows hC
      have hsent := (still_follows hbuilt).trans (sendPacketItem_follows hx packet.bytes _ hC hr)
      exact harrive.toKeeps.closes ((hsent.closes hr).trans (still_follows (hopts _))).release |>.follows
  · rw [if_neg hc] at hC ⊢
    have hclose := closeConnection_closes (C := C) hx hp _ hC
    exact (writeNotes_follows _ w).trans ((still_follows (hcb _)).trans (hclose.follows.trans (still_follows (hopts _))))

theorem keepAlive_follows (w : Sys) (hC : C → Calm (keepAlive xio (application perform) w))
    (ha : w.client.socketConnected = true ∧ w.client.clientConnected = true ∧ 0 < w.client.keepAliveInterval)
    (hr : C → reported w = true → ¬ Due (moment w)) : Follows C w (keepAlive xio (application perform) w) := by
  have hms := currentMs_still w
  have hnow := currentMs_now w
  have hclient : w.currentMs.2.client = w.client := by
    unfold World.currentMs
    split <;> rfl
  unfold keepAlive at hC ⊢
  rcases hw : w.currentMs with ⟨now, v⟩
  rw [hw] at hms hnow hclient hC
  cases now with
  | none => exact still_follows hms
  | some now =>
    simp only at hms hnow hclient hC ⊢
    have hquiet : (0 < v.client.timeSincePing ∧ v.client.maxPingRespTime.toUInt32 < (now - v.client.timeSincePing) / 1000 ∨
        v.client.keepAliveInterval.toUInt32 ≤ (now - v.client.packetSendTimeMs) / 1000) → C → reported v = false := by
      intro hdue c
      rw [hclient] at hdue
      refine Bool.eq_false_iff.mpr fun h => hr c ((still_reported hms).symm.trans h) ?_
      exact ⟨ha.1, ha.2.1, ha.2.2, now, hnow.symm, hdue⟩
    by_cases hlate : 0 < v.client.timeSincePing ∧ v.client.maxPingRespTime.toUInt32 < (now - v.client.timeSincePing) / 1000
    · rw [if_pos hlate] at hC ⊢
      have hclose := (setErrorCallback_closes hx hp .noPingResponse v hC (hquiet (.inl hlate))).follows
      have hreset : ∀ u : Sys, Still u { u with client := { u.client with
          timeSincePing := 0, packetSendTimeMs := 0, packetState := .unknown } } :=
        fun _ => .inner rfl rfl rfl rfl
      exact (still_follows hms).trans (hclose.trans (still_follows (hreset _)))
    · rw [if_neg hlate] at hC ⊢
      by_cases hidle : v.client.keepAliveInterval.toUInt32 ≤ (now - v.client.packetSendTimeMs) / 1000
      · rw [if_pos hidle] at hC ⊢
        have hbuilt : ∀ ms, Still v { v with mallocs := ms } := fun _ => .inner rfl rfl rfl rfl
        rcases hb : mqttCodecPing v.mallocs with ⟨packet, ms⟩
        rw [hb] at hC
        cases packet with
        | none => exact (still_follows hms).trans (still_follows (hbuilt ms))
        | some packet =>
          simp only at hC ⊢
          have hagain := currentMs_still (sendPacketItem xio packet.bytes { v with mallocs := ms }).2
          have hsend := sendPacketItem_follows (C := C) hx packet.bytes { v with mallocs := ms }
          rcases hw' : (sendPacketItem xio packet.bytes { v with mallocs := ms }).2.currentMs with ⟨now', v'⟩
          rw [hw'] at hagain hC
          have hv' : C → Calm v' := by
            intro c
            have hcalm := hC c
            cases now' <;> exact hcalm
          have hsent := hsend (fun c n hn => hv' c n (hagain.notes ▸ hn)) (hquiet (.inr hidle))
          have hupto : Follows C w v' :=
            (still_follows hms).trans ((still_follows (hbuilt ms)).trans (hsent.trans (still_follows hagain)))
          cases now' with
          | none => exact hupto
          | some now' => exact hupto.trans (still_follows (.inner rfl rfl rfl rfl))
      · rw [if_neg hidle]
        exact still_follows hms

theorem dowork_follows (w : Sys)
    (hworked : ∀ h v, Calm (xio.dowork h v) → (Note.worked (moment (xio.dowork h v))).Meets)
    (hC : C → Calm (mqttClientDowork xio (application perform) (arrive .dowork w))) :
    Follows C w (mqttClientDowork xio (application perform) (arrive .dowork w)) := by
  have harrive : Follows C w (arrive .dowork w) := writeNotes_follows _ w
  unfold mqttClientDowork at hC ⊢
  cases hh : (arrive .dowork w).client.xioHandle with
  | none => exact harrive
  | some h =>
    rw [hh] at hC
    simp only at hC ⊢
    split at hC
    · rename_i ha
      rw [if_pos ha]
      have hgrows := (keepAlive_follows hx hp (xio.dowork h (arrive .dowork w)) False.elim ha False.elim).notes
      have hcalm : C → Calm (xio.dowork h (arrive .dowork w)) := fun c => (hC c).before hgrows
      exact (harrive.trans (hx.dowork h _ hcalm)).trans
        (keepAlive_follows hx hp _ hC ha fun c hr => hworked h _ (hcalm c) hr)
    · rename_i ha
      rw [if_neg ha]
      exact harrive.trans (hx.dowork h _ hC)

omit hx hp in
/-- A new connection starts with nothing reported. -/
theorem arrive_connect (h : XioHandle) (mqttOptions : MqttClientOptions) (w : Sys) :
    Follows C w (arrive (.connect h mqttOptions) w) := by
  refine ⟨⟨List.prefix_append _ _, fun _ hw => ⟨?_, nofun⟩⟩, nofun⟩
  intro trace ht
  rcases List.mem_append.mp ht with ht | ht
  · exact hw.silent trace ht
  · rw [List.mem_singleton.mp ht]
    exact List.Pairwise.nil

omit hp in
theorem connect_follows (h : XioHandle) (mqttOptions : MqttClientOptions) (w : Sys)
    (hC : C → Calm (mqttClientConnect xio (some h) mqttOptions (arrive (.connect h mqttOptions) w)).2) :
    Follows C w (mqttClientConnect xio (some h) mqttOptions (arrive (.connect h mqttOptions) w)).2 := by
  have htaken : Follows C (arrive (.connect h mqttOptions) w)
      (takeOptions h mqttOptions (arrive (.connect h mqttOptions) w)).2 :=
    unreported_follows (List.prefix_refl _) (.refl _) (.refl _) fun _ => .refl _
  have hcleared : ∀ v : Sys, Still v { v with
      client := { v.client with mqttOptions := clearMqttOptions v.client.mqttOptions } } := fun _ =>
    .inner rfl rfl rfl rfl
  refine (arrive_connect h mqttOptions w).trans ?_
  unfold mqttClientConnect at hC ⊢
  simp only at hC ⊢
  split at hC
  · rename_i hf
    rw [if_pos hf]
    exact htaken
  · rename_i hf
    rw [if_neg hf]
    have hopen := hx.openIo (C := C) h (takeOptions h mqttOptions (arrive (.connect h mqttOptions) w)).2
    split at hC
    · rename_i hr
      rw [if_pos hr]
      exact (htaken.trans (hopen hC fun _ => .refl _)).trans (still_follows (hcleared _))
    · rename_i hr
      rw [if_neg hr]
      exact htaken.trans (hopen hC fun _ => .refl _)

end Handlers

end UMqtt.Client.OverSocket

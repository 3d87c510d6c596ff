/-
  UMqtt.Client.SocketSilence — the sockets under a client that has reported an error.

  `socketio_dowork` looks at its state behind every chunk that it receives, but not behind an item
  of the pending list: the list is walked to its end, whatever the callbacks have closed. And
  `close_connection` lets the socket work when it is closed already. With nothing left in the
  list the sockets are a `Sound` transport (`transport_sound`), and a run whose notes all meet
  their conditions is silent behind every error report (`silent_run`).
-/

import UMqtt.Client.Silence

namespace UMqtt.Client.OverSocket

open UMqtt.Lib UMqtt.Crt UMqtt.Codec UMqtt.Io

/-! ## Sockets -/

section Sockets

variable {C : Prop}

theorem slot_still (h : XioHandle) (x : SocketIoInstance Unit × Mallocs) (w : Sys)
    (hx : x.1.ioState = .opened → (w.out.sockets h).ioState = .opened) : Still w ((socketSlot h).set x w) := by
  refine ⟨.refl _, .refl _, .refl _, .refl _, .refl _, fun handle ho => ?_⟩
  by_cases hh : handle = h
  · subst hh
    refine hx ?_
    simpa [socketSlot] using ho
  · simpa [socketSlot, Function.update_of_ne hh] using ho

theorem update_still (h : XioHandle) {f : SocketIoInstance Unit → SocketIoInstance Unit} (w : Sys)
    (hf : ∀ io, (f io).ioState = .opened → io.ioState = .opened) : Still w (update (socketSlot h) f w) :=
  slot_still h _ w (hf _)

theorem accept_still (h : XioHandle) (bytes : List UInt8) (w : Sys) : Still w (accept (socketSlot h) bytes w) :=
  update_still h w fun _ ho => ho

theorem queue_still (h : XioHandle) (bytes : List UInt8) (k : Option Unit) (w : Sys) :
    Still w (queue (socketSlot h) bytes k w).2 := by
  refine slot_still h _ w fun ho => ?_
  unfold addPendingIo at ho
  repeat' split at ho
  all_goals exact ho

@[simp] theorem sockets_update (h : XioHandle) (f : SocketIoInstance Unit → SocketIoInstance Unit) (w : Sys) :
    (update (socketSlot h) f w).out.sockets h = f (w.out.sockets h) := by
  simp [update, Slot.modify, socketSlot]

theorem accept_pending (h : XioHandle) (bytes : List UInt8) (w : Sys) :
    ((accept (socketSlot h) bytes w).out.sockets h).pendingIoList = (w.out.sockets h).pendingIoList := by
  rw [accept, sockets_update]

variable {xio : Xio Outside} {perform : ApiCall → Sys → Sys}

section Close

variable (hp : ∀ {C : Prop} (c : ApiCall) (w : Sys), (C → Calm (perform c w)) → Follows C w (perform c w))

include hp

theorem socketioClose_closes (h : XioHandle) (w : Sys)
    (hC : C → Calm (socketioClose (socketSlot h) (socketCallbacks xio (application perform) h) true w).2)
    (hh : w.client.xioHandle = some h) :
    Closes C w (socketioClose (socketSlot h) (socketCallbacks xio (application perform) h) true w).2 := by
  have hclosed : ∃ u : Sys, Still w u ∧ (u.out.sockets h).ioState ≠ .opened ∧
      (socketioClose (socketSlot h) (socketCallbacks xio (application perform) h) true w).2 =
        onConnectionClosed (application perform) u := by
    unfold socketioClose
    by_cases hi : (w.out.sockets h).ioState ≠ .closed ∧ (w.out.sockets h).ioState ≠ .closing
    · refine ⟨update (socketSlot h) (fun io => { io with socket := false, ioState := .closed }) w,
        update_still h w nofun, ?_, ?_⟩
      · rw [sockets_update]
        exact nofun
      · exact congrArg (onConnectionClosed (application perform)) (if_pos hi)
    · refine ⟨w, .inner rfl rfl rfl rfl, ?_, ?_⟩
      · intro ho
        rw [ho] at hi
        exact hi ⟨nofun, nofun⟩
      · exact congrArg (onConnectionClosed (application perform)) (if_neg hi)
  obtain ⟨u, hstill, hu, hclose⟩ := hclosed
  rw [hclose] at hC ⊢
  have hhushed : C → Fine w → reported u = true →
      Hushed { u with client := { u.client with socketConnected := false, clientConnected := false } } := by
    intro c hw hr
    refine ⟨.refl _, fun handle ho => ?_⟩
    have hown := ((hw.owns ((still_reported hstill).symm.trans hr)).own handle (hstill.sockets handle ho)).2
    exact hu (Option.some.inj (hown.symm.trans hh) ▸ ho)
  have hnoted : Closes C w { u with client := { u.client with socketConnected := false, clientConnected := false } } :=
    ⟨⟨by rw [hstill.notes], fun c hw => ⟨((still_follows hstill).fine c hw).silent, fun hr => (hhushed c hw hr).owns⟩⟩,
      hhushed⟩
  exact hnoted.trans (callDisconnected_follows hp _ hC)

end Close

section Callbacks

variable (hx : Sound xio)
  (hp : ∀ {C : Prop} (c : ApiCall) (w : Sys), (C → Calm (perform c w)) → Follows C w (perform c w))

include hx hp

theorem socketioOpen_follows (h : XioHandle) (connects : Bool) (w : Sys)
    (hC : C → Calm (socketioOpen (socketSlot h) (socketCallbacks xio (application perform) h) connects w).2)
    (hr : C → reported w = false) :
    Follows C w (socketioOpen (socketSlot h) (socketCallbacks xio (application perform) h) connects w).2 := by
  have hopened : ∃ (u : Sys) (r : OpenResult), (u.out.notes = w.out.notes ∧ u.trace = w.trace ∧ u.out.past = w.out.past) ∧
      (socketioOpen (socketSlot h) (socketCallbacks xio (application perform) h) connects w).2 =
        onOpenComplete xio (application perform) r u := by
    refine ⟨_, _, ?_, .refl _⟩
    split
    · exact ⟨.refl _, .refl _, .refl _⟩
    · split
      · exact ⟨.refl _, .refl _, .refl _⟩
      · split <;> exact ⟨.refl _, .refl _, .refl _⟩
  obtain ⟨u, r, ⟨hn, ht, hpast⟩, hopen⟩ := hopened
  rw [hopen] at hC ⊢
  have hu : C → reported u = false := by
    intro c
    rw [reported, ht]
    exact hr c
  exact (unreported_follows (by rw [hn]) ht hpast hr).trans (onOpenComplete_follows hx hp r u hC hu)

/-- The wrapper of the client's `sendComplete`. -/
theorem onSendComplete_follows (h : XioHandle) (w : Sys)
    (hC : C → Calm ((socketCallbacks xio (application perform) h).onSendComplete () w)) (hr : C → reported w = false) :
    Follows C w ((socketCallbacks xio (application perform) h).onSendComplete () w) := by
  simp only [socketCallbacks] at hC ⊢
  split at hC
  · rename_i hl
    rw [if_pos hl]
    exact sendComplete_follows hx hp w hC hr
  · rename_i hl
    rw [if_neg hl]
    exact (sendComplete_follows hx hp w (fun c => (hC c).before (List.prefix_append _ _)) hr).trans (writeNotes_follows _ _)

theorem sendCompleted_follows (h : XioHandle) (k : Option Unit) (w : Sys)
    (hC : C → Calm (sendCompleted (socketSlot h) (socketCallbacks xio (application perform) h) k w))
    (hr : C → reported w = false) :
    Follows C w (sendCompleted (socketSlot h) (socketCallbacks xio (application perform) h) k w) := by
  cases k with
  | none => exact Follows.same
  | some k =>
    refine (still_follows (update_still h w ?_)).trans (onSendComplete_follows hx hp h _ hC hr)
    exact fun _ ho => ho

theorem socketioSend_follows (h : XioHandle) (bytes : List UInt8) (k : Option Unit) (answer : SendAnswer) (w : Sys)
    (hC : C → Calm (socketioSend (socketSlot h) (socketCallbacks xio (application perform) h) bytes k answer w).2)
    (hr : C → reported w = false) :
    Follows C w (socketioSend (socketSlot h) (socketCallbacks xio (application perform) h) bytes k answer w).2 := by
  unfold socketioSend at hC ⊢
  split at hC
  · rename_i hl
    rw [if_pos hl]
    exact Follows.same
  · rename_i hl
    rw [if_neg hl]
    split at hC
    · rename_i ho
      rw [if_pos ho]
      exact Follows.same
    · rename_i ho
      rw [if_neg ho]
      cases hpend : ((socketSlot h).get w).1.pendingIoList with
      | cons pending rest => exact still_follows (queue_still h bytes k w)
      | nil =>
        rw [hpend] at hC
        simp only at hC ⊢
        cases answer with
        | again => exact Follows.same
        | fatal => exact Follows.same
        | accepted sendResult =>
          simp only at hC ⊢
          split at hC
          · rename_i hpart
            rw [if_pos hpart]
            exact (still_follows (accept_still h _ w)).trans (still_follows (queue_still h _ k _))
          · rename_i hpart
            rw [if_neg hpart]
            exact (still_follows (accept_still h _ w)).trans (sendCompleted_follows hx hp h k _ hC hr)

/-! ## Work -/

omit hx hp in
theorem behind_meets {pending : List (PendingSocketIo Unit)} {m : Moment} {v : Sys}
    (hC : Calm (writeNotes [.behind pending m] v)) (hr : m.reported = true) : pending = [] :=
  hC (.behind pending m) (List.mem_append_right _ (List.mem_singleton_self _)) hr

/-- A failed item: the error is reported, and then there must be no item left. -/
theorem indicateError_follows (h : XioHandle) (w : Sys)
    (hC : C → Calm (indicateError (socketSlot h) (socketCallbacks xio (application perform) h) w))
    (hr : C → reported w = false) :
    Follows C w (indicateError (socketSlot h) (socketCallbacks xio (application perform) h) w) := by
  unfold indicateError at hC ⊢
  split at hC
  · rename_i hcb
    rw [if_pos hcb]
    simp only [socketCallbacks] at hC ⊢
    split at hC
    · rename_i he
      rw [if_pos he]
      exact (onIoError_follows hx hp w (fun c => (hC c).before (List.prefix_append _ _)) hr).trans (writeNotes_follows _ _)
    · rename_i he
      rw [if_neg he]
      exact onIoError_follows hx hp w hC hr
  · rename_i hcb
    rw [if_neg hcb]
    exact Follows.same

omit hx hp in
theorem indicateError_behind (h : XioHandle) {w : Sys} (he : (w.out.sockets h).ioState = .error)
    (hC : Calm (indicateError (socketSlot h) (socketCallbacks xio (application perform) h) w))
    (hr : reported w = false)
    (hr' : reported (indicateError (socketSlot h) (socketCallbacks xio (application perform) h) w) = true) :
    ((indicateError (socketSlot h) (socketCallbacks xio (application perform) h) w).out.sockets h).pendingIoList = [] := by
  unfold indicateError at hC hr' ⊢
  by_cases hcb : ((socketSlot h).get w).1.callbacks = true
  · rw [if_pos hcb] at hC hr' ⊢
    simp only [socketCallbacks, if_pos he] at hC hr' ⊢
    exact behind_meets hC hr'
  · rw [if_neg hcb] at hr'
    exact absurd (hr.symm.trans hr') (by decide)

omit hx hp in
theorem sendCompleted_behind (h : XioHandle) (k : Option Unit) {w : Sys} (hl : (w.out.sockets h).pendingIoList ≠ [])
    (hC : Calm (sendCompleted (socketSlot h) (socketCallbacks xio (application perform) h) k w))
    (hr : reported w = false)
    (hr' : reported (sendCompleted (socketSlot h) (socketCallbacks xio (application perform) h) k w) = true) :
    ((sendCompleted (socketSlot h) (socketCallbacks xio (application perform) h) k w).out.sockets h).pendingIoList.tail =
      [] := by
  cases k with
  | none => exact absurd (hr.symm.trans hr') (by decide)
  | some k =>
    have hl' : ((update (socketSlot h) (fun io => { io with events := io.events ++ [.complete k] }) w).out.sockets
        h).pendingIoList ≠ [] := by
      rw [sockets_update]
      exact hl
    simp only [sendCompleted, socketCallbacks, if_neg hl'] at hC hr' ⊢
    exact behind_meets hC hr'

/-- Once the error is reported, the list that `socketio_dowork` walks is empty. -/
theorem flush_follows (h : XioHandle) (answers : List SendAnswer) (w : Sys)
    (hC : C → Calm (flush (socketSlot h) (socketCallbacks xio (application perform) h) answers w))
    (hq : C → reported w = true → (w.out.sockets h).pendingIoList = []) :
    Follows C w (flush (socketSlot h) (socketCallbacks xio (application perform) h) answers w) := by
  induction answers generalizing C w with
  | nil => exact Follows.same
  | cons answer answers ih =>
    unfold flush at hC ⊢
    cases hl : ((socketSlot h).get w).1.pendingIoList with
    | nil => exact Follows.same
    | cons pending rest =>
      have hr : C → reported w = false := by
        intro c
        refine Bool.eq_false_iff.mpr fun hr => ?_
        exact absurd (hl.symm.trans (hq c hr)) (List.cons_ne_nil _ _)
      rw [hl] at hC
      cases answer with
      | again => exact Follows.same
      | fatal =>
        simp only at hC ⊢
        let u := update (socketSlot h) (fun io => { io with pendingIoList := rest, ioState := .error }) w
        let v := indicateError (socketSlot h) (socketCallbacks xio (application perform) h) u
        have hu : Still w u := update_still h w fun _ ho => IoState.noConfusion ho
        have he : (u.out.sockets h).ioState = .error := by rw [sockets_update]
        have hgrows := (ih (C := False) v False.elim False.elim).notes
        have hcalm : C → Calm v := fun c => (hC c).before hgrows
        have hfailed := (still_follows hu).trans (indicateError_follows hx hp h u hcalm hr)
        exact hfailed.trans (ih v hC fun c hr' => indicateError_behind h he (hcalm c) (hr c) hr')
      | accepted sendResult =>
        simp only at hC ⊢
        split at hC
        · rename_i hpart
          rw [if_pos hpart]
          exact (still_follows (accept_still h _ w)).trans (still_follows (update_still h _ fun _ ho => ho))
        · rename_i hpart
          rw [if_neg hpart]
          let u := accept (socketSlot h) pending.bytes w
          let v := sendCompleted (socketSlot h) (socketCallbacks xio (application perform) h) pending.onSendComplete u
          let v' := update (socketSlot h) (fun io => { io with pendingIoList := io.pendingIoList.tail }) v
          have hu : Still w u := accept_still h _ w
          have hl' : (u.out.sockets h).pendingIoList ≠ [] := by
            intro hnil
            have hkept : (u.out.sockets h).pendingIoList = pending :: rest := (accept_pending h _ w).trans hl
            exact List.cons_ne_nil _ _ (hkept.symm.trans hnil)
          have hv' : Still v v' := update_still h v fun _ ho => ho
          have hgrows := (ih (C := False) v' False.elim False.elim).notes
          have hcalm : C → Calm v := fun c => (hC c).before (hv'.notes ▸ hgrows)
          have hsent := (still_follows hu).trans (sendCompleted_follows hx hp h pending.onSendComplete u hcalm hr)
          refine (hsent.trans (still_follows hv')).trans (ih v' hC fun c hr' => ?_)
          rw [sockets_update]
          exact sendCompleted_behind h pending.onSendComplete hl' (hcalm c) (hr c) hr'

/-- A chunk in which an error is reported is the last one, if the connection was still silent
    in front of it. -/
theorem receive_follows (h : XioHandle) (received : List RecvAnswer) (w : Sys)
    (ho : (w.out.sockets h).ioState = .opened)
    (hC : C → Calm (receive (socketSlot h) (socketCallbacks xio (application perform) h) received w))
    (hq : C → reported w = true → .failed ∉ received) :
    Follows C w (receive (socketSlot h) (socketCallbacks xio (application perform) h) received w) := by
  induction received generalizing C w with
  | nil => exact Follows.same
  | cons answer answers ih =>
    cases answer with
    | again => exact Follows.same
    | failed =>
      have hr : C → reported w = false := by
        intro c
        refine Bool.eq_false_iff.mpr fun hr => ?_
        exact hq c hr List.mem_cons_self
      exact indicateError_follows hx hp h w hC hr
    | bytes received =>
      unfold receive at hC ⊢
      by_cases hne : received = []
      · rw [if_pos hne]
        exact Follows.same
      · simp only [if_neg hne] at hC ⊢
        have hchunk : ∀ {D : Prop}, (D → Calm (if ((socketSlot h).get w).1.callbacks
              then (socketCallbacks xio (application perform) h).onBytesReceived received w else w)) →
            Follows D w (if ((socketSlot h).get w).1.callbacks
              then (socketCallbacks xio (application perform) h).onBytesReceived received w else w) := by
          intro D hD
          split at hD
          · rename_i hcb
            rw [if_pos hcb]
            exact onBytesReceived_follows hx hp hne w hD
          · rename_i hcb
            rw [if_neg hcb]
            exact Follows.same
        generalize (if ((socketSlot h).get w).1.callbacks
          then (socketCallbacks xio (application perform) h).onBytesReceived received w else w) = v at hC hchunk ⊢
        by_cases hov : ((socketSlot h).get v).1.ioState = .opened
        · rw [if_pos hov] at hC ⊢
          have hgrows := (ih (C := False) v hov False.elim False.elim).notes
          have hv : Follows C w v := hchunk fun c => (hC c).before hgrows
          refine hv.trans_fine (ih v hov (fun c => hC c.1) fun c hr => ?_)
          by_cases hw : reported w = true
          · intro hm
            exact hq c.1 hw (List.mem_cons_of_mem _ hm)
          · exact absurd hov ((hv.hushed c.1 c.2 (fun hw' => absurd hw' hw) hr).closed h)
        · rw [if_neg hov] at hC ⊢
          exact hchunk hC

theorem flush_receive_follows (h : XioHandle) (answers : List SendAnswer) (received : List RecvAnswer) (w : Sys)
    (hC : C → Calm (socketioDowork (socketSlot h) (socketCallbacks xio (application perform) h) answers received w))
    (hq : C → reported w = true →
      (w.out.sockets h).pendingIoList = [] ∧ ((w.out.sockets h).ioState = .opened → .failed ∉ received)) :
    Follows C w (socketioDowork (socketSlot h) (socketCallbacks xio (application perform) h) answers received w) := by
  have hflush := fun {D : Prop} => flush_follows (C := D) hx hp h answers w
  have hidle : (w.out.sockets h).pendingIoList = [] →
      flush (socketSlot h) (socketCallbacks xio (application perform) h) answers w = w := by
    intro hl
    cases answers with
    | nil => exact .refl _
    | cons answer answers =>
      have hl' : ((socketSlot h).get w).1.pendingIoList = [] := hl
      simp only [flush, hl']
  unfold socketioDowork at hC ⊢
  simp only at hC ⊢
  generalize flush (socketSlot h) (socketCallbacks xio (application perform) h) answers w = v at hC hflush hidle ⊢
  by_cases hov : ((socketSlot h).get v).1.ioState = .opened
  · rw [if_pos hov] at hC ⊢
    have hgrows := (receive_follows (C := False) hx hp h received v hov False.elim False.elim).notes
    have hv : Follows C w v := hflush (fun c => (hC c).before hgrows) fun c hr => (hq c hr).1
    refine hv.trans_fine (receive_follows hx hp h received v hov (fun c => hC c.1) fun c hr => ?_)
    by_cases hw : reported w = true
    · have hsame : v = w := hidle (hq c.1 hw).1
      subst hsame
      exact (hq c.1 hw).2 hov
    · exact absurd hov ((hv.hushed c.1 c.2 (fun hw' => absurd hw' hw) hr).closed h)
  · rw [if_neg hov] at hC ⊢
    exact hflush hC fun c hr => (hq c hr).1

end Callbacks

/-! ## Transports over sockets -/

variable (hp : ∀ {C : Prop} (c : ApiCall) (w : Sys), (C → Calm (perform c w)) → Follows C w (perform c w))

include hp

theorem socketXio_sound (hx : Sound xio) : Sound (socketXio xio (application perform)) where
  close h w hC hh := socketioClose_closes hp h w hC hh
  send h bytes w hC hr := by
    have htaken : Still w (takeSend w).2 := ⟨.refl _, .refl _, .refl _, .refl _, .refl _, fun _ h => h⟩
    exact (still_follows htaken).trans (socketioSend_follows hx hp h bytes (some ()) _ _ hC hr)
  openIo h w hC hr := by
    have htaken : Still w (takeOpen w).2 := ⟨.refl _, .refl _, .refl _, .refl _, .refl _, fun _ h => h⟩
    exact (still_follows htaken).trans (socketioOpen_follows hx hp h _ _ hC hr)
  dowork {C} h w hC := by
    have htaken : Still w (takeDowork w).2 := ⟨.refl _, .refl _, .refl _, .refl _, .refl _, fun _ h => h⟩
    let n : Note := .working h (takeDowork w).1.2 (moment (takeDowork w).2)
    have hwork := fun {D : Prop} => flush_receive_follows (C := D) hx hp h (takeDowork w).1.1 (takeDowork w).1.2
      (writeNotes [n] (takeDowork w).2)
    have hgrows := (hwork (D := False) False.elim False.elim).notes
    have hcalm : C → Calm (socketioDowork (socketSlot h) (socketCallbacks xio (application perform) h) (takeDowork w).1.1
        (takeDowork w).1.2 (writeNotes [n] (takeDowork w).2)) := fun c => (hC c).before (List.prefix_append _ _)
    have hn : C → n.Meets := fun c =>
      hcalm c n (hgrows.subset (List.mem_append_right _ (List.mem_singleton_self _)))
    exact (still_follows htaken).trans ((writeNotes_follows [n] _).trans ((hwork hcalm hn).trans (writeNotes_follows _ _)))

theorem transport_sound (n : Nat) : Sound (transport (application perform) n) := by
  induction n with
  | zero =>
    exact ⟨fun h w hC hh => socketioClose_closes hp h w hC hh, fun _ _ _ _ _ => Follows.same, fun _ _ _ => Follows.same,
      fun _ _ _ _ => Follows.same⟩
  | succ n ih => exact socketXio_sound hp ih

end Sockets

/-! ## Runs -/

theorem perform_follows (n : Nat) {C : Prop} (c : ApiCall) (w : Sys) (hC : C → Calm (perform n c w)) :
    Follows C w (perform n c w) := by
  induction n generalizing C c w with
  | zero => exact Follows.same
  | succ n ih =>
    have hx : Sound (transport (application (perform n)) (n + 1)) := transport_sound (fun c w hC => ih c w hC) (n + 1)
    cases c with
    | connect h mqttOptions => exact connect_follows hx h mqttOptions w hC
    | publish msgHandle => exact publish_follows hx msgHandle w hC
    | subscribe packetId subscribeList => exact subscribe_follows hx packetId subscribeList w hC
    | unsubscribe packetId unsubscribeList => exact unsubscribe_follows hx packetId unsubscribeList w hC
    | disconnect callback => exact disconnect_follows hx (fun c w hC => ih c w hC) callback w hC
    | dowork =>
      refine dowork_follows hx (fun c w hC => ih c w hC) w (fun h v hv => ?_) hC
      exact hv _ (List.mem_append_right _ (List.mem_singleton_self _))

theorem performAll_follows (n : Nat) {C : Prop} (calls : List ApiCall) (w : Sys) (hC : C → Calm (performAll n calls w)) :
    Follows C w (performAll n calls w) :=
  calls_follows (fun c w hC => perform_follows n c w hC) calls w hC

theorem created_fine (client : MqttClient) (a : Answers) : Fine (created client a) := by
  refine ⟨fun trace ht => ?_, nofun⟩
  rw [List.mem_singleton.mp ht]
  exact List.Pairwise.nil

theorem silent_run (n : Nat) (calls : List ApiCall) (msgRecv opCallback onErrorCallBack : Bool) (a : Answers)
    (h : Calm (performAll n calls (created (.init msgRecv opCallback onErrorCallBack) a))) :
    Silent (performAll n calls (created (.init msgRecv opCallback onErrorCallBack) a)) := by
  have hrun := performAll_follows n calls (created (.init msgRecv opCallback onErrorCallBack) a) id
  exact (hrun.fine h (created_fine _ a)).silent

/-- The client connects, and then `mqtt_client_dowork` is called once for every chunk. -/
def dialog (chunks : List (List UInt8)) : Sys :=
  performAll 4 (.connect 0 { clientId := some (.ofBlock [0x78]) } :: chunks.map fun _ => .dowork)
    (created (.init true true true)
      ⟨[], [], [true], [.accepted 100], chunks.map fun chunk => ([], [.bytes chunk]), []⟩)

theorem unreported {P : Prop} {m : Moment} (h : m.reported = false) : m.reported = true → P :=
  fun h' => absurd (h.symm.trans h') (by decide)

/-- A PUBLISH without a topic is reported, and the next packet has only begun. -/
theorem dialog_calm : Calm (dialog [[0x30, 2, 0, 0, 0xD0], [0]]) := by
  refine List.forall_iff_forall_mem.mp ?_
  with_unfolding_all
    exact ⟨unreported rfl, unreported rfl, unreported rfl,
      ⟨fun _ => Option.some_ne_none _, fun | 0, _ => ⟨rfl, rfl⟩ | _ + 1, ho => nomatch ho⟩, fun _ h => h,
      -- `close_connection` lets the closed socket work.
      fun _ => ⟨rfl, fun _ => by decide⟩, fun _ h => Bool.false_ne_true h.1,
      unreported rfl, unreported rfl, unreported rfl, unreported rfl,
      -- The byte behind the packet.
      fun _ => ⟨rfl, fun h => absurd h Bool.false_ne_true⟩, fun _ h => Bool.false_ne_true h.1, fun _ h => h⟩

theorem dialog_silent :
    reported (dialog [[0x30, 2, 0, 0, 0xD0], [0]]) = true ∧ Silent (dialog [[0x30, 2, 0, 0, 0xD0], [0]]) :=
  ⟨by decide +kernel, silent_run 4 _ true true true _ dialog_calm⟩

/-- CONNACK; then a PUBLISH without a topic and, in the same chunk, PINGRESP. -/
theorem chunk_goes_on : ¬ Silent (dialog [[0x20, 2, 0, 0], [0x30, 2, 0, 0, 0xD0, 0]]) := by
  intro h
  have htrace := h _ (List.mem_append_right _ (List.mem_singleton_self _))
  revert htrace
  unfold SilentTrace
  decide +kernel

end UMqtt.Client.OverSocket

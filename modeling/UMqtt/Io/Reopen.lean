/-
  UMqtt.Io.Reopen — what a transport that is opened again carries over.

  `Io.Lives` is the sending side. On the receiving side `tlsio_mbedtls_close` leaves the bytes
  that nothing has read in `socket_io_read_bytes`, and `on_io_recv` hands them to mbedtls when the
  transport is opened again. A run of a TLS instance is a list of the steps that its functions are
  made of, in any order: a call of `on_io_recv` is such a list (`onIoRecv_steps`), and so are a
  `socketio_dowork` of the socket under it (`socketioDowork_steps`) and a run of
  `tlsio_mbedtls_open` (`opening_steps`). `received` is what the socket has delivered since the
  last open, `returned` what `on_io_recv` has copied since.

  Proved (`reopened_fresh`): where the pending list is empty at each open, and the read buffer too,
  nothing of a previous life is handed on.
-/

import UMqtt.Io.Lives
import UMqtt.Io.TlsOpen

namespace UMqtt.Io.Reopen

open UMqtt.Lib UMqtt.Crt UMqtt.Io.Lives

/-! ## The lives of a TLS transport -/

inductive TlsStep where
  /-- `tlsio_mbedtls_open`, up to the handshake. -/
  | openIo (connects : Bool)
  | callback (o : Outcome)
  /-- `on_io_recv`, behind its loop. -/
  | recv (sz : Nat)
  /-- `on_io_send`. -/
  | send (accepted ownerCloses : Bool)
  | handshake (result : Int) (sends : List (Bool × Bool)) (ownerCloses : Bool)
  | close
  deriving DecidableEq, Repr

structure TlsLife where
  tls : TlsIoInstance
  received : List UInt8
  returned : List UInt8
  deriving DecidableEq, Repr

def arrived (tls : TlsIoInstance) : Outcome → List UInt8
  | .bytes first rest _ _ => if tls.socketIo then first :: rest else []
  | _ => []

def TlsStep.opens (tls : TlsIoInstance) : TlsStep → Bool
  | .openIo connects => connects && decide (tls.tlsioState = .notOpen)
  | _ => false

def opening (tls : TlsIoInstance) : TlsOpening := ⟨.handshake, tls, false, []⟩

def TlsStep.run (e : TlsStep) (w : TlsLife) : TlsLife :=
  match e with
  | .openIo connects =>
    let tls := (TlsOpening.begin connects w.tls).2.tls
    if (TlsStep.openIo connects).opens w.tls then ⟨tls, [], []⟩ else { w with tls := tls }
  | .callback o => { w with tls := deliver o w.tls, received := w.received ++ arrived w.tls o }
  | .recv sz =>
    let r := takeBytes sz w.tls
    { w with tls := r.2.2, returned := w.returned ++ r.2.1 }
  | .send accepted ownerCloses => { w with tls := ((opening w.tls).onIoSend accepted ownerCloses).tls }
  | .handshake result sends ownerCloses => { w with tls := ((opening w.tls).handshakeDone result sends ownerCloses).tls }
  | .close => { w with tls := (tlsioMbedtlsClose w.tls).2 }

def runSteps (steps : List TlsStep) (w : TlsLife) : TlsLife := steps.foldl (fun w e => e.run w) w

def createdTls : TlsLife := ⟨⟨.notOpen, [], false⟩, [], []⟩

/-- Nothing is unread when the socket is opened. -/
def Emptied : List TlsStep → TlsLife → Prop
  | [], _ => True
  | e :: steps, w => (e.opens w.tls = true → w.tls.socketIoReadBytes = []) ∧ Emptied steps (e.run w)

instance (steps : List TlsStep) : ∀ w : TlsLife, Decidable (Emptied steps w) := by
  induction steps with
  | nil => exact fun _ => isTrue trivial
  | cons e steps ih => exact fun w => @instDecidableAnd _ _ _ (ih _)

/-! ## What is read -/

/-- What has been read and what is still to be read has arrived, in this order. -/
def Fresh (w : TlsLife) : Prop := (w.returned ++ w.tls.socketIoReadBytes).Sublist w.received

theorem onIoSend_bytes (accepted closes : Bool) (w : TlsOpening) :
    (w.onIoSend accepted closes).tls.socketIoReadBytes = w.tls.socketIoReadBytes := by
  unfold TlsOpening.onIoSend
  split <;> exact owner_bytes _ _

theorem tlsioMbedtlsSend_bytes (send : Bool × Bool) (w : TlsOpening) :
    (w.tlsioMbedtlsSend send).tls.socketIoReadBytes = w.tls.socketIoReadBytes := by
  unfold TlsOpening.tlsioMbedtlsSend
  split
  · exact onIoSend_bytes _ _ w
  · rfl

theorem handshakeDone_bytes (result : Int) (sends : List (Bool × Bool)) (closes : Bool) (w : TlsOpening) :
    (w.handshakeDone result sends closes).tls.socketIoReadBytes = w.tls.socketIoReadBytes := by
  have hsends : ∀ (sends : List (Bool × Bool)) (w : TlsOpening),
      (sends.foldl (fun w send => TlsOpening.tlsioMbedtlsSend send w) w).tls.socketIoReadBytes = w.tls.socketIoReadBytes := by
    intro sends
    induction sends with
    | nil => exact fun _ => rfl
    | cons send sends ih => exact fun w => (ih _).trans (tlsioMbedtlsSend_bytes send w)
  unfold TlsOpening.handshakeDone
  split
  · exact (owner_bytes _ _).trans (hsends _ _)
  · rfl

theorem close_bytes (tls : TlsIoInstance) : (tlsioMbedtlsClose tls).2.socketIoReadBytes = tls.socketIoReadBytes := by
  unfold tlsioMbedtlsClose
  split <;> rfl

theorem begin_bytes (connects : Bool) (tls : TlsIoInstance) :
    (TlsOpening.begin connects tls).2.tls.socketIoReadBytes = tls.socketIoReadBytes := by
  unfold TlsOpening.begin
  split
  · rfl
  · split <;> rfl

/-- A callback stores what it delivers, or drops it. -/
theorem deliver_bytes (o : Outcome) (tls : TlsIoInstance) :
    ∃ stored, (deliver o tls).socketIoReadBytes = tls.socketIoReadBytes ++ stored ∧ stored.Sublist (arrived tls o) := by
  cases o with
  | sent closes => exact ⟨[], by simp [deliver, owner_bytes], List.nil_sublist _⟩
  | bytes first rest reallocs closes =>
    simp only [deliver, arrived, onUnderlyingIoBytesReceived]
    cases tls.socketIo with
    | false => exact ⟨[], by simp, List.nil_sublist _⟩
    | true =>
      cases reallocs with
      | false => exact ⟨[], by simp [owner_bytes], List.nil_sublist _⟩
      | true => exact ⟨first :: rest, rfl, List.Sublist.refl _⟩
  | error closes =>
    refine ⟨[], ?_, List.nil_sublist _⟩
    simp only [deliver, onUnderlyingIoError, List.append_nil]
    split
    · exact owner_bytes _ _
    · exact owner_bytes _ _
    · exact owner_bytes _ _
    · rfl

/-- What `on_io_recv` copies is the front of what is there. -/
theorem takeBytes_bytes (sz : Nat) (tls : TlsIoInstance) :
    (takeBytes sz tls).2.1 ++ (takeBytes sz tls).2.2.socketIoReadBytes = tls.socketIoReadBytes := by
  unfold takeBytes
  exact List.take_append_drop _ _

theorem run_fresh (e : TlsStep) {w : TlsLife} (he : e.opens w.tls = true → w.tls.socketIoReadBytes = []) (hw : Fresh w) :
    Fresh (e.run w) := by
  unfold Fresh at hw ⊢
  cases e with
  | openIo connects =>
    simp only [TlsStep.run]
    split
    · rename_i h
      rw [begin_bytes, he h]
      exact List.Sublist.refl _
    · rw [begin_bytes]
      exact hw
  | callback o =>
    obtain ⟨stored, hstored, hsub⟩ := deliver_bytes o w.tls
    simp only [TlsStep.run]
    rw [hstored, ← List.append_assoc]
    exact hw.append hsub
  | recv sz =>
    simp only [TlsStep.run]
    rw [List.append_assoc, takeBytes_bytes]
    exact hw
  | send accepted closes =>
    simp only [TlsStep.run]
    rw [onIoSend_bytes]
    exact hw
  | handshake result sends closes =>
    simp only [TlsStep.run]
    rw [handshakeDone_bytes]
    exact hw
  | close =>
    simp only [TlsStep.run]
    rw [close_bytes]
    exact hw

theorem runSteps_fresh (steps : List TlsStep) {w : TlsLife} (he : Emptied steps w) (hw : Fresh w) : Fresh (runSteps steps w) := by
  induction steps generalizing w with
  | nil => exact hw
  | cons e steps ih => exact ih he.2 (run_fresh e he.1 hw)

theorem Fresh.returned {w : TlsLife} (h : Fresh w) : w.returned.Sublist w.received :=
  (List.sublist_append_left _ _).trans h

/-! ## What the steps stand for -/

theorem runSteps_append (steps steps' : List TlsStep) (w : TlsLife) :
    runSteps (steps ++ steps') w = runSteps steps' (runSteps steps w) := List.foldl_append

/-- The outcomes of an `xio_dowork`. -/
theorem callbacks_steps (os : List Outcome) (w : TlsLife) :
    (runSteps (os.map .callback) w).tls = xioDowork os w.tls ∧ (runSteps (os.map .callback) w).returned = w.returned := by
  induction os generalizing w with
  | nil => exact ⟨rfl, rfl⟩
  | cons o os ih => exact ih _

/-- A call of `on_io_recv` that returns: what it copies is what is added to `returned`. -/
theorem onIoRecv_steps {works : Nat → List Outcome} {sz fuel : Nat} {w : TlsLife} {r : Int × List UInt8 × TlsIoInstance}
    (h : onIoRecv works sz fuel w.tls = some r) :
    ∃ steps, (runSteps steps w).tls = r.2.2 ∧ (runSteps steps w).returned = w.returned ++ r.2.1 := by
  obtain ⟨tls, htls, rfl⟩ := Option.map_eq_some_iff.mp h
  obtain ⟨n, hn⟩ := whileBreak_rounds _ _ _ htls
  rw [rounds_xioDowork] at hn
  obtain ⟨hworked, hreturned⟩ := callbacks_steps ((List.range n).flatMap works) w
  refine ⟨((List.range n).flatMap works).map .callback ++ [.recv sz], ?_⟩
  rw [runSteps_append, hn, ← hworked, ← hreturned]
  exact ⟨rfl, rfl⟩

/-- The `socketio_dowork` of the socket under the transport. -/
theorem socketioDowork_steps {κ : Type} (answers : List SendAnswer) (received : List RecvAnswer) {socket : TlsWorld κ}
    (hl : Live socket) {w : TlsLife} (hw : w.tls = socket.tls) :
    ∃ steps, (runSteps steps w).tls = (socketioDowork socketSlot tlsCallbacks answers received socket).tls := by
  obtain ⟨os, hos⟩ := socketioDowork_outcomes answers received hl
  refine ⟨os.map .callback, ?_⟩
  rw [hos, ← hw]
  exact (callbacks_steps os w).1

theorem onIoSend_tls (accepted closes : Bool) (w : TlsOpening) :
    (w.onIoSend accepted closes).tls = ((opening w.tls).onIoSend accepted closes).tls := by
  unfold TlsOpening.onIoSend opening
  by_cases h : accepted = true ∧ w.tls.socketIo = true
  · rw [if_pos h, if_pos h]
  · rw [if_neg h, if_neg h]

theorem handshakeDone_tls (result : Int) (sends : List (Bool × Bool)) (closes : Bool) (w : TlsOpening) :
    (w.handshakeDone result sends closes).tls = ((opening w.tls).handshakeDone result sends closes).tls := by
  have hsends : ∀ (sends : List (Bool × Bool)) {w w' : TlsOpening}, w.tls = w'.tls →
      (sends.foldl (fun w send => TlsOpening.tlsioMbedtlsSend send w) w).tls =
        (sends.foldl (fun w send => TlsOpening.tlsioMbedtlsSend send w) w').tls := by
    intro sends
    induction sends with
    | nil => exact fun h => h
    | cons send sends ih =>
      intro w w' h
      refine ih ?_
      simp only [TlsOpening.tlsioMbedtlsSend, h]
      split
      · rw [onIoSend_tls, h, ← onIoSend_tls]
      · exact h
  unfold TlsOpening.handshakeDone
  split
  · exact congrArg (owner closes) (hsends sends rfl)
  · rfl

/-- An event of `tlsio_mbedtls_open`. -/
theorem opening_step {e : OpenEvent} {w w' : TlsOpening} (h : w.step e = some w') :
    ∃ steps, ∀ v : TlsLife, v.tls = w.tls → (runSteps steps v).tls = w'.tls := by
  have htake : ∀ (sz : Nat) (v : TlsLife), v.tls = w.tls → (runSteps [.recv sz] v).tls = (w.finishRead sz).tls := by
    intro sz v hv
    show (takeBytes sz v.tls).2.2 = (takeBytes sz w.tls).2.2
    rw [hv]
  unfold TlsOpening.step at h
  split at h
  · rename_i sz _
    split at h
    · cases h
      exact ⟨[], fun v hv => hv⟩
    · cases h
      exact ⟨[.recv sz], htake sz⟩
  · rename_i o _
    cases h
    refine ⟨[.callback o], fun v hv => ?_⟩
    rw [(TlsOpening.deliver_tls o w).1, ← hv]
    rfl
  · rename_i sz _
    split at h
    · cases h
      exact ⟨[.recv sz], htake sz⟩
    · cases h
      exact ⟨[], fun v hv => hv⟩
  · rename_i accepted closes _
    cases h
    refine ⟨[.send accepted closes], fun v hv => ?_⟩
    rw [onIoSend_tls, ← hv]
    rfl
  · rename_i result sends closes _
    split at h
    · cases h
      exact ⟨[], fun v hv => hv⟩
    · cases h
      refine ⟨[.handshake result sends closes], fun v hv => ?_⟩
      rw [handshakeDone_tls, ← hv]
      rfl
  · cases h

/-- A run of `tlsio_mbedtls_open`. -/
theorem opening_steps {connects : Bool} {es : List OpenEvent} {v : TlsLife} {r : Nat × TlsOpening}
    (h : TlsOpening.tlsioMbedtlsOpen connects es v.tls = some r) :
    ∃ steps, (runSteps (.openIo connects :: steps) v).tls = r.2.tls := by
  have hrun : ∀ (es : List OpenEvent) (w w' : TlsOpening), TlsOpening.run es w = some w' →
      ∀ v : TlsLife, v.tls = w.tls → ∃ steps, (runSteps steps v).tls = w'.tls := by
    intro es
    induction es with
    | nil =>
      intro w w' h v hv
      cases h
      exact ⟨[], hv⟩
    | cons e es ih =>
      intro w w' h v hv
      rw [TlsOpening.run, List.foldlM_cons] at h
      obtain ⟨u, hu, hrest⟩ := Option.bind_eq_some_iff.mp h
      obtain ⟨steps, hsteps⟩ := opening_step hu
      obtain ⟨steps', hsteps'⟩ := ih u w' hrest _ (hsteps v hv)
      exact ⟨steps ++ steps', by rw [runSteps_append]; exact hsteps'⟩
  obtain ⟨w', hw', rfl⟩ := Option.map_eq_some_iff.mp h
  refine hrun es _ w' hw' _ ?_
  simp only [TlsStep.run]
  split <;> rfl

/-! ## Every life -/

/-- While the pending list is empty at each open, no buffer goes behind one that was dropped, and
    nothing is unread when the socket is opened, no life carries anything of another. -/
theorem reopened_fresh {κ : Type} (script : List (List (LifeCall κ))) (mallocs : Mallocs) (n : Nat)
    (calls : List (LifeCall κ)) (steps : List TlsStep) :
    ((∀ note ∈ (performAll n calls (created script mallocs)).notes, note.Orderly) →
      (∀ note ∈ (performAll n calls (created script mallocs)).notes, Carries note.moment) ∧
        Carries (moment (performAll n calls (created script mallocs)))) ∧
    (Emptied steps createdTls →
      (runSteps steps createdTls).returned.Sublist (runSteps steps createdTls).received) := by
  refine ⟨?_, ?_⟩
  · intro horderly
    have hkept := (performAll_follows n calls (created script mallocs)).kept horderly (created_kept script mallocs)
    exact ⟨hkept.carries, hkept.fit.carries⟩
  · intro hemptied
    exact (runSteps_fresh steps hemptied (List.Sublist.refl _)).returned

/-- Two lives of each transport, the first with a buffer sent in a callback; nothing is left of it. -/
theorem reopened_fresh_twice :
    ((∀ note ∈ (performAll 3 [.openIo true, .send [1, 2] (some 0) (.accepted 1), .dowork [.accepted 1, .accepted 1] [],
          .close false, .openIo true, .send [3] none (.accepted 1)] (created [[], [.send [4] none .again]] [])).notes,
        Carries note.moment) ∧
      Carries (moment (performAll 3 [.openIo true, .send [1, 2] (some 0) (.accepted 1), .dowork [.accepted 1, .accepted 1] [],
          .close false, .openIo true, .send [3] none (.accepted 1)] (created [[], [.send [4] none .again]] [])))) ∧
    (runSteps [.openIo true, .callback (.bytes 7 [8] true false), .recv 2, .close, .openIo true,
        .callback (.bytes 9 [] true false), .recv 5] createdTls).returned.Sublist
      (runSteps [.openIo true, .callback (.bytes 7 [8] true false), .recv 2, .close, .openIo true,
        .callback (.bytes 9 [] true false), .recv 5] createdTls).received :=
  ⟨(reopened_fresh (κ := Nat) _ _ _ _ []).1 (by decide +kernel), (reopened_fresh (κ := Nat) [] [] 0 [] _).2 (by decide)⟩

/-- The byte still pending at the close is the first one of the next connection, and the byte that
    was not read is the first one that its handshake reads. -/
theorem reopened_carries :
    ¬ Carries (moment (performAll 1 [.openIo true, .send [1, 2] none (.accepted 1), .close false, .openIo true,
        .dowork [.accepted 1] []] (created (κ := Nat) [] []))) ∧
    (runSteps [.openIo true, .callback (.bytes 7 [8] true false), .recv 1, .close, .openIo true, .recv 1] createdTls).returned = [8] ∧
    (runSteps [.openIo true, .callback (.bytes 7 [8] true false), .recv 1, .close, .openIo true, .recv 1] createdTls).received = [] :=
  ⟨by decide +kernel, rfl, rfl⟩

end UMqtt.Io.Reopen

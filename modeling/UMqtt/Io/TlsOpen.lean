/-
  UMqtt.Io.TlsOpen — opening the TLS transport (uMQTT/ports/src/tlsio_mbedtls.c).

  `tlsio_mbedtls_open` calls `xio_open`, and all of the handshake runs inside the callback
  that `socketio_open` makes. From there on the run is a list of `OpenEvent`s: what mbedtls
  asks of `on_io_recv` and `on_io_send`, the callbacks of the socket while `on_io_recv` waits
  for bytes, and the result of each `mbedtls_ssl_handshake`. `control` is the place that the
  code is in; an event that cannot come there has no step. The owner closes the transport in
  its callbacks or not, as `mqtt_client.c` does, and it may send when it hears of an open.

  `reports` are the calls of `on_io_open_complete`, each with whether the socket had then
  been open ever since `xio_open`; `failed` is a ghost: the socket has reported an error, or
  refused a write, since then.

  Proved: the open is reported once and truthfully exactly when no handshake ends after
  something went wrong with the socket that its end does not look at
  (`tlsioMbedtlsOpen_truthful_iff`).
-/

import UMqtt.Io.TlsIo

namespace UMqtt.Io

open UMqtt.Lib UMqtt.Crt

structure OpenReport where
  result : OpenResult
  live : Bool
  deriving DecidableEq, Repr

/-- In `mbedtls_ssl_handshake`, in the loop of `on_io_recv`, or behind the handshake. -/
inductive OpenControl where
  | handshake
  | receiving (sz : Nat)
  | returned
  deriving DecidableEq, Repr

structure TlsOpening where
  control : OpenControl
  tls : TlsIoInstance
  failed : Bool
  reports : List OpenReport
  deriving DecidableEq, Repr

inductive OpenEvent where
  /-- mbedtls calls `on_io_recv`. -/
  | read (sz : Nat)
  /-- The socket calls back, in the `xio_dowork` of `on_io_recv`. -/
  | callback (o : Outcome)
  /-- That `xio_dowork` returns. -/
  | worked
  /-- mbedtls calls `on_io_send`, which the socket takes or refuses. -/
  | write (accepted ownerCloses : Bool)
  /-- `mbedtls_ssl_handshake` returns; what the owner does when it hears that the transport is
      open is a number of sends, and a close. -/
  | handshake (result : Int) (sends : List (Bool × Bool)) (ownerCloses : Bool)
  deriving DecidableEq, Repr

namespace TlsOpening

/-- The socket has been open, without a failure, since `xio_open`. -/
def live (w : TlsOpening) : Bool := w.tls.socketIo && !w.failed

/-! ## The callbacks -/

def indicateOpenComplete (result : OpenResult) (w : TlsOpening) : TlsOpening :=
  { w with reports := w.reports ++ [⟨result, w.live⟩] }

def onUnderlyingIoError (ownerCloses : Bool) (w : TlsOpening) : TlsOpening :=
  let w := { w with failed := true }
  match w.tls.tlsioState with
  | .openingUnderlyingIo | .inHandshake =>
    let w := indicateOpenComplete .error { w with tls := { w.tls with tlsioState := .notOpen, socketIo := false } }
    { w with tls := owner ownerCloses w.tls }
  | _ => { w with tls := Io.onUnderlyingIoError ownerCloses w.tls }

def deliver (o : Outcome) (w : TlsOpening) : TlsOpening :=
  match o with
  | .error ownerCloses => onUnderlyingIoError ownerCloses w
  | o => { w with tls := Io.deliver o w.tls }

/-- A socket that is closed takes nothing. -/
def onIoSend (accepted ownerCloses : Bool) (w : TlsOpening) : TlsOpening :=
  if accepted ∧ w.tls.socketIo then { w with tls := owner ownerCloses w.tls }
  else { w with failed := true, tls := owner ownerCloses { w.tls with tlsioState := .error } }

def finishRead (sz : Nat) (w : TlsOpening) : TlsOpening := { w with control := .handshake, tls := (takeBytes sz w.tls).2.2 }

/-- `tlsio_mbedtls_send`, of what mbedtls writes in one piece. -/
def tlsioMbedtlsSend (send : Bool × Bool) (w : TlsOpening) : TlsOpening :=
  if w.tls.tlsioState = .opened then onIoSend send.1 send.2 w else w

/-! ## tlsio_mbedtls_open -/

def mbedtlsErrSslWantWrite : Int := -0x6880

/-- `on_underlying_io_open_complete` behind the loop. The owner cannot do anything to a
    transport that is NOT_OPEN. -/
def handshakeDone (result : Int) (sends : List (Bool × Bool)) (ownerCloses : Bool) (w : TlsOpening) : TlsOpening :=
  if result = 0 then
    let w := indicateOpenComplete .ok { w with control := .returned, tls := { w.tls with tlsioState := .opened } }
    let w := sends.foldl (fun w send => tlsioMbedtlsSend send w) w
    { w with tls := owner ownerCloses w.tls }
  else
    indicateOpenComplete .error
      { w with control := .returned, tls := { w.tls with tlsioState := .notOpen, socketIo := false } }

def step (w : TlsOpening) (e : OpenEvent) : Option TlsOpening :=
  match w.control, e with
  | .handshake, .read sz =>
    if w.tls.socketIoReadBytes = [] then some { w with control := .receiving sz } else some (finishRead sz w)
  | .receiving _, .callback o => some (deliver o w)
  | .receiving sz, .worked =>
    if w.tls.tlsioState = .opened ∨ w.tls.socketIoReadBytes ≠ [] then some (finishRead sz w) else some w
  | .handshake, .write accepted ownerCloses => some (onIoSend accepted ownerCloses w)
  | .handshake, .handshake result sends ownerCloses =>
    if result = mbedtlsErrSslWantRead ∨ result = mbedtlsErrSslWantWrite then some w
    else some (handshakeDone result sends ownerCloses w)
  | _, _ => none

def run (es : List OpenEvent) (w : TlsOpening) : Option TlsOpening := es.foldlM step w

/-- The return value, and where the handshake starts if it does. -/
def begin (connects : Bool) (tls : TlsIoInstance) : Nat × TlsOpening :=
  if tls.tlsioState ≠ .notOpen then (failure, ⟨.returned, tls, false, []⟩)
  else if connects then (0, ⟨.handshake, { tls with tlsioState := .inHandshake, socketIo := true }, false, []⟩)
  else
    (failure, indicateOpenComplete .error ⟨.returned, { tls with tlsioState := .notOpen, socketIo := false }, false, []⟩)

/-- `none` when the events are not those of a run. -/
def tlsioMbedtlsOpen (connects : Bool) (es : List OpenEvent) (tls : TlsIoInstance) : Option (Nat × TlsOpening) :=
  (run es (begin connects tls).2).map (fun w => ((begin connects tls).1, w))

/-! ## What the events stand for -/

theorem deliver_tls (o : Outcome) (w : TlsOpening) :
    (deliver o w).tls = Io.deliver o w.tls ∧ (deliver o w).control = w.control := by
  cases o with
  | sent closes => exact ⟨rfl, rfl⟩
  | bytes first rest reallocs closes => exact ⟨rfl, rfl⟩
  | error closes =>
    simp only [deliver, onUnderlyingIoError, Io.deliver, Io.onUnderlyingIoError]
    cases w.tls.tlsioState <;> exact ⟨rfl, rfl⟩

theorem run_append {es es' : List OpenEvent} {w v : TlsOpening} (h : run es w = some v) : run (es ++ es') w = run es' v := by
  simp only [run, List.foldlM_append] at h ⊢
  rw [h]
  rfl

/-- The outcomes of an `xio_dowork`, while `on_io_recv` waits. -/
theorem run_callbacks (os : List Outcome) {sz : Nat} {w : TlsOpening} (hc : w.control = .receiving sz) :
    ∃ v, run (os.map .callback) w = some v ∧ v.control = .receiving sz ∧ v.tls = xioDowork os w.tls := by
  induction os generalizing w with
  | nil => exact ⟨w, rfl, hc, rfl⟩
  | cons o os ih =>
    obtain ⟨htls, hctl⟩ := deliver_tls o w
    obtain ⟨v, hv, hvc, hvt⟩ := ih (hctl.trans hc)
    refine ⟨v, ?_, hvc, hvt.trans (by rw [htls, xioDowork_cons])⟩
    have hstep : step w (.callback o) = some (deliver o w) := by
      unfold step; rw [hc]
    rw [run, List.map_cons, List.foldlM_cons, hstep]
    exact hv

/-- The loop of `on_io_recv` is a run. -/
theorem run_waiting {works : Nat → List Outcome} {sz fuel : Nat} {w : TlsOpening} {tls : TlsIoInstance}
    (h : whileBreak (fun io => io.socketIoReadBytes.isEmpty) (fun io => io.tlsioState = .opened) xioDowork fuel works w.tls = some tls)
    (hc : w.control = .receiving sz) (hb : w.tls.socketIoReadBytes = []) :
    ∃ es v, run es w = some v ∧ v.control = .handshake ∧ v.tls = (takeBytes sz tls).2.2 := by
  induction fuel generalizing works w with
  | zero => cases h
  | succ fuel ih =>
    obtain ⟨v, hv, hvc, hvt⟩ := run_callbacks (works 0) hc
    have hworked : step v .worked =
        if v.tls.tlsioState = .opened ∨ v.tls.socketIoReadBytes ≠ [] then some (finishRead sz v) else some v := by
      unfold step; rw [hvc]
    rw [whileBreak, if_pos (by rw [hb]; rfl), ← hvt] at h
    by_cases ho : v.tls.tlsioState = .opened
    · rw [if_pos (decide_eq_true ho)] at h
      refine ⟨(works 0).map .callback ++ [.worked], finishRead sz v, ?_, rfl, by rw [← Option.some.inj h]; rfl⟩
      rw [run_append hv, run, List.foldlM_cons, hworked, if_pos (Or.inl ho)]
      rfl
    · rw [if_neg (by simpa using ho)] at h
      by_cases hne : v.tls.socketIoReadBytes = []
      · obtain ⟨es, u, hu, huc, hut⟩ := ih h hvc hne
        refine ⟨(works 0).map .callback ++ (.worked :: es), u, ?_, huc, hut⟩
        rw [run_append hv, run, List.foldlM_cons, hworked, if_neg (by tauto)]
        exact hu
      · cases fuel with
        | zero => cases h
        | succ fuel =>
          rw [whileBreak, if_neg (by simpa using hne)] at h
          refine ⟨(works 0).map .callback ++ [.worked], finishRead sz v, ?_, rfl, by rw [← Option.some.inj h]; rfl⟩
          rw [run_append hv, run, List.foldlM_cons, hworked, if_pos (Or.inr hne)]
          rfl

/-- A call of `on_io_recv` that returns is a run. -/
theorem run_onIoRecv {works : Nat → List Outcome} {sz fuel : Nat} {w : TlsOpening} {r : Int × List UInt8 × TlsIoInstance}
    (h : onIoRecv works sz fuel w.tls = some r) (hc : w.control = .handshake) :
    ∃ es v, run (.read sz :: es) w = some v ∧ v.control = .handshake ∧ v.tls = r.2.2 := by
  obtain ⟨tls, htls, rfl⟩ := Option.map_eq_some_iff.mp h
  have hread : step w (.read sz) =
      if w.tls.socketIoReadBytes = [] then some { w with control := .receiving sz } else some (finishRead sz w) := by
    unfold step; rw [hc]
  by_cases hb : w.tls.socketIoReadBytes = []
  · obtain ⟨es, v, hv, hvc, hvt⟩ := @run_waiting works sz fuel { w with control := .receiving sz } tls htls rfl hb
    refine ⟨es, v, ?_, hvc, hvt⟩
    rw [run, List.foldlM_cons, hread, if_pos hb]
    exact hv
  · cases fuel with
    | zero => cases htls
    | succ fuel =>
      rw [whileBreak, if_neg (by simpa using hb)] at htls
      refine ⟨[], finishRead sz w, ?_, rfl, by rw [← Option.some.inj htls]; rfl⟩
      rw [run, List.foldlM_cons, hread, if_neg hb]
      rfl

/-- What `socketio_dowork` does to the transport is a run. -/
theorem run_socketioDowork {κ : Type} (answers : List SendAnswer) (received : List RecvAnswer) {socket : TlsWorld κ}
    (hl : Live socket) {sz : Nat} {w : TlsOpening} (hc : w.control = .receiving sz) (hw : w.tls = socket.tls) :
    ∃ es v, run es w = some v ∧ v.control = .receiving sz ∧
      v.tls = (socketioDowork socketSlot tlsCallbacks answers received socket).tls := by
  obtain ⟨os, hos⟩ := socketioDowork_outcomes answers received hl
  obtain ⟨v, hv, hvc, hvt⟩ := run_callbacks os hc
  exact ⟨_, v, hv, hvc, by rw [hvt, hos, hw]⟩

/-! ## What goes wrong -/

/-- The open is reported once, and OPEN is neither reported nor set by it on a socket that was
    closed or failed. -/
structure Truthful (before : TlsIoInstance) (w : TlsOpening) : Prop where
  once : w.reports.length ≤ 1
  ok : ∀ r ∈ w.reports, r.result = .ok → r.live = true
  opened : before.tlsioState ≠ .opened → w.tls.tlsioState = .opened → w.live = true

def isError : OpenEvent → Bool
  | .callback (.error _) => true
  | _ => false

/-- The socket fails, refuses bytes or is closed by the owner. -/
def disturbs : OpenEvent → Bool
  | .callback (.sent ownerCloses) => ownerCloses
  | .callback (.bytes _ _ reallocs ownerCloses) => !reallocs && ownerCloses
  | .callback (.error _) => true
  | .write accepted ownerCloses => !accepted || ownerCloses
  | _ => false

/-- The state does not stay IN_HANDSHAKE. -/
def unsettles : OpenEvent → Bool
  | .callback (.bytes _ _ reallocs _) => !reallocs
  | e => disturbs e

/-- An underlying error comes while the state is IN_HANDSHAKE, which is when it is reported. -/
def errorReported : List OpenEvent → Bool
  | [] => false
  | e :: es => isError e || (!unsettles e && errorReported es)

/-- What comes before a handshake that ends: no underlying error that is reported, and before
    one that ends well nothing that disturbs the socket. -/
def Undisturbed (es : List OpenEvent) : Prop :=
  ∀ before result sends ownerCloses, es = before ++ [.handshake result sends ownerCloses] →
    result ≠ mbedtlsErrSslWantRead → result ≠ mbedtlsErrSslWantWrite →
      errorReported before = false ∧ (result = 0 → ∀ e ∈ before, disturbs e = false)

theorem errorReported_snoc (es : List OpenEvent) (e : OpenEvent) :
    errorReported (es ++ [e]) = true ↔ errorReported es = true ∨ (∀ x ∈ es, unsettles x = false) ∧ isError e = true := by
  induction es with
  | nil => simp [errorReported]
  | cons x es ih =>
    simp only [List.cons_append, errorReported, Bool.or_eq_true, Bool.and_eq_true, Bool.not_eq_true', ih, List.forall_mem_cons]
    by_cases hx : isError x
    · simp [hx]
    · simp only [hx]
      tauto

/-- An underlying error takes the transport out of its handshake. -/
theorem unsettles_of_isError {e : OpenEvent} (h : isError e = true) : unsettles e = true ∧ disturbs e = true := by
  unfold isError at h
  split at h
  · exact ⟨rfl, rfl⟩
  · cases h

theorem errorReported_unsettled {es : List OpenEvent} (h : errorReported es = true) : ∃ e ∈ es, unsettles e = true := by
  induction es with
  | nil => cases h
  | cons e es ih =>
    simp only [errorReported, Bool.or_eq_true, Bool.and_eq_true] at h
    rcases h with h | ⟨-, h⟩
    · exact ⟨e, List.mem_cons_self, (unsettles_of_isError h).1⟩
    · obtain ⟨x, hx, hu⟩ := ih h
      exact ⟨x, List.mem_cons_of_mem _ hx, hu⟩

/-! ## The handshake -/

def Inside (tls : TlsIoInstance) : Prop :=
  tls.tlsioState = .inHandshake ∧ tls.socketIo = true ∨ tls.tlsioState = .error ∨
    tls.tlsioState = .notOpen ∧ tls.socketIo = false

/-- The handshake has not ended, and the events tell what has become of the transport. -/
structure Underway (es : List OpenEvent) (w : TlsOpening) : Prop where
  running : w.control ≠ .returned
  live : w.live = true ↔ ∀ e ∈ es, disturbs e = false
  settled : w.tls.tlsioState = .inHandshake ↔ ∀ e ∈ es, unsettles e = false
  inside : Inside w.tls
  reports : w.reports = if errorReported es then [⟨.error, false⟩] else []

/-- What an event does that does not end the handshake. -/
structure Moves (e : OpenEvent) (w w' : TlsOpening) : Prop where
  live : w'.live = true ↔ w.live = true ∧ disturbs e = false
  settled : w'.tls.tlsioState = .inHandshake ↔ w.tls.tlsioState = .inHandshake ∧ unsettles e = false
  inside : Inside w'.tls
  reports : w'.reports = if w.tls.tlsioState = .inHandshake ∧ isError e = true then w.reports ++ [⟨.error, false⟩] else w.reports

/-- An event that leaves the state and the socket alone. -/
theorem moves_quietly {e : OpenEvent} {w w' : TlsOpening} (hin : Inside w.tls) (hd : disturbs e = false) (hu : unsettles e = false)
    (hstate : w'.tls.tlsioState = w.tls.tlsioState) (hsocket : w'.tls.socketIo = w.tls.socketIo) (hfailed : w'.failed = w.failed)
    (hreports : w'.reports = w.reports) : Moves e w w' := by
  have he : isError e ≠ true := by
    intro he
    rw [(unsettles_of_isError he).1] at hu; cases hu
  refine ⟨?_, ?_, ?_, ?_⟩
  · simp only [TlsOpening.live, hsocket, hfailed, hd, and_true]
  · simp only [hstate, hu, and_true]
  · simpa only [Inside, hstate, hsocket] using hin
  · rw [hreports, if_neg fun h => he h.2]

/-- The owner's callback, during the handshake. -/
theorem owner_inside (closes : Bool) {tls : TlsIoInstance} (h : Inside tls) :
    Inside (owner closes tls) ∧ ((owner closes tls).socketIo = true ↔ tls.socketIo = true ∧ closes = false) ∧
      ((owner closes tls).tlsioState = .inHandshake ↔ tls.tlsioState = .inHandshake ∧ closes = false) := by
  cases closes with
  | false => exact ⟨h, by simp, by simp⟩
  | true =>
    rcases h with ⟨h, hs⟩ | h | ⟨h, hs⟩
    · rw [owner_true (by simp [h]) (by simp [h])]
      exact ⟨Or.inr (Or.inr ⟨rfl, rfl⟩), by simp, by simp⟩
    · rw [owner_true (by simp [h]) (by simp [h])]
      exact ⟨Or.inr (Or.inr ⟨rfl, rfl⟩), by simp, by simp⟩
    · have howner : owner true tls = tls := by simp [owner, tlsioMbedtlsClose, h]
      rw [howner]
      exact ⟨Or.inr (Or.inr ⟨h, hs⟩), by simp [hs], by simp [h]⟩

/-- The owner hears of an error that `on_io_error` reports. -/
theorem owner_error (closes : Bool) (tls : TlsIoInstance) :
    Inside (owner closes { tls with tlsioState := .error }) ∧
      ((owner closes { tls with tlsioState := .error }).socketIo = true ↔ tls.socketIo = true ∧ closes = false) ∧
      (owner closes { tls with tlsioState := .error }).tlsioState ≠ .inHandshake := by
  obtain ⟨hinside, hsocket, hstate⟩ := @owner_inside closes { tls with tlsioState := .error } (Or.inr (Or.inl rfl))
  exact ⟨hinside, hsocket, fun h => by cases (hstate.mp h).1⟩

/-- A socket that is closed is not in the handshake. -/
theorem Inside.closed {tls : TlsIoInstance} (h : Inside tls) (hs : ¬ tls.socketIo = true) : tls.tlsioState ≠ .inHandshake := by
  rcases h with ⟨-, h⟩ | h | ⟨h, -⟩
  · exact absurd h hs
  · rw [h]; decide
  · rw [h]; decide

theorem moves_sent (closes : Bool) {w : TlsOpening} (hin : Inside w.tls) :
    Moves (.callback (.sent closes)) w (deliver (.sent closes) w) := by
  obtain ⟨hinside, hsocket, hstate⟩ := owner_inside closes hin
  refine ⟨?_, hstate, hinside, ?_⟩
  · simp only [deliver, Io.deliver, TlsOpening.live, disturbs, Bool.and_eq_true, hsocket]
    tauto
  · simp [deliver, isError]

theorem moves_bytes (first : UInt8) (rest : List UInt8) (reallocs closes : Bool) {w : TlsOpening} (hin : Inside w.tls) :
    Moves (.callback (.bytes first rest reallocs closes)) w (deliver (.bytes first rest reallocs closes) w) := by
  by_cases hs : w.tls.socketIo = true
  · cases reallocs with
    | true =>
      refine moves_quietly hin rfl rfl ?_ ?_ rfl rfl <;>
        simp only [deliver, Io.deliver, onUnderlyingIoBytesReceived, if_pos hs, if_true]
    | false =>
      obtain ⟨hinside, hsocket, hstate⟩ := owner_error closes w.tls
      have htls : (deliver (.bytes first rest false closes) w).tls = owner closes { w.tls with tlsioState := .error } := by
        simp only [deliver, Io.deliver, onUnderlyingIoBytesReceived, if_pos hs, Bool.false_eq_true, if_false]
      refine ⟨?_, ?_, htls ▸ hinside, ?_⟩
      · simp only [TlsOpening.live, htls, disturbs, Bool.and_eq_true, hsocket, Bool.not_false, Bool.true_and]
        simp only [deliver]
        tauto
      · simp only [htls, hstate, unsettles, Bool.not_false, Bool.true_eq_false, and_false]
      · simp [deliver, isError]
  · have htls : (deliver (.bytes first rest reallocs closes) w).tls = w.tls := by
      simp only [deliver, Io.deliver, if_neg hs]
    refine ⟨?_, ?_, htls ▸ hin, ?_⟩
    · simp only [TlsOpening.live, htls, Bool.and_eq_true, hs, Bool.false_eq_true, false_and]
    · simp only [htls, hin.closed hs, false_and]
    · simp [deliver, isError]

theorem moves_error (closes : Bool) {w : TlsOpening} (hin : Inside w.tls) :
    Moves (.callback (.error closes)) w (deliver (.error closes) w) := by
  rcases hin with ⟨h, hs⟩ | h | ⟨h, hs⟩
  · have howner : ∀ tls : TlsIoInstance, tls.tlsioState = .notOpen → owner closes tls = tls := by
      intro tls ht
      unfold owner tlsioMbedtlsClose
      simp only [ht, true_or, if_true, ite_self]
    have he : deliver (.error closes) w =
        { w with failed := true, tls := { w.tls with tlsioState := .notOpen, socketIo := false },
                 reports := w.reports ++ [⟨.error, false⟩] } := by
      simp [deliver, onUnderlyingIoError, h, indicateOpenComplete, TlsOpening.live, howner]
    rw [he]
    exact ⟨by simp [TlsOpening.live, disturbs], by simp [unsettles, disturbs], Or.inr (Or.inr ⟨rfl, rfl⟩), by simp [h, isError]⟩
  · have he : deliver (.error closes) w = { w with failed := true } := by
      simp [deliver, onUnderlyingIoError, Io.onUnderlyingIoError, h]
    rw [he]
    exact ⟨by simp [TlsOpening.live, disturbs], by simp [h], Or.inr (Or.inl h), by simp [h]⟩
  · have he : deliver (.error closes) w = { w with failed := true } := by
      simp [deliver, onUnderlyingIoError, Io.onUnderlyingIoError, h]
    rw [he]
    exact ⟨by simp [TlsOpening.live, disturbs], by simp [h], Or.inr (Or.inr ⟨h, hs⟩), by simp [h]⟩

theorem moves_write (accepted closes : Bool) {w : TlsOpening} (hin : Inside w.tls) :
    Moves (.write accepted closes) w (onIoSend accepted closes w) := by
  unfold onIoSend
  split
  · rename_i h
    obtain ⟨hinside, hsocket, hstate⟩ := owner_inside closes hin
    refine ⟨?_, ?_, hinside, ?_⟩
    · simp only [TlsOpening.live, disturbs, Bool.and_eq_true, hsocket, h.1, Bool.not_true, Bool.false_or]
      tauto
    · simp only [unsettles, disturbs, hstate, h.1, Bool.not_true, Bool.false_or]
    · simp [isError]
  · rename_i h
    obtain ⟨hinside, hsocket, hstate⟩ := owner_error closes w.tls
    refine ⟨?_, ?_, hinside, ?_⟩
    · simp only [TlsOpening.live, disturbs, Bool.and_eq_true, Bool.not_true, Bool.false_eq_true, and_false, false_iff]
      rintro ⟨⟨hs, -⟩, hd⟩
      exact h ⟨by simpa using (Bool.or_eq_false_iff.mp hd).1, hs⟩
    · simp only [hstate, false_iff]
      rintro ⟨hw, hu⟩
      have hs : w.tls.socketIo = true := by
        by_contra hs
        exact hin.closed hs hw
      exact h ⟨by simpa using (Bool.or_eq_false_iff.mp hu).1, hs⟩
    · simp [isError]

def ends : OpenEvent → Bool
  | .handshake result _ _ => result ≠ mbedtlsErrSslWantRead ∧ result ≠ mbedtlsErrSslWantWrite
  | _ => false

/-- A step that does not end the handshake. -/
theorem step_moves {w w' : TlsOpening} {e : OpenEvent} (h : step w e = some w') (he : ends e = false) (hin : Inside w.tls) :
    w'.control ≠ .returned ∧ Moves e w w' := by
  unfold step at h
  split at h
  · rename_i sz hc
    split at h
    · cases Option.some.inj h
      exact ⟨nofun, moves_quietly hin rfl rfl rfl rfl rfl rfl⟩
    · cases Option.some.inj h
      exact ⟨nofun, moves_quietly hin rfl rfl rfl rfl rfl rfl⟩
  · rename_i sz o hc
    cases Option.some.inj h
    cases o with
    | sent closes => exact ⟨by simp [deliver, hc], moves_sent closes hin⟩
    | bytes first rest reallocs closes => exact ⟨by simp [deliver, hc], moves_bytes first rest reallocs closes hin⟩
    | error closes =>
      refine ⟨?_, moves_error closes hin⟩
      unfold deliver onUnderlyingIoError
      simp only
      split <;> simp [indicateOpenComplete, hc]
  · rename_i sz hc
    split at h
    · cases Option.some.inj h
      exact ⟨nofun, moves_quietly hin rfl rfl rfl rfl rfl rfl⟩
    · cases Option.some.inj h
      exact ⟨by simp [hc], moves_quietly hin rfl rfl rfl rfl rfl rfl⟩
  · rename_i accepted closes hc
    cases Option.some.inj h
    refine ⟨?_, moves_write accepted closes hin⟩
    unfold onIoSend
    split <;> simp [hc]
  · rename_i result sends closes hc
    split at h
    · cases Option.some.inj h
      exact ⟨by simp [hc], moves_quietly hin rfl rfl rfl rfl rfl rfl⟩
    · rename_i hr
      simp only [ends, decide_eq_false_iff_not] at he
      push Not at hr
      exact absurd hr he
  · cases h

theorem Underway.snoc {es : List OpenEvent} {w w' : TlsOpening} {e : OpenEvent} (h : Underway es w)
    (hc : w'.control ≠ .returned) (hm : Moves e w w') : Underway (es ++ [e]) w' := by
  refine ⟨hc, ?_, ?_, hm.inside, ?_⟩
  · simp only [hm.live, h.live, List.forall_mem_append, List.forall_mem_singleton]
  · simp only [hm.settled, h.settled, List.forall_mem_append, List.forall_mem_singleton]
  · by_cases hr : errorReported es = true
    · have hnot : ¬ (w.tls.tlsioState = .inHandshake ∧ isError e = true) := by
        rintro ⟨hs, -⟩
        obtain ⟨x, hx, hu⟩ := errorReported_unsettled hr
        rw [h.settled.mp hs x hx] at hu; cases hu
      rw [hm.reports, h.reports, if_neg hnot, if_pos hr, if_pos ((errorReported_snoc es e).mpr (Or.inl hr))]
    · have hiff : errorReported (es ++ [e]) = true ↔ w.tls.tlsioState = .inHandshake ∧ isError e = true := by
        rw [errorReported_snoc, h.settled, or_iff_right hr]
      rw [hm.reports, h.reports, if_neg hr, List.nil_append]
      simp only [hiff]

theorem run_snoc (es : List OpenEvent) (e : OpenEvent) (w : TlsOpening) :
    run (es ++ [e]) w = (run es w).bind (fun w => step w e) := by
  simp only [run, List.foldlM_append, List.foldlM_cons, List.foldlM_nil, bind_pure]
  rfl

/-- Nothing comes behind the end. -/
theorem step_returned {w : TlsOpening} (h : w.control = .returned) (e : OpenEvent) : step w e = none := by
  unfold step
  rw [h]

theorem run_returned {w w' : TlsOpening} {es : List OpenEvent} (h : w.control = .returned) (hr : run es w = some w') :
    es = [] ∧ w' = w := by
  cases es with
  | nil => exact ⟨rfl, (Option.some.inj hr).symm⟩
  | cons e es =>
    simp only [run, List.foldlM_cons, step_returned h] at hr
    cases hr

/-- What the owner does when it hears of the open. -/
structure Used (w w' : TlsOpening) : Prop where
  control : w'.control = w.control
  reports : w'.reports = w.reports
  opened : w'.tls.tlsioState = .opened → w'.live = w.live

theorem Used.owner {w w' : TlsOpening} (h : Used w w') (closes : Bool) : Used w { w' with tls := owner closes w'.tls } := by
  refine ⟨h.control, h.reports, ?_⟩
  intro ho
  cases closes with
  | false => exact h.opened ho
  | true =>
    simp only [Io.owner, if_true, tlsioMbedtlsClose] at ho ⊢
    split at ho
    · rename_i hs
      rw [if_pos hs]; exact h.opened ho
    · cases ho

theorem Used.send {w w' : TlsOpening} (h : Used w w') (send : Bool × Bool) : Used w (tlsioMbedtlsSend send w') := by
  unfold tlsioMbedtlsSend onIoSend
  split
  · split
    · exact h.owner send.2
    · refine ⟨h.control, h.reports, ?_⟩
      intro ho
      cases hc : send.2 <;> simp [hc, Io.owner, tlsioMbedtlsClose] at ho
  · exact h

theorem used_sends (sends : List (Bool × Bool)) {w w' : TlsOpening} (h : Used w w') :
    Used w (sends.foldl (fun w send => tlsioMbedtlsSend send w) w') := by
  induction sends generalizing w' with
  | nil => exact h
  | cons send sends ih => exact ih (h.send send)

/-- A handshake that ends well. -/
theorem handshakeDone_opened (sends : List (Bool × Bool)) (closes : Bool) (w : TlsOpening) :
    Used { w with control := .returned, tls := { w.tls with tlsioState := .opened }, reports := w.reports ++ [⟨.ok, w.live⟩] }
      (handshakeDone 0 sends closes w) := by
  have hreport : indicateOpenComplete .ok { w with control := .returned, tls := { w.tls with tlsioState := .opened } } =
      { w with control := .returned, tls := { w.tls with tlsioState := .opened }, reports := w.reports ++ [⟨.ok, w.live⟩] } := rfl
  simp only [handshakeDone, if_true, hreport]
  exact (used_sends sends ⟨rfl, rfl, fun _ => rfl⟩).owner closes

theorem handshakeDone_failed {result : Int} (hr : result ≠ 0) (sends : List (Bool × Bool)) (closes : Bool) (w : TlsOpening) :
    handshakeDone result sends closes w =
      { w with control := .returned, tls := { w.tls with tlsioState := .notOpen, socketIo := false },
               reports := w.reports ++ [⟨.error, false⟩] } := by
  simp only [handshakeDone, if_neg hr, indicateOpenComplete, TlsOpening.live, Bool.false_and]

theorem handshakeDone_control (result : Int) (sends : List (Bool × Bool)) (closes : Bool) (w : TlsOpening) :
    (handshakeDone result sends closes w).control = .returned := by
  by_cases hr : result = 0
  · subst hr
    exact (handshakeDone_opened sends closes w).control
  · rw [handshakeDone_failed hr]

/-- The event that ends a handshake. -/
theorem step_ends {w w' : TlsOpening} {e : OpenEvent} (h : step w e = some w') (he : ends e = true) :
    ∃ result sends closes, e = .handshake result sends closes ∧ w' = handshakeDone result sends closes w := by
  unfold ends at he
  split at he
  · rename_i result sends closes
    have hwant : ¬ (result = mbedtlsErrSslWantRead ∨ result = mbedtlsErrSslWantWrite) := by
      simpa using he
    unfold step at h
    split at h
    · rename_i hx; cases hx
    · rename_i hx; cases hx
    · rename_i hx; cases hx
    · rename_i hx; cases hx
    · rename_i hx; cases hx
      rw [if_neg hwant] at h
      exact ⟨_, _, _, rfl, (Option.some.inj h).symm⟩
    · cases h
  · cases he

/-- A handshake is under way, or it has ended with its last event. -/
theorem run_handshake {es : List OpenEvent} {w w' : TlsOpening} (hw : Underway [] w) (h : run es w = some w') :
    Underway es w' ∧ (∀ e ∈ es, ends e = false) ∨
      ∃ before result sends closes v, es = before ++ [.handshake result sends closes] ∧ Underway before v ∧
        ends (.handshake result sends closes) = true ∧ w' = handshakeDone result sends closes v := by
  induction es using List.reverseRecOn generalizing w' with
  | nil =>
    cases Option.some.inj h
    exact Or.inl ⟨hw, by simp⟩
  | append_singleton es e ih =>
    rw [run_snoc] at h
    obtain ⟨v, hv, hstep⟩ := Option.bind_eq_some_iff.mp h
    rcases ih hv with ⟨hunder, hends⟩ | ⟨before, result, sends, closes, u, -, -, -, rfl⟩
    · by_cases he : ends e = true
      · obtain ⟨result, sends, closes, rfl, rfl⟩ := step_ends hstep he
        exact Or.inr ⟨es, result, sends, closes, v, rfl, hunder, he, rfl⟩
      · have he' := Bool.eq_false_iff.mpr he
        obtain ⟨hc, hm⟩ := step_moves hstep he' hunder.inside
        refine Or.inl ⟨hunder.snoc hc hm, ?_⟩
        simp only [List.forall_mem_append, List.forall_mem_singleton]
        exact ⟨hends, he'⟩
    · rw [step_returned (handshakeDone_control ..)] at hstep
      cases hstep

/-! ## The open -/

theorem Underway.truthful {es : List OpenEvent} {w : TlsOpening} (h : Underway es w) (before : TlsIoInstance) : Truthful before w := by
  refine ⟨?_, ?_, ?_⟩
  · rw [h.reports]; split <;> simp
  · intro r hr hok
    rw [h.reports] at hr
    split at hr
    · rw [List.mem_singleton.mp hr] at hok; cases hok
    · cases hr
  · intro _ ho
    rcases h.inside with ⟨hs, -⟩ | hs | ⟨hs, -⟩ <;> rw [hs] at ho <;> cases ho

/-- The end of a handshake, after what came before it. -/
theorem handshakeDone_truthful_iff {es : List OpenEvent} {w : TlsOpening} (h : Underway es w) (before : TlsIoInstance)
    (result : Int) (sends : List (Bool × Bool)) (closes : Bool) :
    Truthful before (handshakeDone result sends closes w) ↔
      errorReported es = false ∧ (result = 0 → ∀ e ∈ es, disturbs e = false) := by
  have honce : (w.reports ++ [(⟨.ok, w.live⟩ : OpenReport)]).length ≤ 1 ↔ errorReported es = false := by
    rw [h.reports]
    cases errorReported es <;> simp
  by_cases hr : result = 0
  · subst hr
    have hused := handshakeDone_opened sends closes w
    rw [← h.live]
    constructor
    · intro ht
      have hlive : w.live = true := ht.ok ⟨.ok, w.live⟩ (by rw [hused.reports]; simp) rfl
      exact ⟨honce.mp (by simpa only [hused.reports] using ht.once), fun _ => hlive⟩
    · rintro ⟨herr, hlive⟩
      refine ⟨by simpa only [hused.reports] using honce.mpr herr, ?_, ?_⟩
      · intro r hmem _
        simp only [hused.reports, h.reports, herr, Bool.false_eq_true, if_false, List.nil_append, List.mem_singleton] at hmem
        rw [hmem]; exact hlive rfl
      · intro _ ho
        exact (hused.opened ho).trans (hlive rfl)
  · rw [handshakeDone_failed hr]
    constructor
    · intro ht
      refine ⟨honce.mp ?_, fun h0 => absurd h0 hr⟩
      simpa using ht.once
    · rintro ⟨herr, -⟩
      refine ⟨?_, ?_, fun _ ho => by cases ho⟩
      · simpa using honce.mpr herr
      · intro r hmem hok
        simp only [h.reports, herr, Bool.false_eq_true, if_false, List.nil_append, List.mem_singleton] at hmem
        rw [hmem] at hok; cases hok

/-- The open is reported once and truthfully exactly when nothing that its end does not look at
    comes before it. -/
theorem tlsioMbedtlsOpen_truthful_iff {connects : Bool} {es : List OpenEvent} {tls : TlsIoInstance} {code : Nat} {w : TlsOpening}
    (h : tlsioMbedtlsOpen connects es tls = some (code, w)) : Truthful tls w ↔ Undisturbed es := by
  obtain ⟨w', hrun, hw⟩ := Option.map_eq_some_iff.mp h
  cases hw
  have hnothing : Undisturbed [] := by
    intro before result sends closes he
    simp at he
  unfold begin at hrun
  split at hrun
  · obtain ⟨rfl, rfl⟩ := run_returned rfl hrun
    exact iff_of_true ⟨by simp, by simp, fun hb ho => absurd ho hb⟩ hnothing
  · split at hrun
    · have hstart : Underway [] ⟨.handshake, { tls with tlsioState := .inHandshake, socketIo := true }, false, []⟩ :=
        ⟨nofun, by simp [TlsOpening.live], by simp, Or.inl ⟨rfl, rfl⟩, rfl⟩
      rcases run_handshake hstart hrun with ⟨hunder, hends⟩ | ⟨before, result, sends, closes, v, rfl, hunder, hends, rfl⟩
      · refine iff_of_true (hunder.truthful tls) ?_
        rintro before result sends closes rfl h1 h2
        have he := hends (.handshake result sends closes) (by simp)
        simp [ends, h1, h2] at he
      · rw [handshakeDone_truthful_iff hunder tls]
        simp only [ends, decide_eq_true_eq] at hends
        constructor
        · rintro hsound before' result' sends' closes' he - -
          obtain ⟨rfl, hlast⟩ := List.append_inj' he rfl
          cases hlast
          exact hsound
        · intro hund
          exact hund before result sends closes rfl hends.1 hends.2
    · obtain ⟨rfl, rfl⟩ := run_returned rfl hrun
      refine iff_of_true ⟨by simp [indicateOpenComplete], ?_, fun _ ho => by cases ho⟩ hnothing
      simp [indicateOpenComplete]

def soundOpen : List OpenEvent :=
  [.write true false, .read 5, .worked, .callback (.bytes 22 [3, 3, 0, 1, 14] true false), .worked, .handshake (-0x6900) [] false,
    .read 1, .handshake 0 [(true, false)] false]

theorem soundOpen_truthful :
    Truthful ⟨.notOpen, [], false⟩ ⟨.returned, ⟨.opened, [], true⟩, false, [⟨.ok, true⟩]⟩ ↔ Undisturbed soundOpen :=
  @tlsioMbedtlsOpen_truthful_iff true soundOpen ⟨.notOpen, [], false⟩ 0 _ (by decide)

/-- The last bytes of the handshake come, and then the socket fails: `on_underlying_io_error`
    reports the open as failed, and mbedtls goes on with the bytes that it has. -/
theorem open_reported_twice :
    ∃ w, tlsioMbedtlsOpen true
        [.write true false, .read 5, .callback (.bytes 22 [3, 3, 0, 1] true false), .callback (.error false), .worked,
          .handshake 0 [] false] ⟨.notOpen, [], false⟩ = some (0, w) ∧
      w.reports = [⟨.error, false⟩, ⟨.ok, false⟩] ∧ w.tls = ⟨.opened, [], false⟩ ∧ ¬ Truthful ⟨.notOpen, [], false⟩ w := by
  refine ⟨⟨.returned, ⟨.opened, [], false⟩, true, [⟨.error, false⟩, ⟨.ok, false⟩]⟩, by decide, rfl, rfl, fun h => ?_⟩
  exact absurd h.once (by decide)

end TlsOpening

end UMqtt.Io

/-
  UMqtt.Io.TlsIo — the read callback of the TLS transport (uMQTT/ports/src/tlsio_mbedtls.c).

  mbedtls reads through `on_io_recv`, which calls `xio_dowork` on the underlying socket
  until bytes are buffered or the state is OPEN. What one `xio_dowork` does to the instance
  is a list of `Outcome`s, one for each callback of the socket; an outcome also says whether
  the owner's callback, which runs inside it, closes the transport (`mqtt_client.c` does on
  an error). `socketIo` says that the underlying socket has not been closed: a closed one
  delivers no more bytes. `socketio_dowork` is such a list (`socketioDowork_outcomes`).

  Proved: the loop ends exactly when bytes are there or arrive before the socket is closed,
  or the state is OPEN and the first `xio_dowork` leaves it so (`onIoRecv_returns_iff`). An
  error with nothing buffered leaves NOT_OPEN or ERROR, which the loop does not look at
  (`onIoRecv_spins`).
-/

import UMqtt.Lib.Loop
import UMqtt.Io.SocketIo

namespace UMqtt.Io

open UMqtt.Lib UMqtt.Crt

inductive TlsioState where
  | notOpen
  | openingUnderlyingIo
  | inHandshake
  | opened
  | closing
  | error
  deriving DecidableEq, Repr

structure TlsIoInstance where
  tlsioState : TlsioState
  socketIoReadBytes : List UInt8
  socketIo : Bool
  deriving DecidableEq, Repr

/-- A callback of the underlying socket. Bytes come with whether `realloc` finds room. -/
inductive Outcome where
  | sent (ownerCloses : Bool)
  | bytes (first : UInt8) (rest : List UInt8) (reallocs ownerCloses : Bool)
  | error (ownerCloses : Bool)
  deriving DecidableEq, Repr

/-! ## Callbacks -/

/-- The socket's close is synchronous: `on_underlying_io_close_complete_during_close` has
    run when `xio_close` returns. -/
def tlsioMbedtlsClose (io : TlsIoInstance) : Nat × TlsIoInstance :=
  if io.tlsioState = .notOpen ∨ io.tlsioState = .closing then (failure, io)
  else (0, { io with tlsioState := .notOpen, socketIo := false })

def owner (closes : Bool) (io : TlsIoInstance) : TlsIoInstance := if closes then (tlsioMbedtlsClose io).2 else io

/-- The owner is told after the state is set: of an open that failed, when NOT_OPEN makes
    its close do nothing. -/
def onUnderlyingIoError (ownerCloses : Bool) (io : TlsIoInstance) : TlsIoInstance :=
  match io.tlsioState with
  | .openingUnderlyingIo | .inHandshake => owner ownerCloses { io with tlsioState := .notOpen, socketIo := false }
  | .opened => owner ownerCloses { io with tlsioState := .error }
  | _ => io

def onUnderlyingIoBytesReceived (buffer : List UInt8) (reallocs ownerCloses : Bool) (io : TlsIoInstance) : TlsIoInstance :=
  if reallocs then { io with socketIoReadBytes := io.socketIoReadBytes ++ buffer }
  else owner ownerCloses { io with tlsioState := .error }

def deliver : Outcome → TlsIoInstance → TlsIoInstance
  | .sent ownerCloses, io => owner ownerCloses io
  | .bytes first rest reallocs ownerCloses, io =>
    if io.socketIo then onUnderlyingIoBytesReceived (first :: rest) reallocs ownerCloses io else io
  | .error ownerCloses, io => onUnderlyingIoError ownerCloses io

def xioDowork (outcomes : List Outcome) (io : TlsIoInstance) : TlsIoInstance :=
  outcomes.foldl (fun io o => deliver o io) io

/-! ## on_io_recv -/

def mbedtlsErrSslWantRead : Int := -0x6900

/-- What follows the loop. `result` is an `int`, compared with `sz` as unsigned. -/
def takeBytes (sz : Nat) (io : TlsIoInstance) : Int × List UInt8 × TlsIoInstance :=
  let result := Int.bmod (min io.socketIoReadBytes.length sz) (2 ^ 32)
  let copied := io.socketIoReadBytes.take result.toNat
  let io := { io with socketIoReadBytes := io.socketIoReadBytes.drop result.toNat }
  (if result = 0 ∧ io.tlsioState = .opened then mbedtlsErrSslWantRead else result, copied, io)

/-- `on_io_recv`: its result, what it copies to `buf`, and the instance; `none` when `fuel`
    calls of `xio_dowork` did not end its loop. `works` are the outcomes of these calls. -/
def onIoRecv (works : Nat → List Outcome) (sz fuel : Nat) (io : TlsIoInstance) :
    Option (Int × List UInt8 × TlsIoInstance) :=
  (whileBreak (fun io => io.socketIoReadBytes.isEmpty) (fun io => io.tlsioState = .opened) xioDowork fuel works io).map
    (takeBytes sz)

/-- The rounds of the loop are one long `xio_dowork`. -/
theorem rounds_xioDowork (n : Nat) (works : Nat → List Outcome) (io : TlsIoInstance) :
    rounds xioDowork n works io = xioDowork ((List.range n).flatMap works) io := by
  induction n generalizing works io with
  | zero => rfl
  | succ n ih =>
    rw [rounds, ih, List.range_succ_eq_map, List.flatMap_cons, List.flatMap_map]
    simp only [xioDowork, List.foldl_append]

theorem onIoRecv_isSome_iff (works : Nat → List Outcome) (sz : Nat) (io : TlsIoInstance) :
    (∃ fuel, (onIoRecv works sz fuel io).isSome) ↔
      ∃ n, (rounds xioDowork n works io).socketIoReadBytes ≠ [] ∨ (rounds xioDowork (n + 1) works io).tlsioState = .opened := by
  simp only [onIoRecv, Option.isSome_map, whileBreak_isSome_iff, List.isEmpty_eq_false_iff, decide_eq_true_eq]

/-! ## What ends the loop -/

/-- From a state, bytes are stored before anything closes the socket. -/
def Heard (state : TlsioState) : List Outcome → Prop
  | [] => False
  | .sent ownerCloses :: os => ¬ (ownerCloses ∧ state ≠ .notOpen ∧ state ≠ .closing) ∧ Heard state os
  | .bytes _ _ reallocs ownerCloses :: os => reallocs ∨ ¬ ownerCloses ∧ Heard .error os
  | .error ownerCloses :: os =>
    match state with
    | .openingUnderlyingIo | .inHandshake => False
    | .opened => ¬ ownerCloses ∧ Heard .error os
    | state => Heard state os

/-- Nothing takes an open transport out of OPEN. -/
def Calm (socketIo : Bool) (os : List Outcome) : Prop :=
  ∀ o ∈ os, match o with
    | .sent ownerCloses => ¬ ownerCloses
    | .bytes _ _ reallocs _ => socketIo → reallocs
    | .error _ => False

theorem owner_bytes (closes : Bool) (io : TlsIoInstance) : (owner closes io).socketIoReadBytes = io.socketIoReadBytes := by
  unfold owner tlsioMbedtlsClose
  split
  · split <;> rfl
  · rfl

/-- A closed socket stays closed and stores nothing. -/
theorem deliver_closed (o : Outcome) {io : TlsIoInstance} (h : io.socketIo = false) :
    (deliver o io).socketIo = false ∧ (deliver o io).socketIoReadBytes = io.socketIoReadBytes := by
  have howner : ∀ closes (io : TlsIoInstance), io.socketIo = false → (owner closes io).socketIo = false := by
    intro closes io h
    unfold owner tlsioMbedtlsClose
    split
    · split
      · exact h
      · rfl
    · exact h
  cases o with
  | sent closes => exact ⟨howner _ _ h, owner_bytes _ _⟩
  | bytes first rest reallocs closes => simp [deliver, h]
  | error closes =>
    simp only [deliver, onUnderlyingIoError]
    split
    · exact ⟨howner _ _ rfl, owner_bytes _ _⟩
    · exact ⟨howner _ _ rfl, owner_bytes _ _⟩
    · exact ⟨howner _ _ h, owner_bytes _ _⟩
    · exact ⟨h, rfl⟩

theorem xioDowork_closed (os : List Outcome) {io : TlsIoInstance} (h : io.socketIo = false) :
    (xioDowork os io).socketIoReadBytes = io.socketIoReadBytes := by
  induction os generalizing io with
  | nil => rfl
  | cons o os ih =>
    obtain ⟨hc, hb⟩ := deliver_closed o h
    exact (ih hc).trans hb

/-- Bytes that are buffered stay buffered. -/
theorem xioDowork_keeps (os : List Outcome) {io : TlsIoInstance} (h : io.socketIoReadBytes ≠ []) :
    (xioDowork os io).socketIoReadBytes ≠ [] := by
  induction os generalizing io with
  | nil => exact h
  | cons o os ih =>
    apply ih
    cases o with
    | sent closes => simp only [deliver]; rwa [owner_bytes]
    | bytes first rest reallocs closes =>
      simp only [deliver, onUnderlyingIoBytesReceived]
      split
      · split
        · simp [h]
        · rwa [owner_bytes]
      · exact h
    | error closes =>
      simp only [deliver, onUnderlyingIoError]
      split
      · rwa [owner_bytes]
      · rwa [owner_bytes]
      · rwa [owner_bytes]
      · exact h

@[simp] theorem owner_false (io : TlsIoInstance) : owner false io = io := rfl

/-- The close works in every other state. -/
theorem owner_true {io : TlsIoInstance} (hn : io.tlsioState ≠ .notOpen) (hc : io.tlsioState ≠ .closing) :
    owner true io = { io with tlsioState := .notOpen, socketIo := false } := by
  simp only [owner, tlsioMbedtlsClose, hn, hc, or_self, if_true, if_false]

theorem xioDowork_cons (o : Outcome) (os : List Outcome) (io : TlsIoInstance) :
    xioDowork (o :: os) io = xioDowork os (deliver o io) := rfl

/-- With nothing buffered and the socket open, bytes are there afterwards just when they are
    heard. -/
theorem xioDowork_heard (os : List Outcome) {io : TlsIoInstance} (hb : io.socketIoReadBytes = [])
    (hs : io.socketIo = true) : (xioDowork os io).socketIoReadBytes ≠ [] ↔ Heard io.tlsioState os := by
  induction os generalizing io with
  | nil => simp [xioDowork, hb, Heard]
  | cons o os ih =>
    have hclosed : ∀ {io : TlsIoInstance}, io.socketIo = false → io.socketIoReadBytes = [] →
        ((xioDowork os io).socketIoReadBytes ≠ [] ↔ False) := by
      intro io hs hb
      simp only [xioDowork_closed os hs, hb, ne_eq, not_true_eq_false]
    rw [xioDowork_cons]
    rcases io with ⟨state, buffered, opened⟩
    subst hb hs
    cases o with
    | sent closes =>
      simp only [deliver, Heard]
      cases closes with
      | false => simpa using ih rfl rfl
      | true =>
        by_cases hn : state = .notOpen ∨ state = .closing
        · rcases hn with rfl | rfl <;> simpa [owner, tlsioMbedtlsClose] using ih rfl rfl
        · push Not at hn
          rw [owner_true hn.1 hn.2]
          simpa [hn] using hclosed rfl rfl
    | bytes first rest reallocs closes =>
      simp only [deliver, onUnderlyingIoBytesReceived, if_true, Heard]
      cases reallocs with
      | true => simpa using xioDowork_keeps os (by simp)
      | false =>
        cases closes with
        | false => simpa using ih rfl rfl
        | true => simpa [owner, tlsioMbedtlsClose] using hclosed rfl rfl
    | error closes =>
      simp only [deliver, onUnderlyingIoError, Heard]
      cases state with
      | notOpen => exact ih rfl rfl
      | openingUnderlyingIo => simpa [owner, tlsioMbedtlsClose] using hclosed rfl rfl
      | inHandshake => simpa [owner, tlsioMbedtlsClose] using hclosed rfl rfl
      | opened =>
        cases closes with
        | false => simpa using ih rfl rfl
        | true => simpa [owner, tlsioMbedtlsClose] using hclosed rfl rfl
      | closing => exact ih rfl rfl
      | error => exact ih rfl rfl

/-- Only the handshake sets OPEN. -/
theorem deliver_opened (o : Outcome) (io : TlsIoInstance) :
    (deliver o io).tlsioState = .opened ↔ io.tlsioState = .opened ∧ Calm io.socketIo [o] := by
  rcases io with ⟨state, buffered, socketIo⟩
  simp only [Calm, List.mem_singleton, forall_eq]
  cases o with
  | sent closes => cases closes <;> cases state <;> simp [deliver, owner, tlsioMbedtlsClose]
  | bytes first rest reallocs closes =>
    simp only [deliver, onUnderlyingIoBytesReceived]
    cases socketIo with
    | false => simp
    | true => cases reallocs <;> cases closes <;> simp [owner, tlsioMbedtlsClose]
  | error closes => cases closes <;> cases state <;> simp [deliver, onUnderlyingIoError, owner, tlsioMbedtlsClose]

theorem deliver_calm (o : Outcome) {io : TlsIoInstance} (h : Calm io.socketIo [o]) : (deliver o io).socketIo = io.socketIo := by
  simp only [Calm, List.mem_singleton, forall_eq] at h
  cases o with
  | sent closes => simp only [Bool.not_eq_true] at h; subst h; rfl
  | bytes first rest reallocs closes =>
    simp only [deliver, onUnderlyingIoBytesReceived]
    split
    · rw [if_pos (h ‹_›)]
    · rfl
  | error closes => exact h.elim

theorem xioDowork_opened (os : List Outcome) (io : TlsIoInstance) :
    (xioDowork os io).tlsioState = .opened ↔ io.tlsioState = .opened ∧ Calm io.socketIo os := by
  induction os generalizing io with
  | nil => simp [xioDowork, Calm]
  | cons o os ih =>
    have hcons : Calm io.socketIo (o :: os) ↔ Calm io.socketIo [o] ∧ Calm io.socketIo os := by
      simp only [Calm, List.forall_mem_cons, List.not_mem_nil, false_implies, implies_true, and_true]
    rw [xioDowork_cons, ih, deliver_opened, hcons, and_assoc]
    constructor
    · intro h
      rw [deliver_calm o h.2.1] at h; exact h
    · intro h
      rw [deliver_calm o h.2.1]; exact h

/-- The read callback returns exactly when bytes are buffered, or an open connection stays
    open over the first `xio_dowork`, or bytes arrive before the socket is closed. -/
theorem onIoRecv_returns_iff (works : Nat → List Outcome) (sz : Nat) (io : TlsIoInstance) :
    (∃ fuel, (onIoRecv works sz fuel io).isSome) ↔
      io.socketIoReadBytes ≠ [] ∨ (io.tlsioState = .opened ∧ Calm io.socketIo (works 0)) ∨
        (io.socketIo = true ∧ ∃ n, Heard io.tlsioState ((List.range n).flatMap works)) := by
  rw [onIoRecv_isSome_iff]
  simp only [rounds_xioDowork, xioDowork_opened]
  constructor
  · intro h
    obtain ⟨n, h⟩ := h
    rcases h with h | h
    · by_cases hb : io.socketIoReadBytes = []
      · cases hs : io.socketIo with
        | false => exact absurd ((xioDowork_closed _ hs).trans hb) h
        | true => exact Or.inr (Or.inr ⟨rfl, n, (xioDowork_heard _ hb hs).mp h⟩)
      · exact Or.inl hb
    · refine Or.inr (Or.inl ⟨h.1, fun o ho => h.2 o ?_⟩)
      exact List.mem_flatMap.mpr ⟨0, List.mem_range.mpr (Nat.succ_pos n), ho⟩
  · intro h
    by_cases hb : io.socketIoReadBytes = []
    · rcases h with h | h | h
      · exact absurd hb h
      · exact ⟨0, Or.inr (by simpa using h)⟩
      · obtain ⟨hs, n, h⟩ := h
        exact ⟨n, Or.inl ((xioDowork_heard _ hb hs).mpr h)⟩
    · exact ⟨0, Or.inl (xioDowork_keeps _ hb)⟩

def once (os : List Outcome) (k : Nat) : List Outcome := if k = 0 then os else []

theorem rounds_once (os : List Outcome) (n : Nat) (io : TlsIoInstance) :
    rounds xioDowork (n + 1) (once os) io = xioDowork os io := by
  have hsilent : (List.range n).flatMap (fun k => once os (k + 1)) = [] := List.flatMap_eq_nil_iff.mpr fun _ _ => rfl
  rw [rounds_xioDowork, List.range_succ_eq_map, List.flatMap_cons, List.flatMap_map]
  simp only [Nat.succ_eq_add_one, hsilent, List.append_nil]
  rfl

/-- What an open-less state without bytes finds after one `xio_dowork` it finds for ever. -/
theorem onIoRecv_never {os : List Outcome} {sz : Nat} {io : TlsIoInstance} (hb : io.socketIoReadBytes = [])
    (hb' : (xioDowork os io).socketIoReadBytes = []) (ho : (xioDowork os io).tlsioState ≠ .opened) :
    ¬ ∃ fuel, (onIoRecv (once os) sz fuel io).isSome := by
  rw [onIoRecv_isSome_iff]
  intro h
  obtain ⟨n, h⟩ := h
  rw [rounds_once] at h
  rcases h with h | h
  · cases n with
    | zero => exact h hb
    | succ n => rw [rounds_once] at h; exact h hb'
  · exact ho h

/-- The socket fails while nothing is buffered, and is silent from then on: during the
    handshake, which leaves NOT_OPEN, and on the open connection, which leaves ERROR. -/
theorem onIoRecv_spins :
    xioDowork [.error false] ⟨.inHandshake, [], true⟩ = ⟨.notOpen, [], false⟩ ∧
      (¬ ∃ fuel, (onIoRecv (once [.error false]) 5 fuel ⟨.inHandshake, [], true⟩).isSome) ∧
      xioDowork [.error false] ⟨.opened, [], true⟩ = ⟨.error, [], true⟩ ∧
      ¬ ∃ fuel, (onIoRecv (once [.error false]) 5 fuel ⟨.opened, [], true⟩).isSome := by
  refine ⟨rfl, ?_, rfl, ?_⟩
  · exact onIoRecv_never rfl rfl (by decide)
  · exact onIoRecv_never rfl rfl (by decide)

/-! ## The socket under it -/

/-- The transport over a socket. `choices` are, for each coming callback, whether its
    `realloc` succeeds and whether the owner closes. -/
structure TlsWorld (κ : Type) where
  tls : TlsIoInstance
  socket : SocketIoInstance κ × Mallocs
  choices : List (Bool × Bool)

section Socket

variable {κ : Type}

def socketSlot : Slot (TlsWorld κ) (SocketIoInstance κ × Mallocs) :=
  ⟨(·.socket), fun x w => { w with socket := x }, fun _ _ => rfl, fun _ _ _ => rfl, fun _ => rfl⟩

/-- A callback: the instance's own part, and the close of the socket that it may make. -/
def pass (f : Bool → Bool → TlsIoInstance → TlsIoInstance) (w : TlsWorld κ) : TlsWorld κ :=
  let choice := w.choices.headD (true, false)
  let tls := f choice.1 choice.2 w.tls
  let w' := { w with tls := tls, choices := w.choices.tail }
  if tls.socketIo = w.tls.socketIo then w'
  else update socketSlot (fun io => { io with socket := false, ioState := .closed }) w'

/-- The callbacks that `socketio_dowork` makes; it makes none of the other two. -/
def tlsCallbacks : SocketCallbacks κ (TlsWorld κ) where
  onIoOpenComplete _ w := w
  onBytesReceived received := pass fun reallocs closes => onUnderlyingIoBytesReceived received reallocs closes
  onIoError := pass fun _ closes => onUnderlyingIoError closes
  onSendComplete _ := pass fun _ closes => owner closes
  onIoCloseComplete w := w

def Live (w : TlsWorld κ) : Prop := w.socket.1.ioState = .opened → w.tls.socketIo = true

def Delivers (w w' : TlsWorld κ) : Prop := Live w' ∧ ∃ os, w'.tls = xioDowork os w.tls

theorem pass_delivers {w w' : TlsWorld κ} (h : Delivers w w') {f : Bool → Bool → TlsIoInstance → TlsIoInstance}
    (hf : ∀ reallocs closes, ∃ o, f reallocs closes w'.tls = deliver o w'.tls) : Delivers w (pass f w') := by
  obtain ⟨hl, os, hos⟩ := h
  obtain ⟨o, ho⟩ := hf (w'.choices.headD (true, false)).1 (w'.choices.headD (true, false)).2
  have hsnoc : deliver o w'.tls = xioDowork (os ++ [o]) w.tls := by
    rw [hos]; simp only [xioDowork, List.foldl_append, List.foldl_cons, List.foldl_nil]
  unfold pass
  simp only
  split
  · exact ⟨fun hs => (‹_ = _› : _).trans (hl hs), os ++ [o], ho.trans hsnoc⟩
  · exact ⟨fun hs => absurd hs (by simp [update, socketSlot, Slot.modify]), os ++ [o], ho.trans hsnoc⟩

/-- Bytes arrive only on an open socket, which the transport has not closed. -/
theorem delivers_invariant (w : TlsWorld κ) : Invariant socketSlot tlsCallbacks (Delivers w) where
  set _ _ hx h := ⟨fun ho => h.1 (hx ho), h.2⟩
  bytes received w' hne ho h := by
    apply pass_delivers h
    intro reallocs closes
    cases received with
    | nil => contradiction
    | cons first rest => exact ⟨.bytes first rest reallocs closes, by simp only [deliver, h.1 ho, if_true]⟩
  error _ h := pass_delivers h fun _ closes => ⟨.error closes, rfl⟩
  sent _ _ h := pass_delivers h fun _ closes => ⟨.sent closes, rfl⟩

/-- `socketio_dowork` under the transport is a list of outcomes. -/
theorem socketioDowork_outcomes (answers : List SendAnswer) (received : List RecvAnswer) {w : TlsWorld κ} (h : Live w) :
    ∃ os, (socketioDowork socketSlot tlsCallbacks answers received w).tls = xioDowork os w.tls :=
  ((delivers_invariant w).socketioDowork answers received ⟨h, [], rfl⟩).2

end Socket

end UMqtt.Io

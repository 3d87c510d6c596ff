/-
  UMqtt.Io.SocketIo — the plain socket transport (uMQTT/ports/src/socketio_berkeley.c).

  An instance lives in a part of its caller's state, beside the answers its allocator will
  give; its callbacks are functions on that state and may call back into it. Each call is
  told what the operating system answers: `connects` stands for all of `socketio_open`'s
  system calls, a `SendAnswer` for one `send()`, a `RecvAnswer` for one `recv()`; when the
  answers of a call run out, the socket would block. `events` is a ghost: the bytes the
  socket has accepted and the `on_send_complete` calls, in order.
-/

import UMqtt.Lib.Loop
import UMqtt.Crt.Buffer

namespace UMqtt.Io

open UMqtt.Lib UMqtt.Crt

/-! ## What xio.h says -/

/-- A transport's handle; NULL is `none`. -/
abbrev XioHandle := Nat

inductive OpenResult where
  | ok
  | error
  | cancelled
  deriving DecidableEq, Repr

inductive SendResult where
  | ok
  | error
  | cancelled
  deriving DecidableEq, Repr

/-! ## The instance -/

inductive IoState where
  | closed
  | opening
  | opened
  | closing
  | error
  deriving DecidableEq, Repr

/-- `PENDING_SOCKET_IO`. `κ` is what an `on_send_complete` and its context amount to. -/
structure PendingSocketIo (κ : Type) where
  bytes : List UInt8
  onSendComplete : Option κ
  deriving DecidableEq, Repr

inductive SocketEvent (κ : Type) where
  | accepted (bytes : List UInt8)
  | complete (onSendComplete : κ)
  deriving DecidableEq, Repr

/-- `SOCKET_IO_INSTANCE`: of the socket whether it is valid, of the callbacks that
    `socketio_open` stores whether they are set. -/
structure SocketIoInstance (κ : Type) where
  socket : Bool
  callbacks : Bool
  ioState : IoState
  pendingIoList : List (PendingSocketIo κ)
  events : List (SocketEvent κ)
  deriving DecidableEq, Repr

/-- `socketio_create` for a host name, when its allocations succeed. -/
def SocketIoInstance.create (κ : Type) : SocketIoInstance κ := ⟨false, false, .closed, [], []⟩

/-- `send()` takes so many bytes (all of them, if there are no more), would block, or fails. -/
inductive SendAnswer where
  | accepted (count : Nat)
  | again
  | fatal
  deriving DecidableEq, Repr

/-- `recv()` returns bytes (0 of them at the end of the stream), would block, or fails. -/
inductive RecvAnswer where
  | bytes (received : List UInt8)
  | again
  | failed
  deriving DecidableEq, Repr

/-- A list item, the record it holds and the bytes are allocated. -/
def addPendingIo {κ : Type} (io : SocketIoInstance κ) (buffer : List UInt8) (onSendComplete : Option κ) (ms : Mallocs) :
    Nat × SocketIoInstance κ × Mallocs :=
  match malloc 20 ms with
  | (none, ms) => (failure, io, ms)
  | (some _, ms) =>
    match malloc buffer.length ms with
    | (none, ms) => (failure, io, ms)
    | (some _, ms) =>
      match malloc 8 ms with
      | (none, ms) => (failure, io, ms)
      | (some _, ms) => (0, { io with pendingIoList := io.pendingIoList ++ [⟨buffer, onSendComplete⟩] }, ms)

/-! ## The calls -/

/-- The callbacks of an instance. `on_send_complete` is only ever told `IO_SEND_OK`. -/
structure SocketCallbacks (κ W : Type) where
  onIoOpenComplete : OpenResult → W → W
  onBytesReceived : List UInt8 → W → W
  onIoError : W → W
  onSendComplete : κ → W → W
  onIoCloseComplete : W → W

section Calls

variable {κ W : Type} (s : Slot W (SocketIoInstance κ × Mallocs)) (cb : SocketCallbacks κ W)

def update (f : SocketIoInstance κ → SocketIoInstance κ) (w : W) : W := s.modify (fun x => (f x.1, x.2)) w

@[simp] theorem get_update (f : SocketIoInstance κ → SocketIoInstance κ) (w : W) :
    s.get (update s f w) = (f (s.get w).1, (s.get w).2) := by simp [update]

def indicateError (w : W) : W := if (s.get w).1.callbacks then cb.onIoError w else w

/-- A valid socket was accepted elsewhere and is not connected again. -/
def socketioOpen (connects : Bool) (w : W) : Nat × W :=
  let opened : SocketIoInstance κ → SocketIoInstance κ :=
    fun io => { io with socket := true, callbacks := true, ioState := .opened }
  let r : Nat × W :=
    if (s.get w).1.ioState ≠ .closed then (failure, w)
    else if (s.get w).1.socket then (0, update s opened w)
    else if connects then (0, update s opened w)
    else (failure, w)
  (r.1, cb.onIoOpenComplete (if r.1 = 0 then .ok else .error) r.2)

def socketioClose (callback : Bool) (w : W) : Nat × W :=
  let io := (s.get w).1
  let w := if io.ioState ≠ .closed ∧ io.ioState ≠ .closing then
    update s (fun io => { io with socket := false, ioState := .closed }) w else w
  (0, if callback then cb.onIoCloseComplete w else w)

def sendCompleted (onSendComplete : Option κ) (w : W) : W :=
  match onSendComplete with
  | none => w
  | some k => cb.onSendComplete k (update s (fun io => { io with events := io.events ++ [.complete k] }) w)

def accept (bytes : List UInt8) (w : W) : W :=
  update s (fun io => { io with events := io.events ++ [.accepted bytes] }) w

def queue (buffer : List UInt8) (onSendComplete : Option κ) (w : W) : Nat × W :=
  let r := addPendingIo (s.get w).1 buffer onSendComplete (s.get w).2
  (r.1, s.set r.2 w)

def socketioSend (buffer : List UInt8) (onSendComplete : Option κ) (answer : SendAnswer) (w : W) : Nat × W :=
  if buffer.length = 0 then (failure, w)
  else if (s.get w).1.ioState ≠ .opened then (failure, w)
  else match (s.get w).1.pendingIoList with
  | _ :: _ => queue s buffer onSendComplete w
  | [] =>
    match answer with
    | .again => (0, w)
    | .fatal => (failure, w)
    | .accepted sendResult =>
      if sendResult < buffer.length then
        queue s (buffer.drop sendResult) onSendComplete (accept s (buffer.take sendResult) w)
      else (0, sendCompleted s cb onSendComplete (accept s buffer w))

/-- The `while` of `socketio_dowork` over the pending list. The item just sent is removed
    behind its callback, which leaves it in front. -/
def flush : List SendAnswer → W → W
  | [], w => w
  | answer :: answers, w =>
    match (s.get w).1.pendingIoList with
    | [] => w
    | pending :: rest =>
      match answer with
      | .again => w
      | .fatal =>
        flush answers (indicateError s cb (update s (fun io => { io with pendingIoList := rest, ioState := .error }) w))
      | .accepted sendResult =>
        if sendResult < pending.bytes.length then
          update s (fun io => { io with pendingIoList := { pending with bytes := pending.bytes.drop sendResult } :: rest })
            (accept s (pending.bytes.take sendResult) w)
        else
          flush answers (update s (fun io => { io with pendingIoList := io.pendingIoList.tail })
            (sendCompleted s cb pending.onSendComplete (accept s pending.bytes w)))

def receive : List RecvAnswer → W → W
  | [], w => w
  | .again :: _, w => w
  | .failed :: _, w => indicateError s cb w
  | .bytes received :: answers, w =>
    if received = [] then w
    else
      let w := if (s.get w).1.callbacks then cb.onBytesReceived received w else w
      if (s.get w).1.ioState = .opened then receive answers w else w

def socketioDowork (answers : List SendAnswer) (received : List RecvAnswer) (w : W) : W :=
  let w := flush s cb answers w
  if (s.get w).1.ioState = .opened then receive s cb received w else w

end Calls

/-! ## What the callbacks keep, the calls keep -/

section Invariant

variable {κ W : Type} {s : Slot W (SocketIoInstance κ × Mallocs)} {cb : SocketCallbacks κ W}

/-- An invariant of the callback that `socketio_send` makes, and of every change of the
    instance but one: none that opens it. -/
structure SendInvariant (s : Slot W (SocketIoInstance κ × Mallocs)) (cb : SocketCallbacks κ W) (I : W → Prop) : Prop where
  set : ∀ x w, (x.1.ioState = .opened → (s.get w).1.ioState = .opened) → I w → I (s.set x w)
  sent : ∀ k w, I w → I (cb.onSendComplete k w)

/-- An invariant of the callbacks that `socketio_dowork` makes. -/
structure Invariant (s : Slot W (SocketIoInstance κ × Mallocs)) (cb : SocketCallbacks κ W) (I : W → Prop) : Prop
    extends SendInvariant s cb I where
  bytes : ∀ received w, received ≠ [] → (s.get w).1.ioState = .opened → I w → I (cb.onBytesReceived received w)
  error : ∀ w, I w → I (cb.onIoError w)

namespace SendInvariant

variable {I : W → Prop} (h : SendInvariant s cb I)

include h

theorem update {f : SocketIoInstance κ → SocketIoInstance κ} {w : W} (hw : I w)
    (hf : ∀ io, (f io).ioState = .opened → io.ioState = .opened) : I (Io.update s f w) :=
  h.set (f (s.get w).1, (s.get w).2) w (hf (s.get w).1) hw

theorem accept (bytes : List UInt8) {w : W} (hw : I w) : I (Io.accept s bytes w) := by
  apply h.update hw
  exact fun _ ho => ho

theorem sendCompleted (onSendComplete : Option κ) {w : W} (hw : I w) : I (Io.sendCompleted s cb onSendComplete w) := by
  cases onSendComplete with
  | none => exact hw
  | some k =>
    apply h.sent k
    apply h.update hw
    exact fun _ ho => ho

theorem queue (buffer : List UInt8) (onSendComplete : Option κ) {w : W} (hw : I w) :
    I (Io.queue s buffer onSendComplete w).2 := by
  refine h.set _ w ?_ hw
  unfold addPendingIo
  intro ho
  repeat' split at ho
  all_goals exact ho

theorem socketioSend (buffer : List UInt8) (onSendComplete : Option κ) (answer : SendAnswer) {w : W} (hw : I w) :
    I (Io.socketioSend s cb buffer onSendComplete answer w).2 := by
  unfold Io.socketioSend
  split
  · exact hw
  · split
    · exact hw
    · split
      · exact h.queue _ _ hw
      · cases answer with
        | again => exact hw
        | fatal => exact hw
        | accepted sendResult =>
          simp only
          split
          · exact h.queue _ _ (h.accept _ hw)
          · exact h.sendCompleted _ (h.accept _ hw)

end SendInvariant

namespace Invariant

variable {I : W → Prop} (h : Invariant s cb I)

include h

theorem indicateError {w : W} (hw : I w) : I (Io.indicateError s cb w) := by
  unfold Io.indicateError
  split
  · exact h.error w hw
  · exact hw

theorem flush (answers : List SendAnswer) {w : W} (hw : I w) : I (Io.flush s cb answers w) := by
  induction answers generalizing w with
  | nil => exact hw
  | cons answer answers ih =>
    unfold Io.flush
    split
    · exact hw
    · cases answer with
      | again => exact hw
      | fatal =>
        apply ih
        apply h.indicateError
        apply h.toSendInvariant.update hw
        intro io ho
        cases ho
      | accepted sendResult =>
        simp only
        split
        · apply h.toSendInvariant.update (h.toSendInvariant.accept _ hw)
          exact fun _ ho => ho
        · apply ih
          apply h.toSendInvariant.update (h.toSendInvariant.sendCompleted _ (h.toSendInvariant.accept _ hw))
          exact fun _ ho => ho

theorem receive (received : List RecvAnswer) {w : W} (ho : (s.get w).1.ioState = .opened) (hw : I w) :
    I (Io.receive s cb received w) := by
  induction received generalizing w with
  | nil => exact hw
  | cons answer answers ih =>
    cases answer with
    | again => exact hw
    | failed => exact h.indicateError hw
    | bytes received =>
      unfold Io.receive
      split
      · exact hw
      · have hb : I (if (s.get w).1.callbacks then cb.onBytesReceived received w else w) := by
          split
          · exact h.bytes received w ‹_› ho hw
          · exact hw
        generalize (if (s.get w).1.callbacks then cb.onBytesReceived received w else w) = w' at hb ⊢
        simp only
        split
        · exact ih ‹_› hb
        · exact hb

theorem socketioDowork (answers : List SendAnswer) (received : List RecvAnswer) {w : W} (hw : I w) :
    I (Io.socketioDowork s cb answers received w) := by
  unfold Io.socketioDowork
  simp only
  split
  · exact h.receive received ‹_› (h.flush answers hw)
  · exact h.flush answers hw

end Invariant

end Invariant

end UMqtt.Io

/-
  UMqtt.Io.Losses — how a socket instance reports the loss of its connection.

  Three places of `socketio_dowork` meet a loss: a `send()` of the flush loop that fails
  (`flushFails`), and in the receive loop a `recv()` that fails or finds the end of the
  stream (`recvLost`). The first sets IO_STATE_ERROR, reports, and goes on with the next
  pending buffer; the second reports but leaves the instance open; the third does neither.

  Proved (`reportedOnce_iff`), over every run of `socketio_send` and `socketio_dowork` on an
  instance just opened, with callbacks that may send: every loss is reported once, leaves
  the instance no longer open and is followed by no other report if and only if no `recv()`
  of the run meets one and at most one `send()` of a queued buffer fails.
-/

import UMqtt.Io.SocketIo

namespace UMqtt.Io

open UMqtt.Lib UMqtt.Crt

/-! ## Losses -/

section Losses

variable {κ W : Type} (s : Slot W (SocketIoInstance κ × Mallocs)) (cb : SocketCallbacks κ W)

/-- The `send()`s of a flush that fail for good. -/
def flushFails : List SendAnswer → W → Nat
  | [], _ => 0
  | answer :: answers, w =>
    match (s.get w).1.pendingIoList with
    | [] => 0
    | pending :: rest =>
      match answer with
      | .again => 0
      | .fatal =>
        flushFails answers (indicateError s cb (update s (fun io => { io with pendingIoList := rest, ioState := .error }) w)) + 1
      | .accepted sendResult =>
        if sendResult < pending.bytes.length then 0
        else
          flushFails answers (update s (fun io => { io with pendingIoList := io.pendingIoList.tail })
            (sendCompleted s cb pending.onSendComplete (accept s pending.bytes w)))

/-- The receive loop gets to a `recv()` that fails or returns 0. -/
def recvLost : List RecvAnswer → W → Bool
  | [], _ => false
  | .again :: _, _ => false
  | .failed :: _, _ => true
  | .bytes received :: answers, w =>
    if received = [] then true
    else
      let w := if (s.get w).1.callbacks then cb.onBytesReceived received w else w
      if (s.get w).1.ioState = .opened then recvLost answers w else false

inductive SocketCall (κ : Type) where
  | send (buffer : List UInt8) (onSendComplete : Option κ) (answer : SendAnswer)
  | dowork (answers : List SendAnswer) (received : List RecvAnswer)

def SocketCall.run (c : SocketCall κ) (w : W) : Nat × W :=
  match c with
  | .send buffer onSendComplete answer => socketioSend s cb buffer onSendComplete answer w
  | .dowork answers received => (0, socketioDowork s cb answers received w)

def SocketCall.fails (c : SocketCall κ) (w : W) : Nat :=
  match c with
  | .send _ _ _ => 0
  | .dowork answers _ => flushFails s cb answers w

def SocketCall.lost (c : SocketCall κ) (w : W) : Bool :=
  match c with
  | .send _ _ _ => false
  | .dowork answers received =>
    if (s.get (flush s cb answers w)).1.ioState = .opened then recvLost s cb received (flush s cb answers w) else false

def fails : List (SocketCall κ) → W → Nat
  | [], _ => 0
  | c :: cs, w => c.fails s cb w + fails cs (c.run s cb w).2

/-- A `recv()` of the run meets a loss. -/
def lost : List (SocketCall κ) → W → Bool
  | [], _ => false
  | c :: cs, w => c.lost s cb w || lost cs (c.run s cb w).2

def after (cs : List (SocketCall κ)) (w : W) : W := (calls (SocketCall.run s cb) cs w).2

/-- In every call that meets a loss `on_io_error` is called once and the instance ceases to be
    open, and from then on it is not called again. `errors` counts its calls. -/
def ReportedOnce (errors : W → Nat) : List (SocketCall κ) → W → Prop
  | [], _ => True
  | c :: cs, w =>
    let v := (c.run s cb w).2
    (0 < c.fails s cb w ∨ c.lost s cb w = true →
        errors v = errors w + 1 ∧ (s.get v).1.ioState ≠ .opened ∧ errors (after s cb cs v) = errors v) ∧
      ReportedOnce errors cs v

theorem after_cons (c : SocketCall κ) (cs : List (SocketCall κ)) (w : W) :
    after s cb (c :: cs) w = after s cb cs (c.run s cb w).2 := rfl

/-! ## Callbacks -/

/-- The instance is no more open or closed than before, and its callbacks stay. -/
def Leaves (w w' : W) : Prop :=
  (s.get w').1.ioState = (s.get w).1.ioState ∧ (s.get w').1.callbacks = (s.get w).1.callbacks

/-- The callbacks may send, and do no more to the instance than that; `errors` counts the calls
    of `on_io_error`. -/
structure Contained (errors : W → Nat) : Prop where
  set : ∀ x w, errors (s.set x w) = errors w
  opened : ∀ r w, Leaves s w (cb.onIoOpenComplete r w)
  received : ∀ bytes w, Leaves s w (cb.onBytesReceived bytes w) ∧ errors (cb.onBytesReceived bytes w) = errors w
  complete : ∀ k w, Leaves s w (cb.onSendComplete k w) ∧ errors (cb.onSendComplete k w) = errors w
  error : ∀ w, Leaves s w (cb.onIoError w) ∧ errors (cb.onIoError w) = errors w + 1

/-- Nothing happens to the instance that the report of a loss depends on, and none is made. -/
def Quiet (errors : W → Nat) (w w' : W) : Prop := Leaves s w w' ∧ errors w' = errors w

variable {s cb} {errors : W → Nat}

theorem Leaves.rfl {w : W} : Leaves s w w := ⟨.refl _, .refl _⟩

theorem Leaves.trans {w w' w'' : W} (h : Leaves s w w') (h' : Leaves s w' w'') : Leaves s w w'' :=
  ⟨h'.1.trans h.1, h'.2.trans h.2⟩

theorem Quiet.rfl {w : W} : Quiet s errors w w := ⟨Leaves.rfl, .refl _⟩

theorem Quiet.trans {w w' w'' : W} (h : Quiet s errors w w') (h' : Quiet s errors w' w'') : Quiet s errors w w'' :=
  ⟨h.1.trans h'.1, h'.2.trans h.2⟩

section Contained

variable (h : Contained s cb errors)

include h

/-- A change of the instance that leaves its state and its callbacks. -/
theorem update_quiet {f : SocketIoInstance κ → SocketIoInstance κ} (w : W)
    (hf : ∀ io, (f io).ioState = io.ioState ∧ (f io).callbacks = io.callbacks) : Quiet s errors w (update s f w) := by
  refine ⟨⟨?_, ?_⟩, h.set _ _⟩
  · rw [get_update]; exact (hf _).1
  · rw [get_update]; exact (hf _).2

theorem accept_quiet (bytes : List UInt8) (w : W) : Quiet s errors w (accept s bytes w) :=
  update_quiet h w fun _ => ⟨rfl, rfl⟩

theorem sendCompleted_quiet (onSendComplete : Option κ) (w : W) : Quiet s errors w (sendCompleted s cb onSendComplete w) := by
  cases onSendComplete with
  | none => exact Quiet.rfl
  | some k =>
    have hlog := update_quiet h (f := fun io => { io with events := io.events ++ [.complete k] }) w fun _ => ⟨rfl, rfl⟩
    exact hlog.trans (h.complete k _)

theorem queue_quiet (buffer : List UInt8) (onSendComplete : Option κ) (w : W) :
    Quiet s errors w (queue s buffer onSendComplete w).2 := by
  refine ⟨?_, h.set _ _⟩
  simp only [Leaves, queue, s.get_set]
  unfold addPendingIo
  repeat' split
  all_goals exact ⟨rfl, rfl⟩

/-- `socketio_send` reports nothing through `on_io_error`. -/
theorem socketioSend_quiet (buffer : List UInt8) (onSendComplete : Option κ) (answer : SendAnswer) (w : W) :
    Quiet s errors w (socketioSend s cb buffer onSendComplete answer w).2 := by
  unfold socketioSend
  split
  · exact Quiet.rfl
  · split
    · exact Quiet.rfl
    · split
      · exact queue_quiet h _ _ w
      · cases answer with
        | again => exact Quiet.rfl
        | fatal => exact Quiet.rfl
        | accepted sendResult =>
          simp only
          split
          · exact (accept_quiet h _ w).trans (queue_quiet h _ _ _)
          · exact (accept_quiet h _ w).trans (sendCompleted_quiet h _ _)

/-- Each `send()` that fails in the flush loop is reported, and the first one ends the connection. -/
theorem flush_reports (answers : List SendAnswer) {w : W} (hc : (s.get w).1.callbacks = true) :
    let v := flush s cb answers w
    errors v = errors w + flushFails s cb answers w ∧ (s.get v).1.callbacks = true ∧
      (s.get v).1.ioState = if flushFails s cb answers w = 0 then (s.get w).1.ioState else .error := by
  induction answers generalizing w with
  | nil => exact ⟨rfl, hc, rfl⟩
  | cons answer answers ih =>
    unfold flush flushFails
    cases hp : (s.get w).1.pendingIoList with
    | nil => exact ⟨rfl, hc, rfl⟩
    | cons pending rest =>
      cases answer with
      | again => exact ⟨rfl, hc, rfl⟩
      | fatal =>
        obtain ⟨u, hu⟩ : ∃ u, u = update s (fun io => { io with pendingIoList := rest, ioState := .error }) w := ⟨_, rfl⟩
        have hcu : (s.get u).1.callbacks = true := by rw [hu, get_update]; exact hc
        have hsu : (s.get u).1.ioState = .error := by rw [hu, get_update]
        have heu : errors u = errors w := by rw [hu]; exact h.set _ _
        have hi : indicateError s cb u = cb.onIoError u := by rw [indicateError, if_pos hcu]
        obtain ⟨⟨hstate, hcall⟩, hcount⟩ := h.error u
        obtain ⟨herr, hcv, hsv⟩ := ih (hcall.trans hcu)
        simp only [← hu, hi]
        refine ⟨?_, hcv, ?_⟩
        · rw [herr, hcount, heu]; omega
        · rw [hsv, if_neg (Nat.succ_ne_zero _), hstate, hsu, ite_self]
      | accepted sendResult =>
        simp only
        split
        · obtain ⟨⟨hstate, hcall⟩, hcount⟩ := (accept_quiet h (pending.bytes.take sendResult) w).trans
            (update_quiet h (f := fun io => { io with
              pendingIoList := { pending with bytes := pending.bytes.drop sendResult } :: rest }) _ fun _ => ⟨rfl, rfl⟩)
          exact ⟨hcount, hcall.trans hc, hstate⟩
        · obtain ⟨⟨hstate, hcall⟩, hcount⟩ := ((accept_quiet h pending.bytes w).trans
            (sendCompleted_quiet h pending.onSendComplete _)).trans
            (update_quiet h (f := fun io => { io with pendingIoList := io.pendingIoList.tail }) _ fun _ => ⟨rfl, rfl⟩)
          obtain ⟨herr, hcv, hsv⟩ := ih (hcall.trans hc)
          exact ⟨by rw [herr, hcount], hcv, by rw [hsv, hstate]⟩

/-- The receive loop leaves an open instance open, whatever it meets. -/
theorem receive_stays (received : List RecvAnswer) {w : W} (hs : (s.get w).1.ioState = .opened) :
    Leaves s w (receive s cb received w) ∧
      (recvLost s cb received w = false → errors (receive s cb received w) = errors w) := by
  induction received generalizing w with
  | nil => exact ⟨Leaves.rfl, fun _ => rfl⟩
  | cons answer answers ih =>
    cases answer with
    | again => exact ⟨Leaves.rfl, fun _ => rfl⟩
    | failed =>
      refine ⟨?_, fun hl => by simp [recvLost] at hl⟩
      show Leaves s w (indicateError s cb w)
      unfold indicateError
      split
      · exact (h.error w).1
      · exact Leaves.rfl
    | bytes bytes =>
      unfold receive recvLost
      split
      · exact ⟨Leaves.rfl, fun hl => absurd hl (by decide)⟩
      · obtain ⟨u, hu⟩ : ∃ u, u = if (s.get w).1.callbacks then cb.onBytesReceived bytes w else w := ⟨_, rfl⟩
        have hwu : Quiet s errors w u := by
          rw [hu]
          split
          · exact h.received bytes w
          · exact Quiet.rfl
        have hsu : (s.get u).1.ioState = .opened := hwu.1.1.trans hs
        obtain ⟨hleaves, hquiet⟩ := ih hsu
        simp only [← hu, if_pos hsu]
        exact ⟨hwu.1.trans hleaves, fun hl => (hquiet hl).trans hwu.2⟩

/-! ## Calls and runs -/

/-- What a call does that meets no loss in the receive loop. -/
theorem run_reports (c : SocketCall κ) {w : W} (hc : (s.get w).1.callbacks = true) (hl : c.lost s cb w = false) :
    let v := (c.run s cb w).2
    errors v = errors w + c.fails s cb w ∧ (s.get v).1.callbacks = true ∧
      (s.get v).1.ioState = if c.fails s cb w = 0 then (s.get w).1.ioState else .error := by
  cases c with
  | send buffer onSendComplete answer =>
    obtain ⟨⟨hstate, hcall⟩, hcount⟩ := socketioSend_quiet h buffer onSendComplete answer w
    exact ⟨hcount, hcall.trans hc, hstate⟩
  | dowork answers received =>
    obtain ⟨herr, hcv, hsv⟩ := flush_reports h answers hc
    simp only [SocketCall.run, SocketCall.fails, SocketCall.lost, socketioDowork] at hl ⊢
    split
    · rename_i ho
      rw [if_pos ho] at hl
      obtain ⟨⟨hstate, hcall⟩, hquiet⟩ := receive_stays h received ho
      exact ⟨(hquiet hl).trans herr, hcall.trans hcv, hstate.trans hsv⟩
    · exact ⟨herr, hcv, hsv⟩

/-- A loss met in the receive loop leaves the instance open. -/
theorem lost_stays_open {c : SocketCall κ} {w : W} (hl : c.lost s cb w = true) :
    (s.get (c.run s cb w).2).1.ioState = .opened := by
  cases c with
  | send buffer onSendComplete answer => cases hl
  | dowork answers received =>
    simp only [SocketCall.lost] at hl
    split at hl
    · rename_i ho
      simp only [SocketCall.run, socketioDowork, if_pos ho]
      exact (receive_stays h received ho).1.1.trans ho
    · cases hl

/-- Every failed send of a run is reported, unless a `recv()` meets a loss. -/
theorem after_reports (cs : List (SocketCall κ)) {w : W} (hc : (s.get w).1.callbacks = true) (hl : lost s cb cs w = false) :
    errors (after s cb cs w) = errors w + fails s cb cs w := by
  induction cs generalizing w with
  | nil => rfl
  | cons c cs ih =>
    obtain ⟨hlc, hls⟩ := Bool.or_eq_false_iff.mp hl
    obtain ⟨herr, hcv, -⟩ := run_reports h c hc hlc
    rw [after_cons, ih hcv hls, herr, fails, Nat.add_assoc]

/-- Behind a failed send no `recv()` is made. -/
theorem error_not_lost (cs : List (SocketCall κ)) {w : W} (hc : (s.get w).1.callbacks = true)
    (hs : (s.get w).1.ioState = .error) : lost s cb cs w = false := by
  induction cs generalizing w with
  | nil => rfl
  | cons c cs ih =>
    have hl : c.lost s cb w = false := by
      cases c with
      | send buffer onSendComplete answer => rfl
      | dowork answers received =>
        have hv := (flush_reports h answers hc).2.2
        rw [hs, ite_self] at hv
        simp only [SocketCall.lost, hv, reduceCtorEq, if_false]
    obtain ⟨-, hcv, hsv⟩ := run_reports h c hc hl
    rw [hs, ite_self] at hsv
    rw [lost, hl, ih hcv hsv]; rfl

omit h in
theorem reportedOnce_of_none (cs : List (SocketCall κ)) {w : W} (hf : fails s cb cs w = 0) (hl : lost s cb cs w = false) :
    ReportedOnce s cb errors cs w := by
  induction cs generalizing w with
  | nil => trivial
  | cons c cs ih =>
    obtain ⟨hfc, hfs⟩ := Nat.add_eq_zero_iff.mp hf
    obtain ⟨hlc, hls⟩ := Bool.or_eq_false_iff.mp hl
    refine ⟨fun hloss => ?_, ih hfs hls⟩
    rcases hloss with hloss | hloss
    · omega
    · rw [hlc] at hloss; cases hloss

theorem reportedOnce_of_open (cs : List (SocketCall κ)) {w : W} (hc : (s.get w).1.callbacks = true)
    (hs : (s.get w).1.ioState = .opened) :
    ReportedOnce s cb errors cs w ↔ lost s cb cs w = false ∧ fails s cb cs w ≤ 1 := by
  induction cs generalizing w with
  | nil => exact ⟨fun _ => ⟨rfl, Nat.zero_le _⟩, fun _ => trivial⟩
  | cons c cs ih =>
    simp only [ReportedOnce, lost, fails]
    cases hl : c.lost s cb w with
    | true =>
      rw [Bool.true_or]
      exact ⟨fun hr => absurd (lost_stays_open h hl) (hr.1 (Or.inr rfl)).2.1, fun hr => nomatch hr.1⟩
    | false =>
      obtain ⟨herr, hcv, hsv⟩ := run_reports h c hc hl
      rw [Bool.false_or]
      by_cases hf : c.fails s cb w = 0
      · rw [if_pos hf, hs] at hsv
        rw [ih hcv hsv, hf, Nat.zero_add]
        exact ⟨fun hr => hr.2, fun hr => ⟨fun hloss => by simp at hloss, hr⟩⟩
      · rw [if_neg hf] at hsv
        have hlv := error_not_lost h cs hcv hsv
        have hafter := after_reports h cs hcv hlv
        rw [hlv, hsv, hafter, herr]
        constructor
        · intro hr
          obtain ⟨hone, -, hlast⟩ := hr.1 (Or.inl (Nat.pos_of_ne_zero hf))
          exact ⟨rfl, by omega⟩
        · intro hr
          have hnone : fails s cb cs (c.run s cb w).2 = 0 := by omega
          exact ⟨fun _ => ⟨by omega, nofun, by omega⟩, reportedOnce_of_none cs hnone hlv⟩

/-- An open that succeeds opens the instance and sets its callbacks. -/
theorem socketioOpen_opens {connects : Bool} {w : W} (hopen : (socketioOpen s cb connects w).1 = 0) :
    (s.get (socketioOpen s cb connects w).2).1.callbacks = true ∧
      (s.get (socketioOpen s cb connects w).2).1.ioState = .opened := by
  obtain ⟨r, hr, hres⟩ : ∃ r : Nat × W,
      socketioOpen s cb connects w = (r.1, cb.onIoOpenComplete (if r.1 = 0 then .ok else .error) r.2) ∧
        (r.1 = failure ∨ (s.get r.2).1.callbacks = true ∧ (s.get r.2).1.ioState = .opened) := by
    refine ⟨_, rfl, ?_⟩
    repeat' split
    · exact Or.inl rfl
    · exact Or.inr ⟨by rw [get_update], by rw [get_update]⟩
    · exact Or.inr ⟨by rw [get_update], by rw [get_update]⟩
    · exact Or.inl rfl
  rw [hr] at hopen ⊢
  rcases hres with hfail | ⟨hcall, hio⟩
  · exact absurd (hfail.symm.trans hopen) (show Crt.failure ≠ 0 by decide)
  · obtain ⟨hio', hcall'⟩ := h.opened (if r.1 = 0 then .ok else .error) r.2
    exact ⟨hcall'.trans hcall, hio'.trans hio⟩

/-- Over every run of an instance just opened: each loss of the connection is reported once
    if and only if none is met by a `recv()` and at most one queued send fails. -/
theorem reportedOnce_iff {connects : Bool} {w : W} (hopen : (socketioOpen s cb connects w).1 = 0) (cs : List (SocketCall κ)) :
    ReportedOnce s cb errors cs (socketioOpen s cb connects w).2 ↔
      lost s cb cs (socketioOpen s cb connects w).2 = false ∧ fails s cb cs (socketioOpen s cb connects w).2 ≤ 1 := by
  obtain ⟨hcall, hio⟩ := socketioOpen_opens h hopen
  exact reportedOnce_of_open h cs hcall hio

end Contained

/-! ## An instance with a counter -/

/-- An instance and its allocator, in front of a counter. -/
def counterSlot (κ : Type) : Slot ((SocketIoInstance κ × Mallocs) × Nat) (SocketIoInstance κ × Mallocs) :=
  ⟨Prod.fst, fun x w => (x, w.2), fun _ _ => rfl, fun _ _ _ => rfl, fun _ => rfl⟩

def SocketCallbacks.counting (κ : Type) : SocketCallbacks κ ((SocketIoInstance κ × Mallocs) × Nat) :=
  ⟨fun _ w => w, fun _ w => w, fun w => (w.1, w.2 + 1), fun _ w => w, fun w => w⟩

theorem counting_contained (κ : Type) : Contained (counterSlot κ) (.counting κ) Prod.snd :=
  ⟨fun _ _ => rfl, fun _ _ => Leaves.rfl, fun _ _ => Quiet.rfl, fun _ _ => Quiet.rfl, fun _ => ⟨Leaves.rfl, rfl⟩⟩

def openCounter : Nat × ((SocketIoInstance Nat × Mallocs) × Nat) :=
  socketioOpen (counterSlot Nat) (.counting Nat) true ((SocketIoInstance.create Nat, []), 0)

/-- A buffer half sent, and then the connection is gone. -/
theorem failed_send_reportedOnce :
    let cs : List (SocketCall Nat) := [.send [5, 6] (some 1) (.accepted 1), .dowork [.fatal] [.bytes []], .dowork [] [.failed]]
    openCounter.1 = 0 ∧ fails (counterSlot Nat) (.counting Nat) cs openCounter.2 = 1 ∧
      ReportedOnce (counterSlot Nat) (.counting Nat) Prod.snd cs openCounter.2 := by
  intro cs
  exact ⟨by decide, by decide, (reportedOnce_iff (counting_contained Nat) (by decide) cs).mpr (by decide)⟩

/-- The end of the stream is not reported; a `recv()` that fails is, and leaves the instance open,
    to be reported again; two queued sends that fail are two reports. -/
theorem losses_not_reportedOnce :
    (let cs : List (SocketCall Nat) := [.dowork [] [.bytes []]];
      (after (counterSlot Nat) (.counting Nat) cs openCounter.2).2 = 0 ∧
        ¬ ReportedOnce (counterSlot Nat) (.counting Nat) Prod.snd cs openCounter.2) ∧
    (let cs : List (SocketCall Nat) := [.dowork [] [.failed], .dowork [] [.failed]];
      (after (counterSlot Nat) (.counting Nat) cs openCounter.2).2 = 2 ∧
        ¬ ReportedOnce (counterSlot Nat) (.counting Nat) Prod.snd cs openCounter.2) ∧
    (let cs : List (SocketCall Nat) := [.send [5, 6] none (.accepted 1), .send [7] none .again, .dowork [.fatal, .fatal] []];
      (after (counterSlot Nat) (.counting Nat) cs openCounter.2).2 = 2 ∧
        ¬ ReportedOnce (counterSlot Nat) (.counting Nat) Prod.snd cs openCounter.2) := by
  refine ⟨⟨by decide, fun hr => ?_⟩, ⟨by decide, fun hr => ?_⟩, by decide, fun hr => ?_⟩
  · exact absurd (hr.1 (Or.inr (by decide))).1 (by decide)
  · exact absurd (hr.1 (Or.inr (by decide))).2.1 (by decide)
  · exact absurd (hr.2.2.1 (Or.inl (by decide))).1 (by decide)

end Losses

end UMqtt.Io

/-
  UMqtt.Io.Lives — a socket transport that is opened again and again.

  `socketio_close` leaves the pending list as it is, so what was queued is still there when the
  instance is opened again. A run is a list of calls, and every callback may make more of them,
  nested to any depth (`perform`); `before` is what the socket had accepted when the instance was
  last opened, `passed` what has been passed to `socketio_send` since.

  Each note holds the moment it was written at. A run whose notes are all in order (`Orderly`)
  keeps the socket within what was passed on since the open (`Kept`, `perform_follows`).
-/

import UMqtt.Io.Transmit

namespace UMqtt.Io.Lives

open UMqtt.Lib UMqtt.Crt

/-! ## The lives of a socket -/

inductive LifeCall (κ : Type) where
  | openIo (connects : Bool)
  | close (callback : Bool)
  | send (buffer : List UInt8) (onSendComplete : Option κ) (answer : SendAnswer)
  | dowork (answers : List SendAnswer) (received : List RecvAnswer)

structure LifeMoment (κ : Type) where
  io : SocketIoInstance κ
  before : List UInt8
  passed : List UInt8
  /-- `socketio_dowork` is in the `on_send_complete` of the item in front. -/
  sending : Bool

inductive LifeNote (κ : Type) where
  | called (c : LifeCall κ) (m : LifeMoment κ)
  | opened (m : LifeMoment κ)
  | told (m : LifeMoment κ)

/-- `script` is what the coming callbacks do. -/
structure SocketLife (κ : Type) where
  socket : SocketIoInstance κ × Mallocs
  script : List (List (LifeCall κ))
  before : List UInt8
  passed : List UInt8
  sending : Bool
  notes : List (LifeNote κ)

variable {κ : Type}

def LifeNote.moment : LifeNote κ → LifeMoment κ
  | .called _ m => m
  | .opened m => m
  | .told m => m

def lifeSlot : Slot (SocketLife κ) (SocketIoInstance κ × Mallocs) :=
  ⟨(·.socket), fun x w => { w with socket := x }, fun _ _ => rfl, fun _ _ _ => rfl, fun _ => rfl⟩

def moment (w : SocketLife κ) : LifeMoment κ := ⟨w.socket.1, w.before, w.passed, w.sending⟩

def writeNote (n : LifeNote κ) (w : SocketLife κ) : SocketLife κ := { w with notes := w.notes ++ [n] }

section Callbacks

variable (perform : LifeCall κ → SocketLife κ → SocketLife κ)

def respond (w : SocketLife κ) : SocketLife κ :=
  (w.script.headD []).foldl (fun w c => perform c w) { w with script := w.script.tail }

def lifeCallbacks : SocketCallbacks κ (SocketLife κ) where
  onIoOpenComplete r w :=
    if r = .ok then
      let w := { w with before := accepted w.socket.1.events, passed := [] }
      respond perform (writeNote (.opened (moment w)) w)
    else respond perform (writeNote (.told (moment w)) w)
  onBytesReceived _ w := respond perform (writeNote (.told (moment w)) w)
  onIoError w := respond perform (writeNote (.told (moment w)) w)
  onSendComplete _ w :=
    let v := { w with sending := !w.socket.1.pendingIoList.isEmpty }
    { respond perform (writeNote (.told (moment v)) v) with sending := w.sending }
  onIoCloseComplete w := respond perform (writeNote (.told (moment w)) w)

def LifeCall.run (c : LifeCall κ) (w : SocketLife κ) : SocketLife κ :=
  match c with
  | .openIo connects => (socketioOpen lifeSlot (lifeCallbacks perform) connects w).2
  | .close callback => (socketioClose lifeSlot (lifeCallbacks perform) callback w).2
  | .send buffer onSendComplete answer =>
    (socketioSend lifeSlot (lifeCallbacks perform) buffer onSendComplete answer { w with passed := w.passed ++ buffer }).2
  | .dowork answers received => socketioDowork lifeSlot (lifeCallbacks perform) answers received w

end Callbacks

def perform : Nat → LifeCall κ → SocketLife κ → SocketLife κ
  | 0, _, w => w
  | n + 1, c, w => c.run (perform n) (writeNote (.called c (moment w)) w)

def performAll (n : Nat) (calls : List (LifeCall κ)) (w : SocketLife κ) : SocketLife κ :=
  calls.foldl (fun w c => perform n c w) w

def created (script : List (List (LifeCall κ))) (mallocs : Mallocs) : SocketLife κ :=
  ⟨(.create κ, mallocs), script, [], [], false, []⟩

/-! ## What is handed to the socket -/

def queued (l : List (PendingSocketIo κ)) : List UInt8 := l.flatMap (·.bytes)

def LifeMoment.waiting (m : LifeMoment κ) : List (PendingSocketIo κ) :=
  if m.sending then m.io.pendingIoList.tail else m.io.pendingIoList

/-- What the socket has accepted since the open is a prefix of what was passed on since. -/
def Carries (m : LifeMoment κ) : Prop := ∃ since, accepted m.io.events = m.before ++ since ∧ since <+: m.passed

/-- What waits goes on where the socket has got to. -/
def Continues (m : LifeMoment κ) : Prop := accepted m.io.events ++ queued m.waiting <+: m.before ++ m.passed

/-- Nothing was dropped since the open. -/
def Whole (m : LifeMoment κ) : Prop := accepted m.io.events ++ queued m.waiting = m.before ++ m.passed

instance (m : LifeMoment κ) : Decidable (Continues m) := inferInstanceAs (Decidable (_ <+: _))

instance (m : LifeMoment κ) : Decidable (Whole m) := inferInstanceAs (Decidable (_ = _))

theorem carries_iff {m : LifeMoment κ} :
    Carries m ↔ m.before <+: accepted m.io.events ∧ (accepted m.io.events).drop m.before.length <+: m.passed := by
  constructor
  · intro h
    rcases h with ⟨since, hs, hpassed⟩
    rw [hs, List.drop_left]
    exact ⟨List.prefix_append _ _, hpassed⟩
  · intro h
    rcases h with ⟨⟨since, hs⟩, hpassed⟩
    rw [← hs, List.drop_left] at hpassed
    exact ⟨since, hs.symm, hpassed⟩

instance (m : LifeMoment κ) : Decidable (Carries m) := decidable_of_iff _ carries_iff.symm

def accepts : SendAnswer → Bool
  | .accepted _ => true
  | _ => false

/-- Behind a `send()` that fails, none accepts anything. -/
def Failing : List SendAnswer → Prop
  | [] => True
  | .fatal :: answers => ∀ a ∈ answers, accepts a = false
  | _ :: answers => Failing answers

def LifeNote.Orderly : LifeNote κ → Prop
  | .opened m => m.io.pendingIoList = []
  | .called (.send _ _ answer) m => m.io.ioState = .opened →
    Whole m ∨ m.io.pendingIoList = [] ∧ accepts answer = false
  | .called (.dowork answers _) m => m.sending = false ∧ (Continues m ∨ ∀ a ∈ answers, accepts a = false) ∧ Failing answers
  | _ => True

instance : ∀ answers : List SendAnswer, Decidable (Failing answers)
  | [] => isTrue trivial
  | .fatal :: answers => inferInstanceAs (Decidable (∀ a ∈ answers, accepts a = false))
  | .accepted _ :: answers => instDecidableFailing answers
  | .again :: answers => instDecidableFailing answers

instance (n : LifeNote κ) : Decidable n.Orderly := by
  rcases n with ⟨_ | _ | _ | _, m⟩ | m | m
  · exact isTrue trivial
  · exact isTrue trivial
  · exact inferInstanceAs (Decidable (_ → _))
  · exact inferInstanceAs (Decidable (_ ∧ _))
  · exact inferInstanceAs (Decidable (_ = _))
  · exact isTrue trivial

/-- Behind an open, the socket has got no further than what was passed on. -/
structure Fit (w : SocketLife κ) : Prop where
  before : w.before <+: accepted w.socket.1.events
  fits : accepted w.socket.1.events <+: w.before ++ w.passed
  continues : w.socket.1.ioState = .opened ∨ w.sending = true → Continues (moment w)
  sending : w.sending = true → w.socket.1.pendingIoList ≠ []

structure Kept (w : SocketLife κ) : Prop where
  fit : Fit w
  carries : ∀ n ∈ w.notes, Carries n.moment

structure Grows (w w' : SocketLife κ) : Prop where
  notes : w.notes <+: w'.notes
  sending : w'.sending = w.sending

structure Follows (w w' : SocketLife κ) : Prop extends Grows w w' where
  kept : (∀ n ∈ w'.notes, n.Orderly) → Kept w → Kept w'

variable {w w' w'' : SocketLife κ}

theorem Fit.carries (h : Fit w) : Carries (moment w) := by
  rcases h.before with ⟨since, hs⟩
  refine ⟨since, hs.symm, ?_⟩
  have hfits := h.fits
  rw [← hs] at hfits
  exact (List.prefix_append_right_inj _).mp hfits

theorem Grows.rfl : Grows w w := ⟨List.prefix_refl _, .refl _⟩

theorem Grows.trans (h : Grows w w') (h' : Grows w' w'') : Grows w w'' :=
  ⟨h.notes.trans h'.notes, h'.sending.trans h.sending⟩

theorem Follows.rfl : Follows w w := ⟨Grows.rfl, fun _ hw => hw⟩

theorem Follows.trans (h : Follows w w') (h' : Follows w' w'') : Follows w w'' := by
  refine ⟨h.toGrows.trans h'.toGrows, ?_⟩
  intro ho hw
  exact h'.kept ho (h.kept (fun n hn => ho n (h'.notes.subset hn)) hw)

theorem waiting_same {m m' : LifeMoment κ} (hs : m'.sending = m.sending) (hq : m'.io.pendingIoList = m.io.pendingIoList) :
    m'.waiting = m.waiting := by
  unfold LifeMoment.waiting
  rw [hs, hq]

theorem waiting_all {m : LifeMoment κ} (h : m.sending = false) : m.waiting = m.io.pendingIoList := by
  unfold LifeMoment.waiting
  rw [if_neg (by rw [h]; decide)]

theorem waiting_nil {m : LifeMoment κ} (h : m.io.pendingIoList = []) : m.waiting = [] := by
  unfold LifeMoment.waiting
  split <;> simp [h]

theorem queued_behind {m : LifeMoment κ} (p : PendingSocketIo κ) (h : m.sending = true → m.io.pendingIoList ≠ []) :
    queued { m with io := { m.io with pendingIoList := m.io.pendingIoList ++ [p] } }.waiting = queued m.waiting ++ p.bytes := by
  rcases m with ⟨⟨_, _, _, pendingIoList, _⟩, _, _, sending⟩
  cases sending with
  | false => simp [LifeMoment.waiting, queued]
  | true =>
    cases pendingIoList with
    | nil => exact absurd (.refl _) (h (.refl _))
    | cons front rest => simp [LifeMoment.waiting, queued]

/-- Nothing that the socket is about to send, or has accepted, changes. -/
theorem follows_same (hb : w'.before = w.before) (hp : w'.passed = w.passed) (hs : w'.sending = w.sending)
    (hn : w'.notes = w.notes) (he : accepted w'.socket.1.events = accepted w.socket.1.events)
    (hq : w'.socket.1.pendingIoList = w.socket.1.pendingIoList)
    (ho : w'.socket.1.ioState = .opened → w.socket.1.ioState = .opened) : Follows w w' := by
  have hwaiting : (moment w').waiting = (moment w).waiting := waiting_same hs hq
  refine ⟨⟨by rw [hn], hs⟩, fun _ hw => ⟨⟨?_, ?_, ?_, ?_⟩, by rw [hn]; exact hw.carries⟩⟩
  · rw [hb, he]
    exact hw.fit.before
  · rw [hb, hp, he]
    exact hw.fit.fits
  · intro h
    have hcontinues : accepted w.socket.1.events ++ queued (moment w).waiting <+: w.before ++ w.passed :=
      hw.fit.continues (h.imp ho fun h => hs.symm.trans h)
    rw [← hwaiting, ← hb, ← hp, ← he] at hcontinues
    exact hcontinues
  · rw [hs, hq]
    exact hw.fit.sending

/-- The socket gets no further than what was passed on, and what waits goes on there. -/
theorem Kept.moved (hw : Kept w) (hb : w'.before = w.before) (hn : w'.notes = w.notes)
    (he : accepted w.socket.1.events <+: accepted w'.socket.1.events) (hc : Continues (moment w'))
    (hs : w'.sending = true → w'.socket.1.pendingIoList ≠ []) : Kept w' := by
  refine ⟨⟨?_, ?_, fun _ => hc, hs⟩, by rw [hn]; exact hw.carries⟩
  · rw [hb]
    exact hw.fit.before.trans he
  · exact (List.prefix_append _ _).trans hc

/-- Nothing is sent any more. -/
theorem Kept.stopped (hw : Kept w) (hb : w'.before = w.before) (hp : w'.passed = w.passed) (hn : w'.notes = w.notes)
    (he : w'.socket.1.events = w.socket.1.events) (ho : w'.socket.1.ioState ≠ .opened) (hs : w'.sending = false) : Kept w' := by
  refine ⟨⟨by rw [hb, he]; exact hw.fit.before, by rw [hb, hp, he]; exact hw.fit.fits, ?_, ?_⟩, by rw [hn]; exact hw.carries⟩
  · intro h
    rcases h with h | h
    · exact absurd h ho
    · exact absurd (hs.symm.trans h) (by decide)
  · intro h
    exact absurd (hs.symm.trans h) (by decide)

theorem note_follows {n : LifeNote κ} (hn : Kept w → Carries n.moment) : Follows w (writeNote n w) := by
  refine ⟨⟨List.prefix_append _ _, .refl _⟩, ?_⟩
  intro _ hw
  refine ⟨⟨hw.fit.before, hw.fit.fits, hw.fit.continues, hw.fit.sending⟩, ?_⟩
  intro m hm
  rcases List.mem_append.mp hm with hm | hm
  · exact hw.carries m hm
  · rw [List.mem_singleton.mp hm]
    exact hn hw

theorem called_follows (c : LifeCall κ) (w : SocketLife κ) : Follows w (writeNote (.called c (moment w)) w) :=
  note_follows fun hw => hw.fit.carries

/-- More is passed on. -/
theorem passed_follows (buffer : List UInt8) (w : SocketLife κ) : Follows w { w with passed := w.passed ++ buffer } := by
  refine ⟨⟨List.prefix_refl _, .refl _⟩, fun _ hw => ⟨⟨hw.fit.before, ?_, ?_, hw.fit.sending⟩, hw.carries⟩⟩
  · exact hw.fit.fits.trans ((List.prefix_append_right_inj _).mpr (List.prefix_append _ _))
  · intro h
    exact (hw.fit.continues h).trans ((List.prefix_append_right_inj _).mpr (List.prefix_append _ _))

theorem queue_kept (buffer : List UInt8) (onSendComplete : Option κ) (hw : Kept w)
    (hc : accepted w.socket.1.events ++ queued (moment w).waiting ++ buffer <+: w.before ++ w.passed) :
    Kept (queue lifeSlot buffer onSendComplete w).2 := by
  have hrefused : ∀ ms, Kept { w with socket := (w.socket.1, ms) } := by
    intro ms
    have hwaiting : (moment w).waiting = (moment { w with socket := (w.socket.1, ms) }).waiting := .refl _
    refine hw.moved (.refl _) (.refl _) (List.prefix_refl _) ?_ hw.fit.sending
    rw [hwaiting] at hc
    exact (List.prefix_append _ _).trans hc
  simp only [queue, addPendingIo, lifeSlot]
  split
  · exact hrefused _
  · split
    · exact hrefused _
    · split
      · exact hrefused _
      · refine hw.moved (.refl _) (.refl _) (List.prefix_refl _) ?_ (by simp)
        have hbehind := queued_behind (m := moment w) ⟨buffer, onSendComplete⟩ hw.fit.sending
        rw [List.append_assoc, ← hbehind] at hc
        exact hc

theorem accepted_accept (bytes : List UInt8) (w : SocketLife κ) :
    accepted (accept lifeSlot bytes w).socket.1.events = accepted w.socket.1.events ++ bytes := by
  show accepted (w.socket.1.events ++ [.accepted bytes]) = _
  rw [accepted_append]
  simp [accepted]

theorem sending_same {b : Bool} (h : w.sending = b) : { w with sending := b } = w := by
  subst h
  exact .refl _

theorem failing_of_none {answers : List SendAnswer} (h : ∀ a ∈ answers, accepts a = false) : Failing answers := by
  induction answers with
  | nil => trivial
  | cons answer answers ih =>
    have hrest := fun a ha => h a (List.mem_cons_of_mem _ ha)
    cases answer with
    | accepted sendResult => exact ih hrest
    | again => exact ih hrest
    | fatal => exact hrest

/-- Nothing was dropped and nothing waits, and the socket takes the start of what is passed on. -/
theorem accept_kept {bytes buffer : List UInt8} (hw : Kept w) (hq : w.socket.1.pendingIoList = []) (hwhole : Whole (moment w))
    (hb : bytes <+: buffer) :
    accepted (accept lifeSlot bytes { w with passed := w.passed ++ buffer }).socket.1.events = w.before ++ (w.passed ++ bytes) ∧
      Kept (accept lifeSlot bytes { w with passed := w.passed ++ buffer }) := by
  have hevents : accepted w.socket.1.events = w.before ++ w.passed := by
    have h : accepted w.socket.1.events ++ queued (moment w).waiting = w.before ++ w.passed := hwhole
    rw [waiting_nil hq] at h
    simpa [queued] using h
  have haccepted : accepted (accept lifeSlot bytes { w with passed := w.passed ++ buffer }).socket.1.events =
      w.before ++ (w.passed ++ bytes) := by
    rw [accepted_accept, ← List.append_assoc, ← hevents]
  refine ⟨haccepted, hw.moved (.refl _) (.refl _) ?_ ?_ hw.fit.sending⟩
  · rw [haccepted, hevents, ← List.append_assoc]
    exact List.prefix_append _ _
  · have hnone : (moment (accept lifeSlot bytes { w with passed := w.passed ++ buffer })).waiting = [] := waiting_nil hq
    unfold Continues
    rw [hnone]
    show accepted (accept lifeSlot bytes { w with passed := w.passed ++ buffer }).socket.1.events ++ queued [] <+:
      w.before ++ (w.passed ++ buffer)
    rw [haccepted, queued, List.flatMap_nil, List.append_nil, List.prefix_append_right_inj, List.prefix_append_right_inj]
    exact hb

section Front

variable {front : PendingSocketIo κ} {rest : List (PendingSocketIo κ)} (hw : Kept w) (hs : w.sending = false)
  (hq : w.socket.1.pendingIoList = front :: rest) (hc : Continues (moment w))

include hs hq hc

theorem front_continues : accepted w.socket.1.events ++ (front.bytes ++ queued rest) <+: w.before ++ w.passed := by
  have hwaiting : (moment w).waiting = front :: rest := (waiting_all hs).trans hq
  have h : accepted w.socket.1.events ++ queued (moment w).waiting <+: w.before ++ w.passed := hc
  rw [hwaiting] at h
  exact h

include hw

/-- The socket takes a part of the item in front. -/
theorem part_kept (n : Nat) :
    Kept (update lifeSlot (fun io => { io with pendingIoList := { front with bytes := front.bytes.drop n } :: rest })
      (accept lifeSlot (front.bytes.take n) w)) := by
  have hfront := front_continues hs hq hc
  refine hw.moved (.refl _) (.refl _) ?_ ?_ fun h => absurd (hs.symm.trans h) (by decide)
  · show accepted w.socket.1.events <+: accepted (accept lifeSlot (front.bytes.take n) w).socket.1.events
    rw [accepted_accept]
    exact List.prefix_append _ _
  · have hwaiting : (moment (update lifeSlot
        (fun io => { io with pendingIoList := { front with bytes := front.bytes.drop n } :: rest })
        (accept lifeSlot (front.bytes.take n) w))).waiting = { front with bytes := front.bytes.drop n } :: rest :=
      waiting_all hs
    unfold Continues
    rw [hwaiting]
    show accepted (accept lifeSlot (front.bytes.take n) w).socket.1.events ++ (front.bytes.drop n ++ queued rest) <+:
      w.before ++ w.passed
    rw [accepted_accept, List.append_assoc, ← List.append_assoc (front.bytes.take n), List.take_append_drop]
    exact hfront

/-- The socket takes the item in front, and its callback comes. -/
theorem front_kept : Kept { accept lifeSlot front.bytes w with sending := true } := by
  have hfront := front_continues hs hq hc
  refine hw.moved (.refl _) (.refl _) ?_ ?_ fun _ => ?_
  · show accepted w.socket.1.events <+: accepted (accept lifeSlot front.bytes w).socket.1.events
    rw [accepted_accept]
    exact List.prefix_append _ _
  · show accepted (accept lifeSlot front.bytes w).socket.1.events ++ queued w.socket.1.pendingIoList.tail <+: w.before ++ w.passed
    rw [accepted_accept, hq, List.append_assoc]
    exact hfront
  · show w.socket.1.pendingIoList ≠ []
    rw [hq]
    exact List.cons_ne_nil _ _

omit hs hq hc in
/-- Behind its callback, the item in front is removed. -/
theorem popped_kept (hsending : w.sending = true) :
    Continues (moment (update lifeSlot (fun io => { io with pendingIoList := io.pendingIoList.tail }) { w with sending := false })) ∧
      Kept (update lifeSlot (fun io => { io with pendingIoList := io.pendingIoList.tail }) { w with sending := false }) := by
  have hcontinues : accepted w.socket.1.events ++ queued (moment w).waiting <+: w.before ++ w.passed :=
    hw.fit.continues (.inr hsending)
  have hwaiting : (moment w).waiting = w.socket.1.pendingIoList.tail := by
    unfold LifeMoment.waiting
    exact if_pos hsending
  rw [hwaiting] at hcontinues
  refine ⟨hcontinues, hw.moved (.refl _) (.refl _) (List.prefix_refl _) hcontinues ?_⟩
  intro h
  cases h

end Front

/-! ## Callbacks -/

section Callbacks

variable {perform : LifeCall κ → SocketLife κ → SocketLife κ} (hp : ∀ c w, Follows w (perform c w))

include hp

theorem respond_follows (w : SocketLife κ) : Follows w (respond perform w) := by
  have hfold : ∀ (calls : List (LifeCall κ)) (w : SocketLife κ), Follows w (calls.foldl (fun w c => perform c w) w) := by
    intro calls
    induction calls with
    | nil => exact fun _ => Follows.rfl
    | cons c calls ih => exact fun w => (hp c w).trans (ih _)
  have htail : Follows w { w with script := w.script.tail } :=
    follows_same (.refl _) (.refl _) (.refl _) (.refl _) (.refl _) (.refl _) id
  exact htail.trans (hfold _ _)

theorem told_follows (w : SocketLife κ) : Follows w (respond perform (writeNote (.told (moment w)) w)) := by
  have hnote : Follows w (writeNote (.told (moment w)) w) := note_follows fun hw => hw.fit.carries
  exact hnote.trans (respond_follows hp _)

theorem indicateError_follows (w : SocketLife κ) : Follows w (indicateError lifeSlot (lifeCallbacks perform) w) := by
  unfold indicateError
  split
  · exact told_follows hp w
  · exact Follows.rfl

/-- Opened with nothing pending, the instance starts afresh. -/
theorem opened_follows (w : SocketLife κ) :
    Follows w ((lifeCallbacks perform).onIoOpenComplete .ok
      (update lifeSlot (fun io => { io with socket := true, callbacks := true, ioState := .opened }) w)) := by
  obtain ⟨v, hv⟩ : ∃ v : SocketLife κ, v =
      { update lifeSlot (fun io => { io with socket := true, callbacks := true, ioState := .opened }) w with
        before := accepted w.socket.1.events, passed := [] } := ⟨_, .refl _⟩
  have hopened : Follows w (writeNote (.opened (moment v)) v) := by
    refine ⟨⟨by rw [hv]; exact List.prefix_append _ _, by rw [hv]; exact .refl _⟩, ?_⟩
    intro ho hw
    have hnone : w.socket.1.pendingIoList = [] := by
      have horderly := ho (.opened (moment v)) (List.mem_append_right _ (List.mem_singleton_self _))
      rw [hv] at horderly
      exact horderly
    have hs : w.sending = false := by
      cases h : w.sending with
      | false => exact .refl _
      | true => exact absurd hnone (hw.fit.sending h)
    have hfit : Fit v := by
      rw [hv]
      refine ⟨List.prefix_refl _, List.prefix_append _ _, ?_, fun h => absurd (hs.symm.trans h) (by decide)⟩
      intro _
      simp only [Continues, LifeMoment.waiting, moment, update, lifeSlot, Slot.modify, hs, hnone, queued]
      simp
    have hnotes : v.notes = w.notes := by rw [hv]; exact .refl _
    refine ⟨⟨hfit.before, hfit.fits, hfit.continues, hfit.sending⟩, ?_⟩
    intro n hn
    rcases List.mem_append.mp hn with hn | hn
    · exact hw.carries n (hnotes ▸ hn)
    · rw [List.mem_singleton.mp hn]
      exact hfit.carries
  rw [hv] at hopened
  exact hopened.trans (respond_follows hp _)

/-- Whatever an item's callback does, it does while the item is in front. -/
theorem sendCompleted_follows (onSendComplete : Option κ) (w : SocketLife κ) :
    ∃ v, Follows { w with sending := !w.socket.1.pendingIoList.isEmpty } v ∧
      sendCompleted lifeSlot (lifeCallbacks perform) onSendComplete w = { v with sending := w.sending } := by
  cases onSendComplete with
  | none => exact ⟨_, Follows.rfl, .refl _⟩
  | some k =>
    obtain ⟨u, hu⟩ : ∃ u : SocketLife κ, u = update lifeSlot (fun io => { io with events := io.events ++ [.complete k] })
        { w with sending := !w.socket.1.pendingIoList.isEmpty } := ⟨_, .refl _⟩
    have hevent : Follows { w with sending := !w.socket.1.pendingIoList.isEmpty } u := by
      rw [hu]
      refine follows_same (.refl _) (.refl _) (.refl _) (.refl _) ?_ (.refl _) id
      simp [update, lifeSlot, Slot.modify, accepted]
    refine ⟨_, hevent.trans (told_follows hp u), ?_⟩
    rw [hu]
    exact .refl _

/-- Nothing waits behind a buffer sent directly. -/
theorem completed_follows (onSendComplete : Option κ) (w : SocketLife κ) (hq : w.socket.1.pendingIoList = []) :
    Follows w (sendCompleted lifeSlot (lifeCallbacks perform) onSendComplete w) := by
  obtain ⟨v, hv, hresult⟩ := sendCompleted_follows hp onSendComplete w
  rw [hresult]
  refine ⟨⟨hv.notes, .refl _⟩, ?_⟩
  intro hnotes hw
  have hs : w.sending = !w.socket.1.pendingIoList.isEmpty := by
    rw [hq]
    cases h : w.sending with
    | false => exact .refl _
    | true => exact absurd hq (hw.fit.sending h)
  rw [sending_same hs] at hv
  rw [sending_same hv.sending]
  exact hv.kept hnotes hw

/-! ## socketio_open, socketio_close and socketio_send -/

theorem socketioOpen_follows (connects : Bool) (w : SocketLife κ) :
    Follows w (socketioOpen lifeSlot (lifeCallbacks perform) connects w).2 := by
  unfold socketioOpen
  simp only
  split
  · exact told_follows hp w
  · split
    · exact opened_follows hp w
    · split
      · exact opened_follows hp w
      · exact told_follows hp w

theorem socketioClose_follows (callback : Bool) (w : SocketLife κ) :
    Follows w (socketioClose lifeSlot (lifeCallbacks perform) callback w).2 := by
  unfold socketioClose
  simp only
  have hclosed : Follows w (if (lifeSlot.get w).1.ioState ≠ .closed ∧ (lifeSlot.get w).1.ioState ≠ .closing then
      update lifeSlot (fun io => { io with socket := false, ioState := .closed }) w else w) := by
    split
    · refine follows_same (.refl _) (.refl _) (.refl _) (.refl _) (.refl _) (.refl _) ?_
      intro h
      cases h
    · exact Follows.rfl
  split
  · exact hclosed.trans (told_follows hp _)
  · exact hclosed

/-- The instance is open, so what waits goes on behind what the socket takes of the buffer. -/
theorem socketioSend_follows (buffer : List UInt8) (onSendComplete : Option κ) (answer : SendAnswer) (w : SocketLife κ)
    (hnote : .called (.send buffer onSendComplete answer) (moment w) ∈ w.notes) :
    Follows w (socketioSend lifeSlot (lifeCallbacks perform) buffer onSendComplete answer
      { w with passed := w.passed ++ buffer }).2 := by
  have hpassed := passed_follows buffer w
  have hwaiting : (moment { w with passed := w.passed ++ buffer }).waiting = (moment w).waiting := .refl _
  unfold socketioSend
  split
  · exact hpassed
  · split
    · exact hpassed
    · rename_i ho
      have hcalled : (∀ n ∈ w.notes, n.Orderly) → Whole (moment w) ∨ w.socket.1.pendingIoList = [] ∧ accepts answer = false :=
        fun hnotes => hnotes _ hnote (not_not.mp ho)
      split
      · rename_i front rest hq
        refine ⟨⟨List.prefix_refl _, .refl _⟩, ?_⟩
        intro hnotes hw
        rcases hcalled hnotes with hwhole | ⟨hnone, -⟩
        · refine queue_kept buffer onSendComplete (hpassed.kept hnotes hw) ?_
          rw [hwaiting]
          show accepted w.socket.1.events ++ queued (moment w).waiting ++ buffer <+: w.before ++ (w.passed ++ buffer)
          rw [← List.append_assoc, show accepted w.socket.1.events ++ queued (moment w).waiting = w.before ++ w.passed from hwhole]
        · exact absurd (hq.symm.trans hnone) (List.cons_ne_nil _ _)
      · rename_i hq
        cases answer with
        | again => exact hpassed
        | fatal => exact hpassed
        | accepted sendResult =>
          have hwhole : (∀ n ∈ w.notes, n.Orderly) → Whole (moment w) := by
            intro hnotes
            rcases hcalled hnotes with hwhole | ⟨-, h⟩
            · exact hwhole
            · cases h
          simp only
          split
          · refine ⟨⟨List.prefix_refl _, .refl _⟩, ?_⟩
            intro hnotes hw
            obtain ⟨haccepted, hkept⟩ := accept_kept hw hq (hwhole hnotes) (List.take_prefix sendResult buffer)
            refine queue_kept _ onSendComplete hkept ?_
            rw [haccepted, waiting_nil hq]
            show w.before ++ (w.passed ++ buffer.take sendResult) ++ queued [] ++ buffer.drop sendResult <+:
              w.before ++ (w.passed ++ buffer)
            simp [queued]
          · have hcompleted := completed_follows hp onSendComplete
              (accept lifeSlot buffer { w with passed := w.passed ++ buffer }) hq
            refine ⟨⟨hcompleted.notes, hcompleted.sending⟩, ?_⟩
            intro hnotes hw
            have hwhole := hwhole fun n hn => hnotes n (hcompleted.notes.subset hn)
            exact hcompleted.kept hnotes (accept_kept hw hq hwhole (List.prefix_refl buffer)).2

/-! ## socketio_dowork -/

theorem flush_grows (answers : List SendAnswer) (w : SocketLife κ) :
    Grows w (flush lifeSlot (lifeCallbacks perform) answers w) := by
  induction answers generalizing w with
  | nil => exact Grows.rfl
  | cons answer answers ih =>
    unfold flush
    split
    · exact Grows.rfl
    · rename_i front rest _
      cases answer with
      | again => exact Grows.rfl
      | fatal =>
        have herror := indicateError_follows hp
          (update lifeSlot (fun io => { io with pendingIoList := rest, ioState := .error }) w)
        have hupdate : Grows w (update lifeSlot (fun io => { io with pendingIoList := rest, ioState := .error }) w) :=
          ⟨List.prefix_refl _, .refl _⟩
        exact (hupdate.trans herror.toGrows).trans (ih _)
      | accepted sendResult =>
        simp only
        split
        · exact ⟨List.prefix_refl _, .refl _⟩
        · obtain ⟨v, hv, hresult⟩ := sendCompleted_follows hp front.onSendComplete (accept lifeSlot front.bytes w)
          rw [hresult]
          have hcompleted : Grows w (update lifeSlot (fun io => { io with pendingIoList := io.pendingIoList.tail })
              { v with sending := (accept lifeSlot front.bytes w).sending }) := ⟨hv.notes, .refl _⟩
          exact hcompleted.trans (ih _)

/-- While what waits goes on where the socket has got to, items go in order; where it does not,
    the socket takes nothing. -/
theorem flush_kept (answers : List SendAnswer) (w : SocketLife κ) (hs : w.sending = false) (hw : Kept w)
    (hmode : Continues (moment w) ∨ ∀ a ∈ answers, accepts a = false) (hf : Failing answers)
    (hnotes : ∀ n ∈ (flush lifeSlot (lifeCallbacks perform) answers w).notes, n.Orderly) :
    Kept (flush lifeSlot (lifeCallbacks perform) answers w) := by
  induction answers generalizing w with
  | nil => exact hw
  | cons answer answers ih =>
    unfold flush at hnotes ⊢
    split
    · exact hw
    · rename_i front rest hq
      rw [hq] at hnotes
      cases answer with
      | again => exact hw
      | fatal =>
        simp only at hnotes ⊢
        obtain ⟨x, hx⟩ : ∃ x, x = update lifeSlot (fun io => { io with pendingIoList := rest, ioState := .error }) w := ⟨_, .refl _⟩
        have hstopped : Kept x := by
          rw [hx]
          exact hw.stopped (.refl _) (.refl _) (.refl _) (.refl _) (by intro h; cases h) hs
        rw [← hx] at hnotes ⊢
        have herror := indicateError_follows hp x
        have hgrows := flush_grows hp answers (indicateError lifeSlot (lifeCallbacks perform) x)
        refine ih _ (herror.sending.trans (by rw [hx]; exact hs)) ?_ (.inr hf) (failing_of_none hf) hnotes
        exact herror.kept (fun n hn => hnotes n (hgrows.notes.subset hn)) hstopped
      | accepted sendResult =>
        have hcontinues : Continues (moment w) := by
          rcases hmode with h | h
          · exact h
          · exact absurd (h _ List.mem_cons_self) (by simp [accepts])
        simp only at hnotes ⊢
        split
        · exact part_kept hw hs hq hcontinues sendResult
        · rename_i hwhole
          rw [if_neg hwhole] at hnotes
          obtain ⟨v, hv, hresult⟩ := sendCompleted_follows hp front.onSendComplete (accept lifeSlot front.bytes w)
          have hsending : (accept lifeSlot front.bytes w).sending = false := hs
          have hempty : (!(accept lifeSlot front.bytes w).socket.1.pendingIoList.isEmpty) = true := by
            rw [show (accept lifeSlot front.bytes w).socket.1.pendingIoList = front :: rest from hq]
            exact .refl _
          rw [hempty] at hv
          rw [hresult, hsending] at hnotes ⊢
          have hgrows := flush_grows hp answers
            (update lifeSlot (fun io => { io with pendingIoList := io.pendingIoList.tail }) { v with sending := false })
          have hvkept : Kept v :=
            hv.kept (fun n hn => hnotes n (hgrows.notes.subset hn)) (front_kept hw hs hq hcontinues)
          obtain ⟨hpoppedContinues, hpopped⟩ := popped_kept hvkept hv.sending
          exact ih _ (.refl _) hpopped (.inl hpoppedContinues) hf hnotes

theorem receive_follows (received : List RecvAnswer) (w : SocketLife κ) :
    Follows w (receive lifeSlot (lifeCallbacks perform) received w) := by
  induction received generalizing w with
  | nil => exact Follows.rfl
  | cons answer answers ih =>
    cases answer with
    | again => exact Follows.rfl
    | failed => exact indicateError_follows hp w
    | bytes received =>
      unfold receive
      split
      · exact Follows.rfl
      · have hbytes : Follows w (if (lifeSlot.get w).1.callbacks then (lifeCallbacks perform).onBytesReceived received w else w) := by
          split
          · exact told_follows hp w
          · exact Follows.rfl
        generalize (if (lifeSlot.get w).1.callbacks then (lifeCallbacks perform).onBytesReceived received w else w) = v at hbytes ⊢
        simp only
        split
        · exact hbytes.trans (ih _)
        · exact hbytes

theorem socketioDowork_follows (answers : List SendAnswer) (received : List RecvAnswer) (w : SocketLife κ)
    (hnote : .called (.dowork answers received) (moment w) ∈ w.notes) :
    Follows w (socketioDowork lifeSlot (lifeCallbacks perform) answers received w) := by
  have hgrows := flush_grows hp answers w
  have hflush : Follows w (flush lifeSlot (lifeCallbacks perform) answers w) := by
    refine ⟨hgrows, ?_⟩
    intro hnotes hw
    obtain ⟨hs, hmode, hf⟩ := hnotes _ (hgrows.notes.subset hnote)
    exact flush_kept hp answers w hs hw hmode hf hnotes
  unfold socketioDowork
  simp only
  split
  · exact hflush.trans (receive_follows hp received _)
  · exact hflush

theorem run_follows (c : LifeCall κ) (w : SocketLife κ) : Follows w (c.run perform (writeNote (.called c (moment w)) w)) := by
  have hcalled := called_follows c w
  have hnote : .called c (moment w) ∈ (writeNote (.called c (moment w)) w).notes :=
    List.mem_append_right _ (List.mem_singleton_self _)
  cases c with
  | openIo connects => exact hcalled.trans (socketioOpen_follows hp connects _)
  | close callback => exact hcalled.trans (socketioClose_follows hp callback _)
  | send buffer onSendComplete answer => exact hcalled.trans (socketioSend_follows hp buffer onSendComplete answer _ hnote)
  | dowork answers received => exact hcalled.trans (socketioDowork_follows hp answers received _ hnote)

end Callbacks

theorem perform_follows (n : Nat) : ∀ (c : LifeCall κ) (w : SocketLife κ), Follows w (perform n c w) := by
  induction n with
  | zero => exact fun _ _ => Follows.rfl
  | succ n ih => exact fun c w => run_follows ih c w

theorem performAll_follows (n : Nat) (calls : List (LifeCall κ)) (w : SocketLife κ) : Follows w (performAll n calls w) := by
  induction calls generalizing w with
  | nil => exact Follows.rfl
  | cons c calls ih => exact (perform_follows n c w).trans (ih _)

theorem created_kept (script : List (List (LifeCall κ))) (mallocs : Mallocs) : Kept (created script mallocs) := by
  refine ⟨⟨List.prefix_refl _, List.prefix_refl _, fun _ => List.prefix_refl _, fun h => by cases h⟩, ?_⟩
  intro n hn
  cases hn

end UMqtt.Io.Lives

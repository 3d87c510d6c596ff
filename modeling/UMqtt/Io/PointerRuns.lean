/-
  UMqtt.Io.PointerRuns — the life of a socket transport whose callbacks call back into it.

  In each of its callbacks the owner calls the transport again, from an agenda that says what it
  does in the first callback, the second and so on; `perform n` lets them nest `n` deep. The same
  calls run on the pointers (`performAt`) and on the list of `UMqtt.Io.SocketIo` (`perform`).

  `held` and `reentered` are ghosts: an `on_send_complete` made by `socketio_dowork` is running,
  and `socketio_dowork` was called in one.

  - `pointers_safe`: unless the owner calls `socketio_dowork` there, nothing freed is read or
    freed again, every call does what it does on the list, and `socketio_destroy` leaves of the
    instance nothing but the MAC addresses that were overwritten.
  - `reentered_stuck`: where it does and the inner call takes the item, the outer one uses it
    after it was freed.
-/

import UMqtt.Io.Pointers

namespace UMqtt.Io.Pointers

open UMqtt.Lib UMqtt.Crt UMqtt.Crt.SinglyLinkedList

/-! ## The owner -/

inductive Call (κ : Type) where
  | openIo (connects : Bool)
  | close (callback : Bool)
  | send (buffer : List UInt8) (onSendComplete : Option κ) (answer : SendAnswer)
  | dowork (answers : List SendAnswer) (received : List RecvAnswer)
  | setTargetMacAddress (length : Nat)

inductive Note (κ : Type) where
  | returned (result : Nat)
  | opened (result : OpenResult)
  | received (bytes : List UInt8)
  | error
  | completed (onSendComplete : κ)
  | closed
  deriving DecidableEq, Repr

structure Scene (T κ : Type) where
  part : T
  agenda : List (List (Call κ))
  held : Bool
  reentered : Bool
  log : List (Note κ)

def slot (T κ : Type) : Slot (Scene T κ) T :=
  ⟨Scene.part, fun x w => { w with part := x }, fun _ _ => rfl, fun _ _ _ => rfl, fun _ => rfl⟩

abbrev PointerScene (κ : Type) := Scene (Machine κ) κ

abbrev ListScene (κ : Type) := Scene (SocketIoInstance κ × Mallocs) κ

section Scenes

variable {T κ : Type}

/-- A callback: the owner takes what it does from its agenda. -/
def Scene.called (n : Note κ) (w : Scene T κ) : Scene T κ := { w with agenda := w.agenda.tail, log := w.log ++ [n] }

def Scene.returned (r : Nat × Scene T κ) : Scene T κ := { r.2 with log := r.2.log ++ [.returned r.1] }

def Scene.working (w : Scene T κ) : Scene T κ := { w with reentered := w.reentered || w.held }

end Scenes

section Runs

variable {κ : Type}

/-! ### On the list -/

def respond (perform : Call κ → ListScene κ → ListScene κ) (n : Note κ) (v : ListScene κ) : ListScene κ :=
  (v.agenda.headD []).foldl (fun v c => perform c v) (v.called n)

def listCallbacks (perform : Call κ → ListScene κ → ListScene κ) : SocketCallbacks κ (ListScene κ) where
  onIoOpenComplete r := respond perform (.opened r)
  onBytesReceived bytes := respond perform (.received bytes)
  onIoError := respond perform .error
  onSendComplete k v :=
    { respond perform (.completed k) { v with held := v.held || !v.part.1.pendingIoList.isEmpty } with held := v.held }
  onIoCloseComplete := respond perform .closed

/-- Of the MAC address the list model keeps nothing. -/
def allocateTargetMacAddress (length : Nat) (v : ListScene κ) : Nat × ListScene κ :=
  if length = 0 then (failure, v)
  else
    let r := malloc (length + 1) v.part.2
    (if r.1 = none then failure else 0, { v with part := (v.part.1, r.2) })

def perform : Nat → Call κ → ListScene κ → ListScene κ
  | 0, _, v => v
  | n + 1, c, v =>
    let cb := listCallbacks (perform n)
    match c with
    | .openIo connects => Scene.returned (Io.socketioOpen (slot _ κ) cb connects v)
    | .close callback => Scene.returned (Io.socketioClose (slot _ κ) cb callback v)
    | .send buffer onSendComplete answer =>
      Scene.returned (Io.socketioSend (slot _ κ) cb buffer onSendComplete answer v)
    | .dowork answers received => Io.socketioDowork (slot _ κ) cb answers received v.working
    | .setTargetMacAddress length => Scene.returned (allocateTargetMacAddress length v)

def performAll (n : Nat) (calls : List (Call κ)) (v : ListScene κ) : ListScene κ :=
  calls.foldl (fun v c => perform n c v) v

/-! ### At the pointers -/

def respondAt (performAt : Call κ → PointerScene κ → Option (PointerScene κ)) (n : Note κ) (w : PointerScene κ) :
    Option (PointerScene κ) :=
  (w.agenda.headD []).foldlM (fun w c => performAt c w) (w.called n)

def callbacksAt (performAt : Call κ → PointerScene κ → Option (PointerScene κ)) : Callbacks κ (PointerScene κ) where
  onIoOpenComplete r := respondAt performAt (.opened r)
  onBytesReceived bytes := respondAt performAt (.received bytes)
  onIoError := respondAt performAt .error
  onSendComplete k w :=
    (respondAt performAt (.completed k) { w with held := w.held || w.part.list.head.isSome }).map
      fun w' => { w' with held := w.held }
  onIoCloseComplete := respondAt performAt .closed

def performAt (al : Allocator (Object κ)) : Nat → Call κ → PointerScene κ → Option (PointerScene κ)
  | 0, _, w => some w
  | n + 1, c, w =>
    let cb := callbacksAt (performAt al n)
    match c with
    | .openIo connects => (socketioOpen (slot _ κ) cb connects w).map Scene.returned
    | .close callback => (socketioClose (slot _ κ) cb callback w).map Scene.returned
    | .send buffer onSendComplete answer =>
      (socketioSend al (slot _ κ) cb buffer onSendComplete answer w).map Scene.returned
    | .dowork answers received => socketioDowork (slot _ κ) cb answers received w.working
    | .setTargetMacAddress length =>
      let r := setTargetMacAddress al length w.part
      some (Scene.returned (r.1, { w with part := r.2 }))

def performAllAt (al : Allocator (Object κ)) (n : Nat) (calls : List (Call κ)) (w : PointerScene κ) :
    Option (PointerScene κ) := calls.foldlM (fun w c => performAt al n c w) w

/-! ## The ghosts -/

/-- `held` is as it was, and what was reentered stays so. -/
def Ghost (held reentered : Bool) (v : ListScene κ) : Prop := v.held = held ∧ (reentered = true → v.reentered = true)

structure Quiet (cb : SocketCallbacks κ (ListScene κ)) : Prop where
  opened : ∀ b r result v, Ghost b r v → Ghost b r (cb.onIoOpenComplete result v)
  received : ∀ b r bytes v, Ghost b r v → Ghost b r (cb.onBytesReceived bytes v)
  error : ∀ b r v, Ghost b r v → Ghost b r (cb.onIoError v)
  completed : ∀ b r k v, Ghost b r v → Ghost b r (cb.onSendComplete k v)
  closed : ∀ b r v, Ghost b r v → Ghost b r (cb.onIoCloseComplete v)

theorem Quiet.invariant {cb : SocketCallbacks κ (ListScene κ)} (h : Quiet cb) (b r : Bool) :
    Invariant (slot _ κ) cb (Ghost b r) where
  set _ _ _ hv := hv
  sent k v hv := h.completed b r k v hv
  bytes received v _ _ hv := h.received b r received v hv
  error v hv := h.error b r v hv

theorem foldl_ghost {f : Call κ → ListScene κ → ListScene κ} (hf : ∀ b r c v, Ghost b r v → Ghost b r (f c v))
    (calls : List (Call κ)) {b r : Bool} {v : ListScene κ} (hv : Ghost b r v) :
    Ghost b r (calls.foldl (fun v c => f c v) v) := by
  induction calls generalizing v with
  | nil => exact hv
  | cons c calls ih => exact ih (hf b r c v hv)

theorem respond_ghost {f : Call κ → ListScene κ → ListScene κ} (hf : ∀ b r c v, Ghost b r v → Ghost b r (f c v))
    (note : Note κ) {b r : Bool} {v : ListScene κ} (hv : Ghost b r v) : Ghost b r (respond f note v) := by
  have hcalled : Ghost b r (v.called note) := hv
  exact foldl_ghost hf _ hcalled

theorem listCallbacks_quiet {f : Call κ → ListScene κ → ListScene κ} (hf : ∀ b r c v, Ghost b r v → Ghost b r (f c v)) :
    Quiet (listCallbacks f) where
  opened _ _ _ _ hv := respond_ghost hf _ hv
  received _ _ _ _ hv := respond_ghost hf _ hv
  error _ _ _ hv := respond_ghost hf _ hv
  completed _ r k v hv := by
    let held := v.held || !v.part.1.pendingIoList.isEmpty
    have hin : Ghost held r { v with held := held } := ⟨rfl, hv.2⟩
    exact ⟨hv.1, (respond_ghost hf (.completed k) hin).2⟩
  closed _ _ _ hv := respond_ghost hf _ hv

theorem perform_ghost (n : Nat) :
    ∀ (b r : Bool) (c : Call κ) (v : ListScene κ), Ghost b r v → Ghost b r (perform n c v) := by
  induction n with
  | zero => exact fun _ _ _ _ h => h
  | succ n ih =>
    intro b r c v hv
    have hquiet := listCallbacks_quiet ih
    have hinv := hquiet.invariant b r
    cases c with
    | openIo connects =>
      apply hquiet.opened
      split
      · exact hv
      · split
        · exact hv
        · split
          · exact hv
          · exact hv
    | close callback =>
      simp only [perform, Io.socketioClose]
      have hcallback : ∀ v' : ListScene κ, Ghost b r v' →
          Ghost b r (if callback then (listCallbacks (perform n)).onIoCloseComplete v' else v') := by
        intro v' hv'
        split
        · exact hquiet.closed b r v' hv'
        · exact hv'
      apply hcallback
      split
      · exact hv
      · exact hv
    | send buffer onSendComplete answer => exact hinv.toSendInvariant.socketioSend buffer onSendComplete answer hv
    | dowork answers received =>
      apply hinv.socketioDowork
      refine ⟨hv.1, fun hr => ?_⟩
      simp only [Scene.working, hv.2 hr, Bool.true_or]
    | setTargetMacAddress length =>
      simp only [perform, allocateTargetMacAddress]
      split
      · exact hv
      · exact hv

/-- Nothing reentered at the end, nothing before. -/
theorem Ghost.back {v v' : ListScene κ} (h : ∀ b r, Ghost b r v → Ghost b r v') (hf : v'.reentered = false) :
    v.reentered = false := by
  cases hr : v.reentered with
  | false => rfl
  | true => exact absurd ((h v.held true ⟨rfl, fun _ => hr⟩).2 rfl) (by rw [hf]; exact Bool.false_ne_true)

/-! ## The two runs -/

/-- What both models keep of an instance. -/
structure Same (io : Instance κ) (io' : SocketIoInstance κ) : Prop where
  socket : io.socket = io'.socket
  callbacks : io.callbacks = io'.callbacks
  ioState : io.ioState = io'.ioState
  events : io.events = io'.events

/-- The pointers are the list, and the item named is in front. -/
structure Mirrors (outside : Nat → Option (Object κ)) (front : Option (Item κ)) (w : PointerScene κ) (v : ListScene κ) :
    Prop where
  agenda : w.agenda = v.agenda
  held : w.held = v.held
  reentered : w.reentered = v.reentered
  log : w.log = v.log
  mallocs : w.part.mallocs = v.part.2
  same : Same w.part.io v.part.1
  items : ∃ base items, Owns outside w.part.io base ∧ Holds base w.part items ∧
    v.part.1.pendingIoList = items.map Item.shown ∧ ∀ it, front = some it → items.head? = some it

variable {outside : Nat → Option (Object κ)} {front : Option (Item κ)} {w : PointerScene κ} {v : ListScene κ}

/-- Unless something reentered, there is a run of the pointers and it mirrors the one on the list. -/
def Follows (outside : Nat → Option (Object κ)) (front : Option (Item κ)) (x : Option (PointerScene κ)) (v : ListScene κ) :
    Prop := v.reentered = false → ∃ w, x = some w ∧ Mirrors outside front w v

def Answers (outside : Nat → Option (Object κ)) (front : Option (Item κ)) (x : Option (Nat × PointerScene κ))
    (r : Nat × ListScene κ) : Prop := r.2.reentered = false → ∃ w, x = some (r.1, w) ∧ Mirrors outside front w r.2

theorem Mirrors.follows (h : Mirrors outside front w v) : Follows outside front (some w) v := fun _ => ⟨w, rfl, h⟩

theorem Mirrors.answers (h : Mirrors outside front w v) (result : Nat) :
    Answers outside front (some (result, w)) (result, v) := fun _ => ⟨w, rfl, h⟩

theorem Follows.answers {x : Option (PointerScene κ)} (h : Follows outside front x v) (result : Nat) :
    Answers outside front (x.map fun w => (result, w)) (result, v) := by
  intro hr
  obtain ⟨w, rfl, hm⟩ := h hr
  exact ⟨w, rfl, hm⟩

theorem Answers.returned {x : Option (Nat × PointerScene κ)} {r : Nat × ListScene κ} (h : Answers outside front x r) :
    Follows outside front (x.map Scene.returned) (Scene.returned r) := by
  intro hr
  obtain ⟨w, rfl, hm⟩ := h hr
  exact ⟨Scene.returned (r.1, w), rfl, hm.agenda, hm.held, hm.reentered, congrArg (· ++ [_]) hm.log, hm.mallocs, hm.same,
    hm.items⟩

/-- The instance changes in what both models keep. -/
theorem Mirrors.update {f : Instance κ → Instance κ} {f' : SocketIoInstance κ → SocketIoInstance κ}
    (h : Mirrors outside front w v) (hf : ∀ io io', Same io io' → Same (f io) (f' io'))
    (hb : ∀ io, (f io).address = io.address ∧ (f io).pendingIoList = io.pendingIoList ∧ texts (f io) = texts io)
    (hp : ∀ io', (f' io').pendingIoList = io'.pendingIoList) :
    Mirrors outside front (update (slot _ κ) f w) (Io.update (slot _ κ) f' v) := by
  obtain ⟨base, items, ho, hh, hl, hfront⟩ := h.items
  obtain ⟨h1, h2, h3⟩ := hb w.part.io
  refine ⟨h.agenda, h.held, h.reentered, h.log, h.mallocs, hf _ _ h.same, base, items, ?_, ?_, (hp _).trans hl, hfront⟩
  · apply ho.of_perm h1 h2
    rw [← h3]
  · exact hh.of_block rfl rfl

theorem Mirrors.accept (h : Mirrors outside front w v) (bytes : List UInt8) :
    Mirrors outside front (accept (slot _ κ) bytes w) (Io.accept (slot _ κ) bytes v) := by
  apply h.update
  · intro io io' hs
    exact ⟨hs.socket, hs.callbacks, hs.ioState, congrArg (· ++ [_]) hs.events⟩
  · exact fun _ => ⟨rfl, rfl, rfl⟩
  · exact fun _ => rfl

theorem no_front {P : Prop} : (none : Option (Item κ)).isSome = true → P := fun hf => nomatch hf

theorem no_item {x : Option (Item κ)} (it : Item κ) : none = some it → x = some it := fun hf => nomatch hf

theorem Ghost.unreentered {b : Bool} (h : v.held = b) : Ghost b false v := ⟨h, fun hf => nomatch hf⟩

/-- `add_pending_io` in both. -/
theorem Mirrors.queue {al : Allocator (Object κ)} (h : Mirrors outside front w v) (hal : al.Succeeds) (buffer : List UInt8)
    (onSendComplete : Option κ) : Answers outside front (queue al (slot _ κ) buffer onSendComplete w)
      (Io.queue (slot _ κ) buffer onSendComplete v) := by
  obtain ⟨base, items, ho, hh, hl, hfront⟩ := h.items
  obtain ⟨m', more, hadd, hio, hms, hh', hlist⟩ := hh.addPendingIo hal buffer onSendComplete hl
  rw [h.mallocs] at hadd hms hlist
  intro _
  refine ⟨{ w with part := m' }, ?_, h.agenda, h.held, h.reentered, h.log, hms, ?_, base, items ++ more, ?_, hh', ?_, ?_⟩
  · simp only [Pointers.queue, slot, hadd, Option.map_some]
    rfl
  · rw [hio]
    simp only [Io.queue, slot, hlist]
    exact ⟨h.same.socket, h.same.callbacks, h.same.ioState, h.same.events⟩
  · rw [hio]
    exact ho
  · simp only [Io.queue, slot, hlist]
  · intro it hit
    rw [List.head?_append, hfront it hit]
    rfl

/-- The item in front is freed, and gone from both. -/
theorem Mirrors.retire {it : Item κ} (h : Mirrors outside (some it) w v) :
    ∃ m₁ m₂, freePending it.record w.part = some m₁ ∧ removeItem it.node m₁ = some (0, m₂) ∧
      Mirrors outside none { w with part := m₂ }
        (Io.update (slot _ κ) (fun io => { io with pendingIoList := io.pendingIoList.tail }) v) := by
  obtain ⟨base, items, ho, hh, hl, hfront⟩ := h.items
  obtain ⟨rest, rfl⟩ : ∃ rest, items = it :: rest := by
    have hhead := hfront it rfl
    cases items with
    | nil => cases hhead
    | cons it' rest =>
      cases hhead
      exact ⟨rest, rfl⟩
  obtain ⟨m₁, m₂, hfree, hremove, hio, hms, hh₂⟩ := hh.retire
  refine ⟨m₁, m₂, hfree, hremove, h.agenda, h.held, h.reentered, h.log, hms.trans h.mallocs, ?_, base, rest, ?_, hh₂, ?_,
    no_item⟩
  · rw [hio]
    exact ⟨h.same.socket, h.same.callbacks, h.same.ioState, h.same.events⟩
  · rw [hio]
    exact ho
  · exact congrArg List.tail hl

/-- Only the memory knows of the MAC address. -/
theorem Mirrors.setTargetMacAddress {al : Allocator (Object κ)} (h : Mirrors outside front w v) (hal : al.Succeeds)
    (length : Nat) : Answers outside front
      (some ((setTargetMacAddress al length w.part).1, { w with part := (setTargetMacAddress al length w.part).2 }))
      (allocateTargetMacAddress length v) := by
  obtain ⟨base, items, ho, hh, hl, hfront⟩ := h.items
  obtain ⟨base', hh', ho'⟩ := hh.setTargetMacAddress ho hal length
  have hs := h.same
  have hm := h.mallocs
  intro _
  unfold Pointers.setTargetMacAddress at hh' ho' ⊢
  unfold allocateTargetMacAddress
  by_cases h0 : length = 0
  · simp only [if_pos h0]
    exact ⟨w, rfl, h⟩
  simp only [if_neg h0] at hh' ho' ⊢
  rcases mallocObject_cases hal (length + 1) .text w.part.memory w.part.mallocs with
    ⟨ms, hmalloc, hobject⟩ | ⟨_, ms, a, hmalloc, -, hobject⟩
  · simp only [hobject] at hh' ho' ⊢
    rw [hm] at hmalloc
    simp only [hmalloc, if_true]
    exact ⟨_, rfl, h.agenda, h.held, h.reentered, h.log, rfl, ⟨hs.socket, hs.callbacks, hs.ioState, hs.events⟩,
      base', items, ho', hh', hl, hfront⟩
  · simp only [hobject] at hh' ho' ⊢
    rw [hm] at hmalloc
    simp only [hmalloc, reduceCtorEq, if_false]
    exact ⟨_, rfl, h.agenda, h.held, h.reentered, h.log, rfl, ⟨hs.socket, hs.callbacks, hs.ioState, hs.events⟩,
      base', items, ho', hh', hl, hfront⟩

/-! ### What the callbacks do, the calls do -/

/-- The callbacks of both runs do the same. While an item is named it stays in front, as long
    as nothing reenters. -/
structure Agree (outside : Nat → Option (Object κ)) (cb : Callbacks κ (PointerScene κ))
    (cb' : SocketCallbacks κ (ListScene κ)) : Prop where
  quiet : Quiet cb'
  opened : ∀ front result w v, (front.isSome = true → v.held = true) → Mirrors outside front w v →
    Follows outside front (cb.onIoOpenComplete result w) (cb'.onIoOpenComplete result v)
  received : ∀ front bytes w v, (front.isSome = true → v.held = true) → Mirrors outside front w v →
    Follows outside front (cb.onBytesReceived bytes w) (cb'.onBytesReceived bytes v)
  error : ∀ front w v, (front.isSome = true → v.held = true) → Mirrors outside front w v →
    Follows outside front (cb.onIoError w) (cb'.onIoError v)
  completed : ∀ front k w v, Mirrors outside front w v →
    Follows outside front (cb.onSendComplete k w) (cb'.onSendComplete k v)
  closed : ∀ front w v, (front.isSome = true → v.held = true) → Mirrors outside front w v →
    Follows outside front (cb.onIoCloseComplete w) (cb'.onIoCloseComplete v)

namespace Agree

variable {cb : Callbacks κ (PointerScene κ)} {cb' : SocketCallbacks κ (ListScene κ)} (h : Agree outside cb cb')

include h

theorem indicateError (hf : front.isSome = true → v.held = true) (hm : Mirrors outside front w v) :
    Follows outside front (Pointers.indicateError (slot _ κ) cb w) (Io.indicateError (slot _ κ) cb' v) := by
  have hc : ((slot _ κ).get w).io.callbacks = ((slot _ κ).get v).1.callbacks := hm.same.callbacks
  unfold Pointers.indicateError Io.indicateError
  rw [hc]
  split
  · exact h.error front w v hf hm
  · exact hm.follows

theorem sendCompleted (onSendComplete : Option κ) (hm : Mirrors outside front w v) :
    Follows outside front (Pointers.sendCompleted (slot _ κ) cb onSendComplete w)
      (Io.sendCompleted (slot _ κ) cb' onSendComplete v) := by
  cases onSendComplete with
  | none => exact hm.follows
  | some k =>
    apply h.completed
    apply hm.update
    · intro io io' hs
      exact ⟨hs.socket, hs.callbacks, hs.ioState, congrArg (· ++ [_]) hs.events⟩
    · exact fun _ => ⟨rfl, rfl, rfl⟩
    · exact fun _ => rfl

theorem socketioOpen (connects : Bool) (hf : front.isSome = true → v.held = true) (hm : Mirrors outside front w v) :
    Answers outside front (Pointers.socketioOpen (slot _ κ) cb connects w)
      (Io.socketioOpen (slot _ κ) cb' connects v) := by
  have hs : w.part.io.ioState = v.part.1.ioState := hm.same.ioState
  have hsocket : w.part.io.socket = v.part.1.socket := hm.same.socket
  have hopened : Mirrors outside front
      (update (slot _ κ) (fun io => { io with socket := true, callbacks := true, ioState := .opened }) w)
      (Io.update (slot _ κ) (fun io => { io with socket := true, callbacks := true, ioState := .opened }) v) := by
    apply hm.update
    · exact fun io io' hs => ⟨rfl, rfl, rfl, hs.events⟩
    · exact fun _ => ⟨rfl, rfl, rfl⟩
    · exact fun _ => rfl
  have hcallback : ∀ result told w' v', v'.held = v.held → Mirrors outside front w' v' →
      Answers outside front ((cb.onIoOpenComplete told w').map fun w => (result, w))
        (result, cb'.onIoOpenComplete told v') :=
    fun result told w' v' hv hm' => (h.opened front told w' v' (fun hi => hv.trans (hf hi)) hm').answers result
  unfold Pointers.socketioOpen Io.socketioOpen
  by_cases h1 : v.part.1.ioState = .closed
  · cases h2 : v.part.1.socket with
    | true =>
      simp only [slot, hs, hsocket, h1, h2, ne_eq, not_true_eq_false, if_false, if_true]
      exact hcallback _ _ _ _ rfl hopened
    | false =>
      cases connects with
      | true =>
        simp only [slot, hs, hsocket, h1, h2, ne_eq, not_true_eq_false, Bool.false_eq_true, if_false, if_true]
        exact hcallback _ _ _ _ rfl hopened
      | false =>
        simp only [slot, hs, hsocket, h1, h2, ne_eq, not_true_eq_false, Bool.false_eq_true, if_false]
        exact hcallback _ _ _ _ rfl hm
  · simp only [slot, hs, hsocket, h1, ne_eq, not_false_eq_true, if_true]
    exact hcallback _ _ _ _ rfl hm

theorem socketioClose (callback : Bool) (hf : front.isSome = true → v.held = true) (hm : Mirrors outside front w v) :
    Answers outside front (Pointers.socketioClose (slot _ κ) cb callback w)
      (Io.socketioClose (slot _ κ) cb' callback v) := by
  have hs : w.part.io.ioState = v.part.1.ioState := hm.same.ioState
  have hclosed : Mirrors outside front
      (update (slot _ κ) (fun io => { io with socket := false, ioState := .closed }) w)
      (Io.update (slot _ κ) (fun io => { io with socket := false, ioState := .closed }) v) := by
    apply hm.update
    · exact fun io io' hs => ⟨rfl, hs.callbacks, rfl, hs.events⟩
    · exact fun _ => ⟨rfl, rfl, rfl⟩
    · exact fun _ => rfl
  have hcallback : ∀ w' v', v'.held = v.held → Mirrors outside front w' v' →
      Answers outside front ((if callback then cb.onIoCloseComplete w' else some w').map fun w => (0, w))
        (0, if callback then cb'.onIoCloseComplete v' else v') := by
    intro w' v' hv hm'
    apply Follows.answers
    split
    · exact h.closed front w' v' (fun hi => hv.trans (hf hi)) hm'
    · exact hm'.follows
  unfold Pointers.socketioClose Io.socketioClose
  dsimp only
  by_cases hc : ((slot _ κ).get v).1.ioState ≠ .closed ∧ ((slot _ κ).get v).1.ioState ≠ .closing
  · have hc' : ((slot _ κ).get w).io.ioState ≠ .closed ∧ ((slot _ κ).get w).io.ioState ≠ .closing := hs ▸ hc
    rw [if_pos hc', if_pos hc]
    exact hcallback _ _ rfl hclosed
  · have hc' : ¬(((slot _ κ).get w).io.ioState ≠ .closed ∧ ((slot _ κ).get w).io.ioState ≠ .closing) := hs ▸ hc
    rw [if_neg hc', if_neg hc]
    exact hcallback _ _ rfl hm

theorem socketioSend {al : Allocator (Object κ)} (hal : al.Succeeds) (buffer : List UInt8) (onSendComplete : Option κ)
    (answer : SendAnswer) (hm : Mirrors outside front w v) :
    Answers outside front (Pointers.socketioSend al (slot _ κ) cb buffer onSendComplete answer w)
      (Io.socketioSend (slot _ κ) cb' buffer onSendComplete answer v) := by
  have hs : w.part.io.ioState = v.part.1.ioState := hm.same.ioState
  unfold Pointers.socketioSend Io.socketioSend
  by_cases h0 : buffer.length = 0
  · simp only [if_pos h0]
    exact hm.answers failure
  simp only [if_neg h0]
  by_cases h1 : v.part.1.ioState = .opened
  · obtain ⟨base, items, -, hh, hl, hfront⟩ := hm.items
    cases items with
    | nil =>
      simp only [slot, hs, h1, hh.head_none, hl, ne_eq, not_true_eq_false, if_false, List.map_nil]
      cases answer with
      | again => exact hm.answers 0
      | fatal => exact hm.answers failure
      | accepted sendResult =>
        by_cases hn : sendResult < buffer.length
        · simp only [if_pos hn]
          exact (hm.accept _).queue hal _ _
        · simp only [if_neg hn]
          exact (h.sendCompleted onSendComplete (hm.accept buffer)).answers 0
    | cons it items =>
      simp only [slot, hs, h1, hh.front.1, hl, ne_eq, not_true_eq_false, if_false, List.map_cons]
      exact hm.queue hal buffer onSendComplete
  · simp only [slot, hs, h1, ne_eq, not_false_eq_true, if_true]
    exact hm.answers failure

/-- Item after item. -/
theorem flush (answers : List SendAnswer) (hheld : v.held = false) (hm : Mirrors outside none w v) :
    Follows outside none (Pointers.flush (slot _ κ) cb answers w) (Io.flush (slot _ κ) cb' answers v) := by
  induction answers generalizing w v with
  | nil => exact hm.follows
  | cons answer answers ih =>
    intro hr
    obtain ⟨base, items, ho, hh, hl, -⟩ := hm.items
    cases items with
    | nil =>
      have hnone : Io.flush (slot _ κ) cb' (answer :: answers) v = v := by simp only [Io.flush, slot, hl, List.map_nil]
      rw [hnone]
      exact ⟨w, by simp only [Pointers.flush, slot, hh.head_none], hm⟩
    | cons it items =>
      obtain ⟨hhead, ⟨next, hcell⟩, hread⟩ := hh.front
      have hfront : Mirrors outside (some it) w v :=
        ⟨hm.agenda, hm.held, hm.reentered, hm.log, hm.mallocs, hm.same, base, it :: items, ho, hh, hl, fun _ hf => hf⟩
      have hlen : it.shown.bytes.length = it.size := by
        rw [Item.shown, List.length_take]
        have hle := (hh.each it List.mem_cons_self).size
        omega
      have hback : ∀ v', Io.flush (slot _ κ) cb' (answer :: answers) v = Io.flush (slot _ κ) cb' answers v' →
          v'.reentered = false := by
        intro v' he
        rw [he] at hr
        exact Ghost.back (fun b r hv => (h.quiet.invariant b r).flush answers hv) hr
      have hlater : ∀ v', v'.held = false →
          Io.flush (slot _ κ) cb' (answer :: answers) v = Io.flush (slot _ κ) cb' answers v' →
          ∀ w', Mirrors outside none w' v' → ∃ w'', Pointers.flush (slot _ κ) cb answers w' = some w'' ∧
            Mirrors outside none w'' (Io.flush (slot _ κ) cb' (answer :: answers) v) := by
        intro v' hv' he w' hm'
        rw [he]
        exact ih hv' hm' (he ▸ hr)
      have hinv := h.quiet.invariant false false
      have hghost : Ghost false false v := .unreentered hheld
      cases answer with
      | again =>
        have he : Io.flush (slot _ κ) cb' (.again :: answers) v = v := by simp only [Io.flush, slot, hl, List.map_cons]
        rw [he]
        refine ⟨w, ?_, hm⟩
        simp only [Pointers.flush, slot, hhead, hcell, hread, Option.bind_eq_bind, Option.bind_some]
      | fatal =>
        obtain ⟨m₁, m₂, hfree, hremove, hgone⟩ := hfront.retire
        have hmid : Mirrors outside none
            (update (slot _ κ) (fun io => { io with ioState := .error }) { w with part := m₂ })
            (Io.update (slot _ κ) (fun io => { io with ioState := .error })
              (Io.update (slot _ κ) (fun io => { io with pendingIoList := io.pendingIoList.tail }) v)) := by
          apply hgone.update
          · exact fun io io' hs => ⟨hs.socket, hs.callbacks, rfl, hs.events⟩
          · exact fun _ => ⟨rfl, rfl, rfl⟩
          · exact fun _ => rfl
        have he : Io.flush (slot _ κ) cb' (.fatal :: answers) v = Io.flush (slot _ κ) cb' answers
            (Io.indicateError (slot _ κ) cb' (Io.update (slot _ κ) (fun io => { io with ioState := .error })
              (Io.update (slot _ κ) (fun io => { io with pendingIoList := io.pendingIoList.tail }) v))) := by
          simp only [Io.flush, Io.update, Slot.modify, slot, hl, List.map_cons, List.tail_cons]
        obtain ⟨w₁, hw₁, hm₁⟩ := h.indicateError no_front hmid (hback _ he)
        have hghost₁ : Ghost false false (Io.update (slot _ κ) (fun io => { io with ioState := .error })
            (Io.update (slot _ κ) (fun io => { io with pendingIoList := io.pendingIoList.tail }) v)) := hghost
        have hheld₁ := (hinv.indicateError hghost₁).1
        obtain ⟨w₂, hw₂, hm₂⟩ := hlater _ hheld₁ he w₁ hm₁
        refine ⟨w₂, ?_, hm₂⟩
        simp only [Pointers.flush, slot, hhead, hcell, hread, Option.bind_eq_bind, Option.bind_some, hfree, hremove]
        simp only [slot] at hw₁ hw₂
        rw [hw₁, Option.bind_some, hw₂]
      | accepted sendResult =>
        by_cases hn : sendResult < it.size
        · obtain ⟨it', -, hshown, hh'⟩ := hh.keepUnsent hn
          have htake : it.contents.take sendResult = it.shown.bytes.take sendResult := by
            rw [Item.shown, List.take_take, min_eq_left hn.le]
          have he : Io.flush (slot _ κ) cb' (.accepted sendResult :: answers) v =
              Io.update (slot _ κ) (fun io => { io with pendingIoList := (it' :: items).map Item.shown })
                (Io.accept (slot _ κ) (it.shown.bytes.take sendResult) v) := by
            simp only [Io.flush, slot, hl, List.map_cons, hlen, if_pos hn, hshown]
            rfl
          have hacc := hm.accept (it.shown.bytes.take sendResult)
          have hkept : Mirrors outside none
              ((slot _ κ).modify (keepUnsent it.record ⟨it.bytes, it.size, it.onSendComplete, it.contents⟩ sendResult)
                (Pointers.accept (slot _ κ) (it.shown.bytes.take sendResult) w))
              (Io.update (slot _ κ) (fun io => { io with pendingIoList := (it' :: items).map Item.shown })
                (Io.accept (slot _ κ) (it.shown.bytes.take sendResult) v)) := by
            refine ⟨hacc.agenda, hacc.held, hacc.reentered, hacc.log, hacc.mallocs, ?_, base, it' :: items, ?_,
              hh'.of_block rfl rfl, rfl, no_item⟩
            · exact ⟨hacc.same.socket, hacc.same.callbacks, hacc.same.ioState, hacc.same.events⟩
            · exact ho.of_perm rfl rfl (List.Perm.refl _)
          rw [he]
          refine ⟨_, ?_, hkept⟩
          simp only [Pointers.flush, slot, hhead, hcell, hread, Option.bind_eq_bind, Option.bind_some, if_pos hn, htake]
        · have he : Io.flush (slot _ κ) cb' (.accepted sendResult :: answers) v = Io.flush (slot _ κ) cb' answers
              (Io.update (slot _ κ) (fun io => { io with pendingIoList := io.pendingIoList.tail })
                (Io.sendCompleted (slot _ κ) cb' it.onSendComplete (Io.accept (slot _ κ) it.shown.bytes v))) := by
            simp only [Io.flush, slot, hl, List.map_cons, hlen, if_neg hn]
            rfl
          have hr₁ := hback _ he
          obtain ⟨w₁, hw₁, hm₁⟩ := h.sendCompleted it.onSendComplete (hfront.accept it.shown.bytes) hr₁
          obtain ⟨m₁, m₂, hfree, hremove, hnext⟩ := hm₁.retire
          have hsent := hinv.toSendInvariant.sendCompleted it.onSendComplete
            (hinv.toSendInvariant.accept it.shown.bytes hghost)
          have hghost₁ : Ghost false false
              (Io.update (slot _ κ) (fun io => { io with pendingIoList := io.pendingIoList.tail })
                (Io.sendCompleted (slot _ κ) cb' it.onSendComplete (Io.accept (slot _ κ) it.shown.bytes v))) := hsent
          obtain ⟨w₂, hw₂, hm₂⟩ := hlater _ hghost₁.1 he _ hnext
          refine ⟨w₂, ?_, hm₂⟩
          simp only [Pointers.flush, slot, hhead, hcell, hread, Option.bind_eq_bind, Option.bind_some, if_neg hn]
          simp only [slot, Item.shown] at hw₁ hw₂
          simp only [hw₁, Option.bind_some, hfree, hremove, ne_eq, not_true_eq_false, if_false, hw₂]

theorem receive (received : List RecvAnswer) (hopened : v.part.1.ioState = .opened) (hm : Mirrors outside none w v) :
    Follows outside none (Pointers.receive (slot _ κ) cb received w) (Io.receive (slot _ κ) cb' received v) := by
  induction received generalizing w v with
  | nil => exact hm.follows
  | cons answer received ih =>
    cases answer with
    | again => exact hm.follows
    | failed => exact h.indicateError no_front hm
    | bytes received' =>
      intro hr
      unfold Pointers.receive
      unfold Io.receive at hr ⊢
      by_cases h0 : received' = []
      · simp only [if_pos h0] at hr ⊢
        exact ⟨w, rfl, hm⟩
      simp only [if_neg h0] at hr ⊢
      have hc : ((slot _ κ).get w).io.callbacks = ((slot _ κ).get v).1.callbacks := hm.same.callbacks
      have htold : Follows outside none
          (if ((slot _ κ).get w).io.callbacks then cb.onBytesReceived received' w else some w)
          (if ((slot _ κ).get v).1.callbacks then cb'.onBytesReceived received' v else v) := by
        rw [hc]
        split
        · exact h.received none received' w v no_front hm
        · exact hm.follows
      generalize (if ((slot _ κ).get v).1.callbacks = true then cb'.onBytesReceived received' v else v) = v₁ at hr htold ⊢
      by_cases ho : ((slot _ κ).get v₁).1.ioState = .opened
      · simp only [if_pos ho] at hr ⊢
        have hr₁ := Ghost.back (fun b r hv => (h.quiet.invariant b r).receive received ho hv) hr
        obtain ⟨w₁, hw₁, hm₁⟩ := htold hr₁
        have ho' : ((slot _ κ).get w₁).io.ioState = .opened := hm₁.same.ioState.trans ho
        obtain ⟨w₂, hw₂, hm₂⟩ := ih ho hm₁ hr
        refine ⟨w₂, ?_, hm₂⟩
        simp only [hw₁, Option.bind_eq_bind, Option.bind_some, if_pos ho', hw₂]
      · simp only [if_neg ho] at hr ⊢
        obtain ⟨w₁, hw₁, hm₁⟩ := htold hr
        have ho' : ¬((slot _ κ).get w₁).io.ioState = .opened := fun hf => ho (hm₁.same.ioState.symm.trans hf)
        refine ⟨w₁, ?_, hm₁⟩
        simp only [hw₁, Option.bind_eq_bind, Option.bind_some, if_neg ho']

theorem socketioDowork (answers : List SendAnswer) (received : List RecvAnswer) (hheld : v.held = false)
    (hm : Mirrors outside none w v) : Follows outside none (Pointers.socketioDowork (slot _ κ) cb answers received w)
      (Io.socketioDowork (slot _ κ) cb' answers received v) := by
  intro hr
  have hflush := h.flush answers hheld hm
  unfold Pointers.socketioDowork
  unfold Io.socketioDowork at hr ⊢
  simp only at hr ⊢
  generalize Io.flush (slot _ κ) cb' answers v = v₁ at hr hflush ⊢
  by_cases ho : ((slot _ κ).get v₁).1.ioState = .opened
  · simp only [if_pos ho] at hr ⊢
    have hr₁ := Ghost.back (fun b r hv => (h.quiet.invariant b r).receive received ho hv) hr
    obtain ⟨w₁, hw₁, hm₁⟩ := hflush hr₁
    have ho' : ((slot _ κ).get w₁).io.ioState = .opened := hm₁.same.ioState.trans ho
    obtain ⟨w₂, hw₂, hm₂⟩ := h.receive received ho hm₁ hr
    refine ⟨w₂, ?_, hm₂⟩
    rw [hw₁]
    simp only [Option.bind_eq_bind, Option.bind_some, if_pos ho', hw₂]
  · simp only [if_neg ho] at hr ⊢
    obtain ⟨w₁, hw₁, hm₁⟩ := hflush hr
    have ho' : ¬((slot _ κ).get w₁).io.ioState = .opened := fun hf => ho (hm₁.same.ioState.symm.trans hf)
    refine ⟨w₁, ?_, hm₁⟩
    rw [hw₁]
    simp only [Option.bind_eq_bind, Option.bind_some, if_neg ho']

end Agree

/-! ### Runs -/

/-- What one call does in both runs, some calls do, with the item named in front throughout. -/
theorem foldl_follows {f : Call κ → PointerScene κ → Option (PointerScene κ)} {f' : Call κ → ListScene κ → ListScene κ}
    (hghost : ∀ b r c v, Ghost b r v → Ghost b r (f' c v))
    (hf : ∀ front c w v, (front.isSome = true → v.held = true) → Mirrors outside front w v →
      Follows outside front (f c w) (f' c v))
    (calls : List (Call κ)) (hfront : front.isSome = true → v.held = true) (hm : Mirrors outside front w v) :
    Follows outside front (calls.foldlM (fun w c => f c w) w) (calls.foldl (fun v c => f' c v) v) := by
  induction calls generalizing w v with
  | nil => exact hm.follows
  | cons c calls ih =>
    intro hr
    have hr₁ := Ghost.back (fun b r hv => foldl_ghost hghost calls hv) hr
    obtain ⟨w₁, hw₁, hm₁⟩ := hf front c w v hfront hm hr₁
    have hheld := (hghost v.held false c v (.unreentered rfl)).1
    obtain ⟨w₂, hw₂, hm₂⟩ := ih (fun hi => hheld.trans (hfront hi)) hm₁ hr
    refine ⟨w₂, ?_, hm₂⟩
    rw [List.foldlM_cons, hw₁]
    exact hw₂

theorem perform_follows {al : Allocator (Object κ)} (hal : al.Succeeds) (n : Nat) :
    ∀ (front : Option (Item κ)) (c : Call κ) (w : PointerScene κ) (v : ListScene κ),
      (front.isSome = true → v.held = true) → Mirrors outside front w v →
        Follows outside front (performAt al n c w) (perform n c v) := by
  induction n with
  | zero => exact fun _ _ _ _ _ hm => hm.follows
  | succ n ih =>
    have hrespond : ∀ (note : Note κ) (front : Option (Item κ)) (w : PointerScene κ) (v : ListScene κ),
        (front.isSome = true → v.held = true) → Mirrors outside front w v →
          Follows outside front (respondAt (performAt al n) note w) (respond (perform n) note v) := by
      intro note front w v hf hm
      unfold respondAt respond
      rw [hm.agenda]
      apply foldl_follows (perform_ghost n) ih _ (v := v.called note) hf
      exact ⟨congrArg List.tail hm.agenda, hm.held, hm.reentered, congrArg (· ++ [_]) hm.log, hm.mallocs, hm.same, hm.items⟩
    have hagree : Agree outside (callbacksAt (performAt al n)) (listCallbacks (perform n)) := by
      refine ⟨listCallbacks_quiet (perform_ghost n), fun front _ w v => hrespond _ front w v,
        fun front _ w v => hrespond _ front w v, hrespond _, ?_, hrespond _⟩
      intro front k w v hm hr
      have hq : w.part.list.head.isSome = !v.part.1.pendingIoList.isEmpty := by
        obtain ⟨base, items, -, hh, hl, -⟩ := hm.items
        cases items with
        | nil => rw [hh.head_none, hl]; rfl
        | cons it items => rw [hh.front.1, hl]; rfl
      have hin : front.isSome = true → (v.held || !v.part.1.pendingIoList.isEmpty) = true := by
        intro hi
        obtain ⟨it, rfl⟩ := Option.isSome_iff_exists.mp hi
        obtain ⟨base, items, -, -, hl, hfront⟩ := hm.items
        have hit := hfront it rfl
        cases items with
        | nil => cases hit
        | cons it' items => rw [hl]; simp
      obtain ⟨w', hw', hm'⟩ := hrespond (.completed k) front { w with held := w.held || w.part.list.head.isSome }
        { v with held := v.held || !v.part.1.pendingIoList.isEmpty } hin
        ⟨hm.agenda, by rw [hq, hm.held], hm.reentered, hm.log, hm.mallocs, hm.same, hm.items⟩ hr
      refine ⟨{ w' with held := w.held }, ?_, hm'.agenda, hm.held, hm'.reentered, hm'.log, hm'.mallocs, hm'.same, hm'.items⟩
      simp only [callbacksAt, hw', Option.map_some]
    intro front c w v hf hm
    cases c with
    | openIo connects => exact (hagree.socketioOpen connects hf hm).returned
    | close callback => exact (hagree.socketioClose callback hf hm).returned
    | send buffer onSendComplete answer => exact (hagree.socketioSend hal buffer onSendComplete answer hm).returned
    | dowork answers received =>
      intro hr
      have hw : v.working.reentered = false :=
        Ghost.back (fun b r hv => ((hagree.quiet.invariant b r).socketioDowork answers received hv)) hr
      have hheld : v.held = false := by
        simp only [Scene.working, Bool.or_eq_false_iff] at hw
        exact hw.2
      have hnone : front = none := by
        cases front with
        | none => rfl
        | some it => rw [hf rfl] at hheld; cases hheld
      subst hnone
      have hworking : Mirrors outside none w.working v.working :=
        ⟨hm.agenda, hm.held, by simp only [Scene.working, hm.reentered, hm.held], hm.log, hm.mallocs, hm.same, hm.items⟩
      exact hagree.socketioDowork answers received hheld hworking hr
    | setTargetMacAddress length => exact (hm.setTargetMacAddress hal length).returned

/-! ## A life -/

/-- What the list model has of an instance that is created. -/
def createdFor (κ : Type) (config : Config) : SocketIoInstance κ :=
  { SocketIoInstance.create κ with socket := decide (config = .accepted true) }

def opening {T : Type} (part : T) (agenda : List (List (Call κ))) : Scene T κ := ⟨part, agenda, false, false, []⟩

def Shows (m : Machine κ) (pending : List (PendingSocketIo κ)) : Prop :=
  ∃ base items, Holds base m items ∧ pending = items.map Item.shown

/-- From `socketio_create` to `socketio_destroy`, over every allocator, every memory, every outcome
    of every allocation and system call, and every owner that does not call `socketio_dowork` in
    an `on_send_complete` which `socketio_dowork` makes: no call reads or frees what is freed, each
    does what it does on the list, and of the instance nothing is left but the MAC addresses
    that were overwritten. -/
theorem pointers_safe {al : Allocator (Object κ)} (hal : al.Succeeds) (config : Config) (outside : Memory (Object κ))
    (ms : Mallocs) (n : Nat) (agenda : List (List (Call κ))) (calls : List (Call κ)) :
    ∃ r, socketioCreate al config outside ms = some r ∧ (r.1 = none → r.2.1.block = outside.block) ∧
      ∀ io, r.1 = some io →
        (performAll n calls (opening (createdFor κ config, r.2.2) agenda)).reentered = false →
          ∃ w, performAllAt al n calls (opening ⟨io, create, r.2.1, r.2.2⟩ agenda) = some w ∧
            w.log = (performAll n calls (opening (createdFor κ config, r.2.2) agenda)).log ∧
            Same w.part.io (performAll n calls (opening (createdFor κ config, r.2.2) agenda)).part.1 ∧
            Shows w.part (performAll n calls (opening (createdFor κ config, r.2.2) agenda)).part.1.pendingIoList ∧
            ∃ memory, socketioDestroy w.part = some memory ∧
              ∀ a, memory.block a = if a ∈ w.part.io.overwritten then some .text else outside.block a := by
  obtain ⟨r, hr, hnull, hnew⟩ := socketioCreate_spec hal config outside ms
  refine ⟨r, hr, hnull, ?_⟩
  intro io hio
  obtain ⟨hh, ho, hsocket, hcallbacks, hstate, hevents, -⟩ := hnew io hio
  have hopening : Mirrors outside.block none (opening ⟨io, create, r.2.1, r.2.2⟩ agenda)
      (opening (createdFor κ config, r.2.2) agenda) :=
    ⟨rfl, rfl, rfl, rfl, rfl, ⟨hsocket, hcallbacks, hstate, hevents⟩, r.2.1.block, [], ho, hh, rfl, no_item⟩
  intro hreentered
  obtain ⟨w, hw, hm⟩ := foldl_follows (perform_ghost n) (perform_follows hal n) calls no_front hopening hreentered
  obtain ⟨base, items, ho', hh', hl, -⟩ := hm.items
  exact ⟨w, hw, hm.log, hm.same, ⟨base, items, hh', hl⟩, socketioDestroy_spec hh' ho'⟩

/-- A completion that sends again and closes, and an error report in which `socketio_dowork`
    is called, which is safe there. -/
def safeAgenda : List (List (Call Nat)) := [[], [.send [5] none .again, .close true], [], [.dowork [.again] []]]

def safeCalls : List (Call Nat) :=
  [.openIo true, .setTargetMacAddress 17, .send [1, 2, 3] (some 7) (.accepted 1), .send [4] (some 8) .again,
    .dowork [.accepted 2, .fatal, .again] [], .setTargetMacAddress 17]

theorem pointers_safe_reply : ∃ r, socketioCreate (bump (Object Nat)) (.host 9) .empty [] = some r ∧
    (r.1 = none → r.2.1.block = fun _ => none) ∧
      ∀ io, r.1 = some io → ∃ w, performAllAt (bump _) 2 safeCalls (opening ⟨io, create, r.2.1, r.2.2⟩ safeAgenda) = some w ∧
        w.log = [.opened .ok, .returned 0, .returned 0, .returned 0, .returned 0, .completed 7, .returned 0, .closed,
          .returned 0, .error, .returned 0] ∧
          ∃ memory, socketioDestroy w.part = some memory ∧
            ∀ a, memory.block a = if a ∈ w.part.io.overwritten then some .text else none := by
  have hs := pointers_safe (bump_succeeds (Object Nat)) (.host 9) .empty [] 2 safeAgenda safeCalls
  obtain ⟨r, hr, hnull, hlife⟩ := hs
  refine ⟨r, hr, hnull, ?_⟩
  intro io hio
  have hms : r.2.2 = [] := by
    have he : (socketioCreate (bump (Object Nat)) (.host 9) .empty []).map (·.2.2) = some [] := rfl
    rw [hr] at he
    exact Option.some.inj he
  have hquiet : (performAll 2 safeCalls (opening (createdFor Nat (.host 9), []) safeAgenda)).reentered = false := by
    decide +kernel
  have hlog : (performAll 2 safeCalls (opening (createdFor Nat (.host 9), []) safeAgenda)).log =
      [.opened .ok, .returned 0, .returned 0, .returned 0, .returned 0, .completed 7, .returned 0, .closed, .returned 0,
        .error, .returned 0] := by
    decide +kernel
  rw [hms] at hlife ⊢
  obtain ⟨w, hw, hwlog, -, -, hdestroy⟩ := hlife io hio hquiet
  exact ⟨w, hw, hwlog.trans hlog, hdestroy⟩

/-! ## Where it reenters -/

/-- The owner does nothing in its callbacks any more, and nothing is at `a`. -/
structure Gone (a : Nat) (w : PointerScene κ) : Prop where
  agenda : w.agenda = []
  block : w.part.memory.block a = none

theorem free_gone {a b : Nat} {m m' : Memory (Object κ)} (h : m.block a = none) (hf : m.free b = some m') :
    m'.block a = none := by
  unfold Memory.free at hf
  split at hf
  · cases hf
    by_cases hab : a = b
    · rw [hab, Memory.write_self]
    · rw [Memory.write_ne hab, h]
  · cases hf

theorem freePending_gone {a b : Nat} {m m' : Machine κ} (h : m.memory.block a = none) (hf : freePending b m = some m') :
    m'.memory.block a = none := by
  unfold freePending at hf
  split at hf
  · rename_i bytes _ _ _
    simp only [Option.bind_eq_bind, Option.bind_eq_some_iff] at hf
    obtain ⟨m₁, h₁, m₂, h₂, hm⟩ := hf
    cases hm
    apply free_gone _ h₂
    cases bytes with
    | none => cases h₁; exact h
    | some bytes => exact free_gone h h₁
  · cases hf

theorem removeItem_gone {a b : Nat} {m : Machine κ} {r : Nat × Machine κ} (h : m.memory.block a = none)
    (hf : removeItem b m = some r) : r.2.memory.block a = none := by
  unfold removeItem at hf
  simp only [Option.bind_eq_bind, Option.bind_eq_some_iff] at hf
  obtain ⟨removed, -, hf⟩ := hf
  split at hf
  · obtain ⟨memory, hm, hr⟩ := Option.bind_eq_some_iff.mp hf
    cases hr
    exact free_gone h hm
  · cases hf
    exact h

theorem keepUnsent_gone {a b sendResult : Nat} {m : Machine κ} {pending : Pending κ} (h : m.memory.block a = none)
    (hr : readPending b m.memory = some pending) : (keepUnsent b pending sendResult m).memory.block a = none := by
  unfold readPending at hr
  split at hr
  · rename_i bytes _ _ hb
    split at hr
    · rename_i hc
      split at hr
      · cases hr
        have hab : a ≠ b := by
          rintro rfl
          rw [h] at hb
          cases hb
        have hac : a ≠ bytes := by
          rintro rfl
          rw [h] at hc
          cases hc
        exact (Memory.write_ne hab).trans ((Memory.write_ne hac).trans h)
      · cases hr
    · cases hr
  · cases hr

section Silent

variable {f : Call κ → PointerScene κ → Option (PointerScene κ)} {a : Nat}

theorem respondAt_gone {note : Note κ} {w' : PointerScene κ} (h : Gone a w) (he : respondAt f note w = some w') :
    Gone a w' := by
  unfold respondAt at he
  rw [h.agenda] at he
  cases he
  exact ⟨congrArg List.tail h.agenda, h.block⟩

theorem indicateError_gone {w' : PointerScene κ} (h : Gone a w) (he : indicateError (slot _ κ) (callbacksAt f) w = some w') :
    Gone a w' := by
  unfold indicateError at he
  split at he
  · exact respondAt_gone h he
  · cases he
    exact h

theorem sendCompleted_gone {onSendComplete : Option κ} {w' : PointerScene κ} (h : Gone a w)
    (he : sendCompleted (slot _ κ) (callbacksAt f) onSendComplete w = some w') : Gone a w' := by
  cases onSendComplete with
  | none =>
    cases he
    exact h
  | some k =>
    obtain ⟨w₁, hw, rfl⟩ := Option.map_eq_some_iff.mp he
    have h₁ : Gone a w₁ := by
      apply respondAt_gone _ hw
      exact ⟨h.agenda, h.block⟩
    exact ⟨h₁.agenda, h₁.block⟩

/-- The pending list only gives back. -/
theorem flush_gone (answers : List SendAnswer) {w' : PointerScene κ} (h : Gone a w)
    (he : flush (slot _ κ) (callbacksAt f) answers w = some w') : Gone a w' := by
  induction answers generalizing w with
  | nil =>
    cases he
    exact h
  | cons answer answers ih =>
    unfold flush at he
    split at he
    · cases he
      exact h
    · simp only [Option.bind_eq_bind, Option.bind_eq_some_iff] at he
      obtain ⟨cell, -, pending, hread, he⟩ := he
      cases answer with
      | again =>
        cases he
        exact h
      | fatal =>
        simp only [Option.bind_eq_some_iff] at he
        obtain ⟨m, hfree, r, hremove, w₁, herror, he⟩ := he
        have hr := removeItem_gone (freePending_gone h.block hfree) hremove
        apply ih _ he
        apply indicateError_gone _ herror
        exact ⟨h.agenda, hr⟩
      | accepted sendResult =>
        simp only at he
        split at he
        · cases he
          exact ⟨h.agenda, keepUnsent_gone h.block hread⟩
        · simp only [Option.bind_eq_some_iff] at he
          obtain ⟨w₁, hsent, m, hfree, r, hremove, w₂, herror, he⟩ := he
          have h₁ : Gone a w₁ := by
            apply sendCompleted_gone _ hsent
            exact ⟨h.agenda, h.block⟩
          have hr := removeItem_gone (freePending_gone h₁.block hfree) hremove
          apply ih _ he
          split at herror
          · apply indicateError_gone _ herror
            exact ⟨h₁.agenda, hr⟩
          · cases herror
            exact ⟨h₁.agenda, hr⟩

theorem receive_gone (received : List RecvAnswer) {w' : PointerScene κ} (h : Gone a w)
    (he : receive (slot _ κ) (callbacksAt f) received w = some w') : Gone a w' := by
  induction received generalizing w with
  | nil =>
    cases he
    exact h
  | cons answer received ih =>
    cases answer with
    | again =>
      cases he
      exact h
    | failed => exact indicateError_gone h he
    | bytes received' =>
      unfold receive at he
      split at he
      · cases he
        exact h
      · simp only [Option.bind_eq_bind, Option.bind_eq_some_iff] at he
        obtain ⟨w₁, htold, he⟩ := he
        have h₁ : Gone a w₁ := by
          split at htold
          · exact respondAt_gone h htold
          · cases htold
            exact h
        split at he
        · exact ih h₁ he
        · cases he
          exact h₁

/-- The list and the memory are as they were, and the owner does nothing in its callbacks any more. -/
structure Untouched (m : Machine κ) (w : PointerScene κ) : Prop where
  agenda : w.agenda = []
  list : w.part.list = m.list
  memory : w.part.memory = m.memory

variable {base : Nat → Option (Object κ)} {m : Machine κ} {it : Item κ} {items : List (Item κ)}

theorem Untouched.holds (h : Untouched m w) (hh : Holds base m items) : Holds base w.part items :=
  hh.of_block h.list (congrArg Memory.block h.memory)

theorem respondAt_untouched {note : Note κ} {w' : PointerScene κ} (h : Untouched m w) (he : respondAt f note w = some w') :
    Untouched m w' := by
  unfold respondAt at he
  rw [h.agenda] at he
  cases he
  exact ⟨congrArg List.tail h.agenda, h.list, h.memory⟩

theorem sendCompleted_untouched {onSendComplete : Option κ} {w' : PointerScene κ} (h : Untouched m w)
    (he : sendCompleted (slot _ κ) (callbacksAt f) onSendComplete w = some w') : Untouched m w' := by
  cases onSendComplete with
  | none =>
    cases he
    exact h
  | some k =>
    obtain ⟨w₁, hw, rfl⟩ := Option.map_eq_some_iff.mp he
    have h₁ : Untouched m w₁ := by
      apply respondAt_untouched _ hw
      exact ⟨h.agenda, h.list, h.memory⟩
    exact ⟨h₁.agenda, h₁.list, h₁.memory⟩

theorem socketioClose_untouched {callback : Bool} {r : Nat × PointerScene κ} (h : Untouched m w)
    (he : socketioClose (slot _ κ) (callbacksAt f) callback w = some r) : Untouched m r.2 := by
  obtain ⟨w₁, hw, rfl⟩ := Option.map_eq_some_iff.mp he
  have hclosed : ∀ w₀ : PointerScene κ, Untouched m w₀ →
      (if callback then (callbacksAt f).onIoCloseComplete w₀ else some w₀) = some w₁ → Untouched m w₁ := by
    intro w₀ h₀ hc
    split at hc
    · exact respondAt_untouched h₀ hc
    · cases hc
      exact h₀
  apply hclosed _ _ hw
  split
  · exact ⟨h.agenda, h.list, h.memory⟩
  · exact h

def Ends (it : Item κ) : SendAnswer → Prop
  | .again => False
  | .fatal => True
  | .accepted sendResult => it.size ≤ sendResult

/-- The item in front is freed. -/
theorem flush_ends {answer : SendAnswer} {answers : List SendAnswer} {w' : PointerScene κ} (ha : w.agenda = [])
    (hh : Holds base w.part (it :: items)) (hends : Ends it answer)
    (he : flush (slot _ κ) (callbacksAt f) (answer :: answers) w = some w') : Gone it.record w' := by
  obtain ⟨hhead, ⟨next, hcell⟩, hread⟩ := hh.front
  have hgone : ∀ m' : Machine κ, Holds base m' items → m'.memory.block it.record = none := by
    intro m' hh'
    rw [hh'.rest _ (hh.apart.2.2.2 _ (by simp [Item.places]))]
    exact hh.outside _ (by simp [Item.places])
  simp only [flush, slot, hhead, hcell, hread, Option.bind_eq_bind, Option.bind_some] at he
  cases answer with
  | again => cases hends
  | fatal =>
    obtain ⟨m₁, m₂, hfree, hremove, -, -, hh₂⟩ := hh.retire
    simp only [hfree, hremove, Option.bind_some, Option.bind_eq_some_iff] at he
    obtain ⟨w₁, herror, he⟩ := he
    apply flush_gone answers _ he
    apply indicateError_gone _ herror
    exact ⟨ha, hgone m₂ hh₂⟩
  | accepted sendResult =>
    simp only [if_neg (Nat.not_lt.mpr hends), Option.bind_eq_some_iff] at he
    obtain ⟨w₁, hsent, m, hfree, r, hremove, w₂, herror, he⟩ := he
    have h₁ : Untouched w.part w₁ := by
      apply sendCompleted_untouched _ hsent
      exact ⟨ha, rfl, rfl⟩
    obtain ⟨m₁, m₂, hfree', hremove', -, -, hh₂⟩ := (h₁.holds hh).retire
    obtain rfl : m₁ = m := Option.some.inj (hfree'.symm.trans hfree)
    obtain rfl : (0, m₂) = r := Option.some.inj (hremove'.symm.trans hremove)
    cases herror
    apply flush_gone answers _ he
    exact ⟨h₁.agenda, hgone m₂ hh₂⟩

end Silent

/-- In the `on_send_complete` of an item that `socketio_dowork` has sent, the owner closes the
    transport any number of times, as `close_connection` of the client may, and calls
    `socketio_dowork`, which ends the item once more: then the call that made the callback has
    lost it. So it is for every allocator, every memory and whatever else is pending. -/
theorem reentered_stuck (al : Allocator (Object κ)) {base : Nat → Option (Object κ)} {it : Item κ}
    {items : List (Item κ)} {k : κ} (hh : Holds base w.part (it :: items)) (hk : it.onSendComplete = some k)
    (closes : List Bool) {inner : SendAnswer}
    (hinner : Ends it inner) (inners : List SendAnswer) (innerReceived : List RecvAnswer)
    (hagenda : w.agenda = [closes.map Call.close ++ [.dowork (inner :: inners) innerReceived]])
    {sendResult : Nat} (hfull : it.size ≤ sendResult) (answers : List SendAnswer) (received : List RecvAnswer) (n : Nat) :
    performAt al (n + 2) (.dowork (.accepted sendResult :: answers) received) w = none := by
  obtain ⟨hhead, ⟨next, hcell⟩, hread⟩ := hh.front
  by_contra hsome
  obtain ⟨w', he⟩ := Option.ne_none_iff_exists'.mp hsome
  simp only [performAt, socketioDowork, Option.bind_eq_bind, Option.bind_eq_some_iff] at he
  obtain ⟨w₁, he, -⟩ := he
  simp only [flush, slot, Scene.working, hhead, hcell, hread, Option.bind_eq_bind, Option.bind_some,
    if_neg (Nat.not_lt.mpr hfull), Option.bind_eq_some_iff] at he
  obtain ⟨w₂, hsent, m, hfree, -⟩ := he
  rw [hk] at hsent
  obtain ⟨w₃, hresponse, rfl⟩ := Option.map_eq_some_iff.mp hsent
  have hcloses : ∀ (closes : List Bool) (w w' : PointerScene κ) (m : Machine κ), Untouched m w →
      (closes.map Call.close).foldlM (fun w c => performAt al (n + 1) c w) w = some w' → Untouched m w' := by
    intro closes
    induction closes with
    | nil =>
      rintro w w' m h ⟨⟩
      exact h
    | cons close closes ih =>
      intro w w' m h hfold
      rw [List.map_cons, List.foldlM_cons] at hfold
      obtain ⟨w₁, hclose, hfold⟩ := Option.bind_eq_some_iff.mp hfold
      obtain ⟨r, hr, rfl⟩ := Option.map_eq_some_iff.mp hclose
      have h₁ := socketioClose_untouched h hr
      apply ih _ _ _ _ hfold
      exact ⟨h₁.agenda, h₁.list, h₁.memory⟩
  have hgone : Gone it.record w₃ := by
    simp only [respondAt, update, accept, Slot.modify, hagenda, List.headD_cons, List.foldlM_append,
      Option.bind_eq_bind, Option.bind_eq_some_iff] at hresponse
    obtain ⟨w₄, hclosed, hdowork⟩ := hresponse
    have h₄ : Untouched w.part w₄ := by
      apply hcloses closes _ _ _ _ hclosed
      exact ⟨rfl, rfl, rfl⟩
    have hinner' : performAt al (n + 1) (.dowork (inner :: inners) innerReceived) w₄ = some w₃ := by
      rw [List.foldlM_cons] at hdowork
      obtain ⟨w₅, h₅, hnil⟩ := Option.bind_eq_some_iff.mp hdowork
      cases hnil
      exact h₅
    simp only [performAt, socketioDowork, Option.bind_eq_bind, Option.bind_eq_some_iff] at hinner'
    obtain ⟨w₅, hflush, hreceive⟩ := hinner'
    have hworking : Holds base w₄.working.part (it :: items) := h₄.holds hh
    have hidle : w₄.working.agenda = [] := h₄.agenda
    have h₅ : Gone it.record w₅ := flush_ends hidle hworking hinner hflush
    split at hreceive
    · exact receive_gone innerReceived h₅ hreceive
    · cases hreceive
      exact h₅
  have hrecord : w₃.part.memory.block it.record = none := hgone.block
  simp only [freePending, hrecord] at hfree
  cases hfree

/-- Two bytes are pending, and `close_connection` runs in their completion. -/
def pendingScene : PointerScene Nat where
  part :=
    { io := ⟨0, 1, some 2, none, [], true, true, .opened, []⟩
      list := ⟨Function.update (fun _ => none) 5 (some ⟨3, none⟩), some 5, some 5⟩
      memory := ((Memory.empty.write 3 (some (.pending (some 4) 2 (some 7)))).write 4 (some (.bytes [192, 0]))).write 5
        (some .node)
      mallocs := [] }
  agenda := [[.close true, .dowork [.fatal] []]]
  held := false
  reentered := false
  log := []

theorem pendingScene_stuck : performAt (bump _) 2 (.dowork [.accepted 2] []) pendingScene = none := by
  have hholds : Holds (fun _ => none) pendingScene.part [⟨5, 3, 4, [192, 0], 2, some 7⟩] := by
    constructor
    · refine ⟨⟨rfl, none, rfl, rfl⟩, rfl, ?_⟩
      intro a ha
      by_contra hne
      apply ha
      have h5 : a ≠ 5 := fun he => hne (by rw [he]; exact List.mem_singleton.mpr rfl)
      simp only [pendingScene, Function.update_of_ne h5]
    · intro it hit
      rw [List.mem_singleton.mp hit]
      exact ⟨rfl, rfl, rfl, Nat.le_refl 2⟩
    · decide
    · exact fun _ _ => rfl
    · intro a ha
      have hne : a ≠ 5 ∧ a ≠ 3 ∧ a ≠ 4 := by
        simpa [places, Item.places] using ha
      simp only [pendingScene]
      rw [Memory.write_ne hne.1, Memory.write_ne hne.2.2, Memory.write_ne hne.2.1]
      rfl
  have hends : Ends (⟨5, 3, 4, [192, 0], 2, some 7⟩ : Item Nat) .fatal := trivial
  exact reentered_stuck (bump _) hholds rfl [true] hends [] [] rfl (Nat.le_refl 2) [] [] 0

end Runs

end UMqtt.Io.Pointers

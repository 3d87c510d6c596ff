/-
  UMqtt.Io.Alone — a socket instance on its own.

  Where the callbacks do nothing, a call changes its instance and its allocator and nothing
  else, and changes them as it would change a state that is nothing but the two
  (`socketioSend_alone`, `flush_alone`). A call only adds to the events (`Onward`).
-/

import UMqtt.Io.Transmit

namespace UMqtt.Io

open UMqtt.Lib UMqtt.Crt

section Alone

variable {κ W : Type} (s : Slot W (SocketIoInstance κ × Mallocs))

abbrev itself (κ : Type) : Slot (SocketIoInstance κ × Mallocs) (SocketIoInstance κ × Mallocs) := Slot.whole _

def sendAlone (buffer : List UInt8) (onSendComplete : Option κ) (answer : SendAnswer) (x : SocketIoInstance κ × Mallocs) :
    Nat × SocketIoInstance κ × Mallocs :=
  socketioSend (itself κ) (.inert κ _) buffer onSendComplete answer x

def flushAlone (answers : List SendAnswer) (x : SocketIoInstance κ × Mallocs) : SocketIoInstance κ × Mallocs :=
  flush (itself κ) (.inert κ _) answers x

@[simp] theorem itself_get (x : SocketIoInstance κ × Mallocs) : (itself κ).get x = x := rfl

@[simp] theorem itself_set (x y : SocketIoInstance κ × Mallocs) : (itself κ).set x y = x := rfl

@[simp] theorem update_itself (f : SocketIoInstance κ → SocketIoInstance κ) (x : SocketIoInstance κ × Mallocs) :
    update (itself κ) f x = (f x.1, x.2) := rfl

theorem update_eq (f : SocketIoInstance κ → SocketIoInstance κ) (w : W) : update s f w = s.set (f (s.get w).1, (s.get w).2) w :=
  rfl

theorem sendCompleted_alone (onSendComplete : Option κ) (w : W) :
    sendCompleted s (.inert κ W) onSendComplete w =
      s.set (sendCompleted (itself κ) (.inert κ _) onSendComplete (s.get w)) w := by
  cases onSendComplete with
  | none => exact (s.set_get w).symm
  | some k => rfl

theorem accept_alone (bytes : List UInt8) (w : W) : accept s bytes w = s.set (accept (itself κ) bytes (s.get w)) w := rfl

theorem queue_alone (buffer : List UInt8) (onSendComplete : Option κ) (w : W) :
    queue s buffer onSendComplete w =
      ((queue (itself κ) buffer onSendComplete (s.get w)).1, s.set (queue (itself κ) buffer onSendComplete (s.get w)).2 w) := rfl

theorem indicateError_alone (w : W) : indicateError s (.inert κ W) w = w := ite_self w

theorem socketioSend_alone (buffer : List UInt8) (onSendComplete : Option κ) (answer : SendAnswer) (w : W) :
    socketioSend s (.inert κ W) buffer onSendComplete answer w =
      ((sendAlone buffer onSendComplete answer (s.get w)).1, s.set (sendAlone buffer onSendComplete answer (s.get w)).2 w) := by
  simp only [sendAlone, socketioSend, itself_get]
  by_cases hlen : buffer.length = 0
  · simp [hlen]
  by_cases hopen : (s.get w).1.ioState = .opened
  · simp only [hlen, hopen, ne_eq, not_true_eq_false, if_false]
    cases (s.get w).1.pendingIoList with
    | cons pending rest => exact queue_alone s buffer onSendComplete w
    | nil =>
      cases answer with
      | again => simp
      | fatal => simp
      | accepted n =>
        by_cases hn : n < buffer.length
        · simp [hn, queue_alone s, accept_alone s]
        · simp [hn, sendCompleted_alone s, accept_alone s]
  · simp [hlen, hopen]

theorem flush_alone (answers : List SendAnswer) (w : W) :
    flush s (.inert κ W) answers w = s.set (flushAlone answers (s.get w)) w := by
  induction answers generalizing w with
  | nil => simp [flush, flushAlone]
  | cons answer answers ih =>
    simp only [flushAlone, flush, itself_get] at ih ⊢
    split
    · simp
    · cases answer with
      | again => simp
      | fatal =>
        simp only [indicateError_alone]
        rw [ih]
        simp [update_eq]
      | accepted n =>
        simp only
        split
        · simp [update_eq, accept_alone s]
        · rw [ih]
          simp [update_eq, accept_alone s, sendCompleted_alone s]

end Alone

/-! ## Nothing is taken back -/

section Onward

variable {κ : Type} {x y z : SocketIoInstance κ × Mallocs}

/-- What has happened has happened, and the callbacks stay. -/
structure Onward (x y : SocketIoInstance κ × Mallocs) : Prop where
  events : x.1.events <+: y.1.events
  callbacks : y.1.callbacks = x.1.callbacks

theorem Onward.refl (x : SocketIoInstance κ × Mallocs) : Onward x x := ⟨List.prefix_rfl, rfl⟩

theorem Onward.trans (h : Onward x y) (h' : Onward y z) : Onward x z :=
  ⟨h.events.trans h'.events, h'.callbacks.trans h.callbacks⟩

/-- What is accepted later comes behind what was. -/
theorem Onward.accepted (h : Onward x y) : accepted x.1.events <+: accepted y.1.events := by
  obtain ⟨later, he⟩ := h.events
  exact ⟨Io.accepted later, by rw [← he, accepted_append]⟩

theorem accept_onward (bytes : List UInt8) (x : SocketIoInstance κ × Mallocs) : Onward x (accept (itself κ) bytes x) :=
  ⟨List.prefix_append _ _, rfl⟩

theorem sendCompleted_onward (k : Option κ) (x : SocketIoInstance κ × Mallocs) :
    Onward x (sendCompleted (itself κ) (.inert κ _) k x) := by
  cases k with
  | none => exact .refl x
  | some k => exact ⟨List.prefix_append _ _, rfl⟩

theorem queue_onward (buffer : List UInt8) (k : Option κ) (x : SocketIoInstance κ × Mallocs) :
    Onward x (queue (itself κ) buffer k x).2 := by
  simp only [queue, addPendingIo, itself_get, itself_set]
  repeat' split
  all_goals exact ⟨List.prefix_rfl, rfl⟩

theorem sendAlone_onward (buffer : List UInt8) (k : Option κ) (answer : SendAnswer) (x : SocketIoInstance κ × Mallocs) :
    Onward x (sendAlone buffer k answer x).2 := by
  unfold sendAlone socketioSend
  split
  · exact .refl x
  · split
    · exact .refl x
    · split
      · exact queue_onward buffer k x
      · cases answer with
        | again => exact .refl x
        | fatal => exact .refl x
        | accepted n =>
          simp only
          split
          · exact (accept_onward _ x).trans (queue_onward _ k _)
          · exact (accept_onward _ x).trans (sendCompleted_onward k _)

theorem flushAlone_onward (answers : List SendAnswer) (x : SocketIoInstance κ × Mallocs) : Onward x (flushAlone answers x) := by
  induction answers generalizing x with
  | nil => exact .refl x
  | cons answer answers ih =>
    simp only [flushAlone, flush, itself_get] at ih ⊢
    split
    · exact .refl x
    · cases answer with
      | again => exact .refl x
      | fatal =>
        simp only [indicateError_alone]
        refine Onward.trans ?_ (ih _)
        exact ⟨List.prefix_rfl, rfl⟩
      | accepted n =>
        simp only
        split
        · exact (accept_onward _ x).trans ⟨List.prefix_rfl, rfl⟩
        · refine Onward.trans ?_ (ih _)
          exact ((accept_onward _ x).trans (sendCompleted_onward _ _)).trans ⟨List.prefix_rfl, rfl⟩

end Onward

end UMqtt.Io

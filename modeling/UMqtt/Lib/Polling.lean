/-
  UMqtt.Lib.Polling — a sender that is kept busy by polling.

  A watcher reads the clock now and then (`poll`). If the last send was `k` or more before the
  reading, it sends something itself (`own`); others send as they like. When polls are at
  most `d` apart (`Polled`), no two sends are `k + d` apart (`Spaced`), an own send late by no
  more than the time since its poll.

  `Watched` is what a poll leaves behind: the last send is less than `k` before the last poll.
-/

import UMqtt.Lib.History

namespace UMqtt.Lib.Polling

inductive Event where
  | poll (time : Nat)
  | send (time : Nat) (own : Bool)
  deriving DecidableEq, Repr

/-- The reading of the last poll, or when it all started. -/
def lastPoll (start : Nat) (es : List Event) : Nat :=
  es.foldl (fun last e => match e with
    | .poll r => r
    | .send _ _ => last) start

def lastSend (es : List Event) : Option Nat :=
  es.foldl (fun last e => match e with
    | .poll _ => last
    | .send t _ => some t) none

/-- Each poll comes in time, and nothing that others send comes later than that. -/
def Polled (d start : Nat) : List Event → Prop :=
  Throughout fun before e => match e with
    | .poll r => r ≤ lastPoll start before + d
    | .send t own => own = false → t ≤ lastPoll start before + d

instance (d start : Nat) (es : List Event) : Decidable (Polled d start es) :=
  have : ∀ before e, Decidable (match e with
      | Event.poll r => r ≤ lastPoll start before + d
      | .send t own => own = false → t ≤ lastPoll start before + d) := fun _ e => by cases e <;> infer_instance
  inferInstanceAs (Decidable (Throughout _ es))

/-- How late an own send is, since its poll. -/
def delay (start : Nat) (before : List Event) (t : Nat) (own : Bool) : Nat :=
  if own then t - lastPoll start before else 0

/-- Two sends, one right after the other. -/
def Spaced (k d start : Nat) : List Event → Prop :=
  Throughout fun before e => ∀ t own, e = .send t own → ∀ a, lastSend before = some a →
    t < a + (k + d + delay start before t own)

def Watched (k start : Nat) (es : List Event) : Prop := ∀ a, lastSend es = some a → lastPoll start es < a + k

variable {k d start r t : Nat} {own : Bool} {es : List Event}

@[simp] theorem lastPoll_poll : lastPoll start (es ++ [.poll r]) = r := by simp [lastPoll]

@[simp] theorem lastPoll_send : lastPoll start (es ++ [.send t own]) = lastPoll start es := by simp [lastPoll]

@[simp] theorem lastSend_poll : lastSend (es ++ [.poll r]) = lastSend es := by simp [lastSend]

@[simp] theorem lastSend_send : lastSend (es ++ [.send t own]) = some t := by simp [lastSend]

theorem spaced_nil : Spaced k d start [] := throughout_nil

theorem watched_nil : Watched k start [] := by
  intro a ha
  cases ha

theorem spaced_poll (h : Spaced k d start es) : Spaced k d start (es ++ [.poll r]) :=
  throughout_concat.mpr ⟨h, by simp⟩

/-- A poll that finds the last send recent enough. -/
theorem watched_poll (h : ∀ a, lastSend es = some a → r < a + k) : Watched k start (es ++ [.poll r]) := by
  intro a ha
  rw [lastSend_poll] at ha
  rw [lastPoll_poll]
  exact h a ha

theorem watched_send (hk : 0 < k) (ht : lastPoll start es ≤ t) : Watched k start (es ++ [.send t own]) := by
  intro a ha
  rw [lastSend_send] at ha
  obtain rfl := Option.some.inj ha
  rw [lastPoll_send]
  omega

theorem spaced_send (hs : Spaced k d start es) (hw : Watched k start es) (hp : Polled d start (es ++ [.send t own])) :
    Spaced k d start (es ++ [.send t own]) := by
  refine throughout_concat.mpr ⟨hs, ?_⟩
  rintro _ _ ⟨⟩ a ha
  have hlast := hw a ha
  have htime := (throughout_concat.mp hp).2
  cases own with
  | false =>
    have hle : t ≤ lastPoll start es + d := htime rfl
    simp only [delay, Bool.false_eq_true, if_false]
    omega
  | true =>
    simp only [delay, if_true]
    omega

/-- The own send that a poll asks for. -/
theorem spaced_poll_send (hs : Spaced k d start es) (hw : Watched k start es) (hp : Polled d start (es ++ [.poll r])) :
    Spaced k d start (es ++ [.poll r] ++ [.send t true]) := by
  refine throughout_concat.mpr ⟨spaced_poll hs, ?_⟩
  rintro _ _ ⟨⟩ a ha
  rw [lastSend_poll] at ha
  have hlast := hw a ha
  have hpoll : r ≤ lastPoll start es + d := (throughout_concat.mp hp).2
  simp only [delay, if_true, lastPoll_poll]
  omega

end UMqtt.Lib.Polling

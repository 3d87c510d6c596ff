/-
  UMqtt.Lib.Loop — loops that stop at the first non-zero return, and the parts of a
  state.

  A C loop `for (i = 0; i < n && result == 0; i++) result = f(x[i])` is `runUntil`:
  its state is threaded through, and the first non-zero return ends it. A sequence of
  separate calls, each with its own return value, is `calls`. A loop that waits for its
  surroundings is `whileBreak`, told what they do in each round. A part of a larger state
  (a structure behind a handle) is a `Slot`: a getter and a setter that carry the laws
  of a field.
-/

import Mathlib

namespace UMqtt.Lib

/-! ## Slots -/

structure Slot (W S : Type) where
  get : W → S
  set : S → W → W
  get_set : ∀ s w, get (set s w) = s
  set_set : ∀ s t w, set s (set t w) = set s w
  set_get : ∀ w, set (get w) w = w

attribute [simp] Slot.get_set Slot.set_set Slot.set_get

def Slot.modify {W S : Type} (s : Slot W S) (f : S → S) (w : W) : W := s.set (f (s.get w)) w

def Slot.whole (W : Type) : Slot W W := ⟨id, fun s _ => s, fun _ _ => rfl, fun _ _ _ => rfl, fun _ => rfl⟩

section Slots

variable {W S : Type} (s : Slot W S)

@[simp] theorem Slot.get_modify (f : S → S) (w : W) : s.get (s.modify f w) = f (s.get w) := by simp [modify]

end Slots

/-! ## Loops -/

section Loops

variable {β W : Type} (f : β → W → Nat × W)

/-- Run `f` over the list until it returns something other than 0. -/
def runUntil : List β → W → Nat × W
  | [], w => (0, w)
  | x :: xs, w => if (f x w).1 = 0 then runUntil xs (f x w).2 else f x w

/-- Call `f` on every element, whatever it returns. -/
def calls : List β → W → List Nat × W
  | [], w => ([], w)
  | x :: xs, w => ((f x w).1 :: (calls xs (f x w).2).1, (calls xs (f x w).2).2)

@[simp] theorem runUntil_nil (w : W) : runUntil f [] w = (0, w) := rfl

theorem runUntil_cons (x : β) (xs : List β) (w : W) :
    runUntil f (x :: xs) w = if (f x w).1 = 0 then runUntil f xs (f x w).2 else f x w := rfl

theorem runUntil_append (xs ys : List β) (w : W) :
    runUntil f (xs ++ ys) w =
      if (runUntil f xs w).1 = 0 then runUntil f ys (runUntil f xs w).2 else runUntil f xs w := by
  induction xs generalizing w with
  | nil => simp
  | cons x xs ih =>
    simp only [List.cons_append, runUntil_cons]
    by_cases h : (f x w).1 = 0
    · simp only [h, if_true]; exact ih _
    · simp only [h, if_false]

theorem runUntil_append_ok {xs ys : List β} {w w' : W} (h : runUntil f xs w = (0, w')) :
    runUntil f (xs ++ ys) w = runUntil f ys w' := by
  rw [runUntil_append, h]; rfl

/-- The invariant rule: what every iteration keeps, the loop keeps. -/
theorem runUntil_inv {I : W → Prop} (hf : ∀ x w, I w → I (f x w).2) (xs : List β) {w : W} (h : I w) :
    I (runUntil f xs w).2 := by
  induction xs generalizing w with
  | nil => exact h
  | cons x xs ih =>
    rw [runUntil_cons]
    split
    · exact ih (hf x w h)
    · exact hf x w h

/-- Two loops over one list whose iterations return the same return the same. -/
theorem runUntil_rel {V : Type} {g : β → V → Nat × V} {R : W → V → Prop}
    (h : ∀ x w v, R w v → (f x w).1 = (g x v).1 ∧ R (f x w).2 (g x v).2) (xs : List β) {w : W} {v : V} (hR : R w v) :
    (runUntil f xs w).1 = (runUntil g xs v).1 ∧ R (runUntil f xs w).2 (runUntil g xs v).2 := by
  induction xs generalizing w v with
  | nil => exact ⟨rfl, hR⟩
  | cons x xs ih =>
    obtain ⟨hr, hR'⟩ := h x w v hR
    simp only [runUntil_cons, hr]
    by_cases h0 : (g x v).1 = 0
    · simp only [if_pos h0]; exact ih hR'
    · simp only [if_neg h0]; exact ⟨hr, hR'⟩

@[simp] theorem calls_nil (w : W) : calls f [] w = ([], w) := rfl

theorem calls_congr {f g : β → W → Nat × W} {xs : List β} (h : ∀ x ∈ xs, ∀ w, f x w = g x w) (w : W) :
    calls f xs w = calls g xs w := by
  induction xs generalizing w with
  | nil => rfl
  | cons x xs ih =>
    simp only [calls, h x List.mem_cons_self]
    rw [ih fun y hy => h y (List.mem_cons_of_mem _ hy)]

theorem calls_rel {V : Type} {g : β → V → Nat × V} {R : W → V → Prop}
    (h : ∀ x w v, R w v → (f x w).1 = (g x v).1 ∧ R (f x w).2 (g x v).2) (xs : List β) {w : W} {v : V} (hR : R w v) :
    R (calls f xs w).2 (calls g xs v).2 := by
  induction xs generalizing w v with
  | nil => exact hR
  | cons x xs ih => exact ih (h x w v hR).2

/-- A loop over a whole list that returns 0 can be cut into calls anywhere: each piece
    returns 0 and together they do the same. -/
theorem calls_of_flatten {css : List (List β)} {w w' : W} (h : runUntil f css.flatten w = (0, w')) :
    calls (runUntil f) css w = (css.map fun _ => 0, w') := by
  induction css generalizing w with
  | nil => simpa using h
  | cons c css ih =>
    rw [List.flatten_cons, runUntil_append] at h
    by_cases h0 : (runUntil f c w).1 = 0
    · rw [if_pos h0] at h
      simp only [calls, h0, ih h, List.map_cons]
    · rw [if_neg h0] at h
      rw [h] at h0; exact absurd rfl h0

end Loops

/-! ## Loops that wait -/

section Waiting

variable {A W : Type} (top mid : W → Bool) (body : A → W → W)

/-- `while (top) { body; if (mid) break; }`, with an input for each round and rounds to spend;
    `none` when they run out. -/
def whileBreak : Nat → (Nat → A) → W → Option W
  | 0, _, _ => none
  | fuel + 1, inputs, w =>
    if top w then
      if mid (body (inputs 0) w) then some (body (inputs 0) w)
      else whileBreak fuel (fun k => inputs (k + 1)) (body (inputs 0) w)
    else some w

def rounds : Nat → (Nat → A) → W → W
  | 0, _, w => w
  | n + 1, inputs, w => rounds n (fun k => inputs (k + 1)) (body (inputs 0) w)

theorem whileBreak_isSome {fuel : Nat} {inputs : Nat → A} {w : W} (h : (whileBreak top mid body fuel inputs w).isSome) :
    ∃ n, top (rounds body n inputs w) = false ∨ mid (rounds body (n + 1) inputs w) = true := by
  induction fuel generalizing inputs w with
  | zero => simp [whileBreak] at h
  | succ fuel ih =>
    unfold whileBreak at h
    split at h
    · split at h
      · exact ⟨0, Or.inr ‹_›⟩
      · obtain ⟨n, hn⟩ := ih h
        exact ⟨n + 1, hn⟩
    · exact ⟨0, Or.inl (Bool.eq_false_iff.mpr ‹_›)⟩

/-- A loop that ends has made some number of rounds. -/
theorem whileBreak_rounds {fuel : Nat} {inputs : Nat → A} {w w' : W} (h : whileBreak top mid body fuel inputs w = some w') :
    ∃ n, w' = rounds body n inputs w := by
  induction fuel generalizing inputs w with
  | zero => cases h
  | succ fuel ih =>
    unfold whileBreak at h
    split at h
    · split at h
      · exact ⟨1, (Option.some.inj h).symm⟩
      · obtain ⟨n, hn⟩ := ih h
        exact ⟨n + 1, hn⟩
    · exact ⟨0, (Option.some.inj h).symm⟩

/-- One of the two conditions ended it. -/
theorem whileBreak_ended {fuel : Nat} {inputs : Nat → A} {w w' : W} (h : whileBreak top mid body fuel inputs w = some w') :
    top w' = false ∨ mid w' = true := by
  induction fuel generalizing inputs w with
  | zero => cases h
  | succ fuel ih =>
    unfold whileBreak at h
    split at h
    · split at h
      · cases h
        exact Or.inr ‹_›
      · exact ih h
    · cases h
      exact Or.inl (Bool.eq_false_iff.mpr ‹_›)

/-- What every round keeps, the loop keeps. -/
theorem whileBreak_inv {I : W → Prop} {inputs : Nat → A} (hbody : ∀ k w, I w → I (body (inputs k) w)) {fuel : Nat} {w w' : W}
    (hw : I w) (h : whileBreak top mid body fuel inputs w = some w') : I w' := by
  induction fuel generalizing inputs w with
  | zero => cases h
  | succ fuel ih =>
    unfold whileBreak at h
    split at h
    · split at h
      · cases h
        exact hbody 0 w hw
      · exact ih (fun k => hbody (k + 1)) (hbody 0 w hw) h
    · cases h
      exact hw

/-- A loop is left by the round in which a condition says so, or before it. -/
theorem whileBreak_isSome_iff (inputs : Nat → A) (w : W) :
    (∃ fuel, (whileBreak top mid body fuel inputs w).isSome) ↔
      ∃ n, top (rounds body n inputs w) = false ∨ mid (rounds body (n + 1) inputs w) = true := by
  constructor
  · intro h
    obtain ⟨fuel, h⟩ := h
    exact whileBreak_isSome top mid body h
  · intro h
    obtain ⟨n, h⟩ := h
    refine ⟨n + 1, ?_⟩
    induction n generalizing inputs w with
    | zero =>
      simp only [rounds] at h
      unfold whileBreak
      split
      · rcases h with h | h
        · exact absurd ‹_› (Bool.eq_false_iff.mp h)
        · rw [if_pos h]; rfl
      · rfl
    | succ n ih =>
      unfold whileBreak
      split
      · split
        · rfl
        · exact ih _ _ h
      · rfl

end Waiting

end UMqtt.Lib

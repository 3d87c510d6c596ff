/-
  UMqtt.Lib.Ledger — what a program creates and releases, in order.

  A ledger is the list of both. Reading it from the objects that are held fails (`none`) where
  something is released that is not held, or created that is; otherwise it says what is held at
  the end. A ledger read from nothing to nothing has released what it created, each object as
  often as it was created (`count_released`).
-/

import Mathlib

namespace UMqtt.Lib.Ledger

inductive Entry (κ : Type) where
  | created (x : κ)
  | released (x : κ)
  deriving DecidableEq, Repr

variable {κ : Type} [DecidableEq κ]

def held : List (Entry κ) → List κ → Option (List κ)
  | [], hs => some hs
  | .created x :: es, hs => if x ∈ hs then none else held es (x :: hs)
  | .released x :: es, hs => if x ∈ hs then held es (hs.erase x) else none

/-- Everything created is released once, and nothing else is. -/
def Settled (es : List (Entry κ)) : Prop := held es [] = some []

/-- The object is created and not released. -/
def Holds (es : List (Entry κ)) (x : κ) : Prop := ∃ hs, held es [] = some hs ∧ x ∈ hs

instance (es : List (Entry κ)) : Decidable (Settled es) := by unfold Settled; infer_instance

variable {es fs : List (Entry κ)} {hs hs' : List κ} {x : κ}

theorem held_append : held (es ++ fs) hs = (held es hs).bind (held fs) := by
  induction es generalizing hs with
  | nil => rfl
  | cons e es ih =>
    cases e with
    | created x =>
      simp only [List.cons_append, held]
      split
      · rfl
      · exact ih
    | released x =>
      simp only [List.cons_append, held]
      split
      · exact ih
      · rfl

theorem held_created (h : held es [] = some hs) (hx : x ∉ hs) : held (es ++ [.created x]) [] = some (x :: hs) := by
  simp only [held_append, h, Option.bind_some, held, if_neg hx]

theorem held_released (h : held es [] = some hs) (hx : x ∈ hs) : held (es ++ [.released x]) [] = some (hs.erase x) := by
  simp only [held_append, h, Option.bind_some, held, if_pos hx]

/-- Conservation: what is released and what is held at the end is what is created and what was
    held before. -/
theorem count_held (h : held es hs = some hs') (x : κ) :
    es.count (.released x) + hs'.count x = es.count (.created x) + hs.count x := by
  induction es generalizing hs with
  | nil =>
    cases h
    simp
  | cons e es ih =>
    cases e with
    | created y =>
      simp only [held] at h
      split at h
      · cases h
      · have hrest := ih h
        by_cases hxy : y = x
        · subst hxy
          simp only [List.count_cons_self, ne_eq, reduceCtorEq, not_false_eq_true, List.count_cons_of_ne] at hrest ⊢
          omega
        · have hne : Entry.created y ≠ Entry.created x := fun he => hxy (Entry.created.inj he)
          simp only [ne_eq, reduceCtorEq, not_false_eq_true, List.count_cons_of_ne, hne, hxy] at hrest ⊢
          omega
    | released y =>
      simp only [held] at h
      split at h
      · have hrest := ih h
        by_cases hxy : y = x
        · subst hxy
          have hpos := List.count_pos_iff.mpr ‹y ∈ hs›
          simp only [List.count_cons_self, ne_eq, reduceCtorEq, not_false_eq_true, List.count_cons_of_ne,
            List.count_erase_self] at hrest ⊢
          omega
        · have hne : Entry.released y ≠ Entry.released x := fun he => hxy (Entry.released.inj he)
          rw [List.count_erase_of_ne (Ne.symm hxy)] at hrest
          simp only [ne_eq, reduceCtorEq, not_false_eq_true, List.count_cons_of_ne, hne] at hrest ⊢
          omega
      · cases h

/-- Each object is released as often as it is created. -/
theorem count_released (h : Settled es) (x : κ) : es.count (.released x) = es.count (.created x) := by
  have hcount := count_held h x
  rwa [List.count_nil, Nat.add_zero] at hcount

end UMqtt.Lib.Ledger

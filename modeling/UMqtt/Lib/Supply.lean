/-
  UMqtt.Lib.Supply — computations that ask a supply, request by request.

  A supply is a list of answers, each of which grants one request or refuses it; past its end
  every request is granted. A computation returns a value or nothing, and what is left of the
  supply. `Draws ok k f P`: `f` stands and falls with its `k` requests. Where all of them are
  granted it returns a value that has `P`, and where one is refused it returns nothing. The rules
  put such computations behind each other (`Draws.andThen`), also item by item (`Draws.loop`).
-/

import Mathlib

namespace UMqtt.Lib.Supply

variable {α β γ : Type}

/-! ## All or nothing -/

structure Draws (ok : α → Prop) (k : Nat) (f : List α → Option β × List α) (P : β → Prop) : Prop where
  granted : ∀ {as}, (∀ a ∈ as.take k, ok a) → ∃ b, f as = (some b, as.drop k) ∧ P b
  refused : ∀ {as}, ¬ (∀ a ∈ as.take k, ok a) → (f as).1 = none

/-- The second computation, on what the first returns. -/
def andThen (f : List α → Option β × List α) (g : β → List α → Option γ × List α) (as : List α) : Option γ × List α :=
  match f as with
  | (some b, as) => g b as
  | (none, as) => (none, as)

/-- A computation with a status, which keeps its value where that is 0. -/
def kept (f : List α → Nat × β × List α) (as : List α) : Option β × List α :=
  let r := f as
  (if r.1 = 0 then some r.2.1 else none, r.2.2)

def loop (f : γ → β → List α → Option β × List α) : List γ → β → List α → Option β × List α
  | [], b => fun as => (some b, as)
  | x :: xs, b => andThen (f x b) (loop f xs)

section Rules

variable {ok : α → Prop} {j k : Nat} {f : List α → Option β × List α} {P P' : β → Prop}

theorem andThen_some {g : β → List α → Option γ × List α} {as as' : List α} {b : β} (h : f as = (some b, as')) :
    andThen f g as = g b as' := by
  simp only [andThen, h]

theorem andThen_none {g : β → List α → Option γ × List α} {as : List α} (h : (f as).1 = none) : (andThen f g as).1 = none := by
  rcases hf : f as with ⟨_ | b, as'⟩
  · simp only [andThen, hf]
  · rw [hf] at h
    cases h

theorem kept_some {f : List α → Nat × β × List α} {as as' : List α} {b : β} : kept f as = (some b, as') ↔ f as = (0, b, as') := by
  rcases hf : f as with ⟨code, c, cs⟩
  by_cases hc : code = 0
  · simp [kept, hf, hc]
  · simp [kept, hf, hc]

theorem kept_none {f : List α → Nat × β × List α} {as : List α} : (kept f as).1 = none ↔ (f as).1 ≠ 0 := by
  simp only [kept, ite_eq_right_iff, reduceCtorEq, imp_false, ne_eq]

/-- Nothing is asked. -/
theorem Draws.pure {b : β} (h : P b) : Draws ok 0 (fun as => (some b, as)) P :=
  ⟨fun _ => ⟨b, rfl, h⟩, fun hr => absurd (fun a ha => by simp at ha) hr⟩

/-- A computation that adds something of its own, and no request, to one with a status. -/
theorem Draws.through {f g : List α → Nat × β × List α} (h : Draws ok k (kept g) P)
    (hfail : ∀ as, (g as).1 ≠ 0 → (f as).1 ≠ 0)
    (hdone : ∀ as b as', g as = (0, b, as') → P b → ∃ b', f as = (0, b', as') ∧ P' b') : Draws ok k (kept f) P' := by
  constructor
  · intro as hall
    obtain ⟨b, hb, hP⟩ := h.granted hall
    obtain ⟨b', hf, hP'⟩ := hdone as b _ (kept_some.mp hb) hP
    exact ⟨b', kept_some.mpr hf, hP'⟩
  · intro as hnot
    exact kept_none.mpr (hfail as (kept_none.mp (h.refused hnot)))

/-- The first `j + k` requests are granted when the first `j` are, and then the next `k`. -/
theorem granted_add {as : List α} :
    (∀ a ∈ as.take (j + k), ok a) ↔ (∀ a ∈ as.take j, ok a) ∧ ∀ a ∈ (as.drop j).take k, ok a := by
  rw [List.take_add]
  simp only [List.mem_append, or_imp, forall_and]

theorem Draws.andThen {g : β → List α → Option γ × List α} {Q : γ → Prop} (hf : Draws ok j f P)
    (hg : ∀ b, P b → Draws ok k (g b) Q) : Draws ok (j + k) (andThen f g) Q := by
  constructor
  · intro as hall
    obtain ⟨hj, hk⟩ := granted_add.mp hall
    obtain ⟨b, hb, hP⟩ := hf.granted hj
    obtain ⟨c, hc, hQ⟩ := (hg b hP).granted hk
    exact ⟨c, by rw [andThen_some hb, hc, List.drop_drop], hQ⟩
  · intro as hsome
    by_cases hj : ∀ a ∈ as.take j, ok a
    · obtain ⟨b, hb, hP⟩ := hf.granted hj
      rw [andThen_some hb]
      exact (hg b hP).refused fun hk => hsome (granted_add.mpr ⟨hj, hk⟩)
    · exact andThen_none (hf.refused hj)

/-- One request an item, `I` of what is done so far. -/
theorem Draws.loop {step : γ → β → List α → Option β × List α} {I : List γ → β → Prop} (items : List γ)
    (hstep : ∀ done x rest, items = done ++ x :: rest → ∀ b, I done b → Draws ok 1 (step x b) (I (done ++ [x]))) :
    ∀ (done rest : List γ) (b : β), items = done ++ rest → I done b → Draws ok rest.length (loop step rest b) (I items) := by
  intro done rest
  induction rest generalizing done with
  | nil =>
    intro b hitems hb
    rw [List.append_nil] at hitems
    exact .pure (hitems ▸ hb)
  | cons x rest ih =>
    intro b hitems hb
    rw [List.length_cons, Nat.add_comm]
    refine (hstep done x rest hitems b hb).andThen fun b' hb' => ?_
    exact ih (done ++ [x]) b' (by rw [hitems, List.append_assoc]; rfl) hb'

/-- Where the value is known, it is returned or nothing is. -/
theorem Draws.returns {b : β} (h : Draws ok k f (· = b)) {as : List α} [Decidable (∀ a ∈ as.take k, ok a)] :
    (f as).1 = if ∀ a ∈ as.take k, ok a then some b else none := by
  split
  · rename_i hall
    obtain ⟨_, hf, rfl⟩ := h.granted hall
    rw [hf]
  · rename_i hnot
    exact h.refused hnot

end Rules

end UMqtt.Lib.Supply

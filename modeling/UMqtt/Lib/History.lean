/-
  UMqtt.Lib.History — what holds of every element of a growing list, given the ones before it.

  A history is a list that is only added to at its end. `Throughout P` says `P before x` of
  each of its elements `x`; one more element costs one more `P`.
-/

import Mathlib

namespace UMqtt.Lib

variable {α : Type} {P : List α → α → Prop} {xs ys : List α} {x : α}

def Throughout (P : List α → α → Prop) (xs : List α) : Prop := ∀ before x after, xs = before ++ x :: after → P before x

theorem throughout_nil : Throughout P [] := by
  intro before x after h
  simp at h

theorem throughout_concat : Throughout P (xs ++ [x]) ↔ Throughout P xs ∧ P xs x := by
  constructor
  · intro h
    refine ⟨?_, h xs x [] rfl⟩
    rintro before y after rfl
    exact h before y (after ++ [x]) (by simp)
  · rintro ⟨h, hx⟩ before y after he
    rcases List.eq_nil_or_concat after with rfl | ⟨init, z, rfl⟩
    · obtain ⟨rfl, hxy⟩ := List.append_inj' he rfl
      obtain rfl : x = y := by simpa using hxy
      exact hx
    · rw [List.concat_eq_append, ← List.cons_append, ← List.append_assoc] at he
      obtain ⟨rfl, -⟩ := List.append_inj' he rfl
      exact h before y init rfl

theorem Throughout.of_append (h : Throughout P (xs ++ ys)) : Throughout P xs := by
  rintro before y after rfl
  exact h before y (after ++ ys) (by simp)

theorem throughout_iff : Throughout P xs ↔ ∀ i (h : i < xs.length), P (xs.take i) xs[i] := by
  constructor
  · intro h i hi
    apply h _ _ (xs.drop (i + 1))
    rw [List.getElem_cons_drop, List.take_append_drop]
  · rintro h before x after rfl
    have hx := h before.length (by simp)
    simpa using hx

/-- Where each element shows what the one before it announces, all that is announced is shown, but
    for what the last element announces. -/
theorem Throughout.filterMap_announced {β : Type} {shows announces : α → Option β}
    (h : Throughout (fun before x => shows x = before.getLast?.bind announces) xs) :
    xs.filterMap announces = xs.filterMap shows ++ (xs.getLast?.bind announces).toList := by
  induction xs using List.reverseRecOn with
  | nil => rfl
  | append_singleton xs x ih =>
    obtain ⟨hxs, hx⟩ := throughout_concat.mp h
    have hshown : ∀ f : α → Option β, [x].filterMap f = (f x).toList := by
      intro f
      cases hf : f x <;> simp [hf]
    rw [List.filterMap_append, List.filterMap_append, ih hxs, hshown, hshown, hx, List.getLast?_append,
      List.getLast?_singleton, Option.some_or, Option.bind_some]

instance [∀ before x, Decidable (P before x)] : Decidable (Throughout P xs) := decidable_of_iff _ throughout_iff.symm

end UMqtt.Lib

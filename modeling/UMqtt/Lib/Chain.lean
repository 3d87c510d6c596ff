/-
  UMqtt.Lib.Chain — chains of cells in a memory.

  A memory holds at each address nothing or a cell: a value and the address of the next
  cell, `none` for NULL. `Segment h p xs q` says that following `next` from `p` visits the
  cells `xs` (addresses and values) in order and arrives at `q`. A segment that arrives at
  NULL visits no address twice (`Segment.nodup`), so cells can be linked to its end or taken
  out of it by writing one cell.
-/

import Mathlib

namespace UMqtt.Lib

structure Cell (A V : Type) where
  item : V
  next : Option A
  deriving DecidableEq, Repr

abbrev Cells (A V : Type) := A → Option (Cell A V)

variable {A V : Type} {h : Cells A V} {p q : Option A} {a : A} {v : V} {xs ys : List (A × V)}

def Segment (h : Cells A V) : Option A → List (A × V) → Option A → Prop
  | p, [], q => p = q
  | p, x :: xs, q => p = some x.1 ∧ ∃ next, h x.1 = some ⟨x.2, next⟩ ∧ Segment h next xs q

def addresses (xs : List (A × V)) : List A := xs.map Prod.fst

def first (xs : List (A × V)) : Option A := xs.head?.map Prod.fst

def last (xs : List (A × V)) : Option A := xs.getLast?.map Prod.fst

@[simp] theorem addresses_nil : addresses ([] : List (A × V)) = [] := rfl
@[simp] theorem addresses_cons (x : A × V) : addresses (x :: xs) = x.1 :: addresses xs := rfl
@[simp] theorem addresses_append : addresses (xs ++ ys) = addresses xs ++ addresses ys := List.map_append
@[simp] theorem first_nil : first ([] : List (A × V)) = none := rfl
@[simp] theorem first_cons (x : A × V) : first (x :: xs) = some x.1 := rfl
@[simp] theorem last_nil : last ([] : List (A × V)) = none := rfl
@[simp] theorem last_concat (x : A × V) : last (xs ++ [x]) = some x.1 := by simp [last]
@[simp] theorem first_eq_none : first xs = none ↔ xs = [] := by simp [first]
@[simp] theorem last_eq_none : last xs = none ↔ xs = [] := by simp [last]

theorem last_append (h : ys ≠ []) : last (xs ++ ys) = last ys := by
  rw [last, List.getLast?_append_of_ne_nil _ h, last]

theorem last_mem (h : last xs = some a) : a ∈ addresses xs := by
  obtain ⟨x, hx, rfl⟩ := Option.map_eq_some_iff.mp h
  exact List.mem_map_of_mem (List.mem_of_getLast? hx)

/-- The address of a cell that is taken out is left nowhere. -/
theorem not_mem_unlinked (h : (addresses (xs ++ (a, v) :: ys)).Nodup) : a ∉ addresses (xs ++ ys) := by
  rw [addresses_append, addresses_cons, List.nodup_middle, List.nodup_cons] at h
  rw [addresses_append]
  exact h.1

/-! ## Following a segment -/

@[simp] theorem segment_nil : Segment h p [] q ↔ p = q := Iff.rfl

theorem segment_append : Segment h p (xs ++ ys) q ↔ ∃ r, Segment h p xs r ∧ Segment h r ys q := by
  induction xs generalizing p with
  | nil => simp
  | cons x xs ih =>
    simp only [List.cons_append, Segment, ih]
    constructor
    · rintro ⟨hp, next, hx, r, hr, hq⟩
      exact ⟨r, ⟨hp, next, hx, hr⟩, hq⟩
    · rintro ⟨r, ⟨hp, next, hx, hr⟩, hq⟩
      exact ⟨hp, next, hx, r, hr, hq⟩

theorem Segment.first (hs : Segment h p xs none) : p = Lib.first xs := by
  cases xs with
  | nil => exact hs
  | cons x xs => exact hs.1

/-- Following the same pointers to NULL visits the same cells. -/
theorem Segment.unique (hx : Segment h p xs none) (hy : Segment h p ys none) : xs = ys := by
  induction xs generalizing p ys with
  | nil =>
    cases hx
    rw [eq_comm, ← first_eq_none]
    exact hy.first.symm
  | cons x xs ih =>
    obtain ⟨rfl, next, hc, hx⟩ := hx
    cases ys with
    | nil => cases hy
    | cons y ys =>
      obtain ⟨he, next', hc', hy⟩ := hy
      have ha : x.1 = y.1 := Option.some.inj he
      rw [← ha, hc] at hc'
      obtain ⟨hv, rfl⟩ := Cell.mk.inj (Option.some.inj hc')
      rw [ih hx hy, Prod.ext ha hv]

/-- A chain that ends visits no cell twice: from its second visit it would go on for ever. -/
theorem Segment.nodup (hs : Segment h p xs none) : (addresses xs).Nodup := by
  induction xs generalizing p with
  | nil => exact List.nodup_nil
  | cons x xs ih =>
    have hs' := hs
    obtain ⟨-, next, hc, hr⟩ := hs'
    rw [addresses_cons, List.nodup_cons]
    refine ⟨?_, ih hr⟩
    intro hm
    obtain ⟨y, hy, hxy⟩ := List.mem_map.mp hm
    obtain ⟨before, after, rfl⟩ := List.append_of_mem hy
    obtain ⟨r, -, hafter⟩ := segment_append.mp hr
    have hp : p = r := by rw [hs.1, hafter.1, hxy]
    have he := (hp ▸ hs).unique hafter
    have hl := congrArg List.length he
    simp only [List.length_cons, List.length_append] at hl
    omega

/-! ## Writing the memory -/

/-- A segment reads the cells that it visits and no others. -/
theorem Segment.frame {g : Cells A V} (hs : Segment h p xs q) (hg : ∀ a ∈ addresses xs, g a = h a) :
    Segment g p xs q := by
  induction xs generalizing p with
  | nil => exact hs
  | cons x xs ih =>
    obtain ⟨hp, next, hc, hr⟩ := hs
    refine ⟨hp, next, ?_, ih hr fun a ha => hg a (List.mem_cons_of_mem _ ha)⟩
    rw [hg _ List.mem_cons_self, hc]

variable [DecidableEq A]

/-- Where the end is once a cell is taken out. -/
theorem last_unlink (h : (addresses (xs ++ (a, v) :: ys)).Nodup) :
    last (xs ++ ys) = if some a = last (xs ++ (a, v) :: ys) then last xs else last (xs ++ (a, v) :: ys) := by
  by_cases hy : ys = []
  · subst hy
    rw [last_concat, if_pos rfl, List.append_nil]
  · have hl : last (xs ++ (a, v) :: ys) = last ys := by
      rw [← List.singleton_append, ← List.append_assoc, last_append hy]
    have ha : some a ≠ last ys := by
      intro he
      apply not_mem_unlinked h
      rw [addresses_append]
      exact List.mem_append_right _ (last_mem he.symm)
    rw [hl, if_neg ha, last_append hy]

/-- What is allocated after a write was, or was written. -/
theorem allocated_update {b : A} {c : Option (Cell A V)} (hb : Function.update h a c b ≠ none) :
    b = a ∧ c ≠ none ∨ b ≠ a ∧ h b ≠ none := by
  by_cases he : b = a
  · subst he
    rw [Function.update_self] at hb
    exact Or.inl ⟨rfl, hb⟩
  · rw [Function.update_of_ne he] at hb
    exact Or.inr ⟨he, hb⟩

theorem Segment.update (hs : Segment h p xs q) (ha : a ∉ addresses xs) (c : Option (Cell A V)) :
    Segment (Function.update h a c) p xs q :=
  hs.frame fun _ hb => Function.update_of_ne (ne_of_mem_of_not_mem hb ha) _ _

/-- Writing the `next` of the last cell moves the end of a segment. -/
theorem Segment.relink (hs : Segment h p (xs ++ [(a, v)]) q) (ha : a ∉ addresses xs) (r : Option A) :
    Segment (Function.update h a (some ⟨v, r⟩)) p (xs ++ [(a, v)]) r := by
  obtain ⟨m, hx, hp, next, -, -⟩ := segment_append.mp hs
  exact segment_append.mpr ⟨m, hx.update ha _, hp, r, Function.update_self a _ h, rfl⟩

/-- A fresh cell is linked behind the last one. -/
theorem Segment.concat {b : A} {u : V} (hs : Segment h p (xs ++ [(b, u)]) none) (ha : a ∉ addresses (xs ++ [(b, u)])) :
    Segment (Function.update (Function.update h a (some ⟨v, none⟩)) b (some ⟨u, some a⟩)) p
      (xs ++ [(b, u)] ++ [(a, v)]) none := by
  have hb := not_mem_unlinked hs.nodup
  rw [List.append_nil] at hb
  have hab : a ≠ b := by
    rintro rfl
    exact ha (by simp)
  refine segment_append.mpr ⟨some a, (hs.update ha _).relink hb _, rfl, none, ?_, rfl⟩
  rw [Function.update_of_ne hab, Function.update_self]

/-- The cell is taken out and its memory given back: at the head of the chain, -/
theorem Segment.unlink_head (hs : Segment h p ((a, v) :: ys) none) :
    Segment (Function.update h a none) (Lib.first ys) ys none := by
  have hn := hs.nodup
  obtain ⟨-, next, -, hr⟩ := hs
  rw [hr.first] at hr
  exact hr.update (List.nodup_cons.mp hn).1 none

/-- or behind another one. -/
theorem Segment.unlink {b : A} {u : V} (hs : Segment h p (xs ++ [(b, u)] ++ (a, v) :: ys) none) :
    Segment (Function.update (Function.update h b (some ⟨u, Lib.first ys⟩)) a none) p (xs ++ [(b, u)] ++ ys) none := by
  have ha := not_mem_unlinked hs.nodup
  have hb : b ∉ addresses (xs ++ (a, v) :: ys) := by
    apply not_mem_unlinked (v := u)
    simpa only [List.append_assoc, List.singleton_append] using hs.nodup
  obtain ⟨r, hx, -, next, -, hy⟩ := segment_append.mp hs
  simp only [addresses_append, addresses_cons, List.mem_append, List.mem_cons, not_or] at hb
  have hy' := hy.update hb.2.2 (some ⟨u, next⟩)
  rw [hy.first] at hy'
  refine Segment.update ?_ ha none
  exact segment_append.mpr ⟨_, hx.relink hb.1 _, hy'⟩

end UMqtt.Lib

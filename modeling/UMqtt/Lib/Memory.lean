/-
  UMqtt.Lib.Memory — a memory of blocks, and what hands them out.

  A block is at an address and holds an object; everything from `next` on is unused. An
  allocator answers with an address where nothing is, or with NULL. To free a block that is
  not there has no meaning (`none`).
-/

import Mathlib

namespace UMqtt.Lib

variable {O : Type}

structure Memory (O : Type) where
  block : Nat → Option O
  next : Nat
  unused : ∀ a, next ≤ a → block a = none

structure Allocator (O : Type) where
  /-- For so many bytes. -/
  answer : Memory O → Nat → Option Nat
  unused : ∀ m size a, answer m size = some a → m.block a = none

def Allocator.Succeeds (al : Allocator O) : Prop := ∀ m size, al.answer m size ≠ none

namespace Memory

def empty : Memory O := ⟨fun _ => none, 0, fun _ _ => rfl⟩

theorem write_unused (m : Memory O) (a : Nat) (o : Option O) (b : Nat) (h : max m.next (a + 1) ≤ b) :
    Function.update m.block a o b = none := by
  rw [Function.update_of_ne (by omega)]
  exact m.unused b (by omega)

def write (m : Memory O) (a : Nat) (o : Option O) : Memory O :=
  ⟨Function.update m.block a o, max m.next (a + 1), write_unused m a o⟩

/-- A block that holds `o` from the start. -/
def malloc (al : Allocator O) (size : Nat) (o : O) (m : Memory O) : Option (Nat × Memory O) :=
  (al.answer m size).map fun a => (a, m.write a (some o))

def free (m : Memory O) (a : Nat) : Option (Memory O) := if (m.block a).isSome then some (m.write a none) else none

def freeAll (as : List Nat) (m : Memory O) : Option (Memory O) := as.foldlM free m

/-- What is in use stays, but for the buffers of the caller. -/
def Keeps (buffers : List Nat) (m m' : Memory O) : Prop :=
  ∀ a, a ∉ buffers → m.block a ≠ none → m'.block a = m.block a

variable {m : Memory O} {a b : Nat} {o : Option O}

@[simp] theorem write_self : (m.write a o).block a = o := Function.update_self ..

theorem write_ne (h : b ≠ a) : (m.write a o).block b = m.block b := Function.update_of_ne h ..

/-- A granted block was not in use; nothing else changes. -/
theorem malloc_spec {al : Allocator O} (hal : al.Succeeds) (size : Nat) (o : O) (m : Memory O) :
    ∃ a m', m.malloc al size o = some (a, m') ∧ m.block a = none ∧ m'.block a = some o ∧
      ∀ b, b ≠ a → m'.block b = m.block b := by
  obtain ⟨a, ha⟩ := Option.ne_none_iff_exists'.mp (hal m size)
  exact ⟨a, m.write a (some o), by rw [malloc, ha, Option.map_some], al.unused m size a ha, write_self,
    fun b hb => write_ne hb⟩

theorem free_spec (h : m.block a ≠ none) : m.free a = some (m.write a none) := by
  rw [free, if_pos (Option.isSome_iff_ne_none.mpr h)]

theorem freeAll_append (as bs : List Nat) (m : Memory O) : m.freeAll (as ++ bs) = (m.freeAll as).bind (freeAll bs) :=
  List.foldlM_append ..

/-- Blocks that are there, each freed once, are there no longer. -/
theorem freeAll_spec {as : List Nat} (hd : as.Nodup) (h : ∀ a ∈ as, m.block a ≠ none) :
    ∃ m', m.freeAll as = some m' ∧ ∀ b, m'.block b = if b ∈ as then none else m.block b := by
  induction as generalizing m with
  | nil => exact ⟨m, rfl, fun b => by simp⟩
  | cons a as ih =>
    obtain ⟨ha, hd⟩ := List.nodup_cons.mp hd
    obtain ⟨m', hm, hb⟩ := ih (m := m.write a none) hd (by
      intro b hb
      have hne : b ≠ a := by
        rintro rfl
        exact ha hb
      rw [write_ne hne]
      exact h b (List.mem_cons_of_mem _ hb))
    refine ⟨m', ?_, ?_⟩
    · rw [freeAll, List.foldlM_cons, free_spec (h a List.mem_cons_self)]
      exact hm
    · intro b
      rw [hb]
      by_cases he : b = a
      · rw [he, write_self, ite_self, if_pos List.mem_cons_self]
      · simp only [List.mem_cons, he, false_or, write_ne he]

end Memory

/-- The allocator that always takes the next address. -/
def bump (O : Type) : Allocator O := ⟨fun m _ => some m.next, fun m _ a h => m.unused a (Option.some.inj h).le⟩

theorem bump_succeeds (O : Type) : (bump O).Succeeds := fun _ _ h => nomatch h

end UMqtt.Lib

/-
  UMqtt.Crt.Buffer — the C allocator and `BUFFER` (uMQTT/ports/src/buffer.c).

  The allocator is what the environment answers: a list with one entry for each coming
  `malloc` or `realloc`, `none` for NULL, else what the fresh bytes happen to hold. Past
  the end of the list every allocation succeeds. A `BUFFER` is a block (or NULL) and a
  size; a write past the block is undefined behaviour and leaves `overflow` set.
-/

import Mathlib

namespace UMqtt.Crt

def failure : Nat := 1

/-- `size_t` is 32 bits wide. -/
def sizeT (n : Nat) : Nat := n % 2 ^ 32

/-- An `int` where a `size_t` is expected. -/
def asSizeT (n : Int) : Nat := (n % 2 ^ 32).toNat

theorem sizeT_of_lt {n : Nat} (h : n < 2 ^ 32) : sizeT n = n := Nat.mod_eq_of_lt h

theorem asSizeT_natCast {n : Nat} (h : n < 2 ^ 32) : asSizeT n = n := by
  unfold asSizeT
  omega

theorem asSizeT_neg {n : Int} (hl : -2 ^ 31 ≤ n) (h : n < 0) : 2 ^ 31 ≤ asSizeT n := by
  unfold asSizeT
  omega

/-! ## The allocator -/

abbrev Mallocs := List (Option (Nat → UInt8))

def Succeed (ms : Mallocs) : Prop := none ∉ ms

def malloc (n : Nat) : Mallocs → Option (List UInt8) × Mallocs
  | [] => (some (List.replicate n 0), [])
  | m :: ms => (m.map fun g => (List.range n).map g, ms)

/-- `realloc` keeps the old bytes and adds fresh ones. -/
def realloc (old : List UInt8) (n : Nat) (ms : Mallocs) : Option (List UInt8) × Mallocs :=
  let r := malloc n ms
  (r.1.map fun fresh => old.take n ++ fresh.drop old.length, r.2)

theorem succeed_nil : Succeed [] := List.not_mem_nil

/-- The allocation after the next `k` ones fails. -/
def denied (ms : Mallocs) (k : Nat) : Prop := ms[k]? = some none

theorem denied_tail {ms : Mallocs} {k : Nat} : denied ms.tail k ↔ denied ms (k + 1) := by
  simp only [denied, List.getElem?_tail]

theorem malloc_cases (n : Nat) (ms : Mallocs) :
    denied ms 0 ∧ malloc n ms = (none, ms.tail) ∨
      ¬ denied ms 0 ∧ ∃ block, malloc n ms = (some block, ms.tail) ∧ block.length = n := by
  cases ms with
  | nil => exact Or.inr ⟨by simp [denied], _, rfl, by simp⟩
  | cons m ms =>
    cases m with
    | none => exact Or.inl ⟨rfl, rfl⟩
    | some g => exact Or.inr ⟨by simp [denied], _, rfl, by simp⟩

theorem malloc_length {n : Nat} {ms ms' : Mallocs} {block : List UInt8} (h : malloc n ms = (some block, ms')) :
    block.length = n := by
  cases ms with
  | nil => simp only [malloc, Prod.mk.injEq, Option.some.injEq] at h; obtain ⟨rfl, -⟩ := h; simp
  | cons m ms =>
    cases m with
    | none => simp [malloc] at h
    | some g =>
      simp only [malloc, Option.map_some, Prod.mk.injEq, Option.some.injEq] at h
      obtain ⟨rfl, -⟩ := h; simp

theorem malloc_succeed {ms : Mallocs} (h : Succeed ms) (n : Nat) :
    ∃ block ms', malloc n ms = (some block, ms') ∧ block.length = n ∧ Succeed ms' := by
  cases ms with
  | nil => exact ⟨_, _, rfl, by simp, h⟩
  | cons m ms =>
    cases m with
    | none => exact absurd List.mem_cons_self h
    | some g => exact ⟨_, _, rfl, by simp, fun hm => h (List.mem_cons_of_mem _ hm)⟩

theorem realloc_length {old : List UInt8} {n : Nat} {ms ms' : Mallocs} {block : List UInt8}
    (h : realloc old n ms = (some block, ms')) : block.length = n := by
  unfold realloc at h
  rcases hm : malloc n ms with ⟨_ | fresh, ms1⟩
  · simp [hm] at h
  · have hlength := malloc_length hm
    simp only [hm, Option.map_some, Prod.mk.injEq, Option.some.injEq] at h
    rw [← h.1, List.length_append, List.length_take, List.length_drop]
    omega

theorem realloc_succeed {ms : Mallocs} (h : Succeed ms) (old : List UInt8) (n : Nat) :
    ∃ fresh ms', realloc old (old.length + n) ms = (some (old ++ fresh), ms') ∧ fresh.length = n ∧ Succeed ms' := by
  obtain ⟨block, ms', hm, hl, hs⟩ := malloc_succeed h (old.length + n)
  refine ⟨block.drop old.length, ms', ?_, by simp [hl], hs⟩
  simp [realloc, hm, List.take_of_length_le]

/-! ## BUFFER -/

structure Buffer where
  buffer : Option (List UInt8)
  size : Nat
  /-- A write went past the block. -/
  overflow : Bool := false
  deriving DecidableEq, Repr

namespace Buffer

/-- A buffer that holds exactly these bytes. -/
def ofBytes (bs : List UInt8) : Buffer := ⟨some bs, bs.length, false⟩

def new (ms : Mallocs) : Option Buffer × Mallocs :=
  let r := malloc 8 ms
  (r.1.map fun _ => ⟨none, 0, false⟩, r.2)

/-- `BUFFER_length`, of a handle that may be NULL. -/
def length : Option Buffer → Nat
  | none => 0
  | some b => b.size

/-- `BUFFER_u_char`: NULL for a NULL handle and for size 0. -/
def uChar : Option Buffer → Option (List UInt8)
  | none => none
  | some b => if b.size = 0 then none else b.buffer

def bytes (b : Buffer) : List UInt8 := ((uChar (some b)).getD []).take b.size

def preBuild (b : Buffer) (size : Nat) (ms : Mallocs) : Nat × Buffer × Mallocs :=
  if size = 0 then (failure, b, ms)
  else if b.buffer.isSome then (failure, b, ms)
  else match malloc size ms with
    | (none, ms) => (failure, b, ms)
    | (some block, ms) => (0, { b with buffer := some block, size := size }, ms)

def enlarge (b : Buffer) (enlargeSize : Nat) (ms : Mallocs) : Nat × Buffer × Mallocs :=
  if enlargeSize = 0 then (failure, b, ms)
  else match realloc (b.buffer.getD []) (sizeT (b.size + enlargeSize)) ms with
    | (none, ms) => (failure, b, ms)
    | (some temp, ms) => (0, { b with buffer := some temp, size := sizeT (b.size + enlargeSize) }, ms)

/-- `BUFFER_prepend`, of two different handles. -/
def prepend (b1 b2 : Buffer) (ms : Mallocs) : Nat × Buffer × Mallocs :=
  match b1.buffer, b2.buffer with
  | some x1, some x2 =>
    if b2.size = 0 then (0, b1, ms)
    else match malloc (sizeT (b1.size + b2.size)) ms with
      | (none, ms) => (failure, b1, ms)
      | (some _, ms) =>
        (0, { b1 with buffer := some (x2.take b2.size ++ x1.take b1.size), size := sizeT (b1.size + b2.size) }, ms)
  | _, _ => (failure, b1, ms)

def write (b : Buffer) (offset : Nat) (bs : List UInt8) : Buffer :=
  match b.buffer with
  | some block =>
    if offset + bs.length ≤ block.length then
      { b with buffer := some (block.take offset ++ bs ++ block.drop (offset + bs.length)) }
    else { b with overflow := true }
  | none => { b with overflow := true }

theorem write_size (b : Buffer) (offset : Nat) (bs : List UInt8) : (b.write offset bs).size = b.size := by
  unfold write
  split
  · split <;> rfl
  · rfl

@[simp] theorem length_ofBytes (bs : List UInt8) : length (some (ofBytes bs)) = bs.length := rfl

theorem uChar_ofBytes {bs : List UInt8} (h : bs ≠ []) : uChar (some (ofBytes bs)) = some bs := by
  simp [uChar, ofBytes, h]

@[simp] theorem bytes_ofBytes (bs : List UInt8) : (ofBytes bs).bytes = bs := by
  cases bs with
  | nil => rfl
  | cons b bs => rw [bytes, uChar_ofBytes (List.cons_ne_nil _ _)]; exact List.take_length

theorem new_some {ms ms' : Mallocs} {b : Buffer} (h : new ms = (some b, ms')) : b = ⟨none, 0, false⟩ := by
  obtain ⟨_, -, rfl⟩ := Option.map_eq_some_iff.mp (congrArg Prod.fst h)
  rfl

theorem new_succeed {ms : Mallocs} (h : Succeed ms) :
    ∃ ms', new ms = (some ⟨none, 0, false⟩, ms') ∧ Succeed ms' := by
  obtain ⟨block, ms', hm, -, hs⟩ := malloc_succeed h 8
  exact ⟨ms', by simp [new, hm], hs⟩

theorem preBuild_succeed {ms : Mallocs} (h : Succeed ms) {n : Nat} (hn : 0 < n) :
    ∃ block ms', preBuild ⟨none, 0, false⟩ n ms = (0, ofBytes block, ms') ∧ block.length = n ∧ Succeed ms' := by
  obtain ⟨block, ms', hm, hl, hs⟩ := malloc_succeed h n
  refine ⟨block, ms', ?_, hl, hs⟩
  simp [preBuild, show n ≠ 0 by omega, hm, ofBytes, hl]

/-- Enlarging adds bytes of unknown content at the end. -/
theorem enlarge_succeed {ms : Mallocs} (h : Succeed ms) (bs : List UInt8) {n : Nat} (hn : 0 < n)
    (hb : bs.length + n < 2 ^ 32) :
    ∃ fresh ms', enlarge (ofBytes bs) n ms = (0, ofBytes (bs ++ fresh), ms') ∧ fresh.length = n ∧ Succeed ms' := by
  obtain ⟨fresh, ms', hr, hl, hs⟩ := realloc_succeed h bs n
  refine ⟨fresh, ms', ?_, hl, hs⟩
  simp [enlarge, show n ≠ 0 by omega, ofBytes, sizeT_of_lt hb, hr, hl]

/-- The first enlargement of a new buffer allocates it. -/
theorem enlarge_new_succeed {ms : Mallocs} (h : Succeed ms) {n : Nat} (hn : 0 < n) (hb : n < 2 ^ 32) :
    ∃ fresh ms', enlarge ⟨none, 0, false⟩ n ms = (0, ofBytes fresh, ms') ∧ fresh.length = n ∧ Succeed ms' := by
  obtain ⟨fresh, ms', hr, hl, hs⟩ := realloc_succeed h [] n
  refine ⟨fresh, ms', ?_, hl, hs⟩
  simp only [List.length_nil, Nat.zero_add, List.nil_append] at hr
  simp [enlarge, show n ≠ 0 by omega, ofBytes, sizeT_of_lt hb, hr, hl]

/-- What an enlargement that succeeded made, whatever the allocator answers. -/
theorem enlarge_zero {bs : List UInt8} {n : Nat} {ms : Mallocs} (h : (enlarge (ofBytes bs) n ms).1 = 0)
    (hb : bs.length + n < 2 ^ 32) : ∃ fresh ms', enlarge (ofBytes bs) n ms = (0, ofBytes (bs ++ fresh), ms') ∧
      fresh.length = n := by
  unfold enlarge at h ⊢
  split
  · rename_i hn
    rw [if_pos hn] at h
    cases h
  · rename_i hn
    rw [if_neg hn] at h
    simp only [ofBytes, Option.getD_some, sizeT_of_lt hb, realloc] at h ⊢
    rcases malloc_cases (bs.length + n) ms with ⟨-, hm⟩ | ⟨-, block, hm, hl⟩
    · rw [hm] at h
      cases h
    · refine ⟨block.drop bs.length, ms.tail, ?_, by rw [List.length_drop]; omega⟩
      simp only [hm, Option.map_some, List.take_of_length_le (Nat.le_add_right bs.length n), List.length_append,
        List.length_drop, hl, Nat.add_sub_cancel_left]

theorem prepend_succeed {ms : Mallocs} (h : Succeed ms) (xs : List UInt8) {ys : List UInt8} (hy : ys ≠ [])
    (hb : xs.length + ys.length < 2 ^ 32) :
    ∃ ms', prepend (ofBytes xs) (ofBytes ys) ms = (0, ofBytes (ys ++ xs), ms') ∧ Succeed ms' := by
  obtain ⟨block, ms', hm, -, hs⟩ := malloc_succeed h (xs.length + ys.length)
  refine ⟨ms', ?_, hs⟩
  simp [prepend, ofBytes, hy, sizeT_of_lt hb, hm, Nat.add_comm]

theorem write_inside {block : List UInt8} {i : Nat} (h : i < block.length) {b : UInt8} :
    (ofBytes block).write i [b] = ofBytes (block.take i ++ [b] ++ block.drop (i + 1)) := by
  have hl : i + 1 ≤ block.length := h
  have hsize : (block.take i ++ [b] ++ block.drop (i + 1)).length = block.length := by
    simp only [List.length_append, List.length_take, List.length_drop, List.length_singleton]; omega
  simp only [write, ofBytes, List.length_singleton, if_pos hl, hsize]

/-- A store that lands exactly behind `pre` replaces as many bytes. -/
theorem write_at {pre old new post : List UInt8} (h : old.length = new.length) :
    (ofBytes (pre ++ old ++ post)).write pre.length new = ofBytes (pre ++ new ++ post) := by
  have ht : (pre ++ old ++ post).take pre.length = pre := by simp
  have hd : (pre ++ old ++ post).drop (pre.length + new.length) = post := by
    rw [← h, ← List.length_append]; exact List.drop_left
  have hl : pre.length + new.length ≤ (pre ++ old ++ post).length := by simp [h]
  simp only [write, ofBytes, if_pos hl, ht, hd]
  simp [h]

end Buffer

end UMqtt.Crt

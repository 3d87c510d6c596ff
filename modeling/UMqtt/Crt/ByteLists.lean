/-
  UMqtt.Crt.ByteLists — `BUFFER` as a type of byte lists (uMQTT/ports/src/buffer.c).

  The rest of the `BUFFER` functions, and a set of buffers on which they are all called in
  any order: a handle is NULL or names one of the set, which `BUFFER_new` and `BUFFER_clone`
  add to. The allocator answers as it likes. A source is NULL or what stands in the caller's
  memory from that address on.

  Over them stand the lists: a buffer is the bytes that a caller of `BUFFER_u_char` and
  `BUFFER_length` reads, and a call that succeeds is a list operation, for which the bytes
  that `BUFFER_pre_build` and `BUFFER_enlarge` add may be any. `byteLists_follow`: as long as no
  call that succeeds is asked for a buffer of 2^32 bytes, the buffers are these lists after
  every run, no call that fails changes a buffer, and no call changes another buffer than its
  first argument.
-/

import UMqtt.Crt.Buffer

namespace UMqtt.Crt

abbrev Source := Option (Nat → UInt8)

def readAt : Source → Nat → List UInt8
  | none, _ => []
  | some source, size => (List.range size).map source

@[simp] theorem readAt_length (source : Nat → UInt8) (size : Nat) : (readAt (some source) size).length = size := by
  simp [readAt]

@[simp] theorem readAt_zero (source : Source) : readAt source 0 = [] := by
  cases source with
  | none => rfl
  | some source => rfl

namespace Buffer

/-! ## The functions -/

def safemalloc (b : Buffer) (size : Nat) (ms : Mallocs) : Nat × Buffer × Mallocs :=
  match malloc (if size = 0 then 1 else size) ms with
  | (none, ms) => (failure, { b with buffer := none }, ms)
  | (some block, ms) => (0, { b with buffer := some block, size := size }, ms)

def build (b : Buffer) (source : Source) (size : Nat) (ms : Mallocs) : Nat × Buffer × Mallocs :=
  if size = 0 then (0, { b with buffer := none, size := 0 }, ms)
  else if source = none then (failure, b, ms)
  else match realloc (b.buffer.getD []) size ms with
    | (none, ms) => (failure, b, ms)
    | (some newBuffer, ms) =>
      (0, write { b with buffer := some newBuffer, size := size } 0 (readAt source size), ms)

def appendBuild (b : Buffer) (source : Source) (size : Nat) (ms : Mallocs) : Nat × Buffer × Mallocs :=
  if source = none ∨ size = 0 then (failure, b, ms)
  else if b.buffer = none then
    let r := b.safemalloc size ms
    if r.1 ≠ 0 then (failure, r.2.1, r.2.2) else (0, r.2.1.write 0 (readAt source size), r.2.2)
  else match realloc (b.buffer.getD []) (sizeT (b.size + size)) ms with
    | (none, ms) => (failure, b, ms)
    | (some temp, ms) =>
      (0, { write { b with buffer := some temp } b.size (readAt source size) with size := sizeT (b.size + size) }, ms)

def unbuild (b : Buffer) (ms : Mallocs) : Nat × Buffer × Mallocs :=
  if b.buffer = none then (failure, b, ms) else (0, { b with buffer := none, size := 0 }, ms)

def shrink (b : Buffer) (decreaseSize : Nat) (fromEnd : Bool) (ms : Mallocs) : Nat × Buffer × Mallocs :=
  if decreaseSize = 0 then (failure, b, ms)
  else if decreaseSize > b.size then (failure, b, ms)
  else if b.size - decreaseSize = 0 then (0, { b with buffer := none, size := 0 }, ms)
  else match malloc (b.size - decreaseSize) ms with
    | (none, ms) => (failure, b, ms)
    | (some tmp, ms) =>
      let left := if fromEnd then b.buffer.getD [] else (b.buffer.getD []).drop decreaseSize
      (0, write { b with buffer := some tmp, size := b.size - decreaseSize } 0 (left.take (b.size - decreaseSize)), ms)

/-- `BUFFER_append`, of two different handles. -/
def append (b1 b2 : Buffer) (ms : Mallocs) : Nat × Buffer × Mallocs :=
  match b1.buffer, b2.buffer with
  | some x1, some x2 =>
    if b2.size = 0 then (0, b1, ms)
    else match realloc x1 (sizeT (b1.size + b2.size)) ms with
      | (none, ms) => (failure, b1, ms)
      | (some temp, ms) =>
        (0, { write { b1 with buffer := some temp } b1.size (x2.take b2.size) with size := sizeT (b1.size + b2.size) }, ms)
  | _, _ => (failure, b1, ms)

/-- `BUFFER_clone`, of a handle that is not NULL. -/
def clone (b : Buffer) (ms : Mallocs) : Option Buffer × Mallocs :=
  match malloc 8 ms with
  | (none, ms) => (none, ms)
  | (some _, ms) =>
    let r := safemalloc ⟨none, 0, false⟩ b.size ms
    if r.1 ≠ 0 then (none, r.2.2)
    else (some { write r.2.1 0 ((b.buffer.getD []).take b.size) with size := b.size }, r.2.2)

/-! ## What each does to the bytes -/

/-- The block holds what the size says, and nothing was written past it. -/
structure Sound (b : Buffer) : Prop where
  inside : b.overflow = false
  held : b.size ≤ (b.buffer.getD []).length

/-- A call on `b` failed and left it alone, or made of it a buffer whose bytes are `made`. -/
def Makes (b : Buffer) (r : Nat × Buffer × Mallocs) (needed : Nat) (made : List UInt8 → Prop) : Prop :=
  r.1 ≠ 0 ∧ r.2.1 = b ∨ r.1 = 0 ∧ (needed < 2 ^ 32 → Sound r.2.1 ∧ made r.2.1.bytes)

variable {b b1 b2 b' : Buffer} {ms : Mallocs} {needed : Nat} {made : List UInt8 → Prop}

theorem Makes.failed : b.Makes (failure, b, ms) needed made := Or.inl ⟨Nat.one_ne_zero, rfl⟩

theorem Makes.done (h : needed < 2 ^ 32 → Sound b' ∧ made b'.bytes) : b.Makes (0, b', ms) needed made :=
  Or.inr ⟨rfl, h⟩

theorem bytes_eq (b : Buffer) : b.bytes = (b.buffer.getD []).take b.size := by
  unfold bytes uChar
  by_cases h : b.size = 0
  · simp [h]
  · simp only [if_neg h]

theorem Sound.bytes_length (h : b.Sound) : b.bytes.length = b.size := by
  rw [bytes_eq, List.length_take]
  exact Nat.min_eq_left h.held

theorem bytes_null (hb : b.buffer = none) : b.bytes = [] := by
  rw [bytes_eq, hb]
  exact List.take_nil

theorem write_block {block bs : List UInt8} {offset size : Nat} {overflow : Bool} (h : offset + bs.length ≤ block.length) :
    write ⟨some block, size, overflow⟩ offset bs =
      ⟨some (block.take offset ++ bs ++ block.drop (offset + bs.length)), size, overflow⟩ := by
  simp only [write, if_pos h]

theorem filled {xs rest : List UInt8} {size : Nat} (h : xs.length = size) :
    Sound ⟨some (xs ++ rest), size, false⟩ ∧ bytes ⟨some (xs ++ rest), size, false⟩ = xs := by
  constructor
  · refine ⟨rfl, ?_⟩
    rw [Option.getD_some, List.length_append]
    exact h ▸ Nat.le_add_right ..
  · rw [bytes_eq, ← h]
    exact List.take_left

theorem whole {xs : List UInt8} {size : Nat} (h : xs.length = size) :
    Sound ⟨some xs, size, false⟩ ∧ bytes ⟨some xs, size, false⟩ = xs := by
  have hf : Sound ⟨some (xs ++ []), size, false⟩ ∧ bytes ⟨some (xs ++ []), size, false⟩ = xs := filled h
  rw [List.append_nil] at hf
  exact hf

theorem emptied (hb : b.Sound) :
    Sound { b with buffer := none, size := 0 } ∧ bytes { b with buffer := none, size := 0 } = [] :=
  ⟨⟨hb.inside, Nat.zero_le _⟩, rfl⟩

theorem safemalloc_cases (b : Buffer) (size : Nat) (ms : Mallocs) :
    b.safemalloc size ms = (failure, { b with buffer := none }, ms.tail) ∨
      ∃ block, b.safemalloc size ms = (0, { b with buffer := some block, size := size }, ms.tail) ∧
        size ≤ block.length := by
  unfold safemalloc
  rcases malloc_cases (if size = 0 then 1 else size) ms with ⟨-, hm⟩ | ⟨-, block, hm, hl⟩
  · exact Or.inl (by rw [hm])
  · refine Or.inr ⟨block, by rw [hm], ?_⟩
    rw [hl]
    split <;> omega

theorem realloc_cases (old : List UInt8) (n : Nat) (ms : Mallocs) : realloc old n ms = (none, ms.tail) ∨
    ∃ fresh, realloc old n ms = (some (old.take n ++ fresh), ms.tail) ∧ (old.take n ++ fresh).length = n := by
  rcases malloc_cases n ms with ⟨-, hm⟩ | ⟨-, block, hm, hl⟩
  · exact Or.inl (by simp only [realloc, hm, Option.map_none])
  · refine Or.inr ⟨block.drop old.length, by simp only [realloc, hm, Option.map_some], ?_⟩
    rw [List.length_append, List.length_take, List.length_drop]
    omega

/-- `realloc` keeps the bytes that were there. -/
theorem grown_keeps {block : List UInt8} (fresh : List UInt8) {size n : Nat} (hs : size ≤ block.length) (hn : size ≤ n) :
    (block.take n ++ fresh).take size = block.take size := by
  rw [List.take_append_of_le_length (by rw [List.length_take]; omega), List.take_take, Nat.min_eq_left hn]

theorem build_makes (hb : b.Sound) (source : Source) (size : Nat) (ms : Mallocs) :
    b.Makes (b.build source size ms) size (· = readAt source size) := by
  unfold build
  by_cases hs : size = 0
  · subst hs
    rw [if_pos rfl, readAt_zero]
    exact Makes.done fun _ => emptied hb
  · rw [if_neg hs]
    cases source with
    | none => exact Makes.failed
    | some source =>
      rw [if_neg (by simp)]
      rcases realloc_cases (b.buffer.getD []) size ms with hr | ⟨fresh, hr, hl⟩
      · rw [hr]
        exact Makes.failed
      · rw [hr]
        refine Makes.done fun _ => ?_
        rw [hb.inside, write_block (by rw [readAt_length, hl, Nat.zero_add])]
        exact filled (readAt_length source size)

/-- Bytes copied behind the old ones, whose block was made as long as both. -/
theorem grown_filled (hb : b.Sound) {fresh bs : List UInt8} {n : Nat} (hn : bs.length = n)
    (hl : ((b.buffer.getD []).take (b.size + n) ++ fresh).length = b.size + n) :
    let b' := { write { b with buffer := some ((b.buffer.getD []).take (b.size + n) ++ fresh) } b.size bs with
      size := b.size + n }
    Sound b' ∧ b'.bytes = b.bytes ++ bs := by
  have hlen : (b.bytes ++ bs).length = b.size + n := by rw [List.length_append, hb.bytes_length, hn]
  rw [hb.inside, write_block (by omega), grown_keeps fresh hb.held (Nat.le_add_right ..), ← bytes_eq b]
  exact filled hlen

theorem appendBuild_makes (hb : b.Sound) (source : Source) (size : Nat) (ms : Mallocs) :
    b.Makes (b.appendBuild source size ms) (b.size + size) (· = b.bytes ++ readAt source size) := by
  unfold appendBuild
  by_cases hz : source = none ∨ size = 0
  · rw [if_pos hz]
    exact Makes.failed
  · rw [if_neg hz]
    obtain ⟨hsource, hsize⟩ := not_or.mp hz
    obtain ⟨source, rfl⟩ := Option.ne_none_iff_exists'.mp hsource
    by_cases hn : b.buffer = none
    · rw [if_pos hn]
      rcases safemalloc_cases b size ms with hm | ⟨block, hm, hl⟩
      · have hsame : { b with buffer := none } = b := by rw [← hn]
        rw [hm, hsame]
        exact Makes.failed
      · rw [hm]
        refine Makes.done fun _ => ?_
        rw [bytes_null hn, hb.inside, write_block (by rw [readAt_length]; omega)]
        exact filled (readAt_length source size)
    · rw [if_neg hn]
      rcases realloc_cases (b.buffer.getD []) (sizeT (b.size + size)) ms with hr | ⟨fresh, hr, hl⟩
      · rw [hr]
        exact Makes.failed
      · rw [hr]
        refine Makes.done fun hfit => ?_
        rw [sizeT_of_lt hfit] at hl ⊢
        exact grown_filled hb (readAt_length source size) hl

/-- The bytes that are added may be any. -/
theorem preBuild_makes (hb : b.Sound) (size : Nat) (ms : Mallocs) :
    b.Makes (b.preBuild size ms) size fun bs => ∃ added, added.length = size ∧ bs = b.bytes ++ added := by
  unfold preBuild
  by_cases hs : size = 0
  · rw [if_pos hs]
    exact Makes.failed
  · rw [if_neg hs]
    cases hn : b.buffer with
    | some block => exact Makes.failed
    | none =>
      rw [if_neg (by simp)]
      rcases malloc_cases size ms with ⟨-, hm⟩ | ⟨-, block, hm, hl⟩
      · rw [hm]
        exact Makes.failed
      · rw [hm]
        refine Makes.done fun _ => ?_
        rw [bytes_null hn, hb.inside]
        exact ⟨(whole hl).1, block, hl, (whole hl).2⟩

/-- And so they may be here, behind the old ones. -/
theorem enlarge_makes (hb : b.Sound) (enlargeSize : Nat) (ms : Mallocs) :
    b.Makes (b.enlarge enlargeSize ms) (b.size + enlargeSize) fun bs =>
      ∃ added, added.length = enlargeSize ∧ bs = b.bytes ++ added := by
  unfold enlarge
  by_cases hs : enlargeSize = 0
  · rw [if_pos hs]
    exact Makes.failed
  · rw [if_neg hs]
    rcases realloc_cases (b.buffer.getD []) (sizeT (b.size + enlargeSize)) ms with hr | ⟨fresh, hr, hl⟩
    · rw [hr]
      exact Makes.failed
    · rw [hr]
      refine Makes.done fun hfit => ?_
      rw [sizeT_of_lt hfit] at hl ⊢
      rw [hb.inside]
      refine ⟨(whole hl).1, ((b.buffer.getD []).take (b.size + enlargeSize) ++ fresh).drop b.size, ?_, ?_⟩
      · rw [List.length_drop, hl, Nat.add_sub_cancel_left]
      · rw [(whole hl).2, bytes_eq b, ← grown_keeps fresh hb.held (Nat.le_add_right b.size enlargeSize)]
        exact (List.take_append_drop ..).symm

theorem unbuild_makes (hb : b.Sound) (ms : Mallocs) : b.Makes (b.unbuild ms) 0 (· = []) := by
  unfold unbuild
  by_cases hn : b.buffer = none
  · rw [if_pos hn]
    exact Makes.failed
  · rw [if_neg hn]
    exact Makes.done fun _ => emptied hb

theorem shrink_makes (hb : b.Sound) (decreaseSize : Nat) (fromEnd : Bool) (ms : Mallocs) :
    b.Makes (b.shrink decreaseSize fromEnd ms) 0
      (· = if fromEnd then b.bytes.take (b.size - decreaseSize) else b.bytes.drop decreaseSize) := by
  have hlen := hb.bytes_length
  unfold shrink
  by_cases hs : decreaseSize = 0
  · rw [if_pos hs]
    exact Makes.failed
  · rw [if_neg hs]
    by_cases hd : decreaseSize > b.size
    · rw [if_pos hd]
      exact Makes.failed
    · rw [if_neg hd]
      by_cases hz : b.size - decreaseSize = 0
      · rw [if_pos hz, hz, List.take_zero, List.drop_of_length_le (by omega), ite_self]
        exact Makes.done fun _ => emptied hb
      · rw [if_neg hz]
        rcases malloc_cases (b.size - decreaseSize) ms with ⟨-, hm⟩ | ⟨-, tmp, hm, hl⟩
        · rw [hm]
          exact Makes.failed
        · rw [hm]
          refine Makes.done fun _ => ?_
          have hleft : (if fromEnd then b.bytes.take (b.size - decreaseSize) else b.bytes.drop decreaseSize) =
              (if fromEnd then b.buffer.getD [] else (b.buffer.getD []).drop decreaseSize).take (b.size - decreaseSize) := by
            rw [bytes_eq]
            cases fromEnd with
            | true =>
              rw [if_pos rfl, if_pos rfl, List.take_take, Nat.min_eq_left (Nat.sub_le ..)]
            | false =>
              rw [if_neg Bool.false_ne_true, if_neg Bool.false_ne_true, List.drop_take]
          have hn : (if fromEnd then b.bytes.take (b.size - decreaseSize) else b.bytes.drop decreaseSize).length =
              b.size - decreaseSize := by
            cases fromEnd with
            | true => rw [if_pos rfl, List.length_take, hlen, Nat.min_eq_left (Nat.sub_le ..)]
            | false => rw [if_neg Bool.false_ne_true, List.length_drop, hlen]
          simp only [← hleft]
          rw [hb.inside, write_block (by omega)]
          exact filled hn

theorem append_makes (h1 : b1.Sound) (h2 : b2.Sound) (ms : Mallocs) :
    b1.Makes (b1.append b2 ms) (b1.size + b2.size) (· = b1.bytes ++ b2.bytes) := by
  have hb2 := bytes_eq b2
  unfold append
  cases hx1 : b1.buffer with
  | none => exact Makes.failed
  | some x1 =>
    cases hx2 : b2.buffer with
    | none => exact Makes.failed
    | some x2 =>
      rw [hx2, Option.getD_some] at hb2
      by_cases hz : b2.size = 0
      · simp only [if_pos hz]
        refine Makes.done fun _ => ⟨h1, ?_⟩
        rw [hb2, hz, List.take_zero, List.append_nil]
      · simp only [if_neg hz, ← hb2]
        have hd : b1.buffer.getD [] = x1 := by rw [hx1, Option.getD_some]
        rw [← hd]
        rcases realloc_cases (b1.buffer.getD []) (sizeT (b1.size + b2.size)) ms with hr | ⟨fresh, hr, hl⟩
        · rw [hr]
          exact Makes.failed
        · rw [hr]
          refine Makes.done fun hfit => ?_
          rw [sizeT_of_lt hfit] at hl ⊢
          exact grown_filled h1 h2.bytes_length hl

theorem prepend_makes (h1 : b1.Sound) (h2 : b2.Sound) (ms : Mallocs) :
    b1.Makes (b1.prepend b2 ms) (b1.size + b2.size) (· = b2.bytes ++ b1.bytes) := by
  have hb1 := bytes_eq b1
  have hb2 := bytes_eq b2
  unfold prepend
  cases hx1 : b1.buffer with
  | none => exact Makes.failed
  | some x1 =>
    cases hx2 : b2.buffer with
    | none => exact Makes.failed
    | some x2 =>
      rw [hx1, Option.getD_some] at hb1
      rw [hx2, Option.getD_some] at hb2
      by_cases hz : b2.size = 0
      · simp only [if_pos hz]
        refine Makes.done fun _ => ⟨h1, ?_⟩
        rw [hb2, hz, List.take_zero, List.nil_append]
      · simp only [if_neg hz, ← hb1, ← hb2]
        rcases malloc_cases (sizeT (b1.size + b2.size)) ms with ⟨-, hm⟩ | ⟨-, temp, hm, -⟩
        · rw [hm]
          exact Makes.failed
        · rw [hm]
          refine Makes.done fun hfit => ?_
          rw [h1.inside, sizeT_of_lt hfit]
          apply whole
          rw [List.length_append, h1.bytes_length, h2.bytes_length, Nat.add_comm]

/-- A clone, where there was memory for it, is a buffer of its own with the same bytes. -/
theorem clone_spec (hb : b.Sound) (ms : Mallocs) (h : (b.clone ms).1 = some b') : b'.Sound ∧ b'.bytes = b.bytes := by
  rcases malloc_cases 8 ms with ⟨-, hm⟩ | ⟨-, made, hm, -⟩
  · simp only [clone, hm, reduceCtorEq] at h
  · rcases safemalloc_cases ⟨none, 0, false⟩ b.size ms.tail with hs | ⟨block, hs, hl⟩
    · simp only [clone, hm, hs, failure, ne_eq, one_ne_zero, not_false_eq_true, if_true, reduceCtorEq] at h
    · simp only [clone, hm, hs, ne_eq, not_true_eq_false, if_false, Option.some.injEq, ← bytes_eq b] at h
      rw [← h, write_block (by rw [hb.bytes_length]; omega)]
      exact filled hb.bytes_length

end Buffer

namespace ByteLists

open Buffer

/-! ## A set of buffers -/

abbrev Handle := Option Nat

structure World where
  buffers : List Buffer
  mallocs : Mallocs

inductive Call where
  | new
  | build (handle : Handle) (source : Source) (size : Nat)
  | appendBuild (handle : Handle) (source : Source) (size : Nat)
  | preBuild (handle : Handle) (size : Nat)
  | enlarge (handle : Handle) (enlargeSize : Nat)
  | shrink (handle : Handle) (decreaseSize : Nat) (fromEnd : Bool)
  | append (handle1 handle2 : Handle)
  | prepend (handle1 handle2 : Handle)
  | unbuild (handle : Handle)
  | clone (handle : Handle)

inductive Returned where
  | code (result : Nat)
  | handle (result : Handle)
  deriving DecidableEq, Repr

def Returned.succeeds : Returned → Bool
  | .code result => result == 0
  | .handle result => result.isSome

def find (buffers : List Buffer) (handle : Handle) : Option Buffer := handle.bind (buffers[·]?)

/-- A function of one buffer: NULL fails. -/
def onHandle (f : Buffer → Mallocs → Nat × Buffer × Mallocs) (handle : Handle) (w : World) : Returned × World :=
  match handle, find w.buffers handle with
  | some i, some b =>
    (.code (f b w.mallocs).1, ⟨w.buffers.set i (f b w.mallocs).2.1, (f b w.mallocs).2.2⟩)
  | _, _ => (.code failure, w)

/-- A function of two buffers: NULL fails, and so does one buffer given twice. -/
def onHandles (f : Buffer → Buffer → Mallocs → Nat × Buffer × Mallocs) (handle1 handle2 : Handle) (w : World) :
    Returned × World :=
  match find w.buffers handle2 with
  | none => (.code failure, w)
  | some b2 => if handle1 = handle2 then (.code failure, w) else onHandle (fun b1 => f b1 b2) handle1 w

/-- A function that returns a buffer of its own. -/
def adding (w : World) (r : Option Buffer × Mallocs) : Returned × World :=
  match r.1 with
  | none => (.handle none, { w with mallocs := r.2 })
  | some b => (.handle (some w.buffers.length), ⟨w.buffers ++ [b], r.2⟩)

def perform (w : World) : Call → Returned × World
  | .new => adding w (Buffer.new w.mallocs)
  | .build handle source size => onHandle (fun b => b.build source size) handle w
  | .appendBuild handle source size => onHandle (fun b => b.appendBuild source size) handle w
  | .preBuild handle size => onHandle (fun b => b.preBuild size) handle w
  | .enlarge handle enlargeSize => onHandle (fun b => b.enlarge enlargeSize) handle w
  | .shrink handle decreaseSize fromEnd => onHandle (fun b => b.shrink decreaseSize fromEnd) handle w
  | .append handle1 handle2 => onHandles Buffer.append handle1 handle2 w
  | .prepend handle1 handle2 => onHandles Buffer.prepend handle1 handle2 w
  | .unbuild handle => onHandle Buffer.unbuild handle w
  | .clone handle =>
    match find w.buffers handle with
    | none => (.handle none, w)
    | some b => adding w (b.clone w.mallocs)

structure Step where
  call : Call
  returned : Returned
  before : List Buffer
  after : List Buffer

def run : List Call → World → List Step × World
  | [], w => ([], w)
  | c :: cs, w =>
    (⟨c, (perform w c).1, w.buffers, (perform w c).2.buffers⟩ :: (run cs (perform w c).2).1, (run cs (perform w c).2).2)

def Call.needed (buffers : List Buffer) : Call → Nat
  | .build _ _ size => size
  | .appendBuild handle _ size => length (find buffers handle) + size
  | .preBuild _ size => size
  | .enlarge handle enlargeSize => length (find buffers handle) + enlargeSize
  | .append handle1 handle2 => length (find buffers handle1) + length (find buffers handle2)
  | .prepend handle1 handle2 => length (find buffers handle1) + length (find buffers handle2)
  | _ => 0

def Call.changes : Call → Handle
  | .new => none
  | .build handle _ _ => handle
  | .appendBuild handle _ _ => handle
  | .preBuild handle _ => handle
  | .enlarge handle _ => handle
  | .shrink handle _ _ => handle
  | .append handle1 _ => handle1
  | .prepend handle1 _ => handle1
  | .unbuild handle => handle
  | .clone _ => none

/-! ## A set of lists -/

def bytesAt (lists : List (List UInt8)) (handle : Handle) : List UInt8 := (handle.bind (lists[·]?)).getD []

def put (lists : List (List UInt8)) (handle : Handle) (bytes : List UInt8) : List (List UInt8) :=
  match handle with
  | none => lists
  | some i => lists.set i bytes

def Call.adds : Call → Nat
  | .preBuild _ size => size
  | .enlarge _ enlargeSize => enlargeSize
  | _ => 0

def Call.onLists (added : List UInt8) (lists : List (List UInt8)) : Call → List (List UInt8)
  | .new => lists ++ [[]]
  | .build handle source size => put lists handle (readAt source size)
  | .appendBuild handle source size => put lists handle (bytesAt lists handle ++ readAt source size)
  | .preBuild handle _ => put lists handle (bytesAt lists handle ++ added)
  | .enlarge handle _ => put lists handle (bytesAt lists handle ++ added)
  | .shrink handle decreaseSize fromEnd =>
    put lists handle (if fromEnd then (bytesAt lists handle).take ((bytesAt lists handle).length - decreaseSize)
      else (bytesAt lists handle).drop decreaseSize)
  | .append handle1 handle2 => put lists handle1 (bytesAt lists handle1 ++ bytesAt lists handle2)
  | .prepend handle1 handle2 => put lists handle1 (bytesAt lists handle2 ++ bytesAt lists handle1)
  | .unbuild handle => put lists handle []
  | .clone handle => lists ++ [bytesAt lists handle]

/-- The list operations of the calls that returned success take the first lists to the second. -/
def Follows : List (Call × Returned) → List (List UInt8) → List (List UInt8) → Prop
  | [], lists, lists' => lists' = lists
  | (c, r) :: rest, lists, lists' =>
    if r.succeeds then ∃ added, added.length = c.adds ∧ Follows rest (c.onLists added lists) lists'
    else Follows rest lists lists'

/-- What a call did: buffers with their bytes in them, made by the list operation if it returned
    success and left alone otherwise, and no buffer changed but the one that it may change. -/
structure Lawful (c : Call) (before : List Buffer) (r : Returned) (after : List Buffer) : Prop where
  sound : ∀ b ∈ after, b.Sound
  does : r.succeeds = true → ∃ added, added.length = c.adds ∧ after.map bytes = c.onLists added (before.map bytes)
  failed : r.succeeds = false → after = before
  others : ∀ i b, c.changes ≠ some i → before[i]? = some b → after[i]? = some b

section Specs

variable {w : World} {c : Call} {handle : Handle} {b : Buffer} {buffers : List Buffer}

theorem Lawful.same {r : Returned} (hs : ∀ b ∈ buffers, b.Sound) (hr : r.succeeds = false) :
    Lawful c buffers r buffers where
  sound := hs
  does h := by rw [hr] at h; cases h
  failed _ := rfl
  others _ _ _ hb := hb

theorem find_mem (h : find buffers handle = some b) : b ∈ buffers := by
  obtain ⟨i, -, hi⟩ := Option.bind_eq_some_iff.mp h
  exact List.mem_of_getElem? hi

theorem bytesAt_find (h : find buffers handle = some b) : bytesAt (buffers.map bytes) handle = b.bytes := by
  obtain ⟨i, rfl, hi⟩ := Option.bind_eq_some_iff.mp h
  rw [bytesAt, Option.bind_some, List.getElem?_map, hi, Option.map_some, Option.getD_some]

theorem onHandle_lawful {f : Buffer → Mallocs → Nat × Buffer × Mallocs} (made : List UInt8 → List UInt8 → Prop)
    (hs : ∀ b ∈ w.buffers, b.Sound) (hc : c.changes = handle)
    (hf : ∀ b, find w.buffers handle = some b → b.Makes (f b w.mallocs) (c.needed w.buffers) (made b.bytes))
    (hmade : ∀ b bs, find w.buffers handle = some b → made b.bytes bs →
      ∃ added, added.length = c.adds ∧ put (w.buffers.map bytes) handle bs = c.onLists added (w.buffers.map bytes))
    (hfit : (onHandle f handle w).1.succeeds = true → c.needed w.buffers < 2 ^ 32) :
    Lawful c w.buffers (onHandle f handle w).1 (onHandle f handle w).2.buffers := by
  cases handle with
  | none => exact Lawful.same hs rfl
  | some i =>
    cases hb : find w.buffers (some i) with
    | none =>
      simp only [onHandle, hb]
      exact Lawful.same hs rfl
    | some b =>
      have hi : w.buffers[i]? = some b := hb
      simp only [onHandle, hb] at hfit ⊢
      rcases hf b hb with ⟨hr, hsame⟩ | ⟨hr, hdone⟩
      · obtain ⟨hlt, he⟩ := List.getElem?_eq_some_iff.mp hi
        have hset : w.buffers.set i b = w.buffers := by rw [← he, List.set_getElem_self hlt]
        rw [hsame, hset]
        exact Lawful.same hs (by simpa [Returned.succeeds] using hr)
      · obtain ⟨hsound, hbytes⟩ := hdone (hfit (by rw [hr]; rfl))
        refine ⟨?_, fun _ => ?_, ?_, ?_⟩
        · intro b' hb'
          rcases List.mem_or_eq_of_mem_set hb' with hb' | rfl
          · exact hs b' hb'
          · exact hsound
        · obtain ⟨added, hl, hput⟩ := hmade b _ hb hbytes
          refine ⟨added, hl, ?_⟩
          rw [← hput, List.map_set]
          rfl
        · intro h
          rw [hr] at h
          cases h
        · intro j b' hj hb'
          rw [hc] at hj
          rw [List.getElem?_set_ne fun he => hj (congrArg some he)]
          exact hb'

theorem onHandles_lawful {f : Buffer → Buffer → Mallocs → Nat × Buffer × Mallocs} {handle1 handle2 : Handle}
    (joined : List UInt8 → List UInt8 → List UInt8) (hs : ∀ b ∈ w.buffers, b.Sound) (hc : c.changes = handle1)
    (hn : c.needed w.buffers = length (find w.buffers handle1) + length (find w.buffers handle2)) (ha : c.adds = 0)
    (ho : c.onLists [] (w.buffers.map bytes) = put (w.buffers.map bytes) handle1
      (joined (bytesAt (w.buffers.map bytes) handle1) (bytesAt (w.buffers.map bytes) handle2)))
    (hf : ∀ (b1 b2 : Buffer) (ms : Mallocs), b1.Sound → b2.Sound →
      b1.Makes (f b1 b2 ms) (b1.size + b2.size) (· = joined b1.bytes b2.bytes))
    (hfit : (onHandles f handle1 handle2 w).1.succeeds = true → c.needed w.buffers < 2 ^ 32) :
    Lawful c w.buffers (onHandles f handle1 handle2 w).1 (onHandles f handle1 handle2 w).2.buffers := by
  cases h2 : find w.buffers handle2 with
  | none =>
    simp only [onHandles, h2]
    exact Lawful.same hs rfl
  | some b2 =>
    by_cases he : handle1 = handle2
    · simp only [onHandles, h2, if_pos he]
      exact Lawful.same hs rfl
    · simp only [onHandles, h2, if_neg he] at hfit ⊢
      refine onHandle_lawful (fun bs1 bs => bs = joined bs1 b2.bytes) hs hc ?_ ?_ hfit
      · intro b1 h1
        rw [hn, h1, h2]
        exact hf b1 b2 w.mallocs (hs b1 (find_mem h1)) (hs b2 (find_mem h2))
      · intro b1 bs h1 hbs
        refine ⟨[], ha.symm, ?_⟩
        rw [ho, hbs, bytesAt_find h1, bytesAt_find h2]

theorem adding_lawful {r : Option Buffer × Mallocs} (bs : List UInt8) (hs : ∀ b ∈ w.buffers, b.Sound)
    (ha : c.adds = 0) (ho : c.onLists [] (w.buffers.map bytes) = w.buffers.map bytes ++ [bs])
    (hr : ∀ b, r.1 = some b → b.Sound ∧ b.bytes = bs) : Lawful c w.buffers (adding w r).1 (adding w r).2.buffers := by
  cases hb : r.1 with
  | none =>
    simp only [adding, hb]
    exact Lawful.same hs rfl
  | some b =>
    obtain ⟨hsound, hbytes⟩ := hr b hb
    simp only [adding, hb]
    refine ⟨?_, fun _ => ⟨[], ha.symm, ?_⟩, ?_, ?_⟩
    · intro b' hb'
      rcases List.mem_append.mp hb' with hb' | hb'
      · exact hs b' hb'
      · rw [List.mem_singleton.mp hb']
        exact hsound
    · rw [ho, List.map_append, List.map_singleton, hbytes]
    · intro h
      cases h
    · intro i b' _ hb'
      obtain ⟨hlt, -⟩ := List.getElem?_eq_some_iff.mp hb'
      rw [List.getElem?_append_left hlt]
      exact hb'

theorem new_spec {ms : Mallocs} (h : (Buffer.new ms).1 = some b) : b.Sound ∧ b.bytes = [] := by
  obtain ⟨block, -, rfl⟩ := Option.map_eq_some_iff.mp h
  exact ⟨⟨rfl, Nat.zero_le _⟩, rfl⟩

/-- Each of the calls, on any buffers. -/
theorem perform_lawful (hs : ∀ b ∈ w.buffers, b.Sound) (c : Call)
    (hfit : (perform w c).1.succeeds = true → c.needed w.buffers < 2 ^ 32) :
    Lawful c w.buffers (perform w c).1 (perform w c).2.buffers := by
  cases c with
  | new => exact adding_lawful [] hs rfl rfl fun b h => new_spec h
  | build handle source size =>
    refine onHandle_lawful (fun _ bs => bs = readAt source size) hs rfl ?_ ?_ hfit
    · intro b hb
      exact build_makes (hs b (find_mem hb)) source size w.mallocs
    · intro b bs hb hbs
      exact ⟨[], rfl, by rw [hbs]; rfl⟩
  | appendBuild handle source size =>
    refine onHandle_lawful (fun old bs => bs = old ++ readAt source size) hs rfl ?_ ?_ hfit
    · intro b hb
      rw [Call.needed, hb]
      exact appendBuild_makes (hs b (find_mem hb)) source size w.mallocs
    · intro b bs hb hbs
      exact ⟨[], rfl, by rw [hbs, ← bytesAt_find hb]; rfl⟩
  | preBuild handle size =>
    refine onHandle_lawful (fun old bs => ∃ added, added.length = size ∧ bs = old ++ added) hs rfl ?_ ?_ hfit
    · intro b hb
      exact preBuild_makes (hs b (find_mem hb)) size w.mallocs
    · intro b bs hb hbs
      obtain ⟨added, hl, hbs⟩ := hbs
      exact ⟨added, hl, by rw [hbs, ← bytesAt_find hb]; rfl⟩
  | enlarge handle enlargeSize =>
    refine onHandle_lawful (fun old bs => ∃ added, added.length = enlargeSize ∧ bs = old ++ added) hs rfl ?_ ?_ hfit
    · intro b hb
      rw [Call.needed, hb]
      exact enlarge_makes (hs b (find_mem hb)) enlargeSize w.mallocs
    · intro b bs hb hbs
      obtain ⟨added, hl, hbs⟩ := hbs
      exact ⟨added, hl, by rw [hbs, ← bytesAt_find hb]; rfl⟩
  | shrink handle decreaseSize fromEnd =>
    refine onHandle_lawful (fun old bs =>
      bs = if fromEnd then old.take (old.length - decreaseSize) else old.drop decreaseSize) hs rfl ?_ ?_ hfit
    · intro b hb
      have hsound := hs b (find_mem hb)
      rw [hsound.bytes_length]
      exact shrink_makes hsound decreaseSize fromEnd w.mallocs
    · intro b bs hb hbs
      exact ⟨[], rfl, by rw [hbs, ← bytesAt_find hb]; rfl⟩
  | append handle1 handle2 =>
    exact onHandles_lawful (fun bs1 bs2 => bs1 ++ bs2) hs rfl rfl rfl rfl
      (fun b1 b2 ms h1 h2 => append_makes h1 h2 ms) hfit
  | prepend handle1 handle2 =>
    exact onHandles_lawful (fun bs1 bs2 => bs2 ++ bs1) hs rfl rfl rfl rfl
      (fun b1 b2 ms h1 h2 => prepend_makes h1 h2 ms) hfit
  | unbuild handle =>
    refine onHandle_lawful (fun _ bs => bs = []) hs rfl ?_ ?_ hfit
    · intro b hb
      exact unbuild_makes (hs b (find_mem hb)) w.mallocs
    · intro b bs hb hbs
      exact ⟨[], rfl, by rw [hbs]; rfl⟩
  | clone handle =>
    cases hb : find w.buffers handle with
    | none =>
      simp only [perform, hb]
      exact Lawful.same hs rfl
    | some b =>
      simp only [perform, hb]
      refine adding_lawful b.bytes hs rfl ?_ fun b' h => clone_spec (hs b (find_mem hb)) w.mallocs h
      rw [← bytesAt_find hb]
      rfl

end Specs

/-! ## Whole runs -/

theorem run_lawful (cs : List Call) {w : World} (hs : ∀ b ∈ w.buffers, b.Sound)
    (hfit : ∀ s ∈ (run cs w).1, s.returned.succeeds = true → s.call.needed s.before < 2 ^ 32) :
    (∀ b ∈ (run cs w).2.buffers, b.Sound) ∧
      Follows ((run cs w).1.map fun s => (s.call, s.returned)) (w.buffers.map bytes) ((run cs w).2.buffers.map bytes) ∧
      ∀ s ∈ (run cs w).1, Lawful s.call s.before s.returned s.after := by
  induction cs generalizing w with
  | nil => exact ⟨hs, rfl, fun s hm => absurd hm List.not_mem_nil⟩
  | cons c cs ih =>
    have hc := perform_lawful hs c (hfit _ List.mem_cons_self)
    obtain ⟨hsound, hfollows, hsteps⟩ := ih hc.sound fun s hm => hfit s (List.mem_cons_of_mem _ hm)
    refine ⟨hsound, ?_, ?_⟩
    · simp only [run, List.map_cons, Follows]
      split
      · rename_i hr
        obtain ⟨added, hl, ho⟩ := hc.does hr
        exact ⟨added, hl, ho ▸ hfollows⟩
      · rename_i hr
        rw [hc.failed (Bool.eq_false_iff.mpr hr)] at hfollows
        exact hfollows
    · intro s hm
      rcases List.mem_cons.mp hm with rfl | hm
      · exact hc
      · exact hsteps s hm

/-- A set of buffers is a set of byte lists, whatever is called on it and whatever `malloc` answers. -/
theorem byteLists_follow (cs : List Call) (ms : Mallocs)
    (hfit : ∀ s ∈ (run cs ⟨[], ms⟩).1, s.returned.succeeds = true → s.call.needed s.before < 2 ^ 32) :
    Follows ((run cs ⟨[], ms⟩).1.map fun s => (s.call, s.returned)) [] ((run cs ⟨[], ms⟩).2.buffers.map bytes) ∧
      (∀ b ∈ (run cs ⟨[], ms⟩).2.buffers, b.size = b.bytes.length ∧ b.overflow = false) ∧
      ∀ s ∈ (run cs ⟨[], ms⟩).1, (s.returned.succeeds = false → s.after = s.before) ∧
        ∀ i b, s.call.changes ≠ some i → s.before[i]? = some b → s.after[i]? = some b := by
  obtain ⟨hsound, hfollows, hsteps⟩ := run_lawful cs (fun b hb => absurd hb List.not_mem_nil) hfit
  refine ⟨hfollows, ?_, ?_⟩
  · intro b hb
    exact ⟨(hsound b hb).bytes_length.symm, (hsound b hb).inside⟩
  · intro s hm
    exact ⟨(hsteps s hm).failed, (hsteps s hm).others⟩

/-- Two buffers, one the clone of the other, with an allocation that fails and a buffer appended to itself. -/
def interleaved : List Call :=
  [.new, .build (some 0) (some fun i => if i = 0 then 7 else 8) 3, .clone (some 0), .enlarge (some 1) 1,
    .shrink (some 0) 1 false, .append (some 0) (some 0), .append (some 0) (some 1), .preBuild (some 1) 2,
    .prepend (some 1) (some 0), .shrink (some 1) 2 true, .unbuild none]

/-- The fifth block holds 5s; the ninth, of the last `BUFFER_shrink`, is refused. -/
def interleavedMallocs : Mallocs :=
  [some fun _ => 0, some fun _ => 0, some fun _ => 0, some fun _ => 0, some fun _ => 5, some fun _ => 0, some fun _ => 0,
    some fun _ => 0, none]

theorem interleaved_follows :
    Follows ((run interleaved ⟨[], interleavedMallocs⟩).1.map fun s => (s.call, s.returned)) []
      [[8, 8, 7, 8, 8, 5], [8, 8, 7, 8, 8, 5, 7, 8, 8, 5]] :=
  (byteLists_follow interleaved interleavedMallocs (by decide)).1

end ByteLists

end UMqtt.Crt

/-
  UMqtt.Io.ReadBuffer — the block behind `socket_io_read_bytes`.

  `Io.TlsIo` keeps the unread bytes as a list. Here they are what the code has: a block that
  `realloc` grows, `memmove` shifts and `free` drops, and `socket_io_read_byte_count`. A block
  that did not shrink stays longer than the count, and so `bytes`, what is buffered, is the
  first `count` bytes of it. The callbacks that only set the state are those of `Io.TlsIo`.

  A run is a list of deliveries and of calls of `on_io_recv`, each with what the `xio_dowork`s
  of its loop deliver. `delivered`, `returned` and `calls` record it; `most` is the largest
  number of bytes that were to be held at once.

  Proved (`run_faithful`): while that stays below 2^31, the bytes returned and the bytes buffered
  are the bytes delivered, and each call returns what is there, up to what is asked for. Each
  function does to the block what that of `Io.TlsIo` does to the list (`deliver_shown`,
  `takeFront_shown`).
-/

import UMqtt.Io.TlsIo

namespace UMqtt.Io

open UMqtt.Lib UMqtt.Crt

/-! ## The block -/

structure ReadBuffer where
  block : Option (List UInt8)
  count : Nat
  deriving DecidableEq, Repr

namespace ReadBuffer

def overwrite (block : List UInt8) (offset : Nat) (bs : List UInt8) : List UInt8 :=
  block.take offset ++ bs ++ block.drop (offset + bs.length)

def bytes (b : ReadBuffer) : List UInt8 := (b.block.getD []).take b.count

def append (b : ReadBuffer) (buffer : List UInt8) (answer : Option (Nat → UInt8)) : Option ReadBuffer :=
  (realloc (b.block.getD []) (sizeT (b.count + buffer.length)) [answer]).1.map fun block =>
    ⟨some (overwrite block b.count buffer), sizeT (b.count + buffer.length)⟩

def remove (b : ReadBuffer) (n : Nat) (answer : Option (Nat → UInt8)) : List UInt8 × ReadBuffer :=
  let block := b.block.getD []
  let moved := overwrite block 0 ((block.drop n).take (b.count - n))
  let count := b.count - n
  (block.take n, if 0 < count then ⟨some ((realloc moved count [answer]).1.getD moved), count⟩ else ⟨none, count⟩)

def Fits (b : ReadBuffer) : Prop := b.count ≤ (b.block.getD []).length

end ReadBuffer

/-! ## The instance -/

/-- One call of `on_io_recv`: what was asked for, what was there behind its loop, and what came of it. -/
structure RecvCall where
  sz : Nat
  available : Nat
  tlsioState : TlsioState
  result : Int
  copied : List UInt8
  deriving DecidableEq, Repr

structure TlsReader where
  tlsioState : TlsioState
  socketIo : Bool
  buffer : ReadBuffer
  delivered : List UInt8
  returned : List UInt8
  calls : List RecvCall
  most : Nat
  deriving DecidableEq, Repr

namespace TlsReader

/-- A callback that sets the state and leaves the buffer alone. -/
def onState (f : TlsIoInstance → TlsIoInstance) (r : TlsReader) : TlsReader :=
  let io := f ⟨r.tlsioState, [], r.socketIo⟩
  { r with tlsioState := io.tlsioState, socketIo := io.socketIo }

def onBytesReceived (buffer : List UInt8) (answer : Option (Nat → UInt8)) (ownerCloses : Bool) (r : TlsReader) : TlsReader :=
  let r := { r with delivered := r.delivered ++ buffer, most := max r.most (r.buffer.count + buffer.length) }
  match r.buffer.append buffer answer with
  | some b => { r with buffer := b }
  | none => r.onState fun io => owner ownerCloses { io with tlsioState := .error }

/-- `fresh` is what the allocator's memory holds. -/
def deliver (fresh : Nat → UInt8) : Outcome → TlsReader → TlsReader
  | .sent ownerCloses, r => r.onState (owner ownerCloses)
  | .bytes first rest reallocs ownerCloses, r =>
    if r.socketIo then r.onBytesReceived (first :: rest) (if reallocs then some fresh else none) ownerCloses else r
  | .error ownerCloses, r => r.onState (onUnderlyingIoError ownerCloses)

def xioDowork (fresh : Nat → UInt8) (outcomes : List Outcome) (r : TlsReader) : TlsReader :=
  outcomes.foldl (fun r o => r.deliver fresh o) r

/-- What follows the loop: `result` is an `int`, and so is a `size_t` put into it. -/
def takeFront (sz : Nat) (answer : Option (Nat → UInt8)) (r : TlsReader) : TlsReader :=
  let result := Int.bmod r.buffer.count (2 ^ 32)
  let result := if sz < asSizeT result then Int.bmod sz (2 ^ 32) else result
  let q := if 0 < result then r.buffer.remove result.toNat answer else ([], r.buffer)
  let returns := if result = 0 ∧ r.tlsioState = .opened then mbedtlsErrSslWantRead else result
  { r with buffer := q.2, returned := r.returned ++ q.1,
           calls := r.calls ++ [⟨sz, r.buffer.count, r.tlsioState, returns, q.1⟩] }

def onIoRecv (fresh : Nat → UInt8) (works : Nat → List Outcome) (sz : Nat) (answer : Option (Nat → UInt8)) (fuel : Nat)
    (r : TlsReader) : Option TlsReader :=
  (whileBreak (fun r => r.buffer.count = 0) (fun r => r.tlsioState = .opened) (xioDowork fresh) fuel works r).map
    (takeFront sz answer)

def empty (tlsioState : TlsioState) : TlsReader := ⟨tlsioState, true, ⟨none, 0⟩, [], [], [], 0⟩

end TlsReader

/-- What happens to an instance within one connection; `state` is what its other functions do. -/
inductive ReadStep where
  | callback (o : Outcome)
  | state (s : TlsioState)
  | recv (works : Nat → List Outcome) (sz : Nat) (shrinks : Option (Nat → UInt8)) (fuel : Nat)

/-- `none` when a loop has not ended. -/
def ReadStep.run (fresh : Nat → UInt8) : ReadStep → TlsReader → Option TlsReader
  | .callback o, r => some (r.deliver fresh o)
  | .state s, r => some { r with tlsioState := s }
  | .recv works sz shrinks fuel, r => r.onIoRecv fresh works sz shrinks fuel

def runReads (fresh : Nat → UInt8) (steps : List ReadStep) (r : TlsReader) : Option TlsReader :=
  steps.foldlM (fun r e => e.run fresh r) r

/-! ## What the block holds -/

namespace ReadBuffer

variable {b : ReadBuffer}

theorem length_overwrite {block bs : List UInt8} {offset : Nat} (h : offset + bs.length ≤ block.length) :
    (overwrite block offset bs).length = block.length := by
  simp only [overwrite, List.length_append, List.length_take, List.length_drop]
  omega

theorem length_bytes (h : b.Fits) : b.bytes.length = b.count := by
  rw [bytes, List.length_take]
  exact Nat.min_eq_left h

theorem overwrite_take {block bs : List UInt8} {offset : Nat} (h : offset ≤ block.length) :
    (overwrite block offset bs).take (offset + bs.length) = block.take offset ++ bs := by
  have hlen : (block.take offset ++ bs).length = offset + bs.length := by
    rw [List.length_append, List.length_take]
    omega
  rw [overwrite, ← hlen, List.take_left']
  rfl

/-- A block that `realloc` moved has the new length, and begins like the old one. -/
theorem realloc_block (old : List UInt8) (n : Nat) (fresh : Nat → UInt8) :
    ∃ block, (realloc old n [some fresh]).1 = some block ∧ block.length = n ∧
      ∀ k, k ≤ old.length → k ≤ n → block.take k = old.take k := by
  refine ⟨old.take n ++ ((List.range n).map fresh).drop old.length, rfl, ?_, ?_⟩
  · simp only [List.length_append, List.length_take, List.length_drop, List.length_map, List.length_range]
    omega
  · intro k hk hn
    have hlen : k ≤ (old.take n).length := by
      rw [List.length_take]
      omega
    rw [List.take_append_of_le_length hlen, List.take_take, Nat.min_eq_left hn]

/-- A delivery goes behind what is buffered. -/
theorem append_some (hb : b.Fits) {buffer : List UInt8} (hlt : b.count + buffer.length < 2 ^ 32) (fresh : Nat → UInt8) :
    ∃ b', b.append buffer (some fresh) = some b' ∧ b'.bytes = b.bytes ++ buffer ∧ b'.Fits ∧
      b'.count = b.count + buffer.length := by
  obtain ⟨block, hrealloc, hlen, htake⟩ := realloc_block (b.block.getD []) (b.count + buffer.length) fresh
  refine ⟨⟨some (overwrite block b.count buffer), b.count + buffer.length⟩, ?_, ?_, ?_, rfl⟩
  · rw [append, sizeT_of_lt hlt, hrealloc, Option.map_some]
  · show (overwrite block b.count buffer).take (b.count + buffer.length) = b.bytes ++ buffer
    rw [overwrite_take (by omega), htake b.count hb (by omega), bytes]
  · show b.count + buffer.length ≤ (overwrite block b.count buffer).length
    rw [length_overwrite (by omega), hlen]

/-- What is removed is the front of what is buffered, and the rest stays, shrunk or not. -/
theorem remove_bytes (hb : b.Fits) {n : Nat} (hn : n ≤ b.count) (answer : Option (Nat → UInt8)) :
    (b.remove n answer).1 = b.bytes.take n ∧ (b.remove n answer).2.bytes = b.bytes.drop n ∧
      (b.remove n answer).2.count = b.count - n ∧ (b.remove n answer).2.Fits := by
  obtain ⟨old, hold⟩ : ∃ old, b.block.getD [] = old := ⟨_, rfl⟩
  have hle : b.count ≤ old.length := by
    rw [← hold]
    exact hb
  have hrest : ((old.drop n).take (b.count - n)).length = b.count - n := by
    rw [List.length_take, List.length_drop]
    omega
  have hmoved : (overwrite old 0 ((old.drop n).take (b.count - n))).take (b.count - n) = (old.drop n).take (b.count - n) := by
    have h := @overwrite_take old ((old.drop n).take (b.count - n)) 0 (Nat.zero_le old.length)
    rw [hrest, Nat.zero_add, List.take_zero, List.nil_append] at h
    exact h
  have hlen : b.count - n ≤ (overwrite old 0 ((old.drop n).take (b.count - n))).length := by
    rw [length_overwrite (by omega)]
    omega
  have hbytes : b.bytes.drop n = (old.drop n).take (b.count - n) := by
    rw [bytes, hold, List.drop_take]
  refine ⟨?_, ?_⟩
  · show (b.block.getD []).take n = b.bytes.take n
    rw [bytes, List.take_take, Nat.min_eq_left hn]
  · rw [hbytes]
    simp only [remove, hold]
    by_cases hpos : 0 < b.count - n
    · rw [if_pos hpos]
      cases answer with
      | none => exact ⟨hmoved, rfl, hlen⟩
      | some fresh =>
        obtain ⟨block, hrealloc, hl, htake⟩ := realloc_block (overwrite old 0 ((old.drop n).take (b.count - n))) (b.count - n) fresh
        rw [hrealloc]
        refine ⟨?_, rfl, Nat.le_of_eq hl.symm⟩
        show block.take (b.count - n) = _
        rw [htake _ hlen (Nat.le_refl _), hmoved]
    · rw [if_neg hpos]
      have hzero : b.count - n = 0 := by omega
      refine ⟨?_, rfl, ?_⟩
      · rw [hzero, List.take_zero]
        rfl
      · rw [Fits, hzero]
        exact Nat.zero_le _

end ReadBuffer

/-! ## Each function against that of the list -/

namespace TlsReader

variable {r r' : TlsReader}

/-- The instance with the bytes in place of the block. -/
def shown (r : TlsReader) : TlsIoInstance := ⟨r.tlsioState, r.buffer.bytes, r.socketIo⟩

def Blind (f : TlsIoInstance → TlsIoInstance) : Prop :=
  ∀ io bytes, f { io with socketIoReadBytes := bytes } = { f io with socketIoReadBytes := bytes }

theorem onState_shown {f : TlsIoInstance → TlsIoInstance} (hf : Blind f) (r : TlsReader) : (r.onState f).shown = f r.shown :=
  (hf ⟨r.tlsioState, [], r.socketIo⟩ r.buffer.bytes).symm

theorem owner_blind (closes : Bool) : Blind (owner closes) := by
  intro io bytes
  unfold owner tlsioMbedtlsClose
  by_cases hc : closes = true
  · rw [if_pos hc, if_pos hc]
    dsimp only
    split <;> rfl
  · rw [if_neg hc, if_neg hc]

theorem error_blind (closes : Bool) : Blind (onUnderlyingIoError closes) := by
  intro io bytes
  unfold onUnderlyingIoError
  dsimp only
  split
  · exact owner_blind closes { io with tlsioState := .notOpen, socketIo := false } bytes
  · exact owner_blind closes { io with tlsioState := .notOpen, socketIo := false } bytes
  · exact owner_blind closes { io with tlsioState := .error } bytes
  · rfl

def Allocates : Outcome → Prop
  | .bytes _ _ reallocs _ => reallocs = true
  | _ => True

/-- What a call of `on_io_recv` owes its caller. -/
structure Right (c : RecvCall) : Prop where
  result : c.result = if c.available = 0 ∧ c.tlsioState = .opened then mbedtlsErrSslWantRead else (min c.sz c.available : Nat)
  copied : c.copied.length = min c.sz c.available
  wantRead : c.result = mbedtlsErrSslWantRead ↔ c.available = 0 ∧ c.tlsioState = .opened
  waited : c.available = 0 → c.tlsioState = .opened

/-- Nothing is lost, doubled or reordered between what is delivered and what is returned. -/
structure Faithful (r : TlsReader) : Prop where
  fifo : r.returned ++ r.buffer.bytes = r.delivered
  count : r.buffer.count = r.buffer.bytes.length
  calls : ∀ c ∈ r.calls, Right c

/-- The invariant: the count is inside the block and counted in `most`. -/
structure Held (r : TlsReader) : Prop where
  fits : r.buffer.Fits
  most : r.buffer.count ≤ r.most
  fifo : r.returned ++ r.buffer.bytes = r.delivered
  calls : ∀ c ∈ r.calls, Right c

theorem Held.faithful (h : Held r) : Faithful r := ⟨h.fifo, (ReadBuffer.length_bytes h.fits).symm, h.calls⟩

/-- What a step keeps while less than 2^31 bytes are held. -/
structure Follows (r r' : TlsReader) : Prop where
  most : r.most ≤ r'.most
  held : r'.most < 2 ^ 31 → Held r → Held r'

theorem Follows.refl (r : TlsReader) : Follows r r := ⟨Nat.le_refl _, fun _ h => h⟩

theorem Follows.trans {r'' : TlsReader} (h : Follows r r') (h' : Follows r' r'') : Follows r r'' :=
  ⟨Nat.le_trans h.most h'.most, fun hm hr => h'.held hm (h.held (Nat.lt_of_le_of_lt h'.most hm) hr)⟩

/-- The state is none of the buffer's business. -/
theorem onState_follows (f : TlsIoInstance → TlsIoInstance) (r : TlsReader) : Follows r (r.onState f) :=
  ⟨Nat.le_refl _, fun _ h => ⟨h.fits, h.most, h.fifo, h.calls⟩⟩

/-! ## A delivery -/

theorem onBytesReceived_some {buffer : List UInt8} {answer : Option (Nat → UInt8)} {b : ReadBuffer}
    (h : r.buffer.append buffer answer = some b) (closes : Bool) : r.onBytesReceived buffer answer closes =
      { r with delivered := r.delivered ++ buffer, most := max r.most (r.buffer.count + buffer.length), buffer := b } := by
  simp only [onBytesReceived, h]

theorem onBytesReceived_most (buffer : List UInt8) (answer : Option (Nat → UInt8)) (closes : Bool) (r : TlsReader) :
    (r.onBytesReceived buffer answer closes).most = max r.most (r.buffer.count + buffer.length) := by
  unfold onBytesReceived
  dsimp only
  split <;> rfl

theorem onBytesReceived_follows (buffer : List UInt8) (fresh : Nat → UInt8) (closes : Bool) (r : TlsReader) :
    Follows r (r.onBytesReceived buffer (some fresh) closes) := by
  have hmost := onBytesReceived_most buffer (some fresh) closes r
  refine ⟨by omega, fun hm h => ?_⟩
  obtain ⟨b, hb, hbytes, hfits, hcount⟩ := @ReadBuffer.append_some r.buffer h.fits buffer (by omega) fresh
  rw [onBytesReceived_some hb]
  refine ⟨hfits, ?_, ?_, h.calls⟩
  · show b.count ≤ _
    rw [hcount]
    exact Nat.le_max_right _ _
  · show r.returned ++ b.bytes = r.delivered ++ buffer
    rw [hbytes, ← List.append_assoc, h.fifo]

theorem deliver_follows (fresh : Nat → UInt8) {o : Outcome} (ho : Allocates o) (r : TlsReader) :
    Follows r (r.deliver fresh o) := by
  cases o with
  | sent closes => exact onState_follows _ r
  | bytes first rest reallocs closes =>
    rw [deliver, show reallocs = true from ho, if_pos rfl]
    split
    · exact onBytesReceived_follows _ fresh closes r
    · exact .refl r
  | error closes => exact onState_follows _ r

theorem xioDowork_follows (fresh : Nat → UInt8) {os : List Outcome} (ho : ∀ o ∈ os, Allocates o) (r : TlsReader) :
    Follows r (r.xioDowork fresh os) := by
  induction os generalizing r with
  | nil => exact .refl r
  | cons o os ih =>
    exact (deliver_follows fresh (ho o List.mem_cons_self) r).trans (ih (fun o ho' => ho o (List.mem_cons_of_mem _ ho')) _)

/-! ## A request -/

/-- The comparison and the conversions leave the smaller of the two. -/
theorem clamp {count sz : Nat} (h : count < 2 ^ 31) :
    (if sz < asSizeT (Int.bmod count (2 ^ 32)) then Int.bmod sz (2 ^ 32) else Int.bmod count (2 ^ 32)) =
      (min sz count : Nat) := by
  have hint : ∀ n : Nat, n < 2 ^ 31 → Int.bmod n (2 ^ 32) = n := fun n hn => Int.bmod_eq_of_le (by omega) (by omega)
  rw [hint count h, asSizeT_natCast (by omega)]
  split
  · rw [hint sz (by omega)]
    omega
  · omega

theorem takeFront_eq {r : TlsReader} (hlt : r.buffer.count < 2 ^ 31) (sz : Nat) (answer : Option (Nat → UInt8)) :
    r.takeFront sz answer =
      let q := if 0 < min sz r.buffer.count then r.buffer.remove (min sz r.buffer.count) answer else ([], r.buffer)
      { r with buffer := q.2, returned := r.returned ++ q.1,
               calls := r.calls ++ [⟨sz, r.buffer.count, r.tlsioState,
                 if min sz r.buffer.count = 0 ∧ r.tlsioState = .opened then mbedtlsErrSslWantRead
                 else (min sz r.buffer.count : Nat), q.1⟩] } := by
  unfold takeFront
  dsimp only
  rw [clamp hlt]
  simp only [Int.toNat_natCast, Int.natCast_pos, Int.natCast_eq_zero]

theorem takeFront_follows {sz : Nat} (hsz : 0 < sz) (answer : Option (Nat → UInt8)) {r : TlsReader}
    (hended : r.buffer.count = 0 → r.tlsioState = .opened) : Follows r (r.takeFront sz answer) := by
  have hmost : (r.takeFront sz answer).most = r.most := by unfold takeFront; rfl
  refine ⟨Nat.le_of_eq hmost.symm, fun hm h => ?_⟩
  rw [hmost] at hm
  have hlt : r.buffer.count < 2 ^ 31 := Nat.lt_of_le_of_lt h.most hm
  have hlen := ReadBuffer.length_bytes h.fits
  obtain ⟨n, hn⟩ : ∃ n, min sz r.buffer.count = n := ⟨_, rfl⟩
  obtain ⟨q, hq⟩ : ∃ q, (if 0 < n then r.buffer.remove n answer else ([], r.buffer)) = q := ⟨_, rfl⟩
  -- with nothing to take the front is empty as well
  have htaken : q.1 = r.buffer.bytes.take n ∧ q.2.bytes = r.buffer.bytes.drop n ∧ q.2.count ≤ r.buffer.count ∧ q.2.Fits := by
    by_cases hpos : 0 < n
    · obtain ⟨h1, h2, h3, h4⟩ := ReadBuffer.remove_bytes h.fits (n := n) (by omega) answer
      rw [if_pos hpos] at hq
      rw [← hq]
      exact ⟨h1, h2, by omega, h4⟩
    · rw [if_neg hpos] at hq
      have hzero : n = 0 := by omega
      rw [← hq, hzero]
      exact ⟨rfl, rfl, Nat.le_refl _, h.fits⟩
  rw [takeFront_eq hlt, hn, hq]
  have hright : Right ⟨sz, r.buffer.count, r.tlsioState, if n = 0 ∧ r.tlsioState = .opened then mbedtlsErrSslWantRead
      else (n : Nat), q.1⟩ := by
    have hzero : n = 0 ↔ r.buffer.count = 0 := by omega
    refine ⟨?_, ?_, ?_, hended⟩
    · simp only [hzero, hn]
    · simp only [htaken.1, List.length_take, hlen]
      omega
    · simp only [hzero]
      by_cases hw : r.buffer.count = 0 ∧ r.tlsioState = .opened
      · simp only [hw, and_self, if_true]
      · rw [if_neg hw]
        refine ⟨fun heq => ?_, fun hw' => absurd hw' hw⟩
        simp only [mbedtlsErrSslWantRead] at heq
        omega
  refine ⟨htaken.2.2.2, Nat.le_trans htaken.2.2.1 h.most, ?_, ?_⟩
  · show (r.returned ++ q.1) ++ q.2.bytes = r.delivered
    rw [htaken.1, htaken.2.1, List.append_assoc, List.take_append_drop]
    exact h.fifo
  · intro c hc
    rcases List.mem_append.mp hc with hc | hc
    · exact h.calls c hc
    · rw [List.mem_singleton.mp hc]
      exact hright

theorem onIoRecv_follows {fresh : Nat → UInt8} {works : Nat → List Outcome} (hw : ∀ k, ∀ o ∈ works k, Allocates o)
    {sz : Nat} (hsz : 0 < sz) {answer : Option (Nat → UInt8)} {fuel : Nat}
    (h : r.onIoRecv fresh works sz answer fuel = some r') : Follows r r' := by
  obtain ⟨u, hu, rfl⟩ := Option.map_eq_some_iff.mp h
  have hloop : Follows r u :=
    whileBreak_inv _ _ _ (fun k v hv => hv.trans (xioDowork_follows fresh (hw k) v)) (.refl r) hu
  refine hloop.trans (takeFront_follows hsz answer fun hzero => ?_)
  rcases whileBreak_ended _ _ _ hu with htop | hmid
  · exact absurd hzero (of_decide_eq_false htop)
  · exact of_decide_eq_true hmid

/-! ## The list -/

/-- What a callback does to the block, that of `Io.TlsIo` does to the list. -/
theorem deliver_shown (fresh : Nat → UInt8) (o : Outcome) (hr : Held r) (hlt : (r.deliver fresh o).most < 2 ^ 31) :
    (r.deliver fresh o).shown = Io.deliver o r.shown := by
  cases o with
  | sent closes => exact onState_shown (owner_blind closes) r
  | error closes => exact onState_shown (error_blind closes) r
  | bytes first rest reallocs closes =>
    by_cases hs : r.socketIo = true
    · have hs' : r.shown.socketIo = true := hs
      rw [deliver, if_pos hs] at hlt ⊢
      rw [Io.deliver, if_pos hs', onUnderlyingIoBytesReceived]
      cases reallocs with
      | true =>
        rw [if_pos rfl] at hlt ⊢
        rw [onBytesReceived_most] at hlt
        obtain ⟨b, hb, hbytes, -, -⟩ := @ReadBuffer.append_some r.buffer hr.fits (first :: rest) (by omega) fresh
        rw [onBytesReceived_some hb, if_pos rfl]
        simp only [shown, hbytes]
      | false =>
        rw [if_neg Bool.false_ne_true, if_neg Bool.false_ne_true]
        exact owner_blind closes ⟨.error, [], r.socketIo⟩ r.buffer.bytes |>.symm
    · have hs' : ¬ r.shown.socketIo = true := hs
      rw [deliver, if_neg hs, Io.deliver, if_neg hs']

theorem xioDowork_shown (fresh : Nat → UInt8) {os : List Outcome} (ho : ∀ o ∈ os, Allocates o) (hr : Held r)
    (hlt : (r.xioDowork fresh os).most < 2 ^ 31) : (r.xioDowork fresh os).shown = Io.xioDowork os r.shown := by
  induction os generalizing r with
  | nil => rfl
  | cons o os ih =>
    have hfirst := deliver_follows fresh (ho o List.mem_cons_self) r
    have hrest := xioDowork_follows fresh (fun o ho' => ho o (List.mem_cons_of_mem _ ho')) (r.deliver fresh o)
    have hmost : (r.deliver fresh o).most < 2 ^ 31 := Nat.lt_of_le_of_lt hrest.most hlt
    rw [Io.xioDowork_cons, ← deliver_shown fresh o hr hmost]
    exact ih (fun o ho' => ho o (List.mem_cons_of_mem _ ho')) (hfirst.held hmost hr) hlt

/-- What follows the loop takes from the block what that of `Io.TlsIo` takes from the list. -/
theorem takeFront_shown (hr : Held r) (hlt : r.buffer.count < 2 ^ 31) (sz : Nat) (answer : Option (Nat → UInt8)) :
    ∃ c, (r.takeFront sz answer).calls = r.calls ++ [c] ∧
      takeBytes sz r.shown = (c.result, c.copied, (r.takeFront sz answer).shown) := by
  have hlen := ReadBuffer.length_bytes hr.fits
  have hint : Int.bmod (min r.shown.socketIoReadBytes.length sz) (2 ^ 32) = (min sz r.buffer.count : Nat) := by
    rw [show r.shown.socketIoReadBytes = r.buffer.bytes from rfl, hlen, Int.bmod_eq_of_le (by omega) (by omega)]
    omega
  rw [takeFront_eq hlt]
  refine ⟨_, rfl, ?_⟩
  simp only [takeBytes, hint, Int.toNat_natCast, Int.natCast_eq_zero]
  obtain ⟨n, hn⟩ : ∃ n, min sz r.buffer.count = n := ⟨_, rfl⟩
  rw [hn]
  by_cases hpos : 0 < n
  · obtain ⟨h1, h2, -, -⟩ := ReadBuffer.remove_bytes hr.fits (n := n) (by omega) answer
    rw [if_pos hpos]
    simp only [shown, h1, h2]
    rfl
  · have hzero : n = 0 := by omega
    rw [if_neg hpos, hzero]
    rfl

theorem loop_shown {fresh : Nat → UInt8} {fuel : Nat} {works : Nat → List Outcome} (hw : ∀ k, ∀ o ∈ works k, Allocates o)
    (hr : Held r) (h : whileBreak (fun r : TlsReader => r.buffer.count = 0) (fun r => r.tlsioState = .opened)
      (xioDowork fresh) fuel works r = some r') (hlt : r'.most < 2 ^ 31) :
    whileBreak (fun io => io.socketIoReadBytes.isEmpty) (fun io => io.tlsioState = .opened) Io.xioDowork fuel works r.shown =
      some r'.shown := by
  induction fuel generalizing works r with
  | zero => cases h
  | succ fuel ih =>
    have hempty : r.shown.socketIoReadBytes.isEmpty = true ↔ r.buffer.count = 0 := by
      rw [List.isEmpty_iff_length_eq_zero, show r.shown.socketIoReadBytes = r.buffer.bytes from rfl,
        ReadBuffer.length_bytes hr.fits]
    have hfirst := xioDowork_follows fresh (hw 0) r
    unfold whileBreak at h ⊢
    by_cases htop : r.buffer.count = 0
    · rw [if_pos (by simpa using htop)] at h
      rw [if_pos (hempty.mpr htop)]
      by_cases hmid : (r.xioDowork fresh (works 0)).tlsioState = .opened
      · have hmid' : (r.xioDowork fresh (works 0)).shown.tlsioState = .opened := hmid
        rw [if_pos (by simpa using hmid)] at h
        cases h
        rw [← xioDowork_shown fresh (hw 0) hr hlt, if_pos (by simpa using hmid')]
      · have hmid' : ¬ (r.xioDowork fresh (works 0)).shown.tlsioState = .opened := hmid
        rw [if_neg (by simpa using hmid)] at h
        have hrest : Follows (r.xioDowork fresh (works 0)) r' :=
          whileBreak_inv _ _ _ (fun k v hv => hv.trans (xioDowork_follows fresh (hw (k + 1)) v)) (.refl _) h
        have hmost := Nat.lt_of_le_of_lt hrest.most hlt
        rw [← xioDowork_shown fresh (hw 0) hr hmost, if_neg (by simpa using hmid')]
        exact ih (fun k => hw (k + 1)) (hfirst.held hmost hr) h
    · rw [if_neg (by simpa using htop)] at h
      cases h
      rw [if_neg (mt hempty.mp htop)]

/-- A call of `on_io_recv` on the block returns what the one on the list does. -/
theorem onIoRecv_shown {fresh : Nat → UInt8} {fuel : Nat} {works : Nat → List Outcome}
    (hw : ∀ k, ∀ o ∈ works k, Allocates o) (hr : Held r) {sz : Nat} {answer : Option (Nat → UInt8)}
    (h : r.onIoRecv fresh works sz answer fuel = some r') (hlt : r'.most < 2 ^ 31) :
    ∃ (u : TlsReader) (c : RecvCall), r'.calls = u.calls ++ [c] ∧ Io.onIoRecv works sz fuel r.shown = some (c.result, c.copied, r'.shown) := by
  obtain ⟨u, hu, rfl⟩ := Option.map_eq_some_iff.mp h
  have hmost : (u.takeFront sz answer).most = u.most := by unfold takeFront; rfl
  rw [hmost] at hlt
  have hfollows : Follows r u :=
    whileBreak_inv _ _ _ (fun k v hv => hv.trans (xioDowork_follows fresh (hw k) v)) (.refl r) hu
  have hheld := hfollows.held hlt hr
  obtain ⟨c, hc, htake⟩ := takeFront_shown hheld (Nat.lt_of_le_of_lt hheld.most hlt) sz answer
  refine ⟨u, c, hc, ?_⟩
  rw [Io.onIoRecv, loop_shown hw hr hu hlt, Option.map_some, htake]

end TlsReader

/-! ## A connection -/

open TlsReader

/-- The deliveries find room and the requests are for something. -/
def ReadStep.Proper : ReadStep → Prop
  | .callback o => Allocates o
  | .state _ => True
  | .recv works sz _ _ => 0 < sz ∧ ∀ k, ∀ o ∈ works k, Allocates o

theorem ReadStep.run_follows {fresh : Nat → UInt8} {e : ReadStep} (he : e.Proper) {r r' : TlsReader}
    (h : e.run fresh r = some r') : Follows r r' := by
  cases e with
  | callback o => cases h; exact deliver_follows fresh he r
  | state s => cases h; exact ⟨Nat.le_refl _, fun _ h => ⟨h.fits, h.most, h.fifo, h.calls⟩⟩
  | recv works sz shrinks fuel => exact onIoRecv_follows he.2 he.1 h

theorem runReads_follows {fresh : Nat → UInt8} {steps : List ReadStep} (hp : ∀ e ∈ steps, e.Proper) {r r' : TlsReader}
    (h : runReads fresh steps r = some r') : Follows r r' := by
  induction steps generalizing r with
  | nil => cases h; exact .refl _
  | cons e steps ih =>
    rw [runReads, List.foldlM_cons] at h
    obtain ⟨u, hu, hrest⟩ := Option.bind_eq_some_iff.mp h
    exact (ReadStep.run_follows (hp e List.mem_cons_self) hu).trans (ih (fun e he => hp e (List.mem_cons_of_mem _ he)) hrest)

theorem empty_held (state : TlsioState) : Held (empty state) := ⟨Nat.zero_le _, Nat.le_refl _, rfl, nofun⟩

/-- Two deliveries, the second inside of a wait, a request for a part of the first one whose block
    does not shrink, and one for more than there is. -/
def twoDeliveries : List ReadStep :=
  [.callback (.bytes 1 [2, 3] true false), .recv (fun _ => []) 2 none 1, .recv (fun _ => []) 9 none 1,
    .recv (fun k => if k = 0 then [] else [.bytes 4 [5] true false]) 9 none 3, .state .opened, .recv (fun _ => []) 9 none 1]

example : (runReads (fun _ => 0) twoDeliveries (TlsReader.empty .inHandshake)).map (fun r => (r.returned, r.calls.map (·.result))) =
    some ([1, 2, 3, 4, 5], [2, 1, 2, mbedtlsErrSslWantRead]) := by decide +kernel

end UMqtt.Io

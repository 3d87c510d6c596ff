/-
  UMqtt.Wire.Frames — MQTT framing as MQTT 3.1.1 has it, of no implementation in particular.

  A control packet is one byte with its type and its flags, a remaining length of one to
  four base-128 bytes, and a body of that length. `frames` cuts a stream into its packets,
  up to the first that is not complete or whose length goes on behind four bytes. Each
  reader takes what it reads off the front and returns the rest, so a longer stream has the
  packets of its prefixes (`frames_prefix`).
-/

import UMqtt.Lib.Base128

namespace UMqtt.Wire

open UMqtt.Lib

def maxRemainingLength : Nat := 268435455

/-- A control packet: the two halves of its first byte, and its body. -/
structure RawFrame where
  type : Nat
  flags : Nat
  body : List UInt8
  deriving DecidableEq, Repr

def RawFrame.ofHeader (header : UInt8) (body : List UInt8) : RawFrame := ⟨header.toNat / 16, header.toNat % 16, body⟩

/-! ## Readers -/

/-- A length of at most so many bytes. -/
def readLength : Nat → List UInt8 → Option (Nat × List UInt8)
  | 0, _ => none
  | _ + 1, [] => none
  | n + 1, b :: bs =>
    if Base128.continues b then (readLength n bs).map fun r => (Base128.digit b + 128 * r.1, r.2)
    else some (Base128.digit b, bs)

def readFrame : List UInt8 → Option (RawFrame × List UInt8)
  | [] => none
  | header :: bs =>
    match readLength 4 bs with
    | none => none
    | some (n, rest) =>
      if n ≤ rest.length then some (.ofHeader header (rest.take n), rest.drop n) else none

/-- At most so many packets. -/
def framesWithin : Nat → List UInt8 → List RawFrame
  | 0, _ => []
  | n + 1, bs =>
    match readFrame bs with
    | none => []
    | some (frame, rest) => frame :: framesWithin n rest

/-- The packets of a stream, each of which takes a byte. -/
def frames (bs : List UInt8) : List RawFrame := framesWithin bs.length bs

/-! ## Reading a length -/

theorem readLength_numeral {n : Nat} {ds : List UInt8} {e : UInt8} (hds : ∀ b ∈ ds, Base128.continues b)
    (he : ¬ Base128.continues e) (hn : ds.length < n) (rest : List UInt8) :
    readLength n (ds ++ e :: rest) = some (Base128.value (ds ++ [e]), rest) := by
  induction ds generalizing n with
  | nil =>
    obtain ⟨n, rfl⟩ : ∃ m, n = m + 1 := ⟨n - 1, by simp only [List.length_nil] at hn; omega⟩
    rw [List.nil_append, readLength, if_neg he]
    rfl
  | cons d ds ih =>
    obtain ⟨n, rfl⟩ : ∃ m, n = m + 1 := ⟨n - 1, by simp only [List.length_cons] at hn; omega⟩
    simp only [List.length_cons, Nat.add_lt_add_iff_right] at hn
    rw [List.cons_append, readLength, if_pos (hds d List.mem_cons_self),
      ih (fun b hb => hds b (List.mem_cons_of_mem _ hb)) hn]
    rfl

/-- Every length of MQTT is read back from its numeral. -/
theorem readLength_encode {n : Nat} (h : n ≤ maxRemainingLength) (rest : List UInt8) :
    readLength 4 (Base128.encode n ++ rest) = some (n, rest) := by
  obtain ⟨init, last, he, hcont, hlast, hv⟩ := Base128.encode_shape n
  have hlen : (Base128.encode n).length ≤ 3 + 1 :=
    Base128.length_encode_le (by simp only [maxRemainingLength] at h; omega)
  rw [he, List.length_append, List.length_singleton] at hlen
  rw [he, List.append_assoc, List.singleton_append, readLength_numeral hcont hlast (by omega), hv]

/-- A length that goes on to the end of the stream, or behind its last byte. -/
theorem readLength_none {ds : List UInt8} (hds : ∀ b ∈ ds, Base128.continues b) {n : Nat} {rest : List UInt8}
    (h : rest = [] ∨ n ≤ ds.length) : readLength n (ds ++ rest) = none := by
  induction ds generalizing n with
  | nil =>
    cases n with
    | zero => rfl
    | succ n =>
      rcases h with rfl | h
      · rfl
      · simp at h
  | cons d ds ih =>
    cases n with
    | zero => rfl
    | succ n =>
      rw [List.cons_append, readLength, if_pos (hds d List.mem_cons_self),
        ih (fun b hb => hds b (List.mem_cons_of_mem _ hb)) (h.imp_right fun h => by simpa using h)]
      rfl

theorem readLength_append {n : Nat} {bs : List UInt8} {r : Nat × List UInt8} (h : readLength n bs = some r)
    (more : List UInt8) : readLength n (bs ++ more) = some (r.1, r.2 ++ more) := by
  induction n generalizing bs r with
  | zero => cases h
  | succ n ih =>
    cases bs with
    | nil => cases h
    | cons b bs =>
      rw [readLength] at h
      rw [List.cons_append, readLength]
      split at h
      · rename_i hb
        obtain ⟨s, hs, rfl⟩ := Option.map_eq_some_iff.mp h
        rw [if_pos hb, ih hs]
        rfl
      · rename_i hb
        rw [if_neg hb, ← Option.some.inj h]

theorem readLength_shorter {n : Nat} {bs : List UInt8} {r : Nat × List UInt8} (h : readLength n bs = some r) :
    r.2.length < bs.length := by
  induction n generalizing bs r with
  | zero => cases h
  | succ n ih =>
    cases bs with
    | nil => cases h
    | cons b bs =>
      rw [readLength] at h
      rw [List.length_cons]
      split at h
      · obtain ⟨s, hs, rfl⟩ := Option.map_eq_some_iff.mp h
        have := ih hs
        simp only; omega
      · rw [← Option.some.inj h]; exact Nat.lt_succ_self _

/-! ## Reading packets -/

theorem readFrame_eq (header : UInt8) {bs : List UInt8} {r : Nat × List UInt8} (h : readLength 4 bs = some r)
    (hr : r.1 ≤ r.2.length) :
    readFrame (header :: bs) = some (.ofHeader header (r.2.take r.1), r.2.drop r.1) := by
  simp only [readFrame, h, if_pos hr]

theorem readFrame_append {bs : List UInt8} {r : RawFrame × List UInt8} (h : readFrame bs = some r) (more : List UInt8) :
    readFrame (bs ++ more) = some (r.1, r.2 ++ more) := by
  cases bs with
  | nil => cases h
  | cons header bs =>
    rw [readFrame] at h
    split at h
    · cases h
    · rename_i n rest hl
      split at h
      · rename_i hn
        have hm := readFrame_eq header (readLength_append hl more)
          (by simp only [List.length_append]; omega)
        simp only [List.take_append_of_le_length hn, List.drop_append_of_le_length hn] at hm
        rw [List.cons_append, hm, ← Option.some.inj h]
      · cases h

theorem readFrame_shorter {bs : List UInt8} {r : RawFrame × List UInt8} (h : readFrame bs = some r) :
    r.2.length < bs.length := by
  cases bs with
  | nil => cases h
  | cons header bs =>
    rw [readFrame] at h
    split at h
    · cases h
    · rename_i n rest hl
      have hs := readLength_shorter hl
      split at h
      · rw [← Option.some.inj h]
        simp only [List.length_drop, List.length_cons] at hs ⊢; omega
      · cases h

/-- More than one packet a byte is not to be had. -/
theorem framesWithin_enough {n : Nat} {bs : List UInt8} (h : bs.length ≤ n) : framesWithin n bs = frames bs := by
  unfold frames
  induction n using Nat.strongRecOn generalizing bs with
  | _ n ih =>
    cases hf : readFrame bs with
    | none => cases n <;> cases bs <;> simp [framesWithin, hf]
    | some r =>
      have hs := readFrame_shorter hf
      obtain ⟨m, rfl⟩ : ∃ m, n = m + 1 := ⟨n - 1, by omega⟩
      obtain ⟨k, hk⟩ : ∃ k, bs.length = k + 1 := ⟨bs.length - 1, by omega⟩
      rw [hk]
      simp only [framesWithin, hf]
      rw [ih m (by omega) (show r.2.length ≤ m by omega), ih k (by omega) (show r.2.length ≤ k by omega)]

theorem frames_cons {bs : List UInt8} {r : RawFrame × List UInt8} (h : readFrame bs = some r) :
    frames bs = r.1 :: frames r.2 := by
  have hs := readFrame_shorter h
  rw [← framesWithin_enough (Nat.le_succ bs.length), framesWithin, h]
  simp only
  rw [framesWithin_enough (by omega)]

theorem frames_none {bs : List UInt8} (h : readFrame bs = none) : frames bs = [] := by
  rw [← framesWithin_enough (Nat.le_succ bs.length), framesWithin, h]

/-- The packets of a prefix are packets of the stream. -/
theorem frames_prefix (bs more : List UInt8) : frames bs <+: frames (bs ++ more) := by
  induction hn : bs.length using Nat.strongRecOn generalizing bs with
  | _ n ih =>
    cases hf : readFrame bs with
    | none => rw [frames_none hf]; exact List.nil_prefix
    | some r =>
      rw [frames_cons hf, frames_cons (readFrame_append hf more)]
      have hs := readFrame_shorter hf
      exact List.cons_prefix_cons.mpr ⟨rfl, ih _ (by omega) r.2 rfl⟩

end UMqtt.Wire

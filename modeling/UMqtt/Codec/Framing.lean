/-
  UMqtt.Codec.Framing — the decoder frames well-formed streams.

  A `Frame` is a packet as a well-behaved sender puts it on the wire: a PINGRESP without
  a body, or any other type with a body of 1 to 2097151 bytes, its length written as the
  shortest base-128 numeral. Between packets the codec is `Idle`; inside one it is
  `Reading` the length (the bytes stored so far are known) or `Filling` the body (the
  bytes written so far are known). One byte takes each of these to the next, so one frame
  takes an idle codec to an idle codec with one call of the callback (`frame_run`), and a
  stream does so frame by frame however it is cut into chunks (`feed_frames`).
-/

import UMqtt.Lib.Base128
import UMqtt.Codec.Decode

namespace UMqtt.Codec

open UMqtt.Lib UMqtt.Crt

/-! ## Bytes -/

theorem and127 (b : UInt8) : (b &&& 127).toNat = Base128.digit b := by
  rw [UInt8.toNat_and]
  exact Nat.and_two_pow_sub_one_eq_mod b.toNat 7

theorem and128 (b : UInt8) : b &&& 128 ≠ 0 ↔ Base128.continues b := by
  have key : ∀ i : Fin 256, (i.val &&& 128 = 0 ↔ ¬ 128 ≤ i.val) := by decide +kernel
  have := key ⟨b.toNat, b.toNat_lt⟩
  rw [ne_eq, ← UInt8.toNat_inj, UInt8.toNat_and]
  simp only [Base128.continues]
  exact (not_congr this).trans Decidable.not_not

theorem le7f (b : UInt8) : b ≤ 0x7f ↔ ¬ Base128.continues b := by
  rw [UInt8.le_iff_toNat_le, Base128.continues]
  simp only [UInt8.reduceToNat]
  omega

theorem typeByte_roundtrip (t : ControlPacketType) (ht : t.OnWire) (f : Fin 16) :
    packetTypeByte (t.value ||| UInt8.ofNat f) = t ∧ flagValueByte (t.value ||| UInt8.ofNat f) = UInt8.ofNat f := by
  revert f
  cases t with
  | packetTypeError => exact absurd rfl ht.1
  | unknown => exact absurd rfl ht.2
  | reserved high => cases high <;> decide
  | _ => decide

theorem connack_onWire : ControlPacketType.connack.OnWire := by decide

theorem publish_onWire : ControlPacketType.publish.OnWire := by decide

theorem suback_onWire : ControlPacketType.suback.OnWire := by decide

theorem unsuback_onWire : ControlPacketType.unsuback.OnWire := by decide

theorem pingresp_onWire : ControlPacketType.pingresp.OnWire := by decide

theorem packetTypeByte_onWire (b : UInt8) : (packetTypeByte b).OnWire := by
  unfold packetTypeByte
  split <;> decide

/-! ## Frames -/

/-- A PINGRESP has no body, any other packet one that is not too long for the length loop. -/
def Sized (type : ControlPacketType) (body : List UInt8) : Prop :=
  if type = .pingresp then body = [] else 1 ≤ body.length ∧ body.length ≤ 2097151

theorem sized_body {type : ControlPacketType} (ht : type ≠ .pingresp) {body : List UInt8} (h1 : 1 ≤ body.length)
    (h2 : body.length ≤ 2097151) : Sized type body := by
  rw [Sized, if_neg ht]
  exact ⟨h1, h2⟩

theorem sized_nil : Sized .pingresp [] := rfl

structure Frame where
  type : ControlPacketType
  flags : Fin 16
  body : List UInt8
  onWire : type.OnWire
  sized : Sized type body

namespace Frame

/-- The type and flags byte, the remaining length, the body. -/
def bytes (fr : Frame) : List UInt8 :=
  (fr.type.value ||| UInt8.ofNat fr.flags) :: (Base128.encode fr.body.length ++ fr.body)

def packet (fr : Frame) : Packet :=
  ⟨fr.type, UInt8.ofNat fr.flags, if fr.type = .pingresp then none else some (Buffer.ofBytes fr.body)⟩

theorem bytes_ne_nil (fr : Frame) : fr.bytes ≠ [] := List.cons_ne_nil _ _

end Frame

/-- A packet as the codec takes it off the wire, its length in up to three bytes and not
    necessarily the shortest numeral. -/
structure Piece where
  header : UInt8
  init : List UInt8
  last : UInt8
  body : List UInt8
  continues : ∀ b ∈ init, Base128.continues b
  ends : ¬ Base128.continues last
  sized : if packetTypeByte header = .pingresp then init = [] ∧ last = 0 ∧ body = []
    else init.length ≤ 2 ∧ Base128.value (init ++ [last]) = body.length ∧ body ≠ []

namespace Piece

def bytes (p : Piece) : List UInt8 := p.header :: (p.init ++ p.last :: p.body)

def packet (p : Piece) : Packet :=
  ⟨packetTypeByte p.header, flagValueByte p.header,
    if packetTypeByte p.header = .pingresp then none else some (Buffer.ofBytes p.body)⟩

end Piece

/-- A frame is taken as it is sent. -/
theorem Frame.exists_piece (fr : Frame) : ∃ p : Piece, p.bytes = fr.bytes ∧ p.packet = fr.packet := by
  obtain ⟨htype, hflags⟩ := typeByte_roundtrip fr.type fr.onWire fr.flags
  obtain ⟨init, last, he, hcont, hlast, hv⟩ := Base128.encode_shape fr.body.length
  have hs := fr.sized
  unfold Sized at hs
  have hsized : if packetTypeByte (fr.type.value ||| UInt8.ofNat fr.flags) = .pingresp then
      init = [] ∧ last = 0 ∧ fr.body = []
      else init.length ≤ 2 ∧ Base128.value (init ++ [last]) = fr.body.length ∧ fr.body ≠ [] := by
    rw [htype]
    split
    · rename_i hp
      rw [if_pos hp] at hs
      rw [hs, List.length_nil, Base128.encode_lt (by decide)] at he
      cases init with
      | nil => exact ⟨rfl, (List.cons.inj he).1.symm, hs⟩
      | cons d init => simp at he
    · rename_i hp
      rw [if_neg hp] at hs
      have hlen : (Base128.encode fr.body.length).length ≤ 2 + 1 := Base128.length_encode_le (by omega)
      rw [he, List.length_append, List.length_singleton] at hlen
      exact ⟨by omega, hv, List.ne_nil_of_length_pos hs.1⟩
  refine ⟨⟨fr.type.value ||| UInt8.ofNat fr.flags, init, last, fr.body, hcont, hlast, hsized⟩, ?_, ?_⟩
  · simp only [Piece.bytes, Frame.bytes, he, List.append_assoc, List.singleton_append]
  · simp only [Piece.packet, Frame.packet, htype, hflags]

/-! ## The codec between and inside packets -/

structure Idle (c : CodecInstance) : Prop where
  fault : c.fault = none
  state : c.codecState = .fixedHeader
  type : c.currPacket = .unknown
  data : c.headerData = none
  index : c.remainLenIndex = 0

theorem create_idle : Idle create := ⟨rfl, rfl, rfl, rfl, rfl⟩

structure Stored (c : CodecInstance) (ds : List UInt8) : Prop where
  index : c.remainLenIndex = ds.length
  store : ∃ rest, c.storeRemainLen.toList = ds ++ rest

structure Reading (c : CodecInstance) (t : ControlPacketType) (f : UInt8) (ds : List UInt8) : Prop where
  fault : c.fault = none
  state : c.codecState = .fixedHeader
  type : c.currPacket = t
  flags : c.headerFlags = f
  data : c.headerData = none
  index : c.remainLenIndex = ds.length
  store : ∃ rest, c.storeRemainLen.toList = ds ++ rest

theorem Reading.stored {c : CodecInstance} {t : ControlPacketType} {f : UInt8} {ds : List UInt8} (h : Reading c t f ds) :
    Stored c ds := ⟨h.index, h.store⟩

/-- The header is read; of the body, `pre` is written and `rest` bytes are still to come. -/
structure Filling (c : CodecInstance) (t : ControlPacketType) (f : UInt8) (pre : List UInt8) (rest : Nat) : Prop where
  fault : c.fault = none
  state : c.codecState = .varHeader
  type : c.currPacket = t
  flags : c.headerFlags = f
  index : c.remainLenIndex = 0
  offset : c.bufferOffset = pre.length
  data : ∃ junk, c.headerData = some (Buffer.ofBytes (pre ++ junk)) ∧ junk.length = rest

theorem cleanUp_idle {c : CodecInstance} (hf : c.fault = none) (hi : c.remainLenIndex = 0) : Idle c.cleanUp :=
  ⟨hf, rfl, rfl, rfl, hi⟩

theorem Idle.reading {c : CodecInstance} (h : Idle c) : Reading c .unknown c.headerFlags [] :=
  ⟨h.fault, h.state, h.type, rfl, h.data, h.index, ⟨_, rfl⟩⟩

/-- The type byte leaves alone what is stored of a length. -/
theorem advance_type {c : CodecInstance} {f : UInt8} {ds : List UInt8} (h : Reading c .unknown f ds) (ms : Mallocs)
    (b : UInt8) :
    ∃ c', advance c ms b = ⟨0, false, c', ms⟩ ∧ Reading c' (packetTypeByte b) (flagValueByte b) ds := by
  refine ⟨{ c with currPacket := packetTypeByte b, headerFlags := flagValueByte b }, ?_, ?_⟩
  · simp [advance, h.fault, h.state, h.type]
  · exact ⟨h.fault, h.state, rfl, rfl, h.data, h.index, h.store⟩

/-- Storing one more length byte keeps what is stored in front of it. -/
theorem store_set {c : CodecInstance} {ds : List UInt8} (h : Stored c ds) (hl : c.remainLenIndex < 4) (b : UInt8) :
    ∃ rest, (c.storeRemainLen.set c.remainLenIndex b hl).toList = (ds ++ [b]) ++ rest := by
  obtain ⟨rest, hr⟩ := h.store
  have hlen : ds.length + rest.length = 4 := by
    have := congrArg List.length hr
    simpa using this.symm
  have hi := h.index
  cases rest with
  | nil => simp only [List.length_nil] at hlen; omega
  | cons r rest =>
    refine ⟨rest, ?_⟩
    rw [Vector.toList_set, hr, hi, List.set_append_right _ _ (Nat.le_refl _)]
    simp

/-- A length byte that another one follows is stored. -/
theorem prepareheaderDataInfo_continue {c : CodecInstance} {ds : List UInt8} (h : Stored c ds) (hl : ds.length < 4)
    {b : UInt8} (hb : Base128.continues b) (ms : Mallocs) :
    ∃ store, prepareheaderDataInfo c b ms =
        (0, { c with lengthBytes := c.lengthBytes ++ [b], storeRemainLen := store,
                     remainLenIndex := c.remainLenIndex + 1 }, ms) ∧
      ∃ rest, store.toList = (ds ++ [b]) ++ rest := by
  have hi : c.remainLenIndex < 4 := by rw [h.index]; exact hl
  have h7 : ¬ b ≤ 0x7f := fun e => (le7f b).mp e hb
  exact ⟨c.storeRemainLen.set c.remainLenIndex b hi, by simp only [prepareheaderDataInfo, dif_pos hi, if_neg h7],
    store_set h hi b⟩

theorem advance_continue {c : CodecInstance} {t : ControlPacketType} {f : UInt8} {ds : List UInt8} (h : Reading c t f ds)
    (ht : t ≠ .unknown) (hp : t ≠ .pingresp) (hl : ds.length < 4) (ms : Mallocs) {b : UInt8}
    (hb : Base128.continues b) :
    ∃ c', advance c ms b = ⟨0, false, c', ms⟩ ∧ Reading c' t f (ds ++ [b]) := by
  obtain ⟨store, hprep, hstore⟩ := prepareheaderDataInfo_continue h.stored hl hb ms
  refine ⟨{ c with lengthBytes := c.lengthBytes ++ [b], storeRemainLen := store,
                   remainLenIndex := c.remainLenIndex + 1 }, ?_, ?_⟩
  · simp [advance, h.fault, h.state, h.type, ht, hprep, hp]
  · exact ⟨h.fault, h.state, h.type, h.flags, h.data, by simp [h.index], hstore⟩

/-- Up to three length bytes the loop of `prepareheaderDataInfo` computes their value. -/
theorem lengthLoop_value : ∀ (ds : List UInt8) (j total : Nat) (b : UInt8) (rest : List UInt8),
    (∀ d ∈ ds, Base128.continues d) → ¬ Base128.continues b → j + ds.length ≤ 2 →
    lengthLoop (ds ++ b :: rest) (128 ^ j) total = some (0, total + 128 ^ j * Base128.value (ds ++ [b])) := by
  intro ds
  induction ds with
  | nil =>
    intro j total b rest _ hb hj
    have hm : ¬ 128 * 128 * 128 < 128 ^ j * 128 := by
      have : 128 ^ j ≤ 128 ^ 2 := Nat.pow_le_pow_right (by decide) (by simpa using hj)
      omega
    have h8 : ¬ (b &&& 128 ≠ 0) := fun e => hb ((and128 b).mp e)
    simp only [List.nil_append, lengthLoop, if_neg hm, if_neg h8, and127, Base128.value, Nat.mul_zero, Nat.add_zero]
    rw [Nat.mul_comm]
  | cons d ds ih =>
    intro j total b rest hd hb hj
    have hm : ¬ 128 * 128 * 128 < 128 ^ j * 128 := by
      have : 128 ^ j ≤ 128 ^ 1 := Nat.pow_le_pow_right (by decide) (by simp only [List.length_cons] at hj; omega)
      omega
    have h8 : d &&& 128 ≠ 0 := (and128 d).mpr (hd d List.mem_cons_self)
    have := ih (j + 1) (total + Base128.digit d * 128 ^ j) b rest
      (fun x hx => hd x (List.mem_cons_of_mem _ hx)) hb (by simp only [List.length_cons] at hj; omega)
    simp only [List.cons_append, lengthLoop, if_neg hm, if_pos h8, and127]
    rw [← Nat.pow_succ, this, Base128.value, Nat.mul_add, Nat.pow_succ]
    simp only [Option.some.injEq, Prod.mk.injEq, true_and]
    rw [Nat.mul_comm (Base128.digit d), Nat.mul_assoc, Nat.add_assoc]

/-- The last of up to three length bytes that say a body allocates it. -/
theorem prepareheaderDataInfo_last {c : CodecInstance} {ds : List UInt8} (h : Stored c ds)
    (hd : ∀ d ∈ ds, Base128.continues d) (hl : ds.length ≤ 2) {b : UInt8} (hb : ¬ Base128.continues b)
    (hv : 0 < Base128.value (ds ++ [b])) {ms : Mallocs} (hm : Succeed ms) :
    ∃ block ms', prepareheaderDataInfo c b ms =
        (0, { c with lengthBytes := c.lengthBytes ++ [b], codecState := .varHeader, remainLenIndex := 0,
                     storeRemainLen := Vector.replicate 4 0, bufferOffset := 0,
                     headerData := some (Buffer.ofBytes block) }, ms') ∧
      block.length = Base128.value (ds ++ [b]) ∧ Succeed ms' := by
  have hi : c.remainLenIndex < 4 := by rw [h.index]; omega
  obtain ⟨rest, hr⟩ := store_set h hi b
  have hloop := lengthLoop_value ds 0 0 b rest hd hb (by simpa using hl)
  simp only [Nat.pow_zero, Nat.one_mul, Nat.zero_add] at hloop
  rw [List.append_assoc, List.singleton_append] at hr
  obtain ⟨ms1, hn, hs1⟩ := Buffer.new_succeed hm
  obtain ⟨block, ms2, hpre, hblen, hs2⟩ := Buffer.preBuild_succeed hs1 hv
  refine ⟨block, ms2, ?_, hblen, hs2⟩
  simp [prepareheaderDataInfo, hi, (le7f b).mpr hb, hr, hloop, hv, newHeaderData, hn, hpre]

/-- A zero length byte says that there is no body. -/
theorem prepareheaderDataInfo_zero {c : CodecInstance} (h : Stored c []) (ms : Mallocs) :
    prepareheaderDataInfo c 0 ms =
      (0, { c with lengthBytes := c.lengthBytes ++ [0], codecState := .varHeader, remainLenIndex := 0,
                   storeRemainLen := Vector.replicate 4 0 }, ms) := by
  have hi : c.remainLenIndex < 4 := by rw [h.index]; decide
  obtain ⟨rest, hr⟩ := store_set h hi 0
  have hloop := lengthLoop_value [] 0 0 0 rest (by simp) (by decide) (by simp)
  have hr' : (c.storeRemainLen.set c.remainLenIndex 0 hi).toList = 0 :: rest := by simpa using hr
  have h7 : (0 : UInt8) ≤ 0x7f := by decide
  have hloop' : lengthLoop (0 :: rest) 1 0 = some (0, 0) := by simpa [Base128.value, Base128.digit] using hloop
  simp [prepareheaderDataInfo, hi, h7, hr', hloop']

/-- The last length byte of a packet with a body allocates it; a PINGRESP is complete then. -/
theorem advance_last {c : CodecInstance} {t : ControlPacketType} {f : UInt8} {ds : List UInt8} (h : Reading c t f ds)
    (ht : t ≠ .unknown) (hd : ∀ d ∈ ds, Base128.continues d) (hl : ds.length ≤ 2)
    {ms : Mallocs} (hm : Succeed ms) {b : UInt8} (hb : ¬ Base128.continues b)
    (hv : 0 < Base128.value (ds ++ [b])) :
    ∃ c' ms', advance c ms b = ⟨0, t = .pingresp, c', ms'⟩ ∧ Filling c' t f [] (Base128.value (ds ++ [b])) ∧
      Succeed ms' := by
  obtain ⟨block, ms', hprep, hblen, hs⟩ := prepareheaderDataInfo_last h.stored hd hl hb hv hm
  refine ⟨{ c with lengthBytes := c.lengthBytes ++ [b], codecState := .varHeader, remainLenIndex := 0,
                   storeRemainLen := Vector.replicate 4 0, bufferOffset := 0,
                   headerData := some (Buffer.ofBytes block) }, ms', ?_, ?_, hs⟩
  · simp [advance, h.fault, h.state, h.type, ht, hprep]
  · exact ⟨h.fault, rfl, h.type, h.flags, rfl, rfl, ⟨block, rfl, hblen⟩⟩

/-- A zero length byte completes a PINGRESP. -/
theorem advance_ping {c : CodecInstance} {f : UInt8} (h : Reading c .pingresp f []) (ms : Mallocs) :
    ∃ c', advance c ms 0 = ⟨0, true, c', ms⟩ ∧ c'.packet = ⟨.pingresp, f, none⟩ ∧ c'.fault = none ∧
      c'.remainLenIndex = 0 := by
  refine ⟨{ c with lengthBytes := c.lengthBytes ++ [0], codecState := .varHeader, remainLenIndex := 0,
                   storeRemainLen := Vector.replicate 4 0 }, ?_, ?_, h.fault, rfl⟩
  · simp [advance, h.fault, h.state, h.type, prepareheaderDataInfo_zero h.stored]
  · simp [CodecInstance.packet, h.type, h.flags, h.data]

theorem advance_fill {c : CodecInstance} {t : ControlPacketType} {f : UInt8} {pre : List UInt8} {n : Nat}
    (h : Filling c t f pre (n + 1)) (ms : Mallocs) (b : UInt8) :
    ∃ c', advance c ms b = ⟨0, n = 0, c', ms⟩ ∧ Filling c' t f (pre ++ [b]) n := by
  obtain ⟨junk, hd, hj⟩ := h.data
  cases junk with
  | nil => simp at hj
  | cons x junk =>
    simp only [List.length_cons, Nat.add_right_cancel_iff] at hj
    have hu : Buffer.uChar (some (Buffer.ofBytes (pre ++ x :: junk))) = some (pre ++ x :: junk) :=
      Buffer.uChar_ofBytes (by simp)
    have hw : (Buffer.ofBytes (pre ++ x :: junk)).write pre.length [b] = Buffer.ofBytes (pre ++ [b] ++ junk) := by
      have : (Buffer.ofBytes (pre ++ [x] ++ junk)).write pre.length [b] = Buffer.ofBytes (pre ++ [b] ++ junk) :=
        Buffer.write_at rfl
      simpa using this
    have hin : c.bufferOffset < (pre ++ x :: junk).length := by rw [h.offset]; simp
    refine ⟨{ c with headerData := some (Buffer.ofBytes (pre ++ [b] ++ junk)), bufferOffset := c.bufferOffset + 1 },
      ?_, ⟨h.fault, h.state, h.type, h.flags, h.index, by simp [h.offset], ⟨junk, rfl, hj⟩⟩⟩
    have hlen : Buffer.length (some (Buffer.ofBytes (pre ++ [b] ++ junk))) ≤ c.bufferOffset + 1 ↔ n = 0 := by
      rw [Buffer.length_ofBytes, h.offset]; simp only [List.length_append, List.length_singleton]; omega
    simp only [advance, h.fault, h.state, hd, hu]
    rw [if_pos hin, h.offset, hw]
    simp only [Option.isSome_none, Bool.false_eq_true, if_false, ← h.offset, hlen]

theorem Filling.packet {c : CodecInstance} {t : ControlPacketType} {f : UInt8} {body : List UInt8}
    (h : Filling c t f body 0) : c.packet = ⟨t, f, some (Buffer.ofBytes body)⟩ := by
  obtain ⟨junk, hd, hj⟩ := h.data
  rw [List.length_eq_zero_iff.mp hj, List.append_nil] at hd
  simp only [CodecInstance.packet, h.type, h.flags, hd]

/-! ## One frame -/

section Streams

variable {W : Type} {s : Slot W (CodecInstance × Mallocs)} {packetComplete : Packet → W → W}

theorem receiveByte_set (c : CodecInstance) (ms : Mallocs) (b : UInt8) (w : W) :
    receiveByte s packetComplete b (s.set (c, ms) w) =
      ((advance c ms b).result,
        if (advance c ms b).complete then
          completePacketData s packetComplete (s.set ((advance c ms b).codec, (advance c ms b).mallocs) w)
        else s.set ((advance c ms b).codec, (advance c ms b).mallocs) w) := by
  simp only [receiveByte, Slot.get_set, Slot.set_set]

/-- A byte that neither fails nor completes a packet only changes the codec. -/
theorem runUntil_quiet {c c' : CodecInstance} {ms ms' : Mallocs} {b : UInt8} (h : advance c ms b = ⟨0, false, c', ms'⟩)
    (rest : List UInt8) (w : W) :
    runUntil (receiveByte s packetComplete) (b :: rest) (s.set (c, ms) w) =
      runUntil (receiveByte s packetComplete) rest (s.set (c', ms') w) := by
  simp only [runUntil_cons, receiveByte_set, h, if_true, Bool.false_eq_true, if_false]

theorem runUntil_complete {c c' : CodecInstance} {ms ms' : Mallocs} {b : UInt8} (h : advance c ms b = ⟨0, true, c', ms'⟩)
    (w : W) : runUntil (receiveByte s packetComplete) [b] (s.set (c, ms) w) =
      (0, completePacketData s packetComplete (s.set (c', ms') w)) := by
  simp only [runUntil_cons, receiveByte_set, h, if_true, runUntil_nil]

variable (s packetComplete) in
/-- Continuation bytes are stored. -/
theorem continue_run {t : ControlPacketType} {f : UInt8} (ht : t ≠ .unknown) (hp : t ≠ .pingresp) (ms : Mallocs)
    (rest : List UInt8) (w : W) : ∀ (more ds : List UInt8) (c : CodecInstance), Reading c t f ds →
      (∀ b ∈ more, Base128.continues b) → ds.length + more.length ≤ 4 →
      ∃ c', Reading c' t f (ds ++ more) ∧
        runUntil (receiveByte s packetComplete) (more ++ rest) (s.set (c, ms) w) =
          runUntil (receiveByte s packetComplete) rest (s.set (c', ms) w) := by
  intro more
  induction more with
  | nil => intro ds c h _ _; exact ⟨c, by simpa using h, rfl⟩
  | cons b more ih =>
    intro ds c h hb hl
    simp only [List.length_cons] at hl
    obtain ⟨c1, ha, h1⟩ := advance_continue h ht hp (by omega) ms (hb b List.mem_cons_self)
    obtain ⟨c2, h2, hr⟩ := ih (ds ++ [b]) c1 h1 (fun x hx => hb x (List.mem_cons_of_mem _ hx))
      (by simp only [List.length_append, List.length_singleton]; omega)
    refine ⟨c2, by simpa using h2, ?_⟩
    rw [List.cons_append, runUntil_quiet ha, hr]

variable (s packetComplete) in
/-- Body bytes are written one behind the other, and the last one completes the packet. -/
theorem fill_run {t : ControlPacketType} {f : UInt8} (ms : Mallocs) (w : W) :
    ∀ (body pre : List UInt8) (c : CodecInstance), body ≠ [] → Filling c t f pre body.length →
      ∃ c', Filling c' t f (pre ++ body) 0 ∧
        runUntil (receiveByte s packetComplete) body (s.set (c, ms) w) =
          (0, completePacketData s packetComplete (s.set (c', ms) w)) := by
  intro body
  induction body with
  | nil => intro _ _ h; exact absurd rfl h
  | cons b body ih =>
    intro pre c _ h
    obtain ⟨c1, ha, h1⟩ := advance_fill h ms b
    cases body with
    | nil => exact ⟨c1, h1, runUntil_complete ha w⟩
    | cons b' body =>
      obtain ⟨c2, h2, hr⟩ := ih (pre ++ [b]) c1 (by simp) h1
      refine ⟨c2, by simpa using h2, ?_⟩
      rw [runUntil_quiet (by simpa using ha), hr]

variable (s packetComplete) in
/-- A packet takes an idle codec through exactly one call of the callback. -/
theorem piece_run (p : Piece) {c : CodecInstance} {ms : Mallocs} (hc : Idle c) (hm : Succeed ms) (w : W) :
    ∃ c' ms', c'.packet = p.packet ∧ c'.fault = none ∧ c'.remainLenIndex = 0 ∧ Succeed ms' ∧
      runUntil (receiveByte s packetComplete) p.bytes (s.set (c, ms) w) =
        (0, completePacketData s packetComplete (s.set (c', ms') w)) := by
  obtain ⟨c1, ha, h1⟩ := advance_type hc.reading ms p.header
  have hs := p.sized
  have hne := (packetTypeByte_onWire p.header).2
  rw [Piece.bytes, runUntil_quiet ha]
  by_cases hp : packetTypeByte p.header = .pingresp
  · obtain ⟨hinit, hlast, hbody⟩ := (if_pos hp).mp hs
    rw [hp] at h1
    obtain ⟨c2, ha2, hpk, hf, hi⟩ := advance_ping h1 ms
    refine ⟨c2, ms, by simp [hpk, Piece.packet, hp], hf, hi, hm, ?_⟩
    rw [hinit, hlast, hbody]
    exact runUntil_complete ha2 w
  · obtain ⟨hlen, hv, hbody⟩ := (if_neg hp).mp hs
    have hpos := List.length_pos_iff.mpr hbody
    obtain ⟨c2, h2, hr2⟩ := continue_run s packetComplete hne hp ms (p.last :: p.body) w p.init [] c1 h1 p.continues
      (by simp only [List.length_nil]; omega)
    rw [List.nil_append] at h2
    obtain ⟨c3, ms3, ha3, h3, hm3⟩ := advance_last h2 hne p.continues hlen hm p.ends (by omega)
    rw [hv] at h3
    obtain ⟨c4, h4, hr4⟩ := fill_run s packetComplete ms3 w p.body [] c3 hbody h3
    refine ⟨c4, ms3, by simp [h4.packet, Piece.packet, hp], h4.fault, h4.index, hm3, ?_⟩
    rw [hr2, runUntil_quiet (by simpa [hp] using ha3), hr4]

variable (s packetComplete) in
/-- So does a frame. -/
theorem frame_run (fr : Frame) {c : CodecInstance} {ms : Mallocs} (hc : Idle c) (hm : Succeed ms) (w : W) :
    ∃ c' ms', c'.packet = fr.packet ∧ c'.fault = none ∧ c'.remainLenIndex = 0 ∧ Succeed ms' ∧
      runUntil (receiveByte s packetComplete) fr.bytes (s.set (c, ms) w) =
        (0, completePacketData s packetComplete (s.set (c', ms') w)) := by
  obtain ⟨p, hbytes, hpacket⟩ := fr.exists_piece
  rw [← hbytes, ← hpacket]
  exact piece_run s packetComplete p hc hm w

/-! ## Streams of frames -/

/-- What a callback does with one packet after another, `frame` giving their frames: `R as`
    holds once the packets `as` are done, only the callback matters for it, and a further
    packet takes it one further, leaving the codec as the callback finds it. -/
structure Serves {α : Type} (s : Slot W (CodecInstance × Mallocs)) (packetComplete : Packet → W → W) (frame : α → Frame)
    (R : List α → W → Prop) : Prop where
  keep : ∀ {as x w}, R as w → R as (s.set x w)
  step : ∀ {as a w}, R as w → (s.get w).1.fault = none → Succeed (s.get w).2 →
    R (as ++ [a]) (packetComplete (frame a).packet w) ∧
      (s.get (packetComplete (frame a).packet w)).1 = (s.get w).1 ∧
      Succeed (s.get (packetComplete (frame a).packet w)).2

theorem Serves.run {α : Type} {frame : α → Frame} {R : List α → W → Prop} (h : Serves s packetComplete frame R) :
    ∀ (more done : List α) (w : W), R done w → Idle (s.get w).1 → Succeed (s.get w).2 →
      ∃ w', runUntil (receiveByte s packetComplete) (more.flatMap fun a => (frame a).bytes) w = (0, w') ∧
        R (done ++ more) w' ∧ Idle (s.get w').1 ∧ Succeed (s.get w').2 := by
  intro more
  induction more with
  | nil => intro done w hR hi hm; exact ⟨w, rfl, by simpa using hR, hi, hm⟩
  | cons a more ih =>
    intro done w hR hi hm
    obtain ⟨c, ms, hpk, hf, hx, hm', hrun⟩ := frame_run s packetComplete (frame a) hi hm w
    rw [show ((s.get w).1, (s.get w).2) = s.get w from rfl, s.set_get] at hrun
    obtain ⟨hR', hcodec, hms⟩ := h.step (a := a) (h.keep (x := (c, ms)) hR)
      (by rw [s.get_set]; exact hf) (by rw [s.get_set]; exact hm')
    rw [s.get_set] at hcodec
    obtain ⟨w', hw', hRw, hrest⟩ := ih (done ++ [a]) (completePacketData s packetComplete (s.set (c, ms) w))
      (by simp only [completePacketData, Slot.modify, s.get_set, hpk]; exact h.keep hR')
      (by
        simp only [completePacketData, Slot.get_modify, s.get_set, hpk, hcodec]
        exact cleanUp_idle hf hx)
      (by simp only [completePacketData, Slot.get_modify, s.get_set, hpk]; exact hms)
    refine ⟨w', ?_, by simpa using hRw, hrest⟩
    rw [List.flatMap_cons, runUntil_append_ok _ hrun, hw']

/-- However the stream is cut into non-empty chunks. -/
theorem Serves.chunks {α : Type} {frame : α → Frame} {R : List α → W → Prop} (h : Serves s packetComplete frame R)
    {packets : List α} {chunks : List (List UInt8)} (hne : ∀ ch ∈ chunks, ch ≠ [])
    (hcut : chunks.flatten = packets.flatMap fun a => (frame a).bytes) {w : W} (hR : R [] w)
    (hi : Idle (s.get w).1) (hm : Succeed (s.get w).2) :
    ∃ w', calls (bytesReceived s packetComplete) chunks w = (chunks.map fun _ => 0, w') ∧ R packets w' ∧
      Idle (s.get w').1 ∧ Succeed (s.get w').2 := by
  obtain ⟨w', hrun, hrest⟩ := h.run packets [] w hR hi hm
  refine ⟨w', ?_, by simpa using hrest⟩
  rw [← hcut] at hrun
  rw [calls_congr fun ch hch w => bytesReceived_ne_nil s packetComplete (hne ch hch) w]
  exact calls_of_flatten _ hrun

/-- Every packet of a well-formed stream reaches the callback, once, in order and unchanged. -/
theorem feed_frames {σ : Type} (cb : Run.Callback σ) (hcb : ∀ p x, Succeed x.1 → Succeed (cb p x).1)
    (frames : List Frame) (chunks : List (List UInt8)) (hne : ∀ ch ∈ chunks, ch ≠ [])
    (hcut : chunks.flatten = frames.flatMap Frame.bytes) (ms : Mallocs) (hm : Succeed ms) (x : σ) :
    (Run.feed cb chunks (Run.start ms x)).1 = chunks.map (fun _ => 0) ∧
    (Run.feed cb chunks (Run.start ms x)).2.packets = frames.map Frame.packet ∧
    (Run.feed cb chunks (Run.start ms x)).2.codec.codecState = .fixedHeader ∧
    (Run.feed cb chunks (Run.start ms x)).2.codec.currPacket = .unknown ∧
    (Run.feed cb chunks (Run.start ms x)).2.codec.headerData = none ∧
    (Run.feed cb chunks (Run.start ms x)).2.codec.remainLenIndex = 0 := by
  have hserves : Serves Run.slot (Run.call cb) id (fun frames r => r.packets = frames.map Frame.packet) := by
    refine ⟨fun h => h, ?_⟩
    intro frames fr r hR _ hms
    refine ⟨?_, rfl, hcb _ _ hms⟩
    simp only [Run.call, hR, id, List.map_append, List.map_cons, List.map_nil]
  obtain ⟨r, hr, hp, hidle, -⟩ := hserves.chunks hne hcut (w := Run.start ms x) rfl create_idle hm
  simp only [Run.feed, hr]
  exact ⟨trivial, hp, hidle.state, hidle.type, hidle.data, hidle.index⟩

def connackFrame : Frame := ⟨.connack, 0, [1, 5], connack_onWire, sized_body (by decide) (by decide) (by decide)⟩

def pingrespFrame : Frame := ⟨.pingresp, 3, [], pingresp_onWire, sized_nil⟩

/-- Two packets in four chunks, one cut inside each of them. -/
theorem feed_frames_cut :
    (Run.feed (fun _ x => x) [[0x20], [0x02, 0x01], [0x05, 0xd3], [0x00]] (Run.start [] ())).2.packets =
      [⟨.connack, 0, some (Buffer.ofBytes [1, 5])⟩, ⟨.pingresp, 3, none⟩] := by
  have cut : [[0x20], [0x02, 0x01], [0x05, 0xd3], [0x00]].flatten =
      [connackFrame, pingrespFrame].flatMap Frame.bytes := by
    simp only [Frame.bytes, connackFrame, pingrespFrame, List.flatMap_cons, List.length_cons, List.length_nil,
      Base128.encode_lt (show 2 < 128 by decide), Base128.encode_lt (show 0 < 128 by decide)]
    rfl
  exact (feed_frames (fun _ x => x) (fun _ _ h => h) [connackFrame, pingrespFrame] _ (by decide) cut [] succeed_nil ()).2.1

end Streams

end UMqtt.Codec

/-
  UMqtt.Codec.Lengths — the two halves of the codec over one remaining length: the loop of
  `constructFixedHeader` writes it, `prepareheaderDataInfo` takes it back byte by byte.

  MQTT has lengths of up to 268435455, four base-128 bytes. The decoder multiplies before it
  knows whether the byte was the last one, and its guard then refuses the multiplier that
  a fourth byte leaves. So what comes back is every length of up to three bytes
  (`remainingLength_roundTrip`); the last byte of a longer one is an error
  (`fourByteLength_refused`).
-/

import UMqtt.Codec.Residue
import UMqtt.Codec.Encode
import UMqtt.Wire.Frames

namespace UMqtt.Codec

open UMqtt.Lib UMqtt.Crt UMqtt.Wire

/-- Give the bytes of a length one at a time: what each call returned, and the codec. -/
def giveLength : List UInt8 → CodecInstance → Mallocs → List Nat × CodecInstance × Mallocs
  | [], c, ms => ([], c, ms)
  | b :: bs, c, ms =>
    let r := prepareheaderDataInfo c b ms
    let q := giveLength bs r.2.1 r.2.2
    (r.1 :: q.1, q.2)

/-- A header buffer of exactly `n` bytes, none for 0. -/
def HoldsBody (n : Nat) (headerData : Option Buffer) : Prop :=
  if n = 0 then headerData = none else ∃ block, headerData = some (Buffer.ofBytes block) ∧ block.length = n

/-- Every byte is accepted, and the codec waits for a body of `n` bytes. -/
structure TakesLength (n : Nat) (r : List Nat × CodecInstance × Mallocs) : Prop where
  accepted : ∀ result ∈ r.1, result = 0
  state : r.2.1.codecState = .varHeader
  data : HoldsBody n r.2.1.headerData
  index : r.2.1.remainLenIndex = 0

/-! ## Byte by byte -/

theorem stored_nil {c : CodecInstance} (h : c.remainLenIndex = 0) : Stored c [] := ⟨h, _, rfl⟩

/-- All bytes but the last are stored, one behind the other. -/
theorem giveLength_continues {init : List UInt8} (hc : ∀ b ∈ init, Base128.continues b) {c : CodecInstance}
    {ds : List UInt8} (h : Stored c ds) (hl : ds.length + init.length ≤ 4) (ms : Mallocs) :
    ∃ c', Stored c' (ds ++ init) ∧ c'.headerData = c.headerData ∧ ∀ rest, giveLength (init ++ rest) c ms =
      (List.replicate init.length 0 ++ (giveLength rest c' ms).1, (giveLength rest c' ms).2) := by
  induction init generalizing c ds with
  | nil => exact ⟨c, by rw [List.append_nil]; exact h, rfl, fun _ => rfl⟩
  | cons b init ih =>
    rw [List.length_cons] at hl
    obtain ⟨store, hprep, hstore⟩ := prepareheaderDataInfo_continue h (by omega) (hc b List.mem_cons_self) ms
    have h1 : Stored { c with lengthBytes := c.lengthBytes ++ [b], storeRemainLen := store,
                              remainLenIndex := c.remainLenIndex + 1 } (ds ++ [b]) :=
      ⟨by simp [h.index], hstore⟩
    obtain ⟨c', hs, hd, hr⟩ := ih (fun x hx => hc x (List.mem_cons_of_mem _ hx)) h1
      (by simp only [List.length_append, List.length_singleton]; omega)
    refine ⟨c', by rw [List.append_assoc] at hs; exact hs, hd, ?_⟩
    intro rest
    simp only [List.cons_append, giveLength, hprep, hr, List.length_cons, List.replicate_succ]

theorem giveLength_singleton (b : UInt8) (c : CodecInstance) (ms : Mallocs) :
    giveLength [b] c ms = ([(prepareheaderDataInfo c b ms).1], (prepareheaderDataInfo c b ms).2) := rfl

/-- What the last byte is answered with, every byte is. -/
theorem accepted_iff {k result : Nat} : (∀ r ∈ List.replicate k 0 ++ [result], r = 0) ↔ result = 0 := by
  refine ⟨fun h => h result (List.mem_append_right _ List.mem_cons_self), ?_⟩
  intro h r hr
  rcases List.mem_append.mp hr with hr | hr
  · exact List.eq_of_mem_replicate hr
  · rw [List.mem_singleton.mp hr, h]

/-! ## Whole lengths -/

/-- The numeral of a length is as long as the length is large. -/
theorem numeral_length {n : Nat} {init : List UInt8} {last : UInt8} (he : Base128.encode n = init ++ [last])
    (hv : Base128.value (init ++ [last]) = n) (hn : n ≤ maxRemainingLength) :
    init.length ≤ 3 ∧ (n ≤ 2097151 ↔ init.length ≤ 2) := by
  simp only [maxRemainingLength] at hn
  have hlen : (Base128.encode n).length = init.length + 1 := by rw [he, List.length_append, List.length_singleton]
  have h4 := Base128.length_encode_le (k := 3) (n := n) (by omega)
  refine ⟨by omega, ?_, ?_⟩
  · intro h
    have h3 := Base128.length_encode_le (k := 2) (n := n) (by omega)
    omega
  · intro h
    have hlt := Base128.value_lt (init ++ [last])
    have hpow : 128 ^ (init ++ [last]).length ≤ 128 ^ 3 :=
      Nat.pow_le_pow_right (by decide) (by rw [List.length_append, List.length_singleton]; omega)
    omega

/-- The last of four length bytes is refused. -/
theorem fourByteLength_refused {n : Nat} (hn : n ≤ maxRemainingLength) (h : 2097151 < n) {c : CodecInstance}
    (hc : c.remainLenIndex = 0) (ms : Mallocs) : ¬ TakesLength n (giveLength (remainSize n) c ms) := by
  intro ht
  obtain ⟨init, last, he, hcont, hlast, hv⟩ := Base128.encode_shape n
  obtain ⟨h3, h2⟩ := numeral_length he hv hn
  obtain ⟨c', hs, -, hr⟩ := giveLength_continues hcont (stored_nil hc) (by simp only [List.length_nil]; omega) ms
  have hrefused := prepareheaderDataInfo_overlong (b := last) hs hcont (by rw [List.nil_append]; omega) hlast ms
  have ha := ht.accepted
  rw [remainSize_eq, he, hr, giveLength_singleton, accepted_iff, hrefused] at ha
  exact absurd ha (by decide)

/-- A length of up to three bytes comes back, but for the data a codec had before an empty body. -/
theorem threeByteLength_taken {n : Nat} (hn : n ≤ 2097151) {c : CodecInstance} (hc : c.remainLenIndex = 0)
    {ms : Mallocs} (hm : Succeed ms) :
    TakesLength n (giveLength (remainSize n) c ms) ↔ (n = 0 → c.headerData = none) := by
  by_cases h0 : n = 0
  · have hzero : giveLength (remainSize n) c ms = ([0], (prepareheaderDataInfo c 0 ms).2) := by
      rw [h0, remainSize_eq, Base128.encode_lt (by decide), giveLength_singleton]
      rw [show UInt8.ofNat 0 = 0 from rfl, prepareheaderDataInfo_zero (stored_nil hc) ms]
    rw [hzero, prepareheaderDataInfo_zero (stored_nil hc) ms]
    refine ⟨?_, ?_⟩
    · intro ht h
      have hd := ht.data
      rwa [HoldsBody, if_pos h] at hd
    · intro hd
      exact ⟨fun r hr => List.mem_singleton.mp hr, rfl, by rw [HoldsBody, if_pos h0]; exact hd h0, rfl⟩
  · obtain ⟨init, last, he, hcont, hlast, hv⟩ := Base128.encode_shape n
    obtain ⟨h3, h2⟩ := numeral_length he hv (by simp only [maxRemainingLength]; omega)
    obtain ⟨c', hs, -, hr⟩ := giveLength_continues hcont (stored_nil hc) (by simp only [List.length_nil]; omega) ms
    rw [List.nil_append] at hs
    obtain ⟨block, ms', hprep, hl, -⟩ := prepareheaderDataInfo_last hs hcont (h2.mp hn) hlast
      (by rw [hv]; omega) hm
    rw [remainSize_eq, he, hr, giveLength_singleton, hprep]
    refine ⟨fun _ h => absurd h h0, fun _ => ⟨accepted_iff.mpr rfl, rfl, ?_, rfl⟩⟩
    rw [HoldsBody, if_neg h0]
    exact ⟨block, rfl, hl.trans hv⟩

/-- The length bytes of a packet are taken back exactly when there are at most three of them (and
    nothing is left of an earlier body that an empty one would have to clear). -/
theorem remainingLength_roundTrip {n : Nat} (hn : n ≤ maxRemainingLength) (type : ControlPacketType) (flags : UInt8)
    {ms : Mallocs} (hm : Succeed ms) {c : CodecInstance} (hc : c.remainLenIndex = 0) :
    (∀ body : List UInt8, body.length = n → (constructFixedHeader (Buffer.ofBytes body) type flags ms).2.1.bytes =
      (type.value ||| flags) :: (remainSize n ++ body)) ∧
    (1 ≤ (remainSize n).length ∧ (remainSize n).length ≤ 4) ∧
    (TakesLength n (giveLength (remainSize n) c ms) ↔ n ≤ 2097151 ∧ (n = 0 → c.headerData = none)) := by
  refine ⟨?_, ⟨?_, ?_⟩, ?_, ?_⟩
  · intro body hb
    have hlt : body.length < 2 ^ 28 := by simp only [maxRemainingLength] at hn; omega
    obtain ⟨ms', h, -⟩ := constructFixedHeader_succeed hm hlt type flags
    rw [h, Buffer.bytes_ofBytes, remainSize_eq, hb]
  · rw [remainSize_eq]
    exact List.length_pos_iff.mpr (Base128.encode_ne_nil n)
  · rw [remainSize_eq]
    exact Base128.length_encode_le (by simp only [maxRemainingLength] at hn; omega)
  · intro ht
    by_cases h : n ≤ 2097151
    · exact ⟨h, (threeByteLength_taken h hc hm).mp ht⟩
    · exact absurd ht (fourByteLength_refused hn (by omega) hc ms)
  · intro h
    exact (threeByteLength_taken h.1 hc hm).mpr h.2

/-- A freshly created codec takes 2097151 back. -/
theorem remainingLength_roundTrip_create :
    (∀ body : List UInt8, body.length = 2097151 →
      (constructFixedHeader (Buffer.ofBytes body) .publish 0 []).2.1.bytes =
        (ControlPacketType.publish.value ||| 0) :: (remainSize 2097151 ++ body)) ∧
    (1 ≤ (remainSize 2097151).length ∧ (remainSize 2097151).length ≤ 4) ∧
    (TakesLength 2097151 (giveLength (remainSize 2097151) create []) ↔
      2097151 ≤ 2097151 ∧ (2097151 = 0 → create.headerData = none)) :=
  remainingLength_roundTrip (by decide) .publish 0 succeed_nil rfl

/-- One more, and it is refused. -/
theorem remainingLength_breaks :
    2097152 ≤ maxRemainingLength ∧ Succeed [] ∧ create.remainLenIndex = 0 ∧
      ¬ TakesLength 2097152 (giveLength (remainSize 2097152) create []) :=
  ⟨by decide, succeed_nil, rfl, fourByteLength_refused (by decide) (by decide) rfl []⟩

end UMqtt.Codec

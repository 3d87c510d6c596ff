/-
  UMqtt.Codec.PublishSize — the size of a PUBLISH against the numbers it is kept in.

  `mqtt_codec_publish` takes payloads up to `MAX_SEND_SIZE`, 0xFFFFFF7F bytes, and the topic
  is checked on its own. The sum goes into a `size_t` that `BUFFER_enlarge` does not check, and
  its base-128 digits into `remainSize[4]`. So a packet fits exactly when its body has at most
  268435455 bytes, four digits (`publish_fits_iff`), and a packet that is returned has been
  written inside its blocks exactly then; a longer one writes behind the array, and one of 2^32
  bytes or more wraps before it gets there (`largePublish_wraps`).
-/

import UMqtt.Codec.AllOrNothing
import UMqtt.Wire.Frames

namespace UMqtt.Codec

open UMqtt.Lib UMqtt.Crt UMqtt.Wire

/-! ## The steps of a PUBLISH -/

/-- What `constructPublishVariableHeader` enlarges the packet by. -/
def publishHeaderLen (qosValue : QosValue) (topicName : CString) : Nat :=
  topicName.strlen + (if qosValue ≠ .deliverAtMostOnce then 2 else 0) + 2

/-- The variable header is built and this is the packet. -/
def Headed (qosValue : QosValue) (packetId : UInt16) (topicName : CString) (ms : Mallocs) (b : Buffer) (ms' : Mallocs) :
    Prop :=
  ∃ r ms1, Buffer.new ms = (some r, ms1) ∧ constructPublishVariableHeader r ⟨topicName, packetId, qosValue⟩ ms1 = (0, b, ms')

/-- The payload is behind the header and this is the packet. -/
def Loaded (qosValue : QosValue) (packetId : UInt16) (topicName : CString) (msgBuffer : List UInt8) (ms : Mallocs)
    (b : Buffer) (ms' : Mallocs) : Prop :=
  ∃ b1 ms1, Headed qosValue packetId topicName ms b1 ms1 ∧ appendPayload b1 msgBuffer ms1 = (0, b, ms')

/-- No sum of `BUFFER_enlarge` wraps, and the length bytes are inside `remainSize`. -/
structure SizesFit (qosValue : QosValue) (packetId : UInt16) (topicName : CString) (msgBuffer : List UInt8) (ms : Mallocs) :
    Prop where
  header : ∀ r ms1, Buffer.new ms = (some r, ms1) → r.size + publishHeaderLen qosValue topicName < 2 ^ 32
  payload : ∀ b ms1, Headed qosValue packetId topicName ms b ms1 → b.size + msgBuffer.length < 2 ^ 32
  lengthBytes : ∀ b ms1, Loaded qosValue packetId topicName msgBuffer ms b ms1 →
    (remainSize (Buffer.length (some b))).length ≤ 4

/-- A packet that is returned went through these steps. -/
theorem mqttCodecPublish_loaded {qosValue : QosValue} {duplicateMsg serverRetain : Bool} {packetId : UInt16}
    {topicName : CString} {msgBuffer : List UInt8} {ms ms' : Mallocs} {p : Buffer}
    (h : mqttCodecPublish qosValue duplicateMsg serverRetain packetId (some topicName) msgBuffer ms = (some p, ms')) :
    ∃ b ms1, Loaded qosValue packetId topicName msgBuffer ms b ms1 ∧
      finish b .publish (publishFlags qosValue duplicateMsg serverRetain) ms1 = (some p, ms') := by
  simp only [mqttCodecPublish] at h
  split at h
  · cases h
  · split at h
    · cases h
    · rename_i r ms1 hn
      split at h
      · rename_i b1 ms2 hv
        split at h
        · rename_i b ms3 hp
          exact ⟨b, ms3, ⟨b1, ms2, ⟨r, ms1, hn, hv⟩, hp⟩, h⟩
        · cases h
      · cases h

/-! ## What each step makes of the size -/

theorem enlarge_size {b b' : Buffer} {n : Nat} {ms ms' : Mallocs} (h : b.enlarge n ms = (0, b', ms')) :
    b'.size = sizeT (b.size + n) := by
  unfold Buffer.enlarge at h
  split at h
  · cases h
  · split at h
    · cases h
    · cases h; rfl

theorem memcpy_size (c : Cursor) (bs : List UInt8) : (c.memcpy bs).buffer.size = c.buffer.size :=
  Buffer.write_size ..

theorem writeInt_size (c : Cursor) (value : UInt16) : (c.byteutilWriteInt value).buffer.size = c.buffer.size := by
  rw [Cursor.byteutilWriteInt, Cursor.byteutilWriteByte, memcpy_size, Cursor.byteutilWriteByte, memcpy_size]

theorem writeUTF_size (c : Cursor) (bs : List UInt8) : (c.byteutilWriteUTF bs).buffer.size = c.buffer.size := by
  rw [Cursor.byteutilWriteUTF, memcpy_size, writeInt_size]

theorem constructPublishVariableHeader_size {r b : Buffer} {qosValue : QosValue} {packetId : UInt16} {topicName : CString}
    {ms ms' : Mallocs} (h : constructPublishVariableHeader r ⟨topicName, packetId, qosValue⟩ ms = (0, b, ms')) :
    b.size = sizeT (r.size + publishHeaderLen qosValue topicName) := by
  simp only [constructPublishVariableHeader] at h
  split at h
  · cases h
  · split at h
    · rename_i r' ms1 he
      have hsize := enlarge_size he
      split at h
      · cases h
      · cases h
        by_cases hid : 0 < if qosValue ≠ .deliverAtMostOnce then 2 else 0
        · rw [if_pos hid, writeInt_size, writeUTF_size, hsize, publishHeaderLen]
        · rw [if_neg hid, writeUTF_size, hsize, publishHeaderLen]
    · cases h

theorem appendPayload_size {b b' : Buffer} {msgBuffer : List UInt8} {ms ms' : Mallocs}
    (h : appendPayload b msgBuffer ms = (0, b', ms')) (hb : b.size + msgBuffer.length < 2 ^ 32) :
    b'.size = b.size + msgBuffer.length := by
  unfold appendPayload at h
  split at h
  · split at h
    · rename_i b1 ms1 he
      have hsize := enlarge_size he
      split at h
      · cases h
      · cases h
        rw [memcpy_size, hsize, sizeT_of_lt hb]
    · cases h
  · cases h; omega

theorem headed_size {qosValue : QosValue} {packetId : UInt16} {topicName : CString} (ht : topicName.strlen ≤ ushrtMax)
    {ms ms' : Mallocs} {b : Buffer} (h : Headed qosValue packetId topicName ms b ms') :
    b.size = publishHeaderLen qosValue topicName := by
  obtain ⟨r, ms1, hn, hv⟩ := h
  have hfit : publishHeaderLen qosValue topicName < 2 ^ 32 := by
    simp only [publishHeaderLen, ushrtMax] at ht ⊢
    split <;> omega
  rw [constructPublishVariableHeader_size hv, Buffer.new_some hn, Nat.zero_add, sizeT_of_lt hfit]

theorem loaded_size {qosValue : QosValue} {packetId : UInt16} {topicName : CString} {msgBuffer : List UInt8}
    (ht : topicName.strlen ≤ ushrtMax) {ms ms' : Mallocs} {b : Buffer}
    (hb : publishHeaderLen qosValue topicName + msgBuffer.length < 2 ^ 32)
    (h : Loaded qosValue packetId topicName msgBuffer ms b ms') :
    b.size = publishHeaderLen qosValue topicName + msgBuffer.length := by
  obtain ⟨b1, ms1, hv, hp⟩ := h
  have hsize := headed_size ht hv
  rw [appendPayload_size hp (by omega), hsize]

/-! ## Four digits -/

/-- The digits of a number as large as that take a fifth byte. -/
theorem remainSize_le_four (n : Nat) : (remainSize n).length ≤ 4 ↔ n ≤ maxRemainingLength := by
  rw [remainSize_eq]
  refine ⟨fun h => ?_, fun h => ?_⟩
  · obtain ⟨init, last, he, -, -, hv⟩ := Base128.encode_shape n
    rw [he] at h
    have hlt := Base128.value_lt (init ++ [last])
    rw [hv] at hlt
    have hpow : 128 ^ (init ++ [last]).length ≤ 128 ^ 4 := Nat.pow_le_pow_right (by decide) h
    simp only [maxRemainingLength]
    omega
  · apply Base128.length_encode_le
    simp only [maxRemainingLength] at h
    omega

theorem headed_exists {topicName : CString} (ht : topicName.strlen ≤ ushrtMax) (qosValue : QosValue) (packetId : UInt16)
    {ms : Mallocs} (hm : Succeed ms) :
    ∃ ms', Headed qosValue packetId topicName ms (Buffer.ofBytes (publishBody qosValue packetId topicName [])) ms' ∧
      Succeed ms' := by
  obtain ⟨ms1, h1, hs1⟩ := Buffer.new_succeed hm
  obtain ⟨ms2, h2, hs2⟩ := constructPublishVariableHeader_succeed hs1 ht packetId qosValue
  exact ⟨ms2, ⟨_, ms1, h1, h2⟩, hs2⟩

theorem loaded_exists {topicName : CString} (ht : topicName.strlen ≤ ushrtMax) (qosValue : QosValue) (packetId : UInt16)
    {msgBuffer : List UInt8} (hb : publishHeaderLen qosValue topicName + msgBuffer.length < 2 ^ 32) {ms : Mallocs}
    (hm : Succeed ms) : ∃ b ms', Loaded qosValue packetId topicName msgBuffer ms b ms' := by
  obtain ⟨ms1, h1, hs1⟩ := headed_exists ht qosValue packetId hm
  have hsize := headed_size ht h1
  obtain ⟨ms2, h2, -⟩ := appendPayload_succeed hs1 (publishBody qosValue packetId topicName []) msgBuffer
    (show (Buffer.ofBytes (publishBody qosValue packetId topicName [])).size + msgBuffer.length < 2 ^ 32 by omega)
  exact ⟨_, ms2, _, ms1, h1, h2⟩

/-! ## The sizes that fit -/

theorem sizesFit {topicName : CString} (ht : topicName.strlen ≤ ushrtMax) (qosValue : QosValue) (packetId : UInt16)
    {msgBuffer : List UInt8} (hfit : publishHeaderLen qosValue topicName + msgBuffer.length ≤ maxRemainingLength)
    (ms : Mallocs) : SizesFit qosValue packetId topicName msgBuffer ms := by
  have hlt : publishHeaderLen qosValue topicName + msgBuffer.length < 2 ^ 32 := by
    simp only [maxRemainingLength] at hfit
    omega
  refine ⟨?_, ?_, ?_⟩
  · intro r ms1 hn
    rw [Buffer.new_some hn]
    show 0 + publishHeaderLen qosValue topicName < 2 ^ 32
    omega
  · intro b ms1 hv
    rw [headed_size ht hv]
    exact hlt
  · intro b ms1 hl
    rw [remainSize_le_four]
    show b.size ≤ maxRemainingLength
    rw [loaded_size ht hlt hl]
    exact hfit

/-- With the allocations succeeding, a larger packet wraps or takes a fifth length byte. -/
theorem SizesFit.bound {topicName : CString} (ht : topicName.strlen ≤ ushrtMax) {qosValue : QosValue} {packetId : UInt16}
    {msgBuffer : List UInt8} {ms : Mallocs} (hm : Succeed ms) (h : SizesFit qosValue packetId topicName msgBuffer ms) :
    publishHeaderLen qosValue topicName + msgBuffer.length ≤ maxRemainingLength := by
  obtain ⟨ms1, hv, -⟩ := headed_exists ht qosValue packetId hm
  have hlt := h.payload _ _ hv
  rw [headed_size ht hv] at hlt
  obtain ⟨b, ms2, hl⟩ := loaded_exists ht qosValue packetId hlt hm
  have hdigits := (remainSize_le_four _).mp (h.lengthBytes b ms2 hl)
  rw [← loaded_size ht hlt hl]
  exact hdigits

/-! ## The packet that is returned -/

theorem write_overflow {b : Buffer} {block bs : List UInt8} {offset : Nat} (hb : b.buffer = some block)
    (h : block.length < offset + bs.length) : (b.write offset bs).overflow = true := by
  unfold Buffer.write
  rw [hb]
  simp only [if_neg (Nat.not_le.mpr h)]

theorem prepend_overflow (b1 b2 : Buffer) (ms : Mallocs) : (b1.prepend b2 ms).2.1.overflow = b1.overflow := by
  unfold Buffer.prepend
  split
  · split
    · rfl
    · split <;> rfl
  · rfl

theorem finish_overflow {ctrlPacket p : Buffer} {type : ControlPacketType} {flags : UInt8} {ms ms' : Mallocs}
    (h : finish ctrlPacket type flags ms = (some p, ms')) :
    p.overflow = true ↔ ctrlPacket.overflow = true ∨ 4 < (remainSize ctrlPacket.size).length := by
  have hp : p = (constructFixedHeader ctrlPacket type flags ms).2.1 := by
    unfold finish at h
    simp only [Prod.mk.injEq, ite_eq_iff, Option.some.injEq, reduceCtorEq, and_false, or_false] at h
    exact h.1.2.symm
  have hbuffer : p.overflow = (if 4 < (remainSize ctrlPacket.size).length then { ctrlPacket with overflow := true }
      else ctrlPacket).overflow := by
    rw [hp]
    simp only [constructFixedHeader, Buffer.length]
    split
    · rfl
    · split
      · exact prepend_overflow _ _ _
      · rfl
  rw [hbuffer]
  split
  · rename_i hlong
    exact iff_of_true rfl (Or.inr hlong)
  · rename_i hlong
    exact (or_iff_left hlong).symm

/-- The block is as long as the sum that wrapped, and the payload goes where it should have gone. -/
theorem appendPayload_wraps {b b' : Buffer} {msgBuffer : List UInt8} {ms ms' : Mallocs}
    (h : appendPayload b msgBuffer ms = (0, b', ms')) (hb : b.size < 2 ^ 32) (hwrap : 2 ^ 32 ≤ b.size + msgBuffer.length) :
    b'.overflow = true := by
  simp only [appendPayload, if_pos (show 0 < msgBuffer.length by omega)] at h
  split at h
  · rename_i b1 ms1 he
    split at h
    · cases h
    · cases h
      unfold Buffer.enlarge at he
      split at he
      · cases he
      · split at he
        · cases he
        · rename_i temp ms2 hr
          cases he
          have htemp : temp.length < 2 ^ 32 := by
            rw [realloc_length hr]
            exact Nat.mod_lt _ (by decide)
          have hfit : temp.length < b.size + msgBuffer.length := by omega
          exact write_overflow rfl hfit
  · cases h

/-- A packet that is too large for its length bytes was written past a block. -/
theorem mqttCodecPublish_overflow {qosValue : QosValue} {duplicateMsg serverRetain : Bool} {packetId : UInt16}
    {topicName : CString} (ht : topicName.strlen ≤ ushrtMax) {msgBuffer : List UInt8} {ms ms' : Mallocs} {p : Buffer}
    (h : mqttCodecPublish qosValue duplicateMsg serverRetain packetId (some topicName) msgBuffer ms = (some p, ms'))
    (hlarge : maxRemainingLength < publishHeaderLen qosValue topicName + msgBuffer.length) : p.overflow = true := by
  obtain ⟨b, ms1, hl, hf⟩ := mqttCodecPublish_loaded h
  rw [finish_overflow hf]
  by_cases hwrap : 2 ^ 32 ≤ publishHeaderLen qosValue topicName + msgBuffer.length
  · obtain ⟨b1, ms2, hv, hp⟩ := hl
    have hsize := headed_size ht hv
    refine Or.inl (appendPayload_wraps hp ?_ (by omega))
    simp only [hsize, publishHeaderLen, ushrtMax] at ht ⊢
    split <;> omega
  · right
    rw [loaded_size ht (by omega) hl]
    by_contra hfour
    have hle := (remainSize_le_four _).mp (Nat.not_lt.mp hfour)
    omega

theorem length_publishBody (qosValue : QosValue) (packetId : UInt16) (topicName : CString) (msgBuffer : List UInt8) :
    (publishBody qosValue packetId topicName msgBuffer).length = publishHeaderLen qosValue topicName + msgBuffer.length := by
  unfold publishBody publishHeaderLen
  simp only [List.length_append, length_utf]
  have hstrlen : topicName.strlen = topicName.bytes.length := rfl
  split
  · rw [show (be16 packetId).length = 2 from rfl]
    omega
  · rw [List.length_nil]
    omega

theorem mqttCodecPublish_inside {qosValue : QosValue} {duplicateMsg serverRetain : Bool} {packetId : UInt16}
    {topicName : CString} (ht : topicName.strlen ≤ ushrtMax) {msgBuffer : List UInt8} {ms ms' : Mallocs} {p : Buffer}
    (h : mqttCodecPublish qosValue duplicateMsg serverRetain packetId (some topicName) msgBuffer ms = (some p, ms'))
    (hfit : publishHeaderLen qosValue topicName + msgBuffer.length ≤ maxRemainingLength) : p.overflow = false := by
  have hbody : (publishBody qosValue packetId topicName msgBuffer).length < 2 ^ 28 := by
    rw [length_publishBody]
    simp only [maxRemainingLength] at hfit
    omega
  have hdraws := mqttCodecPublish_draws qosValue duplicateMsg serverRetain packetId ht msgBuffer hbody
  by_cases hall : ∀ a ∈ ms.take (if msgBuffer = [] then 5 else 6), Granted a
  · obtain ⟨_, hreturned, rfl⟩ := hdraws.granted hall
    obtain rfl := Option.some.inj (congrArg Prod.fst (h.symm.trans hreturned))
    rfl
  · have hnone := hdraws.refused hall
    rw [h] at hnone
    cases hnone

theorem prepend_accepts {b1 b2 : Buffer} {x y : List UInt8} {ms : Mallocs} (hm : Succeed ms) (hx : b1.buffer = some x)
    (hy : b2.buffer = some y) : (b1.prepend b2 ms).1 = 0 := by
  obtain ⟨block, ms', h, -, -⟩ := malloc_succeed hm (sizeT (b1.size + b2.size))
  unfold Buffer.prepend
  simp only [hx, hy, h]
  split <;> rfl

/-- With the allocations succeeding, what is built is returned, however long. -/
theorem finish_accepts {ms : Mallocs} (hm : Succeed ms) (body : List UInt8) (type : ControlPacketType) (flags : UInt8) :
    ∃ p ms', finish (Buffer.ofBytes body) type flags ms = (some p, ms') := by
  obtain ⟨ms1, hn, h1⟩ := Buffer.new_succeed hm
  obtain ⟨bytes, hbytes⟩ : ∃ bytes, bytes = remainSize (Buffer.length (some (Buffer.ofBytes body))) := ⟨_, rfl⟩
  obtain ⟨block, ms2, hp, hbl, h2⟩ := Buffer.preBuild_succeed h1 (n := bytes.length + 1) (by omega)
  have hc := ((Cursor.At.start block).byte (by omega) (type.value ||| flags)).memcpy bytes (by omega)
  rw [show block.length - 1 - bytes.length = 0 by omega] at hc
  have hzero : (constructFixedHeader (Buffer.ofBytes body) type flags ms).1 = 0 := by
    simp only [constructFixedHeader, ← hbytes, hn, hp, hc.done]
    refine prepend_accepts h2 (x := body) ?_ rfl
    split <;> rfl
  exact ⟨_, (constructFixedHeader (Buffer.ofBytes body) type flags ms).2.2, by simp only [finish, hzero, if_true]; rfl⟩

theorem mqttCodecPublish_accepts {ms : Mallocs} (hm : Succeed ms) (qosValue : QosValue) (duplicateMsg serverRetain : Bool)
    (packetId : UInt16) {topicName : CString} (ht : topicName.strlen ≤ ushrtMax) (msgBuffer : List UInt8)
    (hmax : msgBuffer.length ≤ maxSendSize) (hb : publishHeaderLen qosValue topicName + msgBuffer.length < 2 ^ 32) :
    ∃ p ms', mqttCodecPublish qosValue duplicateMsg serverRetain packetId (some topicName) msgBuffer ms = (some p, ms') := by
  obtain ⟨ms1, h1, hs1⟩ := Buffer.new_succeed hm
  obtain ⟨ms2, h2, hs2⟩ := constructPublishVariableHeader_succeed hs1 ht packetId qosValue
  have hlength := length_publishBody qosValue packetId topicName []
  rw [List.length_nil, Nat.add_zero] at hlength
  obtain ⟨ms3, h3, hs3⟩ := appendPayload_succeed hs2 (publishBody qosValue packetId topicName []) msgBuffer
    (by rw [hlength]; exact hb)
  obtain ⟨p, ms4, h4⟩ := finish_accepts hs3 (publishBody qosValue packetId topicName [] ++ msgBuffer) .publish
    (publishFlags qosValue duplicateMsg serverRetain)
  exact ⟨p, ms4, by simp only [mqttCodecPublish, if_neg (Nat.not_lt.mpr hmax), h1, h2, h3, h4]⟩

/-- Every packet that is accepted fits, whatever the allocator answers, exactly up to the length
    that four base-128 digits write; and what is returned was written inside its blocks just then. -/
theorem publish_fits_iff {topicName : CString} (ht : topicName.strlen ≤ ushrtMax) (msgBuffer : List UInt8)
    (qosValue : QosValue) (packetId : UInt16) :
    ((∀ ms, SizesFit qosValue packetId topicName msgBuffer ms) ↔
      publishHeaderLen qosValue topicName + msgBuffer.length ≤ maxRemainingLength) ∧
    ∀ duplicateMsg serverRetain ms ms' p,
      mqttCodecPublish qosValue duplicateMsg serverRetain packetId (some topicName) msgBuffer ms = (some p, ms') →
        (p.overflow = false ↔ publishHeaderLen qosValue topicName + msgBuffer.length ≤ maxRemainingLength) := by
  refine ⟨⟨fun h => (h []).bound ht succeed_nil, fun h ms => sizesFit ht qosValue packetId h ms⟩, ?_⟩
  intro duplicateMsg serverRetain ms ms' p h
  refine ⟨fun hinside => ?_, mqttCodecPublish_inside ht h⟩
  by_contra hlarge
  have hoverflow := mqttCodecPublish_overflow ht h (by omega)
  exact absurd (hinside.symm.trans hoverflow) nofun

/-- A lamp turned on at QoS 1. -/
theorem lamp_fits :
    ((∀ ms, SizesFit .deliverAtLeastOnce 7 lamp [0x6f, 0x6e] ms) ↔
      publishHeaderLen .deliverAtLeastOnce lamp + 2 ≤ 268435455) ∧
    ∃ p ms', mqttCodecPublish .deliverAtLeastOnce false false 7 (some lamp) [0x6f, 0x6e] [] = (some p, ms') ∧
      p.overflow = false := by
  have hfits := publish_fits_iff (by decide : lamp.strlen ≤ ushrtMax) [0x6f, 0x6e] .deliverAtLeastOnce 7
  refine ⟨hfits.1, ?_⟩
  obtain ⟨ms', h, -⟩ := mqttCodecPublish_succeed succeed_nil .deliverAtLeastOnce false false 7
    (by decide : lamp.strlen ≤ ushrtMax) [0x6f, 0x6e] (by decide)
  exact ⟨_, ms', h, (hfits.2 false false [] ms' _ h).mpr (by decide)⟩

def wideTopic : CString := ⟨List.replicate 127 0x74, fun h => absurd (List.eq_of_mem_replicate h) (by decide)⟩

theorem length_wideTopic : wideTopic.strlen = 127 := List.length_replicate

/-- Both payloads pass the check of `mqtt_codec_publish`. The first packet is returned, with a fifth
    length byte written behind the array; the second has 2^32 bytes, and `BUFFER_enlarge` asks for a
    block of none. -/
theorem largePublish_wraps :
    (268435450 ≤ maxSendSize ∧ (∃ ms, ¬ SizesFit .deliverAtMostOnce 0 lamp (List.replicate 268435450 0) ms) ∧
      ∃ p ms', mqttCodecPublish .deliverAtMostOnce false false 0 (some lamp) (List.replicate 268435450 0) [] =
        (some p, ms') ∧ p.overflow = true) ∧
    (∃ b ms', Headed .deliverAtMostOnce 0 wideTopic [] b ms' ∧ sizeT (b.size + maxSendSize) = 0) := by
  have hlength : (List.replicate 268435450 (0 : UInt8)).length = 268435450 := List.length_replicate
  refine ⟨⟨by decide, ⟨[], fun h => ?_⟩, ?_⟩, ?_⟩
  · have hbound := h.bound (by decide) succeed_nil
    rw [hlength] at hbound
    exact absurd hbound (by decide)
  · obtain ⟨p, ms', h⟩ := mqttCodecPublish_accepts succeed_nil .deliverAtMostOnce false false 0
      (by decide : lamp.strlen ≤ ushrtMax) (List.replicate 268435450 0) (by rw [hlength]; decide)
      (by rw [hlength]; decide)
    exact ⟨p, ms', h, mqttCodecPublish_overflow (by decide) h (by rw [hlength]; decide)⟩
  · have ht : wideTopic.strlen ≤ ushrtMax := by
      rw [length_wideTopic]
      decide
    obtain ⟨ms', hv, -⟩ := headed_exists ht .deliverAtMostOnce 0 succeed_nil
    refine ⟨_, ms', hv, ?_⟩
    rw [headed_size ht hv, publishHeaderLen, length_wideTopic]
    rfl

end UMqtt.Codec

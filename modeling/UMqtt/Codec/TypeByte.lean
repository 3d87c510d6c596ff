/-
  UMqtt.Codec.TypeByte — every packet that is built starts with its type and its flags,
  whatever the allocator answers.

  So no other packet passes for a CONNECT (`IsConnect`), and a CONNECT that is built is one
  (`mqttCodecConnect_isConnect`).
-/

import UMqtt.Codec.Payload

namespace UMqtt.Codec

open UMqtt.Lib UMqtt.Crt

def Starts (b : UInt8) (packet : List UInt8) : Prop := ∀ first ∈ packet.head?, first = b

def IsConnect (packet : List UInt8) : Prop := packet.head? = some ControlPacketType.connect.value

instance : DecidablePred IsConnect := fun packet => inferInstanceAs (Decidable (packet.head? = _))

theorem Starts.not_connect {b : UInt8} {packet : List UInt8} (h : Starts b packet) (hb : b ≠ ControlPacketType.connect.value) :
    ¬ IsConnect packet := fun hc => hb (h _ hc).symm

/-! ## The fixed header -/

/-- What `BUFFER_prepend` leaves behind when it succeeds. -/
theorem prepend_zero {b1 b2 b : Buffer} {ms ms' : Mallocs} (h : b1.prepend b2 ms = (0, b, ms')) (hsize : b2.size ≠ 0) :
    ∃ x1 x2, b1.buffer = some x1 ∧ b2.buffer = some x2 ∧
      b = { b1 with buffer := some (x2.take b2.size ++ x1.take b1.size), size := sizeT (b1.size + b2.size) } := by
  unfold Buffer.prepend at h
  cases h1 : b1.buffer with
  | none =>
    rw [h1] at h
    exact absurd (congrArg Prod.fst h) Nat.one_ne_zero
  | some x1 =>
    cases h2 : b2.buffer with
    | none =>
      rw [h1, h2] at h
      exact absurd (congrArg Prod.fst h) Nat.one_ne_zero
    | some x2 =>
      simp only [h1, h2, if_neg hsize] at h
      rcases hm : malloc (sizeT (b1.size + b2.size)) ms with ⟨_ | block, ms1⟩
      · rw [hm] at h
        exact absurd (congrArg Prod.fst h) Nat.one_ne_zero
      · rw [hm] at h
        exact ⟨x1, x2, rfl, rfl, (congrArg (fun r => r.2.1) h).symm⟩

/-- A packet that is finished is its header in front of what there was. -/
theorem finish_some {ctrlPacket packet : Buffer} {type : ControlPacketType} {flags : UInt8} {ms ms' : Mallocs}
    (h : finish ctrlPacket type flags ms = (some packet, ms')) :
    ∃ rest, packet.buffer = some ((type.value ||| flags) :: rest) ∧
      packet.size = sizeT (ctrlPacket.size + ((remainSize ctrlPacket.size).length + 1)) := by
  unfold finish at h
  simp only [Prod.mk.injEq, ite_eq_iff, Option.some.injEq, reduceCtorEq, and_false, or_false] at h
  obtain ⟨⟨hzero, hpacket⟩, -⟩ := h
  unfold constructFixedHeader at hzero hpacket
  obtain ⟨n, hsize⟩ : ∃ n, n = Buffer.length (some ctrlPacket) := ⟨_, rfl⟩
  rw [← hsize] at hzero hpacket
  obtain ⟨b1, hb1⟩ : ∃ b1, b1 = (if 4 < (remainSize n).length then { ctrlPacket with overflow := true }
      else ctrlPacket) := ⟨_, rfl⟩
  have hsize1 : b1.size = n := by rw [hb1, hsize]; split <;> rfl
  simp only [← hb1] at hzero hpacket
  rw [show ctrlPacket.size = n from hsize.symm]
  rcases hn : Buffer.new ms with ⟨_ | fresh, ms1⟩
  · rw [hn] at hzero
    exact absurd hzero Nat.one_ne_zero
  · obtain rfl := Buffer.new_some hn
    rcases malloc_cases ((remainSize n).length + 1) ms1 with ⟨-, hm⟩ | ⟨-, block, hm, hl⟩
    · have hp : Buffer.preBuild ⟨none, 0, false⟩ ((remainSize n).length + 1) ms1 =
          (Crt.failure, ⟨none, 0, false⟩, ms1.tail) := by simp [Buffer.preBuild, hm]
      simp only [hn, hp, Crt.failure] at hzero
      exact absurd hzero Nat.one_ne_zero
    · have hp : Buffer.preBuild ⟨none, 0, false⟩ ((remainSize n).length + 1) ms1 =
          (0, Buffer.ofBytes block, ms1.tail) := by simp [Buffer.preBuild, hm, Buffer.ofBytes, hl]
      have hc := ((Cursor.At.start block).byte (by omega) (type.value ||| flags)).memcpy (remainSize n)
        (by omega)
      rw [show block.length - 1 - (remainSize n).length = 0 by omega] at hc
      simp only [hn, hp, hc.done] at hzero hpacket
      obtain ⟨x1, x2, -, h2, hb⟩ := prepend_zero (Prod.ext hzero rfl) (by simp [Buffer.ofBytes])
      rw [hpacket] at hb
      obtain rfl := Option.some.inj h2
      rw [hb]
      exact ⟨_, rfl, by simp [Buffer.ofBytes, hsize1]⟩

/-- What a caller reads of a block starts as the block does. -/
theorem bytes_starts {b : UInt8} {packet : Buffer} {rest : List UInt8} (h : packet.buffer = some (b :: rest)) :
    Starts b packet.bytes := by
  intro first hf
  unfold Buffer.bytes Buffer.uChar at hf
  by_cases hs : packet.size = 0
  · simp [hs] at hf
  · simp only [hs, if_false, h, Option.getD_some, Option.mem_def] at hf
    cases hn : packet.size with
    | zero => exact absurd hn hs
    | succ n =>
      rw [hn, List.take_succ_cons, List.head?_cons] at hf
      exact (Option.some.inj hf).symm

theorem finish_starts {ctrlPacket packet : Buffer} {type : ControlPacketType} {flags : UInt8} {ms ms' : Mallocs}
    (h : finish ctrlPacket type flags ms = (some packet, ms')) : Starts (type.value ||| flags) packet.bytes := by
  obtain ⟨rest, hb, -⟩ := finish_some h
  exact bytes_starts hb

/-! ## The packets of the client -/

theorem publishFlags_ne (qosValue : QosValue) (duplicateMsg serverRetain : Bool) :
    ControlPacketType.publish.value ||| publishFlags qosValue duplicateMsg serverRetain ≠ ControlPacketType.connect.value := by
  unfold publishFlags
  repeat' split
  all_goals decide

theorem mqttCodecPublish_not_connect {qosValue : QosValue} {duplicateMsg serverRetain : Bool} {packetId : UInt16}
    {topicName : Option CString} {msgBuffer : List UInt8} {ms ms' : Mallocs} {packet : Buffer}
    (h : mqttCodecPublish qosValue duplicateMsg serverRetain packetId topicName msgBuffer ms = (some packet, ms')) :
    ¬ IsConnect packet.bytes := by
  unfold mqttCodecPublish at h
  repeat' split at h
  all_goals first
    | exact (finish_starts h).not_connect (publishFlags_ne _ _ _)
    | cases h

theorem constructTopicPacket_not_connect {type : ControlPacketType} (ht : type.value ||| 2 ≠ ControlPacketType.connect.value)
    {packetId : UInt16} {addItems : Buffer → Mallocs → Nat × Buffer × Mallocs} {ms ms' : Mallocs} {packet : Buffer}
    (h : constructTopicPacket type packetId addItems ms = (some packet, ms')) : ¬ IsConnect packet.bytes := by
  unfold constructTopicPacket at h
  repeat' split at h
  all_goals first
    | exact (finish_starts h).not_connect ht
    | cases h

theorem mqttCodecSubscribe_not_connect {packetId : UInt16} {subscribeList : List SubscribePayload} {ms ms' : Mallocs}
    {packet : Buffer} (h : mqttCodecSubscribe packetId subscribeList ms = (some packet, ms')) : ¬ IsConnect packet.bytes := by
  unfold mqttCodecSubscribe at h
  split at h
  · cases h
  · exact constructTopicPacket_not_connect (by decide) h

theorem mqttCodecUnsubscribe_not_connect {packetId : UInt16} {unsubscribeList : List CString} {ms ms' : Mallocs}
    {packet : Buffer} (h : mqttCodecUnsubscribe packetId unsubscribeList ms = (some packet, ms')) :
    ¬ IsConnect packet.bytes := by
  unfold mqttCodecUnsubscribe at h
  split at h
  · cases h
  · exact constructTopicPacket_not_connect (by decide) h

theorem constructHeaderOnly_not_connect {type : ControlPacketType} (ht : type ≠ .connect) {ms ms' : Mallocs}
    {packet : Buffer} (h : constructHeaderOnly type ms = (some packet, ms')) : ¬ IsConnect packet.bytes := by
  rw [constructHeaderOnly_bytes h, IsConnect, List.head?_cons, Option.some.injEq]
  exact fun hv => ht (by cases type <;> first | rfl | (revert hv; decide) | (rename_i high; cases high <;> revert hv <;> decide))

/-- Whatever the allocator answers, a reply that is built is whole. -/
theorem constructPublishReply_bytes {type : ControlPacketType} {flags : UInt8} {packetId : UInt16} {ms ms' : Mallocs}
    {packet : Buffer} (h : constructPublishReply type flags packetId ms = (some packet, ms')) :
    packet.bytes = (type.value ||| flags) :: 2 :: be16 packetId := by
  unfold constructPublishReply at h
  rcases hn : Buffer.new ms with ⟨_ | fresh, ms1⟩
  · simp [hn] at h
  · obtain rfl := Buffer.new_some hn
    rcases malloc_cases 4 ms1 with ⟨-, hm⟩ | ⟨-, block, hm, hl⟩
    · simp [hn, Buffer.preBuild, hm, Crt.failure] at h
    · have hp : Buffer.preBuild ⟨none, 0, false⟩ 4 ms1 = (0, Buffer.ofBytes block, ms1.tail) := by
        simp [Buffer.preBuild, hm, Buffer.ofBytes, hl]
      have hc := (((Cursor.At.start block).byte (by omega) (type.value ||| flags)).byte (by omega) 2).int (by omega) packetId
      rw [show block.length - 1 - 1 - 2 = 0 by omega] at hc
      simp only [hn, hp, uChar_isNone block (by omega), Bool.false_eq_true, if_false, hc.done, Prod.mk.injEq,
        Option.some.injEq] at h
      rw [← h.1, Buffer.bytes_ofBytes]
      rfl

theorem constructPublishReply_not_connect {type : ControlPacketType} {flags : UInt8}
    (ht : type.value ||| flags ≠ ControlPacketType.connect.value) {packetId : UInt16} {ms ms' : Mallocs} {packet : Buffer}
    (h : constructPublishReply type flags packetId ms = (some packet, ms')) : ¬ IsConnect packet.bytes := by
  rw [constructPublishReply_bytes h, IsConnect, List.head?_cons, Option.some.injEq]
  exact ht

/-! ## CONNECT -/

theorem utf_size (c : Cursor) (bs : List UInt8) : (c.byteutilWriteUTF bs).buffer.size = c.buffer.size := by
  simp only [Cursor.byteutilWriteUTF, Cursor.byteutilWriteInt, Cursor.byteutilWriteByte, Cursor.memcpy,
    Buffer.write_size]

theorem orFlag_size (c : Cursor) (flag : UInt8) : (orFlag c flag).buffer.size = c.buffer.size := Buffer.write_size _ _ _

theorem connPayloadCursor_size (ctrlPacket : Buffer) (currLen : Nat) (o : MqttClientOptions) :
    (connPayloadCursor ctrlPacket currLen o).buffer.size = ctrlPacket.size := by
  have hflag : ∀ (b : Bool) (flag : UInt8) (c : Cursor), (if b then orFlag c flag else c).buffer.size = c.buffer.size := by
    intro b flag c
    cases b
    · rfl
    · exact orFlag_size c flag
  have hstring : ∀ (flag : UInt8) (s : Option CString) (c : Cursor),
      (if 0 < optionLen s then (orFlag c flag).byteutilWriteUTF (optionBytes s) else c).buffer.size = c.buffer.size := by
    intro flag s c
    split
    · rw [utf_size, orFlag_size]
    · rfl
  have hwill : ∀ c : Cursor, (if HasWill o then
      let c := (orFlag c 0x04).byteutilWriteUTF (optionBytes o.willTopic)
      let c := orFlag c (o.qualityOfServiceValue.value <<< 3)
      let c := if o.messageRetain then orFlag c 0x20 else c
      c.byteutilWriteUTF (optionBytes o.willMessage)
    else c).buffer.size = c.buffer.size := by
    intro c
    split
    · simp only [utf_size, hflag, orFlag_size]
    · rfl
  unfold connPayloadCursor
  rw [hflag, hstring, hstring, hwill, utf_size]

/-- A packet under construction is not larger than what its strings take. -/
theorem constructConnPayload_size {o : MqttClientOptions} {b : Buffer} {ms ms' : Mallocs}
    (h : constructConnPayload (Buffer.ofBytes (connectHeader 0 o.keepAliveInterval)) o ms = (0, b, ms')) :
    b.size < 2 ^ 20 := by
  obtain ⟨ha, hen⟩ := constructConnPayload_zero (congrArg Prod.fst h)
  have htotal := ha.total
  have hheader : (connectHeader 0 o.keepAliveInterval).length = 10 := rfl
  obtain ⟨fresh, ms'', he, hl⟩ := Buffer.enlarge_zero hen (by omega)
  rw [constructConnPayload_accepted ha he] at h
  obtain ⟨-, rfl, -⟩ : 0 = 0 ∧ _ = b ∧ ms'' = ms' := by simpa only [Prod.mk.injEq] using h
  rw [connPayloadCursor_size]
  simp only [Buffer.ofBytes, List.length_append, hheader]
  omega

/-- Whatever the allocator answers, a CONNECT that is built is one. -/
theorem mqttCodecConnect_isConnect {o : MqttClientOptions} {ms ms' : Mallocs} {packet : Buffer}
    (h : mqttCodecConnect o ms = (some packet, ms')) : IsConnect packet.bytes := by
  unfold mqttCodecConnect at h
  rcases hn : Buffer.new ms with ⟨_ | fresh, ms1⟩
  · simp [hn] at h
  · obtain rfl := Buffer.new_some hn
    rcases hv : constructConnectVariableHeader ⟨none, 0, false⟩ o ms1 with ⟨code, b, ms2⟩
    cases code with
    | succ code => simp [hn, hv] at h
    | zero =>
      obtain rfl := constructConnectVariableHeader_zero hv
      rcases hp : constructConnPayload (Buffer.ofBytes (connectHeader 0 o.keepAliveInterval)) o ms2 with ⟨code, b, ms3⟩
      cases code with
      | succ code => simp [hn, hv, hp] at h
      | zero =>
        simp only [hn, hv, hp] at h
        obtain ⟨rest, hbuffer, hsize⟩ := finish_some h
        have hsmall := constructConnPayload_size hp
        have hdigits : (remainSize b.size).length ≤ 3 + 1 := by
          rw [remainSize_eq]
          exact Base128.length_encode_le (by omega)
        rw [sizeT_of_lt (by omega)] at hsize
        rw [IsConnect, Buffer.bytes, Buffer.uChar, if_neg (by omega), hbuffer, hsize, ← Nat.add_assoc, Option.getD_some,
          List.take_succ_cons]
        rfl

end UMqtt.Codec

/-
  UMqtt.Codec.AllOrNothing — the encoders, whatever the allocator answers.

  Each encoder asks for a number of blocks that its arguments alone decide (`allocations`). If
  all of these are granted it returns the packet, to the last byte; if one is not, it returns
  NULL, whichever it is and whatever the fresh blocks hold (`encode_all_or_nothing`). So nothing
  half-built is ever returned, and nothing that is returned was written past its block.
-/

import UMqtt.Lib.Supply
import UMqtt.Codec.Packets
import UMqtt.Codec.Connect

namespace UMqtt.Codec

open UMqtt.Lib UMqtt.Lib.Supply UMqtt.Crt

/-! ## Requests of the allocator -/

def Granted (a : Option (Nat → UInt8)) : Prop := a ≠ none

theorem granted_iff {ms : Mallocs} : (∀ a ∈ ms, Granted a) ↔ none ∉ ms := by
  constructor
  · intro h hm
    exact h none hm rfl
  · intro h a ha hn
    exact h (hn ▸ ha)

section Malloc

variable {β : Type} {P : β → Prop} {f : Mallocs → Option β × Mallocs} {n : Nat}

/-- A computation that asks for one block and does nothing without it. -/
theorem draws_malloc (n : Nat) (hsome : ∀ {block ms ms'}, malloc n ms = (some block, ms') → block.length = n →
      ∃ b, f ms = (some b, ms') ∧ P b)
    (hnone : ∀ {ms ms'}, malloc n ms = (none, ms') → (f ms).1 = none) : Draws Granted 1 f P := by
  constructor
  · intro ms hall
    rcases malloc_cases n ms with ⟨hd, -⟩ | ⟨-, block, hm, hl⟩
    · cases ms with
      | nil => cases hd
      | cons m ms =>
        have hm : m = none := by simpa [denied] using hd
        exact absurd hm (hall m (by simp))
    · rw [List.drop_one]
      exact hsome hm hl
  · intro ms hnot
    rcases malloc_cases n ms with ⟨-, hm⟩ | ⟨hd, -⟩
    · exact hnone hm
    · refine absurd (fun a ha => ?_) hnot
      cases ms with
      | nil => simp at ha
      | cons m ms =>
        rw [List.take_succ_cons, List.take_zero, List.mem_singleton] at ha
        subst ha
        exact fun hm => hd (by simp [denied, hm])

theorem enlarge_new_draws (hn : 0 < n) (hb : n < 2 ^ 32) :
    Draws Granted 1 (kept (Buffer.enlarge ⟨none, 0, false⟩ n)) (fun b => ∃ fresh, b = Buffer.ofBytes fresh ∧ fresh.length = n) := by
  apply draws_malloc n
  · intro block ms ms' hm hl
    refine ⟨_, kept_some.mpr ?_, block, rfl, hl⟩
    simp [Buffer.enlarge, realloc, show n ≠ 0 by omega, sizeT_of_lt hb, hm, Buffer.ofBytes, hl]
  · intro ms ms' hm
    refine kept_none.mpr ?_
    simp [Buffer.enlarge, realloc, show n ≠ 0 by omega, sizeT_of_lt hb, hm, Crt.failure]

theorem enlarge_draws (bs : List UInt8) (hn : 0 < n) (hb : bs.length + n < 2 ^ 32) :
    Draws Granted 1 (kept (Buffer.enlarge (Buffer.ofBytes bs) n))
      (fun b => ∃ fresh, b = Buffer.ofBytes (bs ++ fresh) ∧ fresh.length = n) := by
  apply draws_malloc (bs.length + n)
  · intro block ms ms' hm hl
    refine ⟨_, kept_some.mpr ?_, block.drop bs.length, rfl, by simp [hl]⟩
    simp [Buffer.enlarge, realloc, show n ≠ 0 by omega, sizeT_of_lt hb, hm, Buffer.ofBytes, hl, List.take_of_length_le]
  · intro ms ms' hm
    refine kept_none.mpr ?_
    simp [Buffer.enlarge, realloc, show n ≠ 0 by omega, sizeT_of_lt hb, hm, Buffer.ofBytes, Crt.failure]

theorem preBuild_draws (hn : 0 < n) :
    Draws Granted 1 (kept (Buffer.preBuild ⟨none, 0, false⟩ n)) (fun b => ∃ block, b = Buffer.ofBytes block ∧ block.length = n) := by
  apply draws_malloc n
  · intro block ms ms' hm hl
    refine ⟨_, kept_some.mpr ?_, block, rfl, hl⟩
    simp [Buffer.preBuild, show n ≠ 0 by omega, hm, Buffer.ofBytes, hl]
  · intro ms ms' hm
    refine kept_none.mpr ?_
    simp [Buffer.preBuild, show n ≠ 0 by omega, hm, Crt.failure]

theorem prepend_draws (xs : List UInt8) {ys : List UInt8} (hy : ys ≠ []) (hb : xs.length + ys.length < 2 ^ 32) :
    Draws Granted 1 (kept ((Buffer.ofBytes xs).prepend (Buffer.ofBytes ys))) (· = Buffer.ofBytes (ys ++ xs)) := by
  apply draws_malloc (xs.length + ys.length)
  · intro block ms ms' hm _
    refine ⟨_, kept_some.mpr ?_, rfl⟩
    simp [Buffer.prepend, Buffer.ofBytes, hy, sizeT_of_lt hb, hm, Nat.add_comm]
  · intro ms ms' hm
    refine kept_none.mpr ?_
    simp [Buffer.prepend, Buffer.ofBytes, hy, sizeT_of_lt hb, hm, Crt.failure]

theorem new_draws : Draws Granted 1 Buffer.new (· = ⟨none, 0, false⟩) := by
  apply draws_malloc 8
  · intro block ms ms' hm _
    exact ⟨_, by simp [Buffer.new, hm], rfl⟩
  · intro ms ms' hm
    simp [Buffer.new, hm]

end Malloc

/-! ## The parts of a packet -/

section Parts

/-- The fixed header asks for a handle, for its own block, and for the block of both. -/
theorem finish_draws {body : List UInt8} (hb : body.length < 2 ^ 28) (type : ControlPacketType) (flags : UInt8) :
    Draws Granted 3 (finish (Buffer.ofBytes body) type flags) (· = Buffer.ofBytes (framed type flags body)) := by
  have hlen : (Base128.encode body.length).length ≤ 3 + 1 := Base128.length_encode_le (by omega)
  have hfit : ¬ 4 < (Base128.encode body.length).length := by omega
  have heq : finish (Buffer.ofBytes body) type flags = andThen Buffer.new fun fixedHeader =>
      andThen (kept (fixedHeader.preBuild ((Base128.encode body.length).length + 1))) fun fixedHeader =>
        kept ((Buffer.ofBytes body).prepend
          (((Cursor.mk fixedHeader 0).byteutilWriteByte (type.value ||| flags)).memcpy
            (Base128.encode body.length)).buffer) := by
    funext ms
    simp only [finish, constructFixedHeader, andThen, kept, Buffer.length_ofBytes, remainSize_eq, if_neg hfit]
    rcases Buffer.new ms with ⟨_ | fixedHeader, ms1⟩
    · rfl
    · simp only
      rcases fixedHeader.preBuild ((Base128.encode body.length).length + 1) ms1 with ⟨_ | code, fixedHeader, ms2⟩ <;> rfl
  rw [heq]
  refine new_draws.andThen (k := 2) fun fixedHeader hn => ?_
  subst hn
  refine (preBuild_draws (by omega)).andThen (k := 1) fun fixedHeader hp => ?_
  obtain ⟨block, rfl, hl⟩ := hp
  have hc := ((Cursor.At.start block).byte (by omega) (type.value ||| flags)).memcpy (Base128.encode body.length) (by omega)
  rw [show block.length - 1 - (Base128.encode body.length).length = 0 by omega] at hc
  rw [hc.done]
  exact prepend_draws body (List.cons_ne_nil _ _) (by simp only [List.nil_append, List.cons_append, List.length_cons]; omega)

theorem constructPublishVariableHeader_draws {topicName : CString} (ht : topicName.strlen ≤ ushrtMax) (packetId : UInt16)
    (qosValue : QosValue) :
    Draws Granted 1 (kept (constructPublishVariableHeader ⟨none, 0, false⟩ ⟨topicName, packetId, qosValue⟩))
      (· = Buffer.ofBytes (publishBody qosValue packetId topicName [])) := by
  have hstrlen : topicName.strlen = topicName.bytes.length := rfl
  have hmax : ushrtMax = 65535 := rfl
  have htop : ¬ ushrtMax < topicName.strlen := by omega
  obtain ⟨idLen, hid⟩ : ∃ idLen, idLen = if qosValue ≠ .deliverAtMostOnce then 2 else 0 := ⟨_, rfl⟩
  have hle : idLen ≤ 2 := by
    rw [hid]
    split <;> omega
  refine (enlarge_new_draws (n := topicName.strlen + idLen + 2) (by omega) (by omega)).through ?_ ?_
  · intro ms he
    simp only [constructPublishVariableHeader, if_neg htop, ← hid]
    exact Nat.one_ne_zero
  · rintro ms b ms' he ⟨fresh, rfl, hl⟩
    have hc := (Cursor.At.start fresh).utf topicName.bytes (by omega)
    refine ⟨_, ?_, rfl⟩
    simp only [constructPublishVariableHeader, if_neg htop, ← hid, he, uChar_isNone fresh (by omega), Bool.false_eq_true, if_false,
      Buffer.length]
    by_cases hq : qosValue = .deliverAtMostOnce
    · rw [if_neg (not_not_intro hq)] at hid
      rw [show fresh.length - (topicName.bytes.length + 2) = 0 by omega] at hc
      simp only [hid, Nat.lt_irrefl, if_false, hc.done, publishBody, if_neg (not_not_intro hq), List.append_nil,
        List.nil_append]
    · rw [if_pos hq] at hid
      have hc' := hc.int (by omega) packetId
      rw [show fresh.length - (topicName.bytes.length + 2) - 2 = 0 by omega] at hc'
      simp only [hid, Nat.zero_lt_two, if_true, hc'.done, publishBody, if_pos hq, List.append_nil, List.nil_append]

theorem appendPayload_draws (body : List UInt8) {msgBuffer : List UInt8} (h : msgBuffer ≠ [])
    (hb : body.length + msgBuffer.length < 2 ^ 32) :
    Draws Granted 1 (kept (appendPayload (Buffer.ofBytes body) msgBuffer)) (· = Buffer.ofBytes (body ++ msgBuffer)) := by
  have hpos := List.length_pos_iff.mpr h
  refine (enlarge_draws body hpos hb).through ?_ ?_
  · intro ms he
    simp only [appendPayload, if_pos hpos]
    exact Nat.one_ne_zero
  · rintro ms b ms' he ⟨fresh, rfl, hl⟩
    have hc := (Cursor.At.behind body fresh).memcpy msgBuffer (by omega)
    rw [show fresh.length - msgBuffer.length = 0 by omega] at hc
    refine ⟨_, ?_, rfl⟩
    simp only [appendPayload, if_pos hpos, he, Buffer.length_ofBytes,
      uChar_isNone (body ++ fresh) (by simp only [List.length_append]; omega), Bool.false_eq_true, if_false, hc.done]

theorem constructSubscibeTypeVariableHeader_draws (packetId : UInt16) :
    Draws Granted 1 (kept (constructSubscibeTypeVariableHeader ⟨none, 0, false⟩ packetId)) (· = Buffer.ofBytes (be16 packetId)) := by
  refine (enlarge_new_draws (n := 2) (by omega) (by omega)).through ?_ ?_
  · intro ms he
    simp only [constructSubscibeTypeVariableHeader]
    exact Nat.one_ne_zero
  · rintro ms b ms' he ⟨fresh, rfl, hl⟩
    have hc := (Cursor.At.start fresh).int (by omega) packetId
    rw [hl] at hc
    refine ⟨_, ?_, rfl⟩
    simp only [constructSubscibeTypeVariableHeader, he, uChar_isNone fresh (by omega), Bool.false_eq_true, if_false, hc.done,
      List.nil_append]

theorem addListItems_draws {item : ListItem} (ht : item.topic.strlen ≤ ushrtMax) (body : List UInt8)
    (hb : body.length + (item.topic.strlen + 2 + item.tail.length) < 2 ^ 32) :
    Draws Granted 1 (kept (addListItems [(item.topic, item.tail)] (Buffer.ofBytes body)))
      (· = Buffer.ofBytes (body ++ (utf item.topic.bytes ++ item.tail))) := by
  have hfit : ¬ ushrtMax < item.topic.strlen := by omega
  have hstrlen : item.topic.strlen = item.topic.bytes.length := rfl
  refine (enlarge_draws body (n := item.topic.strlen + 2 + item.tail.length) (by omega) hb).through ?_ ?_
  · intro ms he
    simp only [addListItems, if_neg hfit]
    exact Nat.one_ne_zero
  · rintro ms b ms' he ⟨fresh, rfl, hl⟩
    have hc := ((Cursor.At.behind body fresh).utf item.topic.bytes (by omega)).memcpy item.tail (by omega)
    rw [show fresh.length - (item.topic.bytes.length + 2) - item.tail.length = 0 by omega, List.append_assoc] at hc
    refine ⟨_, ?_, rfl⟩
    simp only [addListItems, if_neg hfit, Buffer.length_ofBytes, he, hc.done]

theorem constructConnectVariableHeader_draws (o : MqttClientOptions) :
    Draws Granted 1 (kept (constructConnectVariableHeader ⟨none, 0, false⟩ o))
      (· = Buffer.ofBytes (connectHeader 0 o.keepAliveInterval)) := by
  refine (enlarge_new_draws (n := 10) (by omega) (by omega)).through ?_ ?_
  · intro ms he
    simp only [constructConnectVariableHeader]
    exact Nat.one_ne_zero
  · rintro ms b ms' he ⟨fresh, rfl, hl⟩
    have hc := ((((Cursor.At.start fresh).utf [0x4d, 0x51, 0x54, 0x54] (by simp [hl])).byte (by simp [hl]) 4).byte
      (by simp [hl]) 0).int (by simp [hl]) o.keepAliveInterval
    rw [hl] at hc
    refine ⟨_, ?_, rfl⟩
    simp only [constructConnectVariableHeader, he, uChar_isNone fresh (by omega), Bool.false_eq_true, if_false, hc.done]
    rfl

theorem constructConnPayload_draws {o : MqttClientOptions} (ho : Sendable o) :
    Draws Granted 1 (kept (constructConnPayload (Buffer.ofBytes (connectHeader 0 o.keepAliveInterval)) o))
      (· = Buffer.ofBytes (connectBody o)) := by
  obtain ⟨hbody, hlen⟩ := ho.written
  have htotal := ho.accepted.total
  have hheader : (connectHeader 0 o.keepAliveInterval).length = 10 := rfl
  have hid : optionSpace o.clientId = 2 := if_pos ho.clientId
  refine (enlarge_draws (connectHeader 0 o.keepAliveInterval) (n := connPayloadLen o) (by unfold connPayloadLen; omega)
    (by omega)).through ?_ ?_
  · intro ms he hz
    exact he (constructConnPayload_zero hz).2
  · rintro ms b ms' he ⟨fresh, rfl, hl⟩
    have hc := connPayloadCursor_at o (show (writtenBody o).length ≤ 10 + fresh.length by rw [hbody]; omega)
    rw [show 10 + fresh.length - (writtenBody o).length = 0 by rw [hbody]; omega] at hc
    refine ⟨_, ?_, rfl⟩
    rw [constructConnPayload_accepted ho.accepted he, Buffer.length_ofBytes, hheader, hc.done, hbody]

end Parts

/-! ## The packets -/

section Packets

theorem mqttCodecPublish_draws (qosValue : QosValue) (duplicateMsg serverRetain : Bool) (packetId : UInt16)
    {topicName : CString} (ht : topicName.strlen ≤ ushrtMax) (msgBuffer : List UInt8)
    (hb : (publishBody qosValue packetId topicName msgBuffer).length < 2 ^ 28) :
    Draws Granted (if msgBuffer = [] then 5 else 6)
      (mqttCodecPublish qosValue duplicateMsg serverRetain packetId (some topicName) msgBuffer)
      (· = Buffer.ofBytes (framed .publish (publishFlags qosValue duplicateMsg serverRetain)
        (publishBody qosValue packetId topicName msgBuffer))) := by
  have hsplit := publishBody_append qosValue packetId topicName msgBuffer
  have hlen := congrArg List.length hsplit
  rw [List.length_append] at hlen
  have hmax : ¬ maxSendSize < msgBuffer.length := by
    simp only [maxSendSize]
    omega
  have heq : mqttCodecPublish qosValue duplicateMsg serverRetain packetId (some topicName) msgBuffer =
      andThen Buffer.new fun result =>
        andThen (kept (constructPublishVariableHeader result ⟨topicName, packetId, qosValue⟩)) fun result =>
          andThen (kept (appendPayload result msgBuffer)) fun result =>
            finish result .publish (publishFlags qosValue duplicateMsg serverRetain) := by
    funext ms
    simp only [mqttCodecPublish, andThen, kept, if_neg hmax]
    rcases Buffer.new ms with ⟨_ | result, ms1⟩
    · rfl
    · simp only
      rcases constructPublishVariableHeader result ⟨topicName, packetId, qosValue⟩ ms1 with ⟨_ | code, result, ms2⟩
      · simp only [if_true]
        rcases appendPayload result msgBuffer ms2 with ⟨_ | code, result, ms3⟩ <;> rfl
      · rfl
  -- Without a payload there is nothing to make room for.
  have hrest : Draws Granted (if msgBuffer = [] then 3 else 4)
      (andThen (kept (appendPayload (Buffer.ofBytes (publishBody qosValue packetId topicName [])) msgBuffer)) fun result =>
        finish result .publish (publishFlags qosValue duplicateMsg serverRetain))
      (· = Buffer.ofBytes (framed .publish (publishFlags qosValue duplicateMsg serverRetain)
        (publishBody qosValue packetId topicName msgBuffer))) := by
    by_cases hnil : msgBuffer = []
    · subst hnil
      exact finish_draws hb .publish (publishFlags qosValue duplicateMsg serverRetain)
    · rw [if_neg hnil]
      refine (appendPayload_draws _ hnil (by omega)).andThen (k := 3) fun result hr => ?_
      rw [hr, hsplit]
      exact finish_draws hb .publish (publishFlags qosValue duplicateMsg serverRetain)
  rw [heq, show (if msgBuffer = [] then 5 else 6) = 1 + (1 + if msgBuffer = [] then 3 else 4) by split <;> rfl]
  refine new_draws.andThen fun result hn => ?_
  subst hn
  refine (constructPublishVariableHeader_draws ht packetId qosValue).andThen fun result hr => ?_
  subst hr
  exact hrest

theorem constructPublishReply_draws (type : ControlPacketType) (flags : UInt8) (packetId : UInt16) :
    Draws Granted 2 (constructPublishReply type flags packetId) (· = Buffer.ofBytes (framed type flags (be16 packetId))) := by
  have heq : constructPublishReply type flags packetId = andThen Buffer.new fun result =>
      andThen (kept (result.preBuild 4)) fun result ms =>
        if (Buffer.uChar (some result)).isNone then (none, ms)
        else (some ((((Cursor.mk result 0).byteutilWriteByte (type.value ||| flags)).byteutilWriteByte 2).byteutilWriteInt
          packetId).buffer, ms) := by
    funext ms
    simp only [constructPublishReply, andThen, kept]
    rcases Buffer.new ms with ⟨_ | result, ms1⟩
    · rfl
    · simp only
      rcases result.preBuild 4 ms1 with ⟨_ | code, result, ms2⟩ <;> rfl
  rw [heq]
  refine new_draws.andThen (k := 1) fun result hn => ?_
  subst hn
  refine (preBuild_draws (by omega)).andThen (k := 0) fun result hp => ?_
  obtain ⟨block, rfl, hl⟩ := hp
  have hc := (((Cursor.At.start block).byte (by omega) (type.value ||| flags)).byte (by omega) 2).int (by omega) packetId
  rw [show block.length - 1 - 1 - 2 = 0 by omega] at hc
  simp only [uChar_isNone block (by omega), Bool.false_eq_true, if_false, hc.done]
  refine .pure (congrArg Buffer.ofBytes ?_)
  rw [framed, show (be16 packetId).length = 2 from rfl, Base128.encode_lt (by decide)]
  rfl

theorem constructHeaderOnly_draws (type : ControlPacketType) :
    Draws Granted 2 (constructHeaderOnly type) (· = Buffer.ofBytes (framed type 0 [])) := by
  have heq : constructHeaderOnly type = andThen Buffer.new fun result =>
      andThen (kept (result.enlarge 2)) fun result ms =>
        if (Buffer.uChar (some result)).isNone then (none, ms)
        else (some (((Cursor.mk result 0).byteutilWriteByte type.value).byteutilWriteByte 0).buffer, ms) := by
    funext ms
    simp only [constructHeaderOnly, andThen, kept]
    rcases Buffer.new ms with ⟨_ | result, ms1⟩
    · rfl
    · simp only
      rcases result.enlarge 2 ms1 with ⟨_ | code, result, ms2⟩ <;> rfl
  rw [heq]
  refine new_draws.andThen (k := 1) fun result hn => ?_
  subst hn
  refine (enlarge_new_draws (by omega) (by omega)).andThen (k := 0) fun result hp => ?_
  obtain ⟨fresh, rfl, hl⟩ := hp
  have hc := ((Cursor.At.start fresh).byte (by omega) type.value).byte (by omega) 0
  rw [show fresh.length - 1 - 1 = 0 by omega] at hc
  simp only [uChar_isNone fresh (by omega), Bool.false_eq_true, if_false, hc.done]
  refine .pure (congrArg Buffer.ofBytes ?_)
  rw [framed, List.length_nil, Base128.encode_lt (by decide), UInt8.or_zero]
  rfl

/-- The loop over the entries, as one that asks for a block an entry. -/
theorem addListItems_loop (items : List ListItem) (b : Buffer) :
    kept (addListItems (items.map fun item => (item.topic, item.tail)) b) =
      loop (fun item b => kept (addListItems [(item.topic, item.tail)] b)) items b := by
  induction items generalizing b with
  | nil => rfl
  | cons item items ih =>
    funext ms
    rw [loop, andThen, List.map_cons]
    simp only [addListItems, kept]
    by_cases hfit : ushrtMax < item.topic.strlen
    · simp [hfit, Crt.failure]
    · simp only [if_neg hfit]
      rcases b.enlarge (item.topic.strlen + 2 + item.tail.length) ms with ⟨_ | code, b', ms1⟩
      · simp only [if_true]
        exact congrFun (ih _) ms1
      · rfl

theorem listBody_append (items items' : List ListItem) : listBody (items ++ items') = listBody items ++ listBody items' :=
  List.flatMap_append

theorem addListItems_all {items : List ListItem} (ht : ∀ item ∈ items, item.topic.strlen ≤ ushrtMax) (body : List UInt8)
    (hb : body.length + (listBody items).length < 2 ^ 32) :
    Draws Granted items.length (kept (addListItems (items.map fun item => (item.topic, item.tail)) (Buffer.ofBytes body)))
      (· = Buffer.ofBytes (body ++ listBody items)) := by
  rw [addListItems_loop]
  refine Draws.loop (I := fun done b => b = Buffer.ofBytes (body ++ listBody done)) items ?_ [] items _ rfl
    (by rw [listBody, List.flatMap_nil, List.append_nil])
  intro done item rest hitems b hdone
  subst hdone
  have hitem : listBody (done ++ [item]) = listBody done ++ (utf item.topic.bytes ++ item.tail) := by
    rw [listBody_append]
    simp [listBody]
  have hstrlen : item.topic.strlen = item.topic.bytes.length := rfl
  rw [hitem, ← List.append_assoc]
  refine addListItems_draws (ht item (by rw [hitems]; simp)) _ ?_
  have hall : (listBody items).length = (listBody done).length + ((utf item.topic.bytes ++ item.tail).length +
      (listBody rest).length) := by
    rw [hitems, listBody_append, List.length_append, show listBody (item :: rest) = _ from List.flatMap_cons,
      List.length_append]
    rfl
  rw [List.length_append, length_utf] at hall
  rw [List.length_append]
  omega

theorem constructTopicPacket_andThen (type : ControlPacketType) (packetId : UInt16)
    (addItems : Buffer → Mallocs → Nat × Buffer × Mallocs) :
    constructTopicPacket type packetId addItems = andThen Buffer.new fun result =>
      andThen (kept (constructSubscibeTypeVariableHeader result packetId)) fun result =>
        andThen (kept (addItems result)) fun result => finish result type 0x2 := by
  funext ms
  simp only [constructTopicPacket, andThen, kept]
  rcases Buffer.new ms with ⟨_ | result, ms1⟩
  · rfl
  · simp only
    rcases constructSubscibeTypeVariableHeader result packetId ms1 with ⟨_ | code, result, ms2⟩
    · simp only [if_true]
      rcases addItems result ms2 with ⟨_ | code, result, ms3⟩ <;> rfl
    · rfl

theorem constructTopicPacket_draws (type : ControlPacketType) (packetId : UInt16) (items : List ListItem)
    (ht : ∀ item ∈ items, item.topic.strlen ≤ ushrtMax) (hb : (be16 packetId ++ listBody items).length < 2 ^ 28) :
    Draws Granted (5 + items.length)
      (constructTopicPacket type packetId (addListItems (items.map fun item => (item.topic, item.tail))))
      (· = Buffer.ofBytes (framed type 2 (be16 packetId ++ listBody items))) := by
  rw [constructTopicPacket_andThen, show 5 + items.length = 1 + (1 + (items.length + 3)) by omega]
  refine new_draws.andThen fun result hn => ?_
  subst hn
  refine (constructSubscibeTypeVariableHeader_draws packetId).andThen fun result hr => ?_
  subst hr
  rw [List.length_append] at hb
  refine (addListItems_all ht (be16 packetId) (by omega)).andThen fun result hr => ?_
  subst hr
  exact finish_draws (by rw [List.length_append]; exact hb) type 2

theorem mqttCodecConnect_draws {o : MqttClientOptions} (ho : Sendable o) :
    Draws Granted 6 (mqttCodecConnect o) (· = Buffer.ofBytes (framed .connect 0 (connectBody o))) := by
  have heq : mqttCodecConnect o = andThen Buffer.new fun result =>
      andThen (kept (constructConnectVariableHeader result o)) fun result =>
        andThen (kept (constructConnPayload result o)) fun result => finish result .connect 0 := by
    funext ms
    simp only [mqttCodecConnect, andThen, kept]
    rcases Buffer.new ms with ⟨_ | result, ms1⟩
    · rfl
    · simp only
      rcases constructConnectVariableHeader result o ms1 with ⟨_ | code, result, ms2⟩
      · simp only [if_true]
        rcases constructConnPayload result o ms2 with ⟨_ | code, result, ms3⟩ <;> rfl
      · rfl
  rw [heq]
  refine new_draws.andThen (k := 5) fun result hn => ?_
  subst hn
  refine (constructConnectVariableHeader_draws o).andThen (k := 4) fun result hr => ?_
  subst hr
  refine (constructConnPayload_draws ho).andThen (k := 3) fun result hr => ?_
  subst hr
  exact finish_draws (length_connectBody ho) .connect 0

end Packets

/-! ## All encoders -/

inductive Request where
  | connect (mqttOptions : MqttClientOptions)
  | publish (qosValue : QosValue) (duplicateMsg serverRetain : Bool) (packetId : UInt16) (topicName : CString)
      (msgBuffer : List UInt8)
  | publishAck (packetId : UInt16)
  | publishReceived (packetId : UInt16)
  | publishRelease (packetId : UInt16)
  | publishComplete (packetId : UInt16)
  | subscribe (packetId : UInt16) (subscribeList : List SubscribePayload)
  | unsubscribe (packetId : UInt16) (unsubscribeList : List CString)
  | ping
  | disconnect

namespace Request

def encode : Request → Mallocs → Option Buffer × Mallocs
  | connect o => mqttCodecConnect o
  | publish qosValue duplicateMsg serverRetain packetId topicName msgBuffer =>
    mqttCodecPublish qosValue duplicateMsg serverRetain packetId (some topicName) msgBuffer
  | publishAck packetId => mqttCodecPublishAck packetId
  | publishReceived packetId => mqttCodecPublishReceived packetId
  | publishRelease packetId => mqttCodecPublishRelease packetId
  | publishComplete packetId => mqttCodecPublishComplete packetId
  | subscribe packetId subscribeList => mqttCodecSubscribe packetId subscribeList
  | unsubscribe packetId unsubscribeList => mqttCodecUnsubscribe packetId unsubscribeList
  | ping => mqttCodecPing
  | disconnect => mqttCodecDisconnect

def type : Request → ControlPacketType
  | connect _ => .connect
  | publish _ _ _ _ _ _ => .publish
  | publishAck _ => .puback
  | publishReceived _ => .pubrec
  | publishRelease _ => .pubrel
  | publishComplete _ => .pubcomp
  | subscribe _ _ => .subscribe
  | unsubscribe _ _ => .unsubscribe
  | ping => .pingreq
  | disconnect => .disconnect

def flags : Request → UInt8
  | publish qosValue duplicateMsg serverRetain _ _ _ => publishFlags qosValue duplicateMsg serverRetain
  | publishRelease _ => 2
  | subscribe _ _ => 2
  | unsubscribe _ _ => 2
  | _ => 0

def body : Request → List UInt8
  | connect o => connectBody o
  | publish qosValue _ _ packetId topicName msgBuffer => publishBody qosValue packetId topicName msgBuffer
  | publishAck packetId => be16 packetId
  | publishReceived packetId => be16 packetId
  | publishRelease packetId => be16 packetId
  | publishComplete packetId => be16 packetId
  | subscribe packetId subscribeList => be16 packetId ++ listBody (subscribeList.map subscribeItem)
  | unsubscribe packetId unsubscribeList => be16 packetId ++ listBody (unsubscribeList.map unsubscribeItem)
  | ping => []
  | disconnect => []

def packet (r : Request) : List UInt8 := framed r.type r.flags r.body

/-- The strings fit their length fields and the body its length field, a list has an entry. -/
structure Fits (r : Request) : Prop where
  strings : match r with
    | connect o => Sendable o
    | publish _ _ _ _ topicName _ => topicName.strlen ≤ ushrtMax
    | subscribe _ subscribeList => subscribeList ≠ [] ∧ ∀ p ∈ subscribeList, p.subscribeTopic.strlen ≤ ushrtMax
    | unsubscribe _ unsubscribeList => unsubscribeList ≠ [] ∧ ∀ topic ∈ unsubscribeList, topic.strlen ≤ ushrtMax
    | _ => True
  body : r.body.length < 2 ^ 28

def allocations : Request → Nat
  | connect _ => 6
  | publish _ _ _ _ _ msgBuffer => if msgBuffer = [] then 5 else 6
  | subscribe _ subscribeList => 5 + subscribeList.length
  | unsubscribe _ unsubscribeList => 5 + unsubscribeList.length
  | _ => 2

theorem encode_draws {r : Request} (h : r.Fits) : Draws Granted r.allocations r.encode (· = Buffer.ofBytes r.packet) := by
  have hstrings := h.strings
  have hbody := h.body
  cases r with
  | connect o => exact mqttCodecConnect_draws hstrings
  | publish qosValue duplicateMsg serverRetain packetId topicName msgBuffer =>
    exact mqttCodecPublish_draws qosValue duplicateMsg serverRetain packetId hstrings msgBuffer hbody
  | publishAck packetId => exact constructPublishReply_draws .puback 0 packetId
  | publishReceived packetId => exact constructPublishReply_draws .pubrec 0 packetId
  | publishRelease packetId => exact constructPublishReply_draws .pubrel 2 packetId
  | publishComplete packetId => exact constructPublishReply_draws .pubcomp 0 packetId
  | subscribe packetId subscribeList =>
    obtain ⟨hne, ht⟩ := hstrings
    have hdraws := constructTopicPacket_draws .subscribe packetId (subscribeList.map subscribeItem)
      (by simpa [subscribeItem] using ht) hbody
    rw [List.length_map, List.map_map] at hdraws
    have hlen : subscribeList.length ≠ 0 := fun hl => hne (List.length_eq_zero_iff.mp hl)
    have heq : mqttCodecSubscribe packetId subscribeList = constructTopicPacket .subscribe packetId
        (addListItems (subscribeList.map ((fun item => (item.topic, item.tail)) ∘ subscribeItem))) := by
      funext ms
      simp only [mqttCodecSubscribe, if_neg hlen]
      rfl
    rw [encode, heq]
    exact hdraws
  | unsubscribe packetId unsubscribeList =>
    obtain ⟨hne, ht⟩ := hstrings
    have hdraws := constructTopicPacket_draws .unsubscribe packetId (unsubscribeList.map unsubscribeItem)
      (by simpa [unsubscribeItem] using ht) hbody
    rw [List.length_map, List.map_map] at hdraws
    have hlen : unsubscribeList.length ≠ 0 := fun hl => hne (List.length_eq_zero_iff.mp hl)
    have heq : mqttCodecUnsubscribe packetId unsubscribeList = constructTopicPacket .unsubscribe packetId
        (addListItems (unsubscribeList.map ((fun item => (item.topic, item.tail)) ∘ unsubscribeItem))) := by
      funext ms
      simp only [mqttCodecUnsubscribe, if_neg hlen]
      rfl
    rw [encode, heq]
    exact hdraws
  | ping => exact constructHeaderOnly_draws .pingreq
  | disconnect => exact constructHeaderOnly_draws .disconnect

end Request

/-- Under every answer of the allocator an encoder returns exactly the packet, having used as many
    answers as it asks for, or NULL. Which of the two, its own allocations alone decide. -/
theorem encode_all_or_nothing {r : Request} (h : r.Fits) (ms : Mallocs) :
    (none ∉ ms.take r.allocations → r.encode ms = (some (Buffer.ofBytes r.packet), ms.drop r.allocations)) ∧
    (none ∈ ms.take r.allocations → (r.encode ms).1 = none) := by
  have hdraws := Request.encode_draws h
  constructor
  · intro hall
    obtain ⟨packet, he, rfl⟩ := hdraws.granted (granted_iff.mpr hall)
    exact he
  · intro hnone
    exact hdraws.refused fun hall => granted_iff.mp hall hnone

/-- A SUBSCRIBE of two topics asks for seven blocks; the last one is refused, or only a later one. -/
theorem subscribe_all_or_nothing :
    (Request.subscribe 7 [⟨lamp, .deliverAtLeastOnce⟩, ⟨gone, .deliverAtMostOnce⟩]).encode
        (List.replicate 7 (some fun _ => 0xAA) ++ [none]) =
      (some (Buffer.ofBytes (Request.subscribe 7 [⟨lamp, .deliverAtLeastOnce⟩, ⟨gone, .deliverAtMostOnce⟩]).packet), [none]) ∧
    ((Request.subscribe 7 [⟨lamp, .deliverAtLeastOnce⟩, ⟨gone, .deliverAtMostOnce⟩]).encode
      (List.replicate 6 (some fun _ => 0xAA) ++ [none])).1 = none := by
  have hfits : (Request.subscribe 7 [⟨lamp, .deliverAtLeastOnce⟩, ⟨gone, .deliverAtMostOnce⟩]).Fits :=
    ⟨⟨by simp, by decide⟩, by decide⟩
  exact ⟨(encode_all_or_nothing hfits _).1 (by simp [Request.allocations, List.replicate]),
    (encode_all_or_nothing hfits _).2 (by simp [Request.allocations, List.replicate])⟩

end UMqtt.Codec

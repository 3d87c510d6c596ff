/-
  UMqtt.Codec.Payload — the room `constructConnPayload` makes against the bytes it writes.

  `totalLen` counts a length field for every string that is not NULL. The writes go by other
  tests: the client identifier is written even when it is NULL, the other strings only when
  they are not empty. So a NULL client identifier takes two bytes that nothing reserved, and
  an empty string of the others reserves two that nothing writes (`reserved_written`); the
  payload fills its room exactly when the two balance (`fillsReserved_iff`).
-/

import UMqtt.Codec.Connect

namespace UMqtt.Codec

open UMqtt.Lib UMqtt.Crt

/-! ## Counting -/

/-- The number of will topic, will message, user name and password that are empty but not NULL. -/
def emptyStrings (o : MqttClientOptions) : Nat :=
  [o.willTopic, o.willMessage, o.username, o.password].countP fun s => s.isSome && optionLen s = 0

/-- The bytes that the payload writes through its iterator. -/
def writtenLen (o : MqttClientOptions) : Nat :=
  (utf (optionBytes o.clientId)).length + (willUtf o).length + (nonemptyUtf o.username).length +
    (nonemptyUtf o.password).length

theorem reserved_string (s : Option CString) :
    optionLen s + optionSpace s =
      (nonemptyUtf s).length + 2 * (if (s.isSome && optionLen s = 0) = true then 1 else 0) := by
  rw [length_nonemptyUtf]
  cases s with
  | none => rfl
  | some t =>
    by_cases h : optionLen (some t) = 0
    · simp [h, optionSpace]
    · simp [h, optionSpace, Nat.pos_of_ne_zero h]

theorem reserved_client (s : Option CString) :
    optionLen s + optionSpace s + (if s.isSome then 0 else 2) = (utf (optionBytes s)).length := by
  rw [length_utf, length_optionBytes]
  cases s <;> rfl

/-- What is reserved and not written, and what is written and not reserved. -/
theorem reserved_written {o : MqttClientOptions} (ha : Accepted o) :
    connPayloadLen o + (if o.clientId.isSome then 0 else 2) = writtenLen o + 2 * emptyStrings o := by
  have hclient := reserved_client o.clientId
  have htopic := reserved_string o.willTopic
  have hmessage := reserved_string o.willMessage
  have husername := reserved_string o.username
  have hpassword := reserved_string o.password
  have hwill : (willUtf o).length = (nonemptyUtf o.willTopic).length + (nonemptyUtf o.willMessage).length := by
    rw [length_willUtf, length_nonemptyUtf, length_nonemptyUtf]
    by_cases h : 0 < optionLen o.willTopic
    · rw [if_pos ⟨ha.will.mpr h, h⟩, if_pos h, if_pos (ha.will.mpr h)]
    · rw [if_neg (fun hw => h hw.2), if_neg h, if_neg (mt ha.will.mp h)]
  have hempty : emptyStrings o = (if (o.willTopic.isSome && optionLen o.willTopic = 0) = true then 1 else 0) +
      (if (o.willMessage.isSome && optionLen o.willMessage = 0) = true then 1 else 0) +
      (if (o.username.isSome && optionLen o.username = 0) = true then 1 else 0) +
      (if (o.password.isSome && optionLen o.password = 0) = true then 1 else 0) := by
    simp only [emptyStrings, List.countP_cons, List.countP_nil]; omega
  rw [hempty, writtenLen, hwill, connPayloadLen]
  omega

theorem orFlag_iterator (c : Cursor) (flag : UInt8) : (orFlag c flag).iterator = c.iterator := rfl

theorem utf_iterator (c : Cursor) (bs : List UInt8) :
    (c.byteutilWriteUTF bs).iterator = c.iterator + (utf bs).length := by
  rw [length_utf]
  simp only [Cursor.byteutilWriteUTF, Cursor.byteutilWriteInt, Cursor.byteutilWriteByte, Cursor.memcpy,
    List.length_singleton]
  omega

theorem string_iterator (c : Cursor) (flag : UInt8) (s : Option CString) :
    (if 0 < optionLen s then (orFlag c flag).byteutilWriteUTF (optionBytes s) else c).iterator =
      c.iterator + (nonemptyUtf s).length := by
  unfold nonemptyUtf
  split
  · rw [utf_iterator, orFlag_iterator]
  · rfl

/-- Room or no room, the iterator goes past everything that is written. -/
theorem connPayloadCursor_iterator (ctrlPacket : Buffer) (currLen : Nat) (o : MqttClientOptions) :
    (connPayloadCursor ctrlPacket currLen o).iterator = currLen + writtenLen o := by
  have hclean : ∀ c : Cursor, (if o.useCleanSession then orFlag c 0x02 else c).iterator = c.iterator := by
    intro c
    split <;> rfl
  have hwill : ∀ c : Cursor, (if HasWill o then
      let c := (orFlag c 0x04).byteutilWriteUTF (optionBytes o.willTopic)
      let c := orFlag c (o.qualityOfServiceValue.value <<< 3)
      let c := if o.messageRetain then orFlag c 0x20 else c
      c.byteutilWriteUTF (optionBytes o.willMessage)
    else c).iterator = c.iterator + (willUtf o).length := by
    intro c
    unfold willUtf
    split
    · have hretain : ∀ c : Cursor, (if o.messageRetain then orFlag c 0x20 else c).iterator = c.iterator := by
        intro c
        split <;> rfl
      simp only [utf_iterator, hretain, orFlag_iterator, List.length_append]
      omega
    · rfl
  unfold connPayloadCursor
  rw [hclean, string_iterator, string_iterator, hwill, utf_iterator]
  simp only [writtenLen]
  omega

/-! ## The room and the writes -/

/-- `constructConnPayload` on the packet so far: as many bytes are written as were reserved, none
    behind the end, and none is left as the allocator gave it. -/
structure FillsReserved (ctrlPacket : Buffer) (o : MqttClientOptions) (ms : Mallocs) : Prop where
  count : (connPayloadCursor (ctrlPacket.enlarge (connPayloadLen o) ms).2.1 (Buffer.length (some ctrlPacket)) o).iterator =
    Buffer.length (some ctrlPacket) + connPayloadLen o
  inside : (constructConnPayload ctrlPacket o ms).2.1.overflow = false
  complete : ∀ ms', (constructConnPayload ctrlPacket o ms').1 = 0 →
    (constructConnPayload ctrlPacket o ms').2.1 = (constructConnPayload ctrlPacket o ms).2.1

/-- The length fields that are reserved for nothing make up for the one that is not reserved. -/
def Balanced (o : MqttClientOptions) : Prop := emptyStrings o = if o.clientId.isSome then 0 else 1

instance (o : MqttClientOptions) : Decidable (Balanced o) := inferInstanceAs (Decidable (_ = _))

/-- What `constructConnectVariableHeader` leaves, whatever the allocator answers. -/
theorem constructConnectVariableHeader_zero {o : MqttClientOptions} {ms ms' : Mallocs} {b : Buffer}
    (h : constructConnectVariableHeader ⟨none, 0, false⟩ o ms = (0, b, ms')) :
    b = Buffer.ofBytes (connectHeader 0 o.keepAliveInterval) := by
  unfold constructConnectVariableHeader at h
  rcases malloc_cases 10 ms with ⟨-, hm⟩ | ⟨-, block, hm, hl⟩
  · simp [Buffer.enlarge, realloc, hm, sizeT, Crt.failure] at h
  · have he : Buffer.enlarge ⟨none, 0, false⟩ 10 ms = (0, Buffer.ofBytes block, ms.tail) := by
      simp [Buffer.enlarge, realloc, hm, sizeT, Buffer.ofBytes, hl]
    have hc := ((((Cursor.At.start block).utf [0x4d, 0x51, 0x54, 0x54] (by simp [hl])).byte (by simp [hl]) 4).byte
      (by simp [hl]) 0).int (by simp [hl]) o.keepAliveInterval
    rw [hl] at hc
    simp only [he, uChar_isNone block (by omega), Bool.false_eq_true, if_false, hc.done, Prod.mk.injEq, true_and] at h
    exact h.1.symm

/-- A balanced payload that is built is what is written behind the header, and nothing else. -/
theorem constructConnPayload_balanced {o : MqttClientOptions} (hb : Balanced o) {ms : Mallocs}
    (h : (constructConnPayload (Buffer.ofBytes (connectHeader 0 o.keepAliveInterval)) o ms).1 = 0) :
    (constructConnPayload (Buffer.ofBytes (connectHeader 0 o.keepAliveInterval)) o ms).2.1 =
      Buffer.ofBytes (writtenBody o) := by
  obtain ⟨ha, hen⟩ := constructConnPayload_zero h
  have htotal := ha.total
  have hheader : ∀ f, (connectHeader f o.keepAliveInterval).length = 10 := fun _ => rfl
  obtain ⟨fresh, ms', he, hl⟩ := Buffer.enlarge_zero hen (by rw [hheader]; omega)
  have hwritten : writtenLen o = connPayloadLen o := by
    have hr := reserved_written ha
    rw [hb] at hr
    split at hr <;> omega
  have hlen : (writtenBody o).length = 10 + fresh.length := by
    rw [hl, ← hwritten]
    simp only [writtenBody, writtenLen, List.length_append, hheader]
  have hc := connPayloadCursor_at o (Nat.le_of_eq hlen)
  rw [hlen, Nat.sub_self] at hc
  rw [constructConnPayload_accepted ha he, Buffer.length_ofBytes, hheader, hc.done]

/-- The payload fills its room exactly when the options are balanced. -/
theorem fillsReserved_iff {o : MqttClientOptions} {ms ms' : Mallocs} {b : Buffer}
    (hv : constructConnectVariableHeader ⟨none, 0, false⟩ o ms = (0, b, ms'))
    (h : (constructConnPayload b o ms').1 = 0) : FillsReserved b o ms' ↔ Balanced o := by
  obtain rfl := constructConnectVariableHeader_zero hv
  have hr := reserved_written (constructConnPayload_zero h).1
  refine ⟨?_, ?_⟩
  · intro hf
    have hcount := hf.count
    rw [connPayloadCursor_iterator] at hcount
    unfold Balanced
    split at hr <;> rename_i hid <;> simp only [hid, Bool.false_eq_true, if_true, if_false] <;> omega
  · intro hb
    refine ⟨?_, ?_, ?_⟩
    · rw [connPayloadCursor_iterator]
      rw [hb] at hr
      split at hr <;> omega
    · rw [constructConnPayload_balanced hb h]
      rfl
    · intro ms'' h''
      rw [constructConnPayload_balanced hb h, constructConnPayload_balanced hb h'']

/-- A client with a will, a user name and a password. -/
theorem lampOptions_fills :
    FillsReserved (Buffer.ofBytes (connectHeader 0 300)) lampOptions [] ↔ Balanced lampOptions :=
  fillsReserved_iff (show constructConnectVariableHeader ⟨none, 0, false⟩ lampOptions [] =
    (0, Buffer.ofBytes (connectHeader 0 300), []) from rfl) (by decide)

def noName : CString := ⟨[], List.not_mem_nil⟩

/-- An empty user name leaves the last two bytes of the packet as the allocator gave them, and
    without a client identifier a user name is written over the end. -/
theorem emptyUsername_unbalanced :
    (∃ b ms', constructConnectVariableHeader ⟨none, 0, false⟩ { clientId := some lamp, username := some noName } [] =
        (0, b, ms') ∧
      (constructConnPayload b { clientId := some lamp, username := some noName } ms').1 = 0 ∧
      ¬ FillsReserved b { clientId := some lamp, username := some noName } ms') ∧
    (∃ b ms', constructConnectVariableHeader ⟨none, 0, false⟩ { username := some lamp } [] = (0, b, ms') ∧
      (constructConnPayload b { username := some lamp } ms').1 = 0 ∧
      (constructConnPayload b { username := some lamp } ms').2.1.overflow = true) :=
  ⟨⟨_, _, rfl, by decide, fun h => absurd h.count (by decide)⟩, ⟨_, _, rfl, by decide, by decide⟩⟩

end UMqtt.Codec

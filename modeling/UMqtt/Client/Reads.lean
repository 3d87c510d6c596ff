/-
  UMqtt.Client.Reads — what the handler of an inbound packet reads of its body.

  `Guarded` is the wish: every access inside the body, no length below zero, and a body
  that is too short for its type ends in an error. `decode_guarded_iff` is when it comes
  true: the acknowledgements need two bytes and nothing checks that they have them; a
  PUBLISH needs its topic inside the body, and behind it, unless its QoS is 0, a packet
  id, and only a failed allocation in front of the missing byte saves it.
-/

import UMqtt.Client.Api

namespace UMqtt.Client

open UMqtt.Crt UMqtt.Codec

/-! ## The wish -/

/-- The length that the first two bytes of a body say its topic has. -/
def topicLength (body : List UInt8) : Nat := 256 * ((body[0]?).getD 0).toNat + ((body[1]?).getD 0).toNat

theorem topicLength_lt (body : List UInt8) : topicLength body < 65536 := by
  have h0 := ((body[0]?).getD 0).toNat_lt
  have h1 := ((body[1]?).getD 0).toNat_lt
  simp only [topicLength]; omega

/-- The types whose body starts with two bytes that are always there: an id, or the flags
    and the return code of a CONNACK. -/
def TwoBytes (type : ControlPacketType) : Prop :=
  type ∈ [.connack, .puback, .pubrec, .pubrel, .pubcomp, .suback, .unsuback]

instance (type : ControlPacketType) : Decidable (TwoBytes type) := inferInstanceAs (Decidable (_ ∈ _))

/-- Shorter than the fields that its type, its flags and its own topic length call for. -/
def TooShort (type : ControlPacketType) (flags : UInt8) (body : List UInt8) : Prop :=
  TwoBytes type ∧ body.length < 2 ∨
  type = .publish ∧
    (body.length < 2 + topicLength body ∨ qosFlag flags ≠ .deliverAtMostOnce ∧ body.length < 2 + topicLength body + 2)

def AllOk (len : Nat) (accesses : List Access) : Prop := ∀ a ∈ accesses, a.Ok len

def Guarded (client : MqttClient) (type : ControlPacketType) (flags : UInt8) (body : List UInt8) (ms : Mallocs) : Prop :=
  let d := decode client ⟨type, flags, some (Buffer.ofBytes body)⟩ ms
  AllOk body.length d.accesses ∧ (TooShort type flags body → ∃ e, d.verdict = .error e)

/-- The error that it ends in is told to the application, and the connection closed. -/
theorem Guarded.reported {σ : Type} (xio : Xio σ) (app : App σ) {type : ControlPacketType} {flags : UInt8} {body : List UInt8}
    {w : World σ} (h : Guarded w.client type flags body w.mallocs) (hs : TooShort type flags body)
    (hc : w.client.fnOnErrorCallBack = true) :
    ∃ (e : EventError) (v : World σ), v.client = w.client ∧
      recvCompleteCallback xio app ⟨type, flags, some (Buffer.ofBytes body)⟩ w =
        closeConnection xio app (app.error e (v.log (.error e))) := by
  obtain ⟨e, he⟩ := h.2 hs
  refine ⟨e, { w.log (.packet ⟨type, flags, some (Buffer.ofBytes body)⟩) with
    mallocs := (decode w.client ⟨type, flags, some (Buffer.ofBytes body)⟩ w.mallocs).mallocs }, rfl, ?_⟩
  have hact : recvCompleteCallback xio app ⟨type, flags, some (Buffer.ofBytes body)⟩ w =
      setErrorCallback xio app e { w.log (.packet ⟨type, flags, some (Buffer.ofBytes body)⟩) with
        mallocs := (decode w.client ⟨type, flags, some (Buffer.ofBytes body)⟩ w.mallocs).mallocs } := by
    simp only [recvCompleteCallback, World.log, he, act]
  rw [hact]
  simp only [setErrorCallback, App.callError, World.log, hc, if_true]

/-! ## When it comes true -/

/-- A PUBLISH that is read inside its body: it has no topic, or no memory for it, or the
    topic fits and then the packet id does, or no message can be made of what is left. -/
def PublishFits (flags : UInt8) (body : List UInt8) (ms : Mallocs) : Prop :=
  body.length < 2 ∨ topicLength body = 0 ∨ denied ms 0 ∨
  2 + topicLength body ≤ body.length ∧
    (qosFlag flags = .deliverAtMostOnce ∨ 2 + topicLength body + 2 ≤ body.length ∨
      denied ms 1 ∨ ¬ denied ms 2 ∧ 2 + topicLength body < body.length ∧ denied ms 3)

def BodyFits (type : ControlPacketType) (flags : UInt8) (body : List UInt8) (ms : Mallocs) : Prop :=
  (TwoBytes type → 2 ≤ body.length) ∧ (type = .publish → PublishFits flags body ms)

theorem AllOk.append {len : Nat} {as bs : List Access} (ha : AllOk len as) (hb : AllOk len bs) : AllOk len (as ++ bs) := by
  intro a h
  rcases List.mem_append.mp h with h | h
  · exact ha a h
  · exact hb a h

theorem AllOk.snoc {len : Nat} {as : List Access} (ha : AllOk len as) {a : Access} (h : a.Ok len) : AllOk len (as ++ [a]) :=
  ha.append fun b hb => by rw [List.mem_singleton.mp hb]; exact h

theorem rawTraceAccesses_ok (client : MqttClient) (data : Option (List UInt8)) (len : Nat) :
    AllOk len (rawTraceAccesses client data len) := by
  unfold rawTraceAccesses
  split
  · intro a h; rw [List.mem_singleton.mp h]; exact Or.inr (by omega)
  · intro a h; cases h

/-! ## Acknowledgements -/

theorem readUint16_ok {r : Reader} {len : Nat} (hr : AllOk len r.accesses) (h0 : r.iterator = 0) :
    AllOk len (r.byteutilReadUint16 len).2.accesses := by
  unfold Reader.byteutilReadUint16
  split
  · refine AllOk.snoc (AllOk.snoc hr ?_) ?_
    · simp only [Access.Ok, h0]; omega
    · simp only [Access.Ok, h0]; omega
  · exact hr

theorem readReturnCodes_ok {len : Nat} : ∀ (n : Nat) (r : Reader), AllOk len r.accesses → r.iterator + n ≤ len →
    AllOk len (Reader.readReturnCodes n r).2.accesses := by
  intro n
  induction n with
  | zero => intro r hr _; exact hr
  | succ n ih =>
    intro r hr hn
    refine ih _ (AllOk.snoc hr (?_ : r.iterator < len)) ?_
    · omega
    · have : r.iterator + 1 + n ≤ len := by omega
      exact this

theorem readReturnCodes_mem {a : Access} : ∀ (n : Nat) (r : Reader), a ∈ r.accesses →
    a ∈ (Reader.readReturnCodes n r).2.accesses
  | 0, _, h => h
  | n + 1, r, h => readReturnCodes_mem n _ (List.mem_append_left [Access.read r.iterator] h)

theorem decodeConnack_ok {r : Reader} {len : Nat} (hr : AllOk len r.accesses) (h0 : r.iterator = 0) (ms : Mallocs) :
    AllOk len (decodeConnack r ms).accesses ↔ 2 ≤ len := by
  have hacc : (decodeConnack r ms).accesses = r.accesses ++ [.read 0] ++ [.read 1] := by
    simp only [decodeConnack, Reader.byteutilReadByte, Reader.note, h0]
  rw [hacc]
  constructor
  · intro h
    have : (Access.read 1).Ok len := h _ (by simp)
    simp only [Access.Ok] at this; omega
  · intro h
    exact (hr.snoc (by simp only [Access.Ok]; omega)).snoc (by simp only [Access.Ok]; omega)

theorem decodeSuback_ok {r : Reader} {len : Nat} (hr : AllOk len r.accesses) (h0 : r.iterator = 0) (ms : Mallocs) :
    AllOk len (decodeSuback r len ms).accesses ↔ 2 ≤ len := by
  have hid := readUint16_ok hr h0
  constructor
  · intro h
    have hsub : (Access.sub len 2).Ok len := by
      apply h
      unfold decodeSuback
      rcases malloc_cases (subSize len 2) ms with ⟨-, hm⟩ | ⟨-, b, hm, -⟩
      · simp only [hm, Reader.note, List.mem_append, List.mem_singleton, or_true]
      · simp only [hm]
        exact readReturnCodes_mem _ _ (by simp only [Reader.note, List.mem_append, List.mem_singleton, or_true])
    exact hsub
  · intro h
    have hsub : AllOk len ((r.byteutilReadUint16 len).2.note (.sub len 2)).accesses := hid.snoc h
    unfold decodeSuback
    rcases malloc_cases (subSize len 2) ms with ⟨-, hm⟩ | ⟨-, b, hm, -⟩
    · simp only [hm]; exact hsub
    · simp only [hm]
      refine readReturnCodes_ok _ _ hsub ?_
      simp only [Reader.byteutilReadUint16, if_pos h, Reader.note, subSize]; omega
/-! ## PUBLISH -/

theorem topicLength_toNat (body : List UInt8) (accesses : List Access) :
    (UInt16.ofNat (256 * ((Reader.mk body 0 accesses).peek 0).toNat + ((Reader.mk body 0 accesses).peek 1).toNat)).toNat =
      topicLength body := by
  have := topicLength_lt body
  simp only [topicLength] at this ⊢
  simp only [Reader.peek, Nat.zero_add, UInt16.toNat_ofNat']
  omega

/-- What `byteutil_readUTF` does with the first two bytes. -/
theorem readUTF_cases (body : List UInt8) (acc : List Access) (ms : Mallocs) (hacc : AllOk body.length acc) :
    let r := (Reader.mk body 0 acc).byteutilReadUTF body.length ms
    ((body.length < 2 ∨ topicLength body = 0 ∨ denied ms 0) ∧ r.1 = none ∧ AllOk body.length r.2.1.accesses) ∨
    (2 ≤ body.length ∧ topicLength body ≠ 0 ∧ ¬ denied ms 0 ∧ ∃ acc', AllOk body.length acc' ∧
      r = (some (CString.ofBlock ((body.drop 2).take (topicLength body))),
        ⟨body, 2 + topicLength body, acc' ++ [.copy 2 (topicLength body)]⟩, ms.tail)) := by
  by_cases h2 : 2 ≤ body.length
  · have hacc' : AllOk body.length (acc ++ [Access.read 0] ++ [Access.read 1]) :=
      (hacc.snoc (by simp only [Access.Ok]; omega)).snoc (by simp only [Access.Ok]; omega)
    have ht := topicLength_toNat body acc
    by_cases h0 : topicLength body = 0
    · left
      simp only [Reader.byteutilReadUTF, Reader.byteutilReadUint16, if_pos h2, ht, h0, Nat.lt_irrefl, if_false]
      exact ⟨Or.inr (Or.inl trivial), trivial, hacc'⟩
    · have hpos : 0 < topicLength body := by omega
      rcases malloc_cases (topicLength body + 1) ms with ⟨hd, hm⟩ | ⟨hd, block, hm, -⟩
      · left
        simp only [Reader.byteutilReadUTF, Reader.byteutilReadUint16, if_pos h2, ht, if_pos hpos, hm]
        exact ⟨Or.inr (Or.inr hd), trivial, hacc'⟩
      · right
        refine ⟨h2, h0, hd, _, hacc', ?_⟩
        simp only [Reader.byteutilReadUTF, Reader.byteutilReadUint16, if_pos h2, ht, if_pos hpos, hm, Reader.memcpy,
          Reader.note, Nat.zero_add]
  · left
    simp only [Reader.byteutilReadUTF, Reader.byteutilReadUint16, if_neg h2]
    exact ⟨Or.inl (by omega), rfl, hacc⟩

/-- Behind a topic that fits, reading the packet id stays inside the body. -/
theorem readPacketId_ok (qosValue : QosValue) {body : List UInt8} {i : Nat} {acc : List Access}
    (hacc : AllOk body.length acc) (hi : i ≤ body.length) :
    ∃ id n acc', readPacketId qosValue ⟨body, i, acc⟩ body.length = (id, ⟨body, i + n, acc'⟩) ∧
      AllOk body.length acc' ∧ i + n ≤ body.length ∧
      (n = if qosValue ≠ .deliverAtMostOnce ∧ i + 2 ≤ body.length then 2 else 0) := by
  have hsub : AllOk body.length (acc ++ [Access.sub body.length i]) := hacc.snoc hi
  by_cases hq : qosValue = .deliverAtMostOnce
  · refine ⟨0, 0, _, ?_, hsub, hi, ?_⟩
    · simp only [readPacketId, hq, ne_eq, not_true_eq_false, if_false, Reader.remaining, Reader.note, Nat.add_zero]
    · simp only [hq, ne_eq, not_true_eq_false, false_and, if_false]
  · have hr : subSize body.length i = body.length - i := if_pos hi
    by_cases h2 : 2 ≤ body.length - i
    · refine ⟨((Reader.mk body i (acc ++ [.sub body.length i])).byteutilReadUint16 (body.length - i)).1, 2, _, ?_,
        (hsub.snoc (a := .read i) ?_).snoc (a := .read (i + 1)) ?_, by omega, ?_⟩
      · simp only [readPacketId, hq, ne_eq, not_false_eq_true, if_true, Reader.remaining, Reader.note,
          Reader.byteutilReadUint16, hr, if_pos h2]
      · simp only [Access.Ok]; omega
      · simp only [Access.Ok]; omega
      · rw [if_pos ⟨hq, by omega⟩]
    · refine ⟨0, 0, _, ?_, hsub, hi, ?_⟩
      · simp only [readPacketId, hq, ne_eq, not_false_eq_true, if_true, Reader.remaining, Reader.note,
          Reader.byteutilReadUint16, hr, if_neg h2, Nat.add_zero]
      · rw [if_neg fun h => h2 (by omega)]

/-- The rest of the branch, behind a topic that fits. -/
theorem decodePublish_fits (flags : UInt8) {body : List UInt8} {acc acc' : List Access} {ms ms' : Mallocs}
    {topic : CString} {i : Nat}
    (hutf : (Reader.mk body 0 (acc ++ [.sub body.length 0])).byteutilReadUTF body.length ms = (some topic, ⟨body, i, acc'⟩, ms'))
    (hacc' : AllOk body.length acc') (hi : i ≤ body.length) :
    AllOk body.length (decodePublish flags ⟨body, 0, acc⟩ body.length ms).accesses ∧
    ∃ n, (n = if qosFlag flags ≠ .deliverAtMostOnce ∧ i + 2 ≤ body.length then 2 else 0) ∧
      ((∃ e, (decodePublish flags ⟨body, 0, acc⟩ body.length ms).verdict = .error e) ↔
        denied ms' 0 ∨ ¬ denied ms' 1 ∧ i + n < body.length ∧ denied ms' 2) := by
  obtain ⟨id, n, acc2, hid, hacc2, hin, hn⟩ := readPacketId_ok (qosFlag flags) hacc' hi
  have hsize : subSize body.length (i + n) = body.length - (i + n) := if_pos hin
  have hok : AllOk body.length (acc2 ++ [Access.sub body.length (i + n)] ++ [.copy (i + n) (body.length - (i + n))]) :=
    (hacc2.snoc (a := .sub body.length (i + n)) hin).snoc (Or.inr (by omega))
  have hpay : 0 < body.length - (i + n) ↔ i + n < body.length := by omega
  have hnull := mqttmessageCreate_null_iff id topic (qosFlag flags) ((body.drop (i + n)).take (body.length - (i + n)))
    (body.length - (i + n)) ms'
  have hfirst : (Reader.mk body 0 acc).remaining body.length = (body.length, ⟨body, 0, acc ++ [.sub body.length 0]⟩) := by
    simp only [Reader.remaining, Reader.note, subSize, Nat.zero_le, if_true, Nat.sub_zero]
  have hlast : (Reader.mk body (i + n) acc2).remaining body.length =
      (body.length - (i + n), ⟨body, i + n, acc2 ++ [.sub body.length (i + n)]⟩) := by
    simp only [Reader.remaining, Reader.note, hsize]
  simp only [decodePublish, hfirst, hutf, hid, hlast, Reader.memcpy, Reader.note]
  rcases hc : mqttmessageCreate id (some topic) (qosFlag flags) ((body.drop (i + n)).take (body.length - (i + n)))
    (body.length - (i + n)) ms' with ⟨result, ms2⟩
  rw [hc, hpay] at hnull
  refine ⟨?_, n, hn, ?_⟩
  · cases result <;> exact hok
  · rw [← hnull]
    cases result with
    | created m => exact ⟨fun ⟨e, h⟩ => (nomatch h), fun h => (nomatch h)⟩
    | null => exact ⟨fun _ => rfl, fun _ => ⟨_, rfl⟩⟩
    | nullWrite => exact ⟨fun ⟨e, h⟩ => (nomatch h), fun h => (nomatch h)⟩

theorem readPacketId_mem {a : Access} {qosValue : QosValue} {r : Reader} {len : Nat} (h : a ∈ r.accesses) :
    a ∈ (readPacketId qosValue r len).2.accesses := by
  have hr : a ∈ (r.remaining len).2.accesses := List.mem_append_left _ h
  unfold readPacketId
  rcases hrem : r.remaining len with ⟨length, r'⟩
  rw [hrem] at hr
  simp only
  split
  · unfold Reader.byteutilReadUint16
    split
    · exact List.mem_append_left _ (List.mem_append_left _ hr)
    · exact hr
  · exact hr

/-- The copy of the topic is among the accesses, whatever comes behind it. -/
theorem decodePublish_copies {flags : UInt8} {body : List UInt8} {acc acc' acc1 : List Access} {ms ms' : Mallocs}
    {topic : CString} {i n : Nat} (hfirst : (Reader.mk body 0 acc).remaining body.length = (body.length, ⟨body, 0, acc1⟩))
    (hutf : (Reader.mk body 0 acc1).byteutilReadUTF body.length ms = (some topic, ⟨body, i, acc' ++ [.copy 2 n]⟩, ms')) :
    .copy 2 n ∈ (decodePublish flags ⟨body, 0, acc⟩ body.length ms).accesses := by
  have hid : .copy 2 n ∈ (readPacketId (qosFlag flags) ⟨body, i, acc' ++ [.copy 2 n]⟩ body.length).2.accesses :=
    readPacketId_mem (List.mem_append_right _ List.mem_cons_self)
  simp only [decodePublish, hfirst, hutf]
  split <;> exact List.mem_append_left _ (List.mem_append_left _ hid)

theorem decodePublish_guarded (flags : UInt8) {body : List UInt8} {acc : List Access} (hacc : AllOk body.length acc)
    (ms : Mallocs) :
    (AllOk body.length (decodePublish flags ⟨body, 0, acc⟩ body.length ms).accesses ∧
      (body.length < 2 + topicLength body ∨
          qosFlag flags ≠ .deliverAtMostOnce ∧ body.length < 2 + topicLength body + 2 →
        ∃ e, (decodePublish flags ⟨body, 0, acc⟩ body.length ms).verdict = .error e)) ↔
      PublishFits flags body ms := by
  have hacc' : AllOk body.length (acc ++ [Access.sub body.length 0]) := hacc.snoc (Nat.zero_le _)
  have hfirst : (Reader.mk body 0 acc).remaining body.length = (body.length, ⟨body, 0, acc ++ [.sub body.length 0]⟩) := by
    simp only [Reader.remaining, Reader.note, subSize, Nat.zero_le, if_true, Nat.sub_zero]
  rcases readUTF_cases body _ ms hacc' with ⟨hwhy, hnone, hok⟩ | ⟨h2, h0, hd, acc', hok, hsome⟩
  · -- no topic: the error comes before anything else is read
    rcases hr : (Reader.mk body 0 (acc ++ [.sub body.length 0])).byteutilReadUTF body.length ms with ⟨t, r, ms'⟩
    rw [hr] at hnone hok
    simp only at hnone hok
    subst hnone
    have hfits : PublishFits flags body ms := by
      rcases hwhy with h | h | h
      · exact Or.inl h
      · exact Or.inr (Or.inl h)
      · exact Or.inr (Or.inr (Or.inl h))
    simp only [decodePublish, hfirst, hr]
    exact ⟨fun _ => hfits, fun _ => ⟨hok, fun _ => ⟨_, rfl⟩⟩⟩
  · have hnot : ¬ (body.length < 2 ∨ topicLength body = 0 ∨ denied ms 0) := by
      rintro (h | h | h)
      · omega
      · exact h0 h
      · exact hd h
    by_cases hfit : 2 + topicLength body ≤ body.length
    · obtain ⟨hall, n, hn, herr⟩ := decodePublish_fits flags hsome
        (hok.snoc (a := .copy 2 (topicLength body)) (Or.inr hfit)) hfit
      rw [denied_tail, denied_tail, denied_tail] at herr
      rw [herr]
      simp only [PublishFits, ← or_assoc]
      simp only [or_assoc, or_iff_right hnot, hall, hfit, true_and]
      by_cases hid : qosFlag flags ≠ .deliverAtMostOnce ∧ 2 + topicLength body + 2 ≤ body.length
      · constructor
        · intro _; exact Or.inr (Or.inl hid.2)
        · intro _ h; omega
      · rw [if_neg hid] at hn
        subst hn
        rw [Nat.add_zero]
        constructor
        · intro h
          by_cases hq : qosFlag flags = .deliverAtMostOnce
          · exact Or.inl hq
          · have : ¬ 2 + topicLength body + 2 ≤ body.length := fun h2 => hid ⟨hq, h2⟩
            exact Or.inr (Or.inr (h (Or.inr ⟨hq, by omega⟩)))
        · rintro (hq | h4 | h) hs
          · rcases hs with hs | ⟨hs, -⟩
            · omega
            · exact absurd hq hs
          · rcases hs with hs | ⟨-, hs⟩ <;> omega
          · exact h
    · -- the topic is copied from behind the body
      have hbad : ¬ AllOk body.length (decodePublish flags ⟨body, 0, acc⟩ body.length ms).accesses := by
        intro hall
        have hcopy := hall (.copy 2 (topicLength body)) (decodePublish_copies hfirst hsome)
        rcases hcopy with h | h
        · exact h0 h
        · exact hfit h
      constructor
      · intro h; exact absurd h.1 hbad
      · intro h
        simp only [PublishFits, ← or_assoc] at h
        rcases h with h | h
        · exact absurd (by simpa only [or_assoc] using h) hnot
        · exact absurd h.1 hfit

/-! ## Every packet -/

def Reader.start (client : MqttClient) (body : List UInt8) : Reader :=
  ⟨body, 0, rawTraceAccesses client (some body) body.length⟩

/-- What `decode` makes of a packet with a body, with the callbacks set. -/
theorem decode_body (client : MqttClient) (hop : client.fnOperationCallback = true) (hmsg : client.fnMessageRecv = true)
    (type : ControlPacketType) (flags : UInt8) {body : List UInt8} (hbody : 1 ≤ body.length) (ms : Mallocs) :
    decode client ⟨type, flags, some (Buffer.ofBytes body)⟩ ms =
      match type with
      | .connack => decodeConnack (.start client body) ms
      | .publish => decodePublish flags (.start client body) body.length ms
      | .puback | .pubrec | .pubrel | .pubcomp => decodePublishAck type (.start client body) body.length ms
      | .suback => decodeSuback (.start client body) body.length ms
      | .unsuback => decodeUnsuback (.start client body) body.length ms
      | .pingresp => ⟨.pingresp, rawTraceAccesses client (some body) body.length, ms⟩
      | _ => ⟨.ignored, rawTraceAccesses client (some body) body.length, ms⟩ := by
  have hu : Buffer.uChar (some (Buffer.ofBytes body)) = some body :=
    Buffer.uChar_ofBytes (List.ne_nil_of_length_pos hbody)
  have hlen : body.length ≠ 0 := by omega
  cases type <;>
    simp only [decode, Option.isNone_some, Bool.false_eq_true, false_and, if_false, hu, Buffer.length_ofBytes, hlen,
      or_self, hop, hmsg, if_true, Option.getD_some, Reader.start]

/-- The types that start with two bytes never report an error for the want of them. -/
theorem twoBytes_guarded {body : List UInt8} {d : Decoded} (hok : AllOk body.length d.accesses → 2 ≤ body.length ∨ ∀ e, d.verdict ≠ .error e)
    (hall : 2 ≤ body.length → AllOk body.length d.accesses) :
    (AllOk body.length d.accesses ∧ (body.length < 2 → ∃ e, d.verdict = .error e)) ↔ 2 ≤ body.length := by
  constructor
  · rintro ⟨ha, herr⟩
    rcases hok ha with h | h
    · exact h
    · by_cases h2 : 2 ≤ body.length
      · exact h2
      · obtain ⟨e, he⟩ := herr (by omega)
        exact absurd he (h e)
  · intro h
    exact ⟨hall h, fun hs => by omega⟩

/-- A packet is read inside its body, and one that is too short reported, exactly when its
    body fits. -/
theorem decode_guarded_iff (client : MqttClient) (hop : client.fnOperationCallback = true)
    (hmsg : client.fnMessageRecv = true) (type : ControlPacketType) (flags : UInt8) (body : List UInt8)
    (hbody : 1 ≤ body.length) (ms : Mallocs) :
    Guarded client type flags body ms ↔ BodyFits type flags body ms := by
  have hraw : AllOk body.length (Reader.start client body).accesses := rawTraceAccesses_ok client (some body) body.length
  have hack : ∀ t, (AllOk body.length (decodePublishAck t (.start client body) body.length ms).accesses ∧
      (body.length < 2 → ∃ e, (decodePublishAck t (.start client body) body.length ms).verdict = .error e)) ↔
      2 ≤ body.length := fun t =>
    twoBytes_guarded (fun _ => Or.inr fun e => by simp [decodePublishAck]) fun _ => readUint16_ok hraw rfl
  simp only [Guarded, decode_body client hop hmsg type flags hbody ms, BodyFits]
  cases type with
  | connack =>
    have : TooShort .connack flags body ↔ body.length < 2 := by simp [TooShort, TwoBytes]
    rw [this, twoBytes_guarded (fun h => Or.inl ((decodeConnack_ok hraw rfl ms).mp h)) (decodeConnack_ok hraw rfl ms).mpr]
    simp [TwoBytes]
  | publish =>
    have : TooShort .publish flags body ↔ (body.length < 2 + topicLength body ∨
        qosFlag flags ≠ .deliverAtMostOnce ∧ body.length < 2 + topicLength body + 2) := by simp [TooShort, TwoBytes]
    rw [this]
    refine (decodePublish_guarded flags hraw ms).trans ?_
    simp [TwoBytes]
  | puback | pubrec | pubrel | pubcomp =>
    simp only [TooShort, TwoBytes, List.mem_cons, reduceCtorEq, true_or, or_true, true_and, false_and, or_false, hack,
      false_implies, and_true, true_implies]
  | suback =>
    have : TooShort .suback flags body ↔ body.length < 2 := by simp [TooShort, TwoBytes]
    rw [this, twoBytes_guarded (fun h => Or.inl ((decodeSuback_ok hraw rfl ms).mp h)) (decodeSuback_ok hraw rfl ms).mpr]
    simp [TwoBytes]
  | unsuback =>
    have : TooShort .unsuback flags body ↔ body.length < 2 := by simp [TooShort, TwoBytes]
    rw [this, twoBytes_guarded (d := decodeUnsuback _ _ _) (fun _ => Or.inr fun e => by simp [decodeUnsuback])
      fun _ => readUint16_ok hraw rfl]
    simp [TwoBytes]
  | _ =>
    refine ⟨fun _ => ⟨fun h => ?_, fun h => (nomatch h)⟩, fun _ => ⟨hraw, fun h => ?_⟩⟩
    · simp [TwoBytes] at h
    · simp [TooShort, TwoBytes] at h

theorem connack_guarded : Guarded (MqttClient.init true true true) .connack 0 [0, 5] [] :=
  (decode_guarded_iff _ rfl rfl .connack 0 [0, 5] (by decide) []).mpr ⟨by decide, fun h => (nomatch h)⟩

/-- The return code of a CONNACK with a body of one byte is read from behind it. -/
theorem connack_overread : ¬ Guarded (MqttClient.init true true true) .connack 0 [0] [] := by
  intro h
  have : (Access.read 1).Ok 1 := h.1 (.read 1) (by decide)
  exact absurd this (by decide)

end UMqtt.Client

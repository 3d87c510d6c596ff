/-
  UMqtt.Codec.Connect — what `mqtt_codec_connect` puts on the wire.

  The packet is built in three places: the variable header with a flag byte of 0, the
  payload behind it, which sets the flags at their offset as it goes, and the fixed header
  in front. `packetBytes` is what they amount to, of options that are `Sendable`
  (`mqttCodecConnectLogged_succeed`), and a reader of CONNECT packets gets the options back
  from it (`mqttCodecConnect_parses`).

  With a trace log the same packet is built beside a text. `mqttCodecConnectLogged` is
  `mqttCodecConnect` with the calls that write that text.
-/

import UMqtt.Codec.Encode
import UMqtt.Wire.Connect

namespace UMqtt.Codec

open UMqtt.Lib UMqtt.Crt

/-! ## The trace log -/

def protocolNumber : Nat := 4

def constructConnectVariableHeaderLogged (ctrlPacket : Buffer) (mqttOptions : MqttClientOptions) (traceLog : StringHandle)
    (ms : Mallocs) : Nat × Buffer × StringHandle × Mallocs :=
  match constructConnectVariableHeader ctrlPacket mqttOptions ms with
  | (0, ctrlPacket, ms) =>
    let r := stringSprintf traceLog (ascii " | VER: " ++ decimal protocolNumber ++ ascii " | KEEPALIVE: " ++
      decimal mqttOptions.keepAliveInterval.toNat ++ ascii " | FLAGS:") ms
    (0, ctrlPacket, r.2.1, r.2.2)
  | (result, ctrlPacket, ms) => (result, ctrlPacket, traceLog, ms)

def payloadTrace (mqttOptions : MqttClientOptions) : List (List UInt8) :=
  (if 0 < optionLen mqttOptions.willMessage ∧ 0 < optionLen mqttOptions.willTopic then
    [ascii " | WILL_TOPIC: " ++ optionBytes mqttOptions.willTopic] else []) ++
  (if 0 < optionLen mqttOptions.username then [ascii " | USERNAME: " ++ optionBytes mqttOptions.username] else []) ++
  (if 0 < optionLen mqttOptions.password then [ascii " | PWD: XXXX"] else []) ++
  [ascii " | CLEAN: " ++ ascii (if mqttOptions.useCleanSession then "1" else "0")]

def sprintfAll : List (List UInt8) → StringHandle → Mallocs → StringHandle × Mallocs
  | [], handle, ms => (handle, ms)
  | text :: texts, handle, ms =>
    let r := stringSprintf handle text ms
    sprintfAll texts r.2.1 r.2.2

/-- What `constructConnPayload` does for a trace log that is not NULL. -/
def logConnPayload (mqttOptions : MqttClientOptions) (flags : UInt8) (traceLog : StringHandle) (ms : Mallocs) :
    StringHandle × Mallocs :=
  let new := stringNew ms
  let connectPayloadTrace := sprintfAll (payloadTrace mqttOptions) new.1 new.2
  let log := stringSprintf traceLog (ascii " " ++ decimal flags.toNat) connectPayloadTrace.2
  (stringConcat log.2.1 connectPayloadTrace.1 log.2.2).2

def constructConnPayloadLogged (ctrlPacket : Buffer) (mqttOptions : MqttClientOptions) (traceLog : StringHandle)
    (ms : Mallocs) : Nat × Buffer × StringHandle × Mallocs :=
  match constructConnPayload ctrlPacket mqttOptions ms with
  | (0, ctrlPacket, ms) =>
    let r := if traceLog.isSome then
        logConnPayload mqttOptions (((ctrlPacket.buffer.getD [])[7]?).getD 0) traceLog ms
      else (traceLog, ms)
    (0, ctrlPacket, r.1, r.2)
  | (result, ctrlPacket, ms) => (result, ctrlPacket, traceLog, ms)

/-- `mqtt_codec_connect` with its `trace_log`, NULL or not. -/
def mqttCodecConnectLogged (mqttOptions : MqttClientOptions) (traceLog : StringHandle) (ms : Mallocs) :
    Option Buffer × StringHandle × Mallocs :=
  match Buffer.new ms with
  | (none, ms) => (none, traceLog, ms)
  | (some result, ms) =>
    let (varibleHeaderLog, ms) := if traceLog.isSome then stringNew ms else (none, ms)
    match constructConnectVariableHeaderLogged result mqttOptions varibleHeaderLog ms with
    | (0, result, varibleHeaderLog, ms) =>
      match constructConnPayloadLogged result mqttOptions varibleHeaderLog ms with
      | (0, result, varibleHeaderLog, ms) =>
        let (_, traceLog, ms) := stringCopy traceLog (ascii "CONNECT") ms
        match finish result .connect 0 ms with
        | (none, ms) => (none, traceLog, ms)
        | (some result, ms) => (some result, (stringConcat traceLog varibleHeaderLog ms).2)
      | (_, _, _, ms) => (none, traceLog, ms)
    | (_, _, _, ms) => (none, traceLog, ms)

/-! ## The packet -/

/-- Options that a CONNECT can carry: every string fits and is either NULL or, but for the client
    identifier, not empty; a will has a topic and a message, a password a user name. -/
structure Sendable (o : MqttClientOptions) : Prop where
  clientId : o.clientId.isSome
  nonempty : ∀ s ∈ [o.willTopic, o.willMessage, o.username, o.password], ∀ t ∈ s, t.bytes ≠ []
  will : o.willTopic.isSome = o.willMessage.isSome
  password : o.password.isSome → o.username.isSome
  fits : ∀ s ∈ [o.clientId, o.willTopic, o.willMessage, o.username, o.password], optionLen s ≤ ushrtMax
  qos : o.qualityOfServiceValue ∈ [.deliverAtMostOnce, .deliverAtLeastOnce, .deliverExactlyOnce]

def connectHeader (flags : UInt8) (keepAlive : UInt16) : List UInt8 :=
  utf [0x4d, 0x51, 0x54, 0x54] ++ [4, flags] ++ be16 keepAlive

def willFlags (o : MqttClientOptions) (f : UInt8) : UInt8 :=
  let qos : UInt8 := o.qualityOfServiceValue.value <<< 3
  let f := f ||| 0x04 ||| qos
  if o.messageRetain then f ||| 0x20 else f

def connectFlags (o : MqttClientOptions) : UInt8 :=
  let f := if o.willTopic.isSome then willFlags o 0 else 0
  let f := if o.username.isSome then f ||| 0x80 else f
  let f := if o.password.isSome then f ||| 0x40 else f
  if o.useCleanSession then f ||| 0x02 else f

def optionUtf (s : Option CString) : List UInt8 := if s.isSome then utf (optionBytes s) else []

def connectBody (o : MqttClientOptions) : List UInt8 :=
  connectHeader (connectFlags o) o.keepAliveInterval ++ utf (optionBytes o.clientId) ++ optionUtf o.willTopic ++
    optionUtf o.willMessage ++ optionUtf o.username ++ optionUtf o.password

def packetBytes (o : MqttClientOptions) : List UInt8 :=
  (ControlPacketType.connect.value ||| 0) :: (Base128.encode (connectBody o).length ++ connectBody o)

theorem length_optionUtf (s : Option CString) : (optionUtf s).length = optionLen s + optionSpace s := by
  cases s with
  | none => rfl
  | some t => exact length_utf t.bytes

theorem optionLen_pos {s : Option CString} (h : ∀ t ∈ s, t.bytes ≠ []) : 0 < optionLen s ↔ s.isSome := by
  cases s with
  | none => exact ⟨fun hn => absurd hn (Nat.lt_irrefl 0), nofun⟩
  | some t => exact ⟨fun _ => rfl, fun _ => List.length_pos_iff.mpr (h t rfl)⟩

/-! ## What the payload writes -/

def HasWill (o : MqttClientOptions) : Prop := 0 < optionLen o.willMessage ∧ 0 < optionLen o.willTopic

instance (o : MqttClientOptions) : Decidable (HasWill o) := inferInstanceAs (Decidable (_ ∧ _))

def willUtf (o : MqttClientOptions) : List UInt8 :=
  if HasWill o then utf (optionBytes o.willTopic) ++ utf (optionBytes o.willMessage) else []

def nonemptyUtf (s : Option CString) : List UInt8 := if 0 < optionLen s then utf (optionBytes s) else []

/-- The writes of `constructConnPayload` into the enlarged packet. -/
def connPayloadCursor (ctrlPacket : Buffer) (currLen : Nat) (o : MqttClientOptions) : Cursor :=
  let c := (Cursor.mk ctrlPacket currLen).byteutilWriteUTF (optionBytes o.clientId)
  let c :=
    if HasWill o then
      let c := (orFlag c 0x04).byteutilWriteUTF (optionBytes o.willTopic)
      let c := orFlag c (o.qualityOfServiceValue.value <<< 3)
      let c := if o.messageRetain then orFlag c 0x20 else c
      c.byteutilWriteUTF (optionBytes o.willMessage)
    else c
  let c := if 0 < optionLen o.username then (orFlag c 0x80).byteutilWriteUTF (optionBytes o.username) else c
  let c := if 0 < optionLen o.password then (orFlag c 0x40).byteutilWriteUTF (optionBytes o.password) else c
  if o.useCleanSession then orFlag c 0x02 else c

def connPayloadLen (o : MqttClientOptions) : Nat :=
  optionLen o.clientId + optionLen o.username + optionLen o.password + optionLen o.willMessage + optionLen o.willTopic +
    (optionSpace o.clientId + optionSpace o.username + optionSpace o.password + optionSpace o.willMessage +
      optionSpace o.willTopic)

/-- The options pass the checks of `constructConnPayload`. -/
structure Accepted (o : MqttClientOptions) : Prop where
  password : 0 < optionLen o.password → 0 < optionLen o.username
  will : 0 < optionLen o.willMessage ↔ 0 < optionLen o.willTopic
  fits : ∀ s ∈ [o.clientId, o.willTopic, o.willMessage, o.username, o.password], optionLen s ≤ ushrtMax

def writtenFlags (o : MqttClientOptions) : UInt8 :=
  let f := if HasWill o then willFlags o 0 else 0
  let f := if 0 < optionLen o.username then f ||| 0x80 else f
  let f := if 0 < optionLen o.password then f ||| 0x40 else f
  if o.useCleanSession then f ||| 0x02 else f

def writtenBody (o : MqttClientOptions) : List UInt8 :=
  connectHeader (writtenFlags o) o.keepAliveInterval ++
    (utf (optionBytes o.clientId) ++ willUtf o ++ nonemptyUtf o.username ++ nonemptyUtf o.password)

theorem length_optionBytes (s : Option CString) : (optionBytes s).length = optionLen s := by cases s <;> rfl

theorem length_nonemptyUtf (s : Option CString) :
    (nonemptyUtf s).length = if 0 < optionLen s then optionLen s + 2 else 0 := by
  unfold nonemptyUtf
  split
  · rw [length_utf, length_optionBytes]
  · rfl

theorem length_willUtf (o : MqttClientOptions) :
    (willUtf o).length = if HasWill o then optionLen o.willTopic + 2 + (optionLen o.willMessage + 2) else 0 := by
  unfold willUtf
  split
  · rw [List.length_append, length_utf, length_utf, length_optionBytes, length_optionBytes]
  · rfl

/-! ## The cursor of the payload -/

/-- Setting a flag changes the eighth byte, which is written already. -/
theorem orFlag_at {c : Cursor} {f : UInt8} {keepAlive : UInt16} {pre : List UInt8} {n : Nat}
    (h : c.At (connectHeader f keepAlive ++ pre) n) (flag : UInt8) :
    (orFlag c flag).At (connectHeader (f ||| flag) keepAlive ++ pre) n := by
  obtain ⟨rest, hb, hl⟩ := h.buffer
  have hsplit : ∀ g, connectHeader g keepAlive ++ pre ++ rest =
      [0, 4, 0x4d, 0x51, 0x54, 0x54, 4] ++ [g] ++ (be16 keepAlive ++ pre ++ rest) := by
    intro g
    simp only [connectHeader, List.append_assoc, List.cons_append, List.nil_append]
    rfl
  refine ⟨h.iterator.trans (by simp only [connectHeader, List.length_append, List.length_cons]), rest, ?_, hl⟩
  simp only [orFlag, hb, hsplit]
  have hwrite : (Buffer.ofBytes ([0, 4, 0x4d, 0x51, 0x54, 0x54, 4] ++ [f] ++ (be16 keepAlive ++ pre ++ rest))).write 7
      [f ||| flag] = _ := Buffer.write_at rfl
  exact hwrite

section Stages

variable {c : Cursor} {f : UInt8} {keepAlive : UInt16} {pre : List UInt8} {n : Nat}

/-- A user name or a password, when it is not empty. -/
theorem string_at (h : c.At (connectHeader f keepAlive ++ pre) n) (flag : UInt8) (s : Option CString)
    (hn : (nonemptyUtf s).length ≤ n) :
    (if 0 < optionLen s then (orFlag c flag).byteutilWriteUTF (optionBytes s) else c).At
      (connectHeader (if 0 < optionLen s then f ||| flag else f) keepAlive ++ (pre ++ nonemptyUtf s))
      (n - (nonemptyUtf s).length) := by
  unfold nonemptyUtf at hn ⊢
  by_cases hp : 0 < optionLen s
  · rw [if_pos hp, length_utf] at hn
    have hw := (orFlag_at h flag).utf (optionBytes s) hn
    rw [List.append_assoc] at hw
    rw [if_pos hp, if_pos hp, if_pos hp, length_utf]
    exact hw
  · rw [if_neg hp, if_neg hp, if_neg hp, List.append_nil, List.length_nil, Nat.sub_zero]
    exact h

/-- The will, when there is one. -/
theorem will_at (o : MqttClientOptions) (h : c.At (connectHeader f keepAlive ++ pre) n) (hn : (willUtf o).length ≤ n) :
    (if HasWill o then
      let c := (orFlag c 0x04).byteutilWriteUTF (optionBytes o.willTopic)
      let c := orFlag c (o.qualityOfServiceValue.value <<< 3)
      let c := if o.messageRetain then orFlag c 0x20 else c
      c.byteutilWriteUTF (optionBytes o.willMessage)
    else c).At
      (connectHeader (if HasWill o then willFlags o f else f) keepAlive ++ (pre ++ willUtf o))
      (n - (willUtf o).length) := by
  unfold willUtf at hn ⊢
  by_cases hp : HasWill o
  · rw [if_pos hp, List.length_append, length_utf, length_utf] at hn
    have h1 := (orFlag_at h 0x04).utf (optionBytes o.willTopic) (by omega)
    rw [List.append_assoc] at h1
    have h2 := orFlag_at h1 (o.qualityOfServiceValue.value <<< 3)
    have h3 : (if o.messageRetain then orFlag (orFlag ((orFlag c 0x04).byteutilWriteUTF (optionBytes o.willTopic))
          (o.qualityOfServiceValue.value <<< 3)) 0x20
        else orFlag ((orFlag c 0x04).byteutilWriteUTF (optionBytes o.willTopic))
          (o.qualityOfServiceValue.value <<< 3)).At
        (connectHeader (willFlags o f) keepAlive ++ (pre ++ utf (optionBytes o.willTopic)))
        (n - ((optionBytes o.willTopic).length + 2)) := by
      unfold willFlags
      split
      · exact orFlag_at h2 0x20
      · exact h2
    have h4 := h3.utf (optionBytes o.willMessage) (by omega)
    rw [List.append_assoc, List.append_assoc, Nat.sub_sub] at h4
    rw [if_pos hp, if_pos hp, if_pos hp, List.length_append, length_utf, length_utf]
    exact h4
  · rw [if_neg hp, if_neg hp, if_neg hp, List.append_nil, List.length_nil, Nat.sub_zero]
    exact h

theorem clean_at (h : c.At (connectHeader f keepAlive ++ pre) n) (useCleanSession : Bool) :
    (if useCleanSession then orFlag c 0x02 else c).At
      (connectHeader (if useCleanSession then f ||| 0x02 else f) keepAlive ++ pre) n := by
  cases useCleanSession with
  | true => exact orFlag_at h 0x02
  | false => exact h

end Stages

/-! ## Building it -/

theorem constructConnectVariableHeader_succeed {ms : Mallocs} (hm : Succeed ms) (o : MqttClientOptions) :
    ∃ ms', constructConnectVariableHeader ⟨none, 0, false⟩ o ms =
      (0, Buffer.ofBytes (connectHeader 0 o.keepAliveInterval), ms') ∧ Succeed ms' := by
  obtain ⟨fresh, ms', he, hl, hs⟩ := Buffer.enlarge_new_succeed hm (n := 10) (by decide) (by decide)
  have hc := ((((Cursor.At.start fresh).utf [0x4d, 0x51, 0x54, 0x54] (by simp [hl])).byte (by simp [hl]) 4).byte
    (by simp [hl]) 0).int (by simp [hl]) o.keepAliveInterval
  rw [hl] at hc
  refine ⟨ms', ?_, hs⟩
  simp only [constructConnectVariableHeader, he, uChar_isNone fresh (by omega), Bool.false_eq_true, if_false, hc.done]
  rfl

theorem Accepted.clientFits {o : MqttClientOptions} (ha : Accepted o) : ¬ ushrtMax < optionLen o.clientId := by
  have hid := ha.fits o.clientId (by simp)
  omega

theorem Accepted.total {o : MqttClientOptions} (ha : Accepted o) : connPayloadLen o ≤ 5 * 65537 := by
  have hlen : ∀ s ∈ [o.clientId, o.willTopic, o.willMessage, o.username, o.password], optionLen s + optionSpace s ≤ 65537 := by
    intro s hs
    have hfit : optionLen s ≤ 65535 := ha.fits s hs
    unfold optionSpace
    split <;> omega
  have h1 := hlen o.clientId (by simp)
  have h2 := hlen o.willTopic (by simp)
  have h3 := hlen o.willMessage (by simp)
  have h4 := hlen o.username (by simp)
  have h5 := hlen o.password (by simp)
  unfold connPayloadLen
  omega

/-- What becomes of accepted options, once there is room. -/
theorem constructConnPayload_accepted {o : MqttClientOptions} (ha : Accepted o) {ctrlPacket enlarged : Buffer}
    {ms ms' : Mallocs} (he : ctrlPacket.enlarge (connPayloadLen o) ms = (0, enlarged, ms')) :
    constructConnPayload ctrlPacket o ms =
      (0, (connPayloadCursor enlarged (Buffer.length (some ctrlPacket)) o).buffer, ms') := by
  have htopic := ha.fits o.willTopic (by simp)
  have hmessage := ha.fits o.willMessage (by simp)
  have husername := ha.fits o.username (by simp)
  have hpassword := ha.fits o.password (by simp)
  have hpu : ¬ (optionLen o.username = 0 ∧ 0 < optionLen o.password) := by
    intro h
    have hu := ha.password h.2
    omega
  have hwill : ¬ ((0 < optionLen o.willMessage ∧ optionLen o.willTopic = 0) ∨
      (0 < optionLen o.willTopic ∧ optionLen o.willMessage = 0)) := by
    intro h
    rcases h with h | h
    · have ht := ha.will.mp h.1
      omega
    · have ht := ha.will.mpr h.1
      omega
  have hothersFit : ¬ (ushrtMax < optionLen o.willMessage ∨ ushrtMax < optionLen o.willTopic ∨
      ushrtMax < optionLen o.username ∨ ushrtMax < optionLen o.password) := by omega
  rw [connPayloadLen] at he
  unfold constructConnPayload
  extract_lets clientLen usernameLen passwordLen willMessageLen willTopicLen spaceLen currLen totalLen
  rw [if_neg (show ¬ ushrtMax < clientLen from ha.clientFits), if_neg (show ¬ (usernameLen = 0 ∧ 0 < passwordLen) from hpu),
    if_neg (show ¬ ((0 < willMessageLen ∧ willTopicLen = 0) ∨ (0 < willTopicLen ∧ willMessageLen = 0)) from hwill),
    show ctrlPacket.enlarge totalLen ms = _ from he]
  exact if_neg hothersFit

/-- The options of a payload that is built pass its checks. -/
theorem constructConnPayload_zero {o : MqttClientOptions} {ctrlPacket : Buffer} {ms : Mallocs}
    (h : (constructConnPayload ctrlPacket o ms).1 = 0) :
    Accepted o ∧ (ctrlPacket.enlarge (connPayloadLen o) ms).1 = 0 := by
  unfold constructConnPayload at h
  extract_lets clientLen usernameLen passwordLen willMessageLen willTopicLen spaceLen currLen totalLen at h
  split at h
  · exact absurd h Nat.one_ne_zero
  · rename_i hclient
    split at h
    · exact absurd h Nat.one_ne_zero
    · rename_i hpu
      split at h
      · exact absurd h Nat.one_ne_zero
      · rename_i hwill
        split at h
        · rename_i enlarged ms' he
          split at h
          · exact absurd h Nat.one_ne_zero
          · rename_i hfit
            refine ⟨⟨by omega, by omega, ?_⟩, congrArg Prod.fst he⟩
            intro s hs
            simp only [List.mem_cons, List.not_mem_nil, or_false] at hs
            rcases hs with rfl | rfl | rfl | rfl | rfl <;> omega
        · exact absurd h Nat.one_ne_zero

/-- The payload is written behind the header as far as there is room for it. -/
theorem connPayloadCursor_at (o : MqttClientOptions) {fresh : List UInt8}
    (hn : (writtenBody o).length ≤ 10 + fresh.length) :
    (connPayloadCursor (Buffer.ofBytes (connectHeader 0 o.keepAliveInterval ++ fresh)) 10 o).At (writtenBody o)
      (10 + fresh.length - (writtenBody o).length) := by
  have hheader : ∀ f, (connectHeader f o.keepAliveInterval).length = 10 := fun _ => rfl
  simp only [writtenBody, List.length_append, hheader, length_utf] at hn
  have h1 := (Cursor.At.behind (connectHeader 0 o.keepAliveInterval) fresh).utf (optionBytes o.clientId) (by omega)
  have h2 := will_at o h1 (by omega)
  have h3 := string_at h2 0x80 o.username (by omega)
  have h4 := string_at h3 0x40 o.password (by omega)
  have h5 := clean_at h4 o.useCleanSession
  rw [show fresh.length - ((optionBytes o.clientId).length + 2) - (willUtf o).length - (nonemptyUtf o.username).length -
      (nonemptyUtf o.password).length = 10 + fresh.length - (writtenBody o).length by
    simp only [writtenBody, List.length_append, hheader, length_utf]; omega] at h5
  exact h5

theorem Sendable.accepted {o : MqttClientOptions} (ho : Sendable o) : Accepted o where
  password hp := (optionLen_pos (ho.nonempty _ (by simp))).mpr
    (ho.password ((optionLen_pos (ho.nonempty _ (by simp))).mp hp))
  will := by
    rw [optionLen_pos (ho.nonempty o.willMessage (by simp)), optionLen_pos (ho.nonempty o.willTopic (by simp)), ho.will]
  fits := ho.fits

/-- Sendable options are written as they stand. -/
theorem Sendable.written {o : MqttClientOptions} (ho : Sendable o) :
    writtenBody o = connectBody o ∧ (connectBody o).length = 10 + connPayloadLen o := by
  have hpos : ∀ {s}, s ∈ [o.willTopic, o.willMessage, o.username, o.password] → (0 < optionLen s ↔ s.isSome) :=
    fun hs => optionLen_pos (ho.nonempty _ hs)
  have hutf : ∀ {s}, s ∈ [o.willTopic, o.willMessage, o.username, o.password] → nonemptyUtf s = optionUtf s := by
    intro s hs
    simp only [nonemptyUtf, optionUtf, hpos hs]
  have hwill : HasWill o ↔ o.willTopic.isSome := by
    rw [HasWill, hpos (by simp), hpos (by simp), ← ho.will, and_self]
  have hwillUtf : willUtf o = optionUtf o.willTopic ++ optionUtf o.willMessage := by
    by_cases hp : o.willTopic.isSome
    · rw [willUtf, if_pos (hwill.mpr hp), optionUtf, if_pos hp, optionUtf, if_pos (ho.will.symm.trans hp)]
    · rw [willUtf, if_neg (mt hwill.mp hp), optionUtf, if_neg hp, optionUtf, if_neg (by rw [← ho.will]; exact hp)]
      rfl
  refine ⟨?_, ?_⟩
  · simp only [writtenBody, connectBody, writtenFlags, connectFlags, hwill, hpos (s := o.username) (by simp),
      hpos (s := o.password) (by simp), hutf (s := o.username) (by simp), hutf (s := o.password) (by simp), hwillUtf,
      List.append_assoc]
  · have hid : optionSpace o.clientId = 2 := if_pos ho.clientId
    simp only [connectBody, connPayloadLen, List.length_append, length_utf, length_optionBytes, length_optionUtf, hid,
      show (connectHeader (connectFlags o) o.keepAliveInterval).length = 10 from rfl]
    omega

theorem constructConnPayload_succeed {ms : Mallocs} (hm : Succeed ms) {o : MqttClientOptions} (ho : Sendable o) :
    ∃ ms', constructConnPayload (Buffer.ofBytes (connectHeader 0 o.keepAliveInterval)) o ms =
      (0, Buffer.ofBytes (connectBody o), ms') ∧ Succeed ms' := by
  obtain ⟨hbody, hlen⟩ := ho.written
  have htotal := ho.accepted.total
  have hheader : (connectHeader 0 o.keepAliveInterval).length = 10 := rfl
  have hid : optionSpace o.clientId = 2 := if_pos ho.clientId
  obtain ⟨fresh, ms', he, hl, hsucc⟩ := Buffer.enlarge_succeed hm (connectHeader 0 o.keepAliveInterval)
    (n := connPayloadLen o) (by unfold connPayloadLen; omega) (by omega)
  refine ⟨ms', ?_, hsucc⟩
  have hc := connPayloadCursor_at o (show (writtenBody o).length ≤ 10 + fresh.length by rw [hbody]; omega)
  rw [show 10 + fresh.length - (writtenBody o).length = 0 by rw [hbody]; omega] at hc
  rw [constructConnPayload_accepted ho.accepted he, Buffer.length_ofBytes, hheader, hc.done, hbody]

theorem length_connectBody {o : MqttClientOptions} (ho : Sendable o) : (connectBody o).length < 2 ^ 28 := by
  have hlen : ∀ s ∈ [o.clientId, o.willTopic, o.willMessage, o.username, o.password],
      (optionBytes s).length ≤ 65535 ∧ (optionUtf s).length ≤ 65537 := by
    intro s hs
    have hfit : optionLen s ≤ 65535 := ho.fits s hs
    rw [length_optionUtf]
    cases s with
    | none => exact ⟨Nat.zero_le _, Nat.zero_le _⟩
    | some t => exact ⟨hfit, Nat.add_le_add_right hfit 2⟩
  have h1 := hlen o.clientId (by simp)
  have h2 := hlen o.willTopic (by simp)
  have h3 := hlen o.willMessage (by simp)
  have h4 := hlen o.username (by simp)
  have h5 := hlen o.password (by simp)
  simp only [connectBody, connectHeader, List.length_append, length_utf, be16, List.length_cons, List.length_nil]
  omega

theorem sprintfAll_succeed (texts : List (List UInt8)) (handle : StringHandle) {ms : Mallocs} (hm : Succeed ms) :
    Succeed (sprintfAll texts handle ms).2 := by
  induction texts generalizing handle ms with
  | nil => exact hm
  | cons text texts ih => exact ih _ (stringSprintf_succeed hm handle text)

theorem logConnPayload_succeed (o : MqttClientOptions) (flags : UInt8) (traceLog : StringHandle) {ms : Mallocs}
    (hm : Succeed ms) : Succeed (logConnPayload o flags traceLog ms).2 := by
  apply stringConcat_succeed
  apply stringSprintf_succeed
  apply sprintfAll_succeed
  exact stringNew_succeed hm

/-- With a trace log or without one, the packet is the same. -/
theorem mqttCodecConnectLogged_succeed {ms : Mallocs} (hm : Succeed ms) {o : MqttClientOptions} (ho : Sendable o)
    (traceLog : StringHandle) :
    (mqttCodecConnectLogged o traceLog ms).1 = some (Buffer.ofBytes (packetBytes o)) := by
  obtain ⟨ms1, h1, hs1⟩ := Buffer.new_succeed hm
  obtain ⟨log, ms2, h2, hs2⟩ : ∃ log ms2, (if traceLog.isSome then stringNew ms1 else (none, ms1)) = (log, ms2) ∧
      Succeed ms2 := by
    cases traceLog with
    | none => exact ⟨_, _, rfl, hs1⟩
    | some text => exact ⟨_, _, rfl, stringNew_succeed hs1⟩
  obtain ⟨ms3, h3, hs3⟩ := constructConnectVariableHeader_succeed hs2 o
  obtain ⟨log', ms4, h4, hs4⟩ : ∃ log' ms4, constructConnectVariableHeaderLogged ⟨none, 0, false⟩ o log ms2 =
      (0, Buffer.ofBytes (connectHeader 0 o.keepAliveInterval), log', ms4) ∧ Succeed ms4 := by
    simp only [constructConnectVariableHeaderLogged, h3]
    exact ⟨_, _, rfl, stringSprintf_succeed hs3 _ _⟩
  obtain ⟨ms5, h5, hs5⟩ := constructConnPayload_succeed hs4 ho
  obtain ⟨log'', ms6, h6, hs6⟩ : ∃ log'' ms6, constructConnPayloadLogged
      (Buffer.ofBytes (connectHeader 0 o.keepAliveInterval)) o log' ms4 =
        (0, Buffer.ofBytes (connectBody o), log'', ms6) ∧ Succeed ms6 := by
    simp only [constructConnPayloadLogged, h5]
    refine ⟨_, _, rfl, ?_⟩
    split
    · exact logConnPayload_succeed _ _ _ hs5
    · exact hs5
  have hs7 := stringCopy_succeed hs6 traceLog (ascii "CONNECT")
  obtain ⟨ms8, h8, -⟩ := finish_succeed hs7 (length_connectBody ho) .connect 0
  simp only [mqttCodecConnectLogged, h1, h2, h4, h6, h8]
  rfl

/-- `mqtt_codec_connect` is called with NULL where no log is kept. -/
theorem mqttCodecConnectLogged_none (o : MqttClientOptions) (ms : Mallocs) :
    (mqttCodecConnectLogged o none ms).1 = (mqttCodecConnect o ms).1 ∧
      (mqttCodecConnectLogged o none ms).2.2 = (mqttCodecConnect o ms).2 := by
  unfold mqttCodecConnectLogged mqttCodecConnect
  rcases Buffer.new ms with ⟨result, ms1⟩
  cases result with
  | none => exact ⟨rfl, rfl⟩
  | some result =>
    simp only [Option.isSome_none, Bool.false_eq_true, if_false, constructConnectVariableHeaderLogged]
    rcases constructConnectVariableHeader result o ms1 with ⟨code, result, ms2⟩
    cases code with
    | succ code => exact ⟨rfl, rfl⟩
    | zero =>
      simp only [stringSprintf, constructConnPayloadLogged]
      rcases constructConnPayload result o ms2 with ⟨code, result, ms3⟩
      cases code with
      | succ code => exact ⟨rfl, rfl⟩
      | zero =>
        simp only [Option.isSome_none, Bool.false_eq_true, if_false, stringCopy]
        rcases finish result .connect 0 ms3 with ⟨result, ms4⟩
        cases result with
        | none => exact ⟨rfl, rfl⟩
        | some result => exact ⟨rfl, rfl⟩

/-! ## Reading it -/

theorem be16_value (v : UInt16) :
    256 * (UInt8.ofNat (v.toNat / 256)).toNat + (UInt8.ofNat (v.toNat % 256)).toNat = v.toNat := by
  have hv := v.toNat_lt
  rw [Base128.toNat_ofNat_lt (by omega), Base128.toNat_ofNat_lt (by omega)]
  omega

theorem readString_utf {s : List UInt8} (h : s.length ≤ ushrtMax) (rest : List UInt8) :
    Wire.readString (utf s ++ rest) = some (s, rest) := by
  have hs : s.length ≤ 65535 := h
  have hlen : 256 * (UInt8.ofNat ((UInt16.ofNat s.length).toNat / 256)).toNat +
      (UInt8.ofNat ((UInt16.ofNat s.length).toNat % 256)).toNat = s.length := by
    rw [be16_value, UInt16.toNat_ofNat']; omega
  exact Wire.readString_append hlen rest

theorem readOptional_utf {s : Option CString} (h : optionLen s ≤ ushrtMax) (rest : List UInt8) :
    Wire.readOptional s.isSome (optionUtf s ++ rest) = some (s.map CString.bytes, rest) := by
  cases s with
  | none => rfl
  | some t =>
    have hr := readString_utf (show t.bytes.length ≤ ushrtMax from h) rest
    simp only [Wire.readOptional, optionUtf, optionBytes, Option.isSome_some, if_true, Option.map_some, Option.getD_some, hr]

/-- The flags say which strings follow, and what kind of will. -/
theorem connectFlags_bits (topic username password retain clean : Bool) (o : MqttClientOptions)
    (hq : o.qualityOfServiceValue ∈ [.deliverAtMostOnce, .deliverAtLeastOnce, .deliverExactlyOnce])
    (ht : o.willTopic.isSome = topic) (hu : o.username.isSome = username) (hp : o.password.isSome = password)
    (hr : o.messageRetain = retain) (hc : o.useCleanSession = clean) :
    Wire.ConnectFlags.ofByte (connectFlags o) =
      ⟨username, password, topic && retain, if topic then o.qualityOfServiceValue.value.toNat else 0, topic, clean, false⟩ := by
  simp only [connectFlags, willFlags, ht, hu, hp, hr, hc]
  simp only [List.mem_cons, List.not_mem_nil, or_false] at hq
  clear ht hu hp hr hc
  revert topic username password retain clean
  rcases hq with hq | hq | hq <;> rw [hq] <;> decide

theorem connectFlags_valid {o : MqttClientOptions} (ho : Sendable o) :
    (Wire.ConnectFlags.ofByte (connectFlags o)).valid = true := by
  rw [connectFlags_bits _ _ _ _ _ o ho.qos rfl rfl rfl rfl rfl]
  have hq : o.qualityOfServiceValue.value.toNat ≤ 2 := by
    have hq := ho.qos
    simp only [List.mem_cons, List.not_mem_nil, or_false] at hq
    rcases hq with hq | hq | hq <;> rw [hq] <;> decide
  have hp := ho.password
  unfold Wire.ConnectFlags.valid
  generalize o.willTopic.isSome = topic
  generalize o.username.isSome = username at hp ⊢
  generalize o.password.isSome = password at hp ⊢
  cases topic <;> cases username <;> cases password <;> simp_all

/-- The options as a reader of the packet sees them. -/
def carried (o : MqttClientOptions) : Wire.Connect where
  protocolName := [0x4d, 0x51, 0x54, 0x54]
  protocolLevel := protocolNumber
  cleanSession := o.useCleanSession
  keepAlive := o.keepAliveInterval.toNat
  clientId := optionBytes o.clientId
  will := o.willTopic.bind fun topic => o.willMessage.map fun message =>
    ⟨topic.bytes, message.bytes, o.qualityOfServiceValue.value.toNat, o.messageRetain⟩
  username := o.username.map CString.bytes
  password := o.password.map CString.bytes

theorem readConnect_body {o : MqttClientOptions} (ho : Sendable o) : Wire.readConnect (connectBody o) = some (carried o, []) := by
  have hbits := connectFlags_bits _ _ _ _ _ o ho.qos rfl rfl rfl rfl rfl
  have hid : ∀ rest, Wire.readString (utf (optionBytes o.clientId) ++ rest) = some (optionBytes o.clientId, rest) := by
    intro rest
    apply readString_utf
    rw [show (optionBytes o.clientId).length = optionLen o.clientId by cases o.clientId <;> rfl]
    exact ho.fits _ (by simp)
  have hname := readString_utf (s := [0x4d, 0x51, 0x54, 0x54]) (by decide) ([4, connectFlags o] ++
    (be16 o.keepAliveInterval ++ (utf (optionBytes o.clientId) ++ (optionUtf o.willTopic ++ (optionUtf o.willMessage ++
      (optionUtf o.username ++ (optionUtf o.password ++ [])))))))
  have htopic := fun rest => readOptional_utf (ho.fits o.willTopic (by simp)) rest
  have hmessage := fun rest => readOptional_utf (ho.fits o.willMessage (by simp)) rest
  have husername := fun rest => readOptional_utf (ho.fits o.username (by simp)) rest
  have hpassword := fun rest => readOptional_utf (ho.fits o.password (by simp)) rest
  rw [← ho.will] at hmessage
  have hwill : Wire.willOf (.ofByte (connectFlags o)) (o.willTopic.map CString.bytes) (o.willMessage.map CString.bytes) =
      (carried o).will := by
    rw [hbits]
    simp only [Wire.willOf, carried]
    cases o.willTopic with
    | none => rfl
    | some topic => cases o.willMessage <;> rfl
  have hbody : connectBody o = utf [0x4d, 0x51, 0x54, 0x54] ++ ([4, connectFlags o] ++ (be16 o.keepAliveInterval ++
      (utf (optionBytes o.clientId) ++ (optionUtf o.willTopic ++ (optionUtf o.willMessage ++
        (optionUtf o.username ++ (optionUtf o.password ++ []))))))) := by
    simp only [connectBody, connectHeader, List.append_assoc, List.append_nil]
  rw [hbody, Wire.readConnect, hname]
  simp only [be16, List.cons_append, List.nil_append, connectFlags_valid ho, if_true, be16_value]
  simp only [Wire.readPayload, hid, Option.bind_eq_bind, Option.bind_some]
  rw [hbits] at hwill ⊢
  simp only [htopic, hmessage, husername, hpassword, Option.bind_some, hwill, Option.pure_def]
  rfl

/-- A CONNECT carries exactly the options it is given. -/
theorem mqttCodecConnect_parses {o : MqttClientOptions} (ho : Sendable o) (traceLog : StringHandle) {ms : Mallocs}
    (hm : Succeed ms) :
    ∃ packet, (mqttCodecConnect o ms).1 = some packet ∧ (mqttCodecConnectLogged o traceLog ms).1 = some packet ∧
      Wire.parseConnect packet.bytes = some (carried o) := by
  refine ⟨Buffer.ofBytes (packetBytes o), ?_, mqttCodecConnectLogged_succeed hm ho traceLog, ?_⟩
  · rw [← (mqttCodecConnectLogged_none o ms).1]
    exact mqttCodecConnectLogged_succeed hm ho none
  · rw [Buffer.bytes_ofBytes]
    have hlen := length_connectBody ho
    have hread := Wire.readLength_encode (n := (connectBody o).length)
      (by simp only [Wire.maxRemainingLength]; omega) (connectBody o)
    exact Wire.parseConnect_frame (by decide) hread rfl (readConnect_body ho)

def lamp : CString := ⟨[108, 97, 109, 112], by decide⟩

def gone : CString := ⟨[103, 111, 110, 101], by decide⟩

def lampOptions : MqttClientOptions :=
  { clientId := some lamp, willTopic := some lamp, willMessage := some gone, username := some lamp, password := some gone,
    keepAliveInterval := 300, messageRetain := true, useCleanSession := true, qualityOfServiceValue := .deliverExactlyOnce }

theorem lampOptions_sendable : Sendable lampOptions where
  clientId := rfl
  nonempty := by simp [lampOptions, lamp, gone]
  will := rfl
  password _ := rfl
  fits := by simp [lampOptions, lamp, gone, optionLen, CString.strlen, ushrtMax]
  qos := by decide

/-- A client with a will, a user name and a password. -/
theorem lampOptions_parses :
    ∃ packet, (mqttCodecConnect lampOptions []).1 = some packet ∧
      (mqttCodecConnectLogged lampOptions (some []) []).1 = some packet ∧
      Wire.parseConnect packet.bytes = some (carried lampOptions) :=
  mqttCodecConnect_parses lampOptions_sendable (some []) succeed_nil

end UMqtt.Codec

/-
  UMqtt.Codec.Decode — the receiving half of the MQTT codec (uMQTT/src/mqtt_codec.c):
  `MQTTCODEC_INSTANCE`, `prepareheaderDataInfo`, `completePacketData` and
  `mqtt_codec_bytesReceived`.

  The codec lives in a part of the caller's state (`Slot`), beside the answers the
  allocator will give, and its packet-complete callback is any function on that state.
  An access outside one of the codec's arrays is undefined behaviour: it leaves `fault`
  set, and from then on the model only returns failure.
-/

import UMqtt.Lib.Loop
import UMqtt.Crt.Buffer

namespace UMqtt.Codec

open UMqtt.Lib UMqtt.Crt

/-! ## Packet types -/

/-- `CONTROL_PACKET_TYPE`. `reserved` is the value of a type nibble that is no enumerator:
    0x00 or, `high`, 0xF0. -/
inductive ControlPacketType where
  | connect
  | connack
  | publish
  | puback
  | pubrec
  | pubrel
  | pubcomp
  | subscribe
  | suback
  | unsubscribe
  | unsuback
  | pingreq
  | pingresp
  | disconnect
  | packetTypeError
  | unknown
  | reserved (high : Bool)
  deriving DecidableEq, Repr

def ControlPacketType.value : ControlPacketType → UInt8
  | .connect => 0x10
  | .connack => 0x20
  | .publish => 0x30
  | .puback => 0x40
  | .pubrec => 0x50
  | .pubrel => 0x60
  | .pubcomp => 0x70
  | .subscribe => 0x80
  | .suback => 0x90
  | .unsubscribe => 0xA0
  | .unsuback => 0xB0
  | .pingreq => 0xC0
  | .pingresp => 0xD0
  | .disconnect => 0xE0
  | .packetTypeError => 0xE1
  | .unknown => 0xE2
  | .reserved false => 0x00
  | .reserved true => 0xF0

/-- The packet type whose value is `PACKET_TYPE_BYTE(pktByte)`. -/
def packetTypeByte (pktByte : UInt8) : ControlPacketType :=
  match pktByte.toNat / 16 with
  | 0 => .reserved false
  | 1 => .connect
  | 2 => .connack
  | 3 => .publish
  | 4 => .puback
  | 5 => .pubrec
  | 6 => .pubrel
  | 7 => .pubcomp
  | 8 => .subscribe
  | 9 => .suback
  | 10 => .unsubscribe
  | 11 => .unsuback
  | 12 => .pingreq
  | 13 => .pingresp
  | 14 => .disconnect
  | _ => .reserved true

def flagValueByte (pktByte : UInt8) : UInt8 := pktByte &&& 0xf

/-- A type that a type nibble can say: every one but the two markers. -/
def ControlPacketType.OnWire (t : ControlPacketType) : Prop := t ≠ .packetTypeError ∧ t ≠ .unknown

instance (t : ControlPacketType) : Decidable t.OnWire := inferInstanceAs (Decidable (_ ∧ _))

/-! ## The instance -/

inductive CodecState where
  | fixedHeader
  | varHeader
  | payload
  deriving DecidableEq, Repr

/-- The array access that went out of bounds. -/
inductive Fault where
  | storeWrite
  | storeRead
  | bodyWrite
  deriving DecidableEq, Repr

/-- `MQTTCODEC_INSTANCE`, less the callback and its context. -/
structure CodecInstance where
  currPacket : ControlPacketType
  codecState : CodecState
  bufferOffset : Nat
  headerFlags : UInt8
  headerData : Option Buffer
  storeRemainLen : Vector UInt8 4
  remainLenIndex : Nat
  fault : Option Fault
  /-- Ghost: every byte handed to `prepareheaderDataInfo`. -/
  lengthBytes : List UInt8
  deriving DecidableEq, Repr

structure Packet where
  packet : ControlPacketType
  flags : UInt8
  headerData : Option Buffer
  deriving DecidableEq, Repr

/-- `mqtt_codec_create`, when its own allocation succeeds. -/
def create : CodecInstance := ⟨.unknown, .fixedHeader, 0, 0, none, Vector.replicate 4 0, 0, none, []⟩

/-! ## The remaining length -/

/-- The `do ... while` of `prepareheaderDataInfo` over the stored bytes from `index` on:
    its result and `totalLen`, or `none` when it reads past the array. -/
def lengthLoop : List UInt8 → Nat → Nat → Option (Nat × Nat)
  | [], _, _ => none
  | encodeByte :: rest, multiplier, totalLen =>
    let totalLen := totalLen + (encodeByte &&& 127).toNat * multiplier
    let multiplier := multiplier * 128
    if 128 * 128 * 128 < multiplier then some (failure, totalLen)
    else if encodeByte &&& 128 ≠ 0 then lengthLoop rest multiplier totalLen
    else some (0, totalLen)

/-- `BUFFER_new` and `BUFFER_pre_build` for a body of `totalLen` bytes. -/
def newHeaderData (totalLen : Nat) (ms : Mallocs) : Nat × Option Buffer × Mallocs :=
  match Buffer.new ms with
  | (none, ms) => (failure, none, ms)
  | (some b, ms) =>
    let r := b.preBuild totalLen ms
    (r.1, some r.2.1, r.2.2)

def prepareheaderDataInfo (c : CodecInstance) (remainLen : UInt8) (ms : Mallocs) : Nat × CodecInstance × Mallocs :=
  let c := { c with lengthBytes := c.lengthBytes ++ [remainLen] }
  if h : c.remainLenIndex < 4 then
    let c := { c with storeRemainLen := c.storeRemainLen.set c.remainLenIndex remainLen h,
                      remainLenIndex := c.remainLenIndex + 1 }
    if remainLen ≤ 0x7f then
      match lengthLoop c.storeRemainLen.toList 1 0 with
      | none => (failure, { c with fault := some .storeRead }, ms)
      | some (result, totalLen) =>
        let c := { c with codecState := .varHeader, remainLenIndex := 0, storeRemainLen := Vector.replicate 4 0 }
        if 0 < totalLen then
          let r := newHeaderData totalLen ms
          (if r.1 = 0 then result else failure, { c with bufferOffset := 0, headerData := r.2.1 }, r.2.2)
        else (result, c, ms)
    else (0, c, ms)
  else (failure, { c with fault := some .storeWrite }, ms)

/-! ## Receiving -/

/-- What one byte does before the callback: the loop's result, whether the packet is
    complete, and the codec. -/
structure Advance where
  result : Nat
  complete : Bool
  codec : CodecInstance
  mallocs : Mallocs

/-- The body of the loop of `mqtt_codec_bytesReceived`. -/
def advance (c : CodecInstance) (ms : Mallocs) (iterator : UInt8) : Advance :=
  if c.fault.isSome then ⟨failure, false, c, ms⟩
  else match c.codecState with
  | .fixedHeader =>
    if c.currPacket = .unknown then
      ⟨0, false, { c with currPacket := packetTypeByte iterator, headerFlags := flagValueByte iterator }, ms⟩
    else
      let r := prepareheaderDataInfo c iterator ms
      let c := if r.1 = 0 then r.2.1 else { r.2.1 with currPacket := .packetTypeError }
      ⟨r.1, c.currPacket = .pingresp, c, r.2.2⟩
  | .varHeader =>
    match c.headerData with
    | none => ⟨0, false, { c with codecState := .payload }, ms⟩
    | some b =>
      match Buffer.uChar (some b) with
      | none => ⟨failure, false, { c with currPacket := .packetTypeError }, ms⟩
      | some dataBytes =>
        if c.bufferOffset < dataBytes.length then
          let b := b.write c.bufferOffset [iterator]
          let c := { c with headerData := some b, bufferOffset := c.bufferOffset + 1 }
          ⟨0, Buffer.length (some b) ≤ c.bufferOffset, c, ms⟩
        else ⟨failure, false, { c with fault := some .bodyWrite }, ms⟩
  | .payload => ⟨failure, false, { c with currPacket := .packetTypeError }, ms⟩

/-- The fields `completePacketData` resets once the callback has returned. -/
def CodecInstance.cleanUp (c : CodecInstance) : CodecInstance :=
  { c with currPacket := .unknown, codecState := .fixedHeader, headerFlags := 0, headerData := none }

def CodecInstance.packet (c : CodecInstance) : Packet := ⟨c.currPacket, c.headerFlags, c.headerData⟩

/-- The codec after the byte, the callback and the clean-up included. -/
def Advance.after (a : Advance) : CodecInstance := if a.complete then a.codec.cleanUp else a.codec

section Receive

variable {W : Type} (s : Slot W (CodecInstance × Mallocs)) (packetComplete : Packet → W → W)

def completePacketData (w : W) : W :=
  s.modify (fun x => (x.1.cleanUp, x.2)) (packetComplete (s.get w).1.packet w)

/-- One iteration of the loop of `mqtt_codec_bytesReceived`. -/
def receiveByte (iterator : UInt8) (w : W) : Nat × W :=
  let a := advance (s.get w).1 (s.get w).2 iterator
  let w := s.set (a.codec, a.mallocs) w
  (a.result, if a.complete then completePacketData s packetComplete w else w)

/-- `mqtt_codec_bytesReceived`, of a live codec. -/
def bytesReceived (buffer : List UInt8) (w : W) : Nat × W :=
  if buffer = [] then (failure, s.modify (fun x => ({ x.1 with currPacket := .packetTypeError }, x.2)) w)
  else runUntil (receiveByte s packetComplete) buffer w

theorem bytesReceived_ne_nil {buffer : List UInt8} (h : buffer ≠ []) (w : W) :
    bytesReceived s packetComplete buffer w = runUntil (receiveByte s packetComplete) buffer w := if_neg h

/-- The callback does not re-enter the codec. -/
def KeepsCodec : Prop := ∀ p w, (s.get (packetComplete p w)).1 = (s.get w).1

variable {s packetComplete}

theorem receiveByte_codec (h : KeepsCodec s packetComplete) (b : UInt8) (w : W) :
    (s.get (receiveByte s packetComplete b w).2).1 = (advance (s.get w).1 (s.get w).2 b).after := by
  simp only [receiveByte, Advance.after]
  split
  · simp only [completePacketData, s.get_modify]; rw [h _ _, s.get_set]
  · simp only [s.get_set]

/-- What every byte keeps of the codec, a call keeps. -/
theorem bytesReceived_inv (h : KeepsCodec s packetComplete) {I : CodecInstance → Prop}
    (herr : ∀ c, I c → I { c with currPacket := .packetTypeError })
    (hstep : ∀ c ms b, I c → I (advance c ms b).after) (buffer : List UInt8) {w : W} (hw : I (s.get w).1) :
    I (s.get (bytesReceived s packetComplete buffer w).2).1 := by
  unfold bytesReceived
  split
  · simp only [s.get_modify]; exact herr _ hw
  · refine runUntil_inv (I := fun w => I (s.get w).1) _ ?_ buffer hw
    intro b w hw
    rw [receiveByte_codec h]
    exact hstep _ _ _ hw

/-- What the callback and every change of the codec keep, a call keeps. -/
theorem bytesReceived_keeps {I : W → Prop} (hset : ∀ x w, I w → I (s.set x w)) (hcb : ∀ p w, I w → I (packetComplete p w))
    (buffer : List UInt8) {w : W} (hw : I w) : I (bytesReceived s packetComplete buffer w).2 := by
  unfold bytesReceived
  split
  · exact hset _ _ hw
  · refine runUntil_inv (I := I) _ ?_ buffer hw
    intro b w hw
    simp only [receiveByte]
    split
    · exact hset _ _ (hcb _ _ (hset _ _ hw))
    · exact hset _ _ hw

/-- Callers whose codecs are the same, and whose callbacks do the same, are returned the same. -/
theorem bytesReceived_rel {V : Type} {t : Slot V (CodecInstance × Mallocs)} {cb : Packet → V → V} {R : W → V → Prop}
    (hget : ∀ {w v}, R w v → t.get v = s.get w) (hset : ∀ {w v} x, R w v → R (s.set x w) (t.set x v))
    (hcb : ∀ {w v} p, R w v → R (packetComplete p w) (cb p v)) (buffer : List UInt8) {w : W} {v : V} (h : R w v) :
    (bytesReceived s packetComplete buffer w).1 = (bytesReceived t cb buffer v).1 ∧
      R (bytesReceived s packetComplete buffer w).2 (bytesReceived t cb buffer v).2 := by
  unfold bytesReceived
  split
  · refine ⟨rfl, ?_⟩
    simp only [Slot.modify, hget h]
    exact hset _ h
  · refine runUntil_rel _ (fun b w v h => ?_) buffer h
    simp only [receiveByte, hget h]
    generalize advance (s.get w).1 (s.get w).2 b = a
    refine ⟨trivial, ?_⟩
    have hbyte := hset (a.codec, a.mallocs) h
    split
    · simp only [completePacketData, Slot.modify, hget hbyte]
      have hcall := hcb (s.get (s.set (a.codec, a.mallocs) w)).1.packet hbyte
      rw [hget hcall]
      exact hset _ hcall
    · exact hbyte

end Receive

/-! ## A codec on its own -/

/-- A codec, the answers the allocator will give, the packets its callback was given, and
    whatever else the callback works on. -/
structure Run (σ : Type) where
  codec : CodecInstance
  mallocs : Mallocs
  packets : List Packet
  rest : σ

namespace Run

variable {σ : Type}

def slot : Slot (Run σ) (CodecInstance × Mallocs) :=
  ⟨fun r => (r.codec, r.mallocs), fun x r => { r with codec := x.1, mallocs := x.2 },
    fun _ _ => rfl, fun _ _ _ => rfl, fun _ => rfl⟩

/-- A callback that does not re-enter the codec: it may allocate and change its own state. -/
abbrev Callback (σ : Type) := Packet → Mallocs × σ → Mallocs × σ

def call (cb : Callback σ) (p : Packet) (r : Run σ) : Run σ :=
  { r with mallocs := (cb p (r.mallocs, r.rest)).1, packets := r.packets ++ [p], rest := (cb p (r.mallocs, r.rest)).2 }

def start (ms : Mallocs) (x : σ) : Run σ := ⟨create, ms, [], x⟩

/-- One call of `mqtt_codec_bytesReceived` for each chunk: what each returned, and the end. -/
def feed (cb : Callback σ) (chunks : List (List UInt8)) (r : Run σ) : List Nat × Run σ :=
  calls (bytesReceived slot (call cb)) chunks r

end Run

end UMqtt.Codec

/-
  UMqtt.Wire.Connect — the CONNECT packet as MQTT 3.1.1 has it, of no implementation in
  particular.

  `parseConnect` is strict: the reserved flag is 0, a will has a QoS of 0, 1 or 2, without
  one its QoS and retain bits are 0, a password comes with a user name, and no byte is left
  over in the body or behind it.
-/

import UMqtt.Wire.Frames

namespace UMqtt.Wire

/-! ## Fields -/

structure Will where
  topic : List UInt8
  message : List UInt8
  qos : Nat
  retain : Bool
  deriving DecidableEq, Repr

structure Connect where
  protocolName : List UInt8
  protocolLevel : Nat
  cleanSession : Bool
  keepAlive : Nat
  clientId : List UInt8
  will : Option Will
  username : Option (List UInt8)
  password : Option (List UInt8)
  deriving DecidableEq, Repr

/-- The connect flags, from the top bit down; the lowest one is reserved. -/
structure ConnectFlags where
  username : Bool
  password : Bool
  willRetain : Bool
  willQos : Nat
  will : Bool
  cleanSession : Bool
  reserved : Bool
  deriving DecidableEq, Repr

def ConnectFlags.ofByte (b : UInt8) : ConnectFlags :=
  { username := b.toNat.testBit 7, password := b.toNat.testBit 6, willRetain := b.toNat.testBit 5,
    willQos := b.toNat / 8 % 4, will := b.toNat.testBit 2, cleanSession := b.toNat.testBit 1,
    reserved := b.toNat.testBit 0 }

/-- What a server does not close the connection for. -/
def ConnectFlags.valid (f : ConnectFlags) : Bool :=
  !f.reserved && (f.username || !f.password) &&
    if f.will then decide (f.willQos ≤ 2) else decide (f.willQos = 0) && !f.willRetain

/-! ## Readers -/

def readString : List UInt8 → Option (List UInt8 × List UInt8)
  | hi :: lo :: bs =>
    let n := 256 * hi.toNat + lo.toNat
    if n ≤ bs.length then some (bs.take n, bs.drop n) else none
  | _ => none

def readOptional (present : Bool) (bs : List UInt8) : Option (Option (List UInt8) × List UInt8) :=
  if present then (readString bs).map fun r => (some r.1, r.2) else some (none, bs)

/-- The will of topic and message, either both there or neither. -/
def willOf (f : ConnectFlags) (topic message : Option (List UInt8)) : Option Will :=
  topic.bind fun topic => message.map fun message => ⟨topic, message, f.willQos, f.willRetain⟩

/-- What follows the variable header: client identifier, will topic, will message, user name and
    password, in this order. -/
def readPayload (protocolName : List UInt8) (level : Nat) (f : ConnectFlags) (keepAlive : Nat) (bs : List UInt8) :
    Option (Connect × List UInt8) := do
  let (clientId, bs) ← readString bs
  let (topic, bs) ← readOptional f.will bs
  let (message, bs) ← readOptional f.will bs
  let (username, bs) ← readOptional f.username bs
  let (password, bs) ← readOptional f.password bs
  pure (⟨protocolName, level, f.cleanSession, keepAlive, clientId, willOf f topic message, username, password⟩, bs)

def readConnect (bs : List UInt8) : Option (Connect × List UInt8) :=
  match readString bs with
  | some (protocolName, level :: flags :: hi :: lo :: bs) =>
    if (ConnectFlags.ofByte flags).valid then
      readPayload protocolName level.toNat (.ofByte flags) (256 * hi.toNat + lo.toNat) bs
    else none
  | _ => none

/-- A stream that is one CONNECT packet. -/
def parseConnect (bs : List UInt8) : Option Connect :=
  match readFrame bs with
  | some (frame, []) =>
    if frame.type = 1 ∧ frame.flags = 0 then
      match readConnect frame.body with
      | some (connect, []) => some connect
      | _ => none
    else none
  | _ => none

/-! ## What the readers take -/

theorem readString_append {hi lo : UInt8} {s : List UInt8} (h : 256 * hi.toNat + lo.toNat = s.length) (rest : List UInt8) :
    readString (hi :: lo :: (s ++ rest)) = some (s, rest) := by
  simp only [readString, h, List.length_append, Nat.le_add_right, if_true, List.take_left', List.drop_left']

theorem parseConnect_frame {header : UInt8} {bs : List UInt8} {n : Nat} {body : List UInt8} {connect : Connect}
    (hheader : header.toNat = 16) (hlen : readLength 4 bs = some (n, body)) (hn : n = body.length)
    (hbody : readConnect body = some (connect, [])) : parseConnect (header :: bs) = some connect := by
  have hf := readFrame_eq header hlen (by simp only [hn, Nat.le_refl])
  simp only [hn, List.take_length, List.drop_length] at hf
  simp only [parseConnect, hf, RawFrame.ofHeader, hheader, hbody, Nat.reduceDiv, Nat.reduceMod, and_self, if_true]

end UMqtt.Wire

/-
  UMqtt.Wire.Server — every packet that a client may send, as MQTT 3.1.1 has it, of no
  implementation in particular.

  `readClientPacket` is what a server makes of a stream that is to be one packet: the type is one
  that a client sends, the flags are the ones of the type, the body is read to its end.
  `readClientPackets` reads a whole stream so, and is satisfied with nothing less: pieces that are
  a packet each are read one by one (`readClientPackets_flatMap`).
-/

import UMqtt.Wire.Packets

namespace UMqtt.Wire

inductive ClientPacket where
  | connect (connect : Connect)
  | publish (publish : Publish)
  | puback (packetId : Nat)
  | pubrec (packetId : Nat)
  | pubrel (packetId : Nat)
  | pubcomp (packetId : Nat)
  | subscribe (topics : TopicList (List UInt8 × UInt8))
  | unsubscribe (topics : TopicList (List UInt8))
  | pingreq
  | disconnect
  deriving DecidableEq, Repr

/-- A packet identifier and nothing else, under these flags. -/
def readPacketId (flags : Nat) (frame : RawFrame) : Option Nat :=
  match frame.body with
  | [hi, lo] => if frame.flags = flags then some (256 * hi.toNat + lo.toNat) else none
  | _ => none

def readEmpty (packet : ClientPacket) (frame : RawFrame) : Option ClientPacket :=
  if frame.flags = 0 ∧ frame.body = [] then some packet else none

/-- What the one packet is, by its type. -/
def readByType (bs : List UInt8) (frame : RawFrame) : Option ClientPacket :=
  match frame.type with
  | 1 => (parseConnect bs).map .connect
  | 3 => (parsePublish bs).map .publish
  | 4 => (readPacketId 0 frame).map .puback
  | 5 => (readPacketId 0 frame).map .pubrec
  | 6 => (readPacketId 2 frame).map .pubrel
  | 7 => (readPacketId 0 frame).map .pubcomp
  | 8 => (parseSubscribe bs).map .subscribe
  | 10 => (parseUnsubscribe bs).map .unsubscribe
  | 12 => readEmpty .pingreq frame
  | 14 => readEmpty .disconnect frame
  | _ => none

def readClientPacket (bs : List UInt8) : Option ClientPacket :=
  match readFrame bs with
  | some (frame, []) => readByType bs frame
  | _ => none

theorem readClientPacket_frame (header : UInt8) {bs body : List UInt8} {n : Nat} (hlen : readLength 4 bs = some (n, body))
    (hn : n = body.length) :
    readClientPacket (header :: bs) = readByType (header :: bs) ⟨header.toNat / 16, header.toNat % 16, body⟩ := by
  have hf := readFrame_eq header hlen (by simp only [hn, Nat.le_refl])
  simp only [hn, List.take_length, List.drop_length] at hf
  simp only [readClientPacket, hf, RawFrame.ofHeader]

/-! ## Streams -/

/-- At most so many packets, and nothing behind them. -/
def clientPacketsWithin : Nat → List UInt8 → Option (List ClientPacket)
  | 0, bs => if bs = [] then some [] else none
  | n + 1, bs =>
    if bs = [] then some []
    else
      match readFrame bs with
      | none => none
      | some (_, rest) =>
        match readClientPacket (bs.take (bs.length - rest.length)) with
        | none => none
        | some packet => (clientPacketsWithin n rest).map (packet :: ·)

def readClientPackets (bs : List UInt8) : Option (List ClientPacket) := clientPacketsWithin bs.length bs

theorem clientPacketsWithin_enough {n : Nat} {bs : List UInt8} (h : bs.length ≤ n) :
    clientPacketsWithin n bs = readClientPackets bs := by
  unfold readClientPackets
  induction n using Nat.strongRecOn generalizing bs with
  | _ n ih =>
    by_cases hnil : bs = []
    · subst hnil
      cases n <;> simp [clientPacketsWithin]
    · have hpos := List.length_pos_iff.mpr hnil
      obtain ⟨m, rfl⟩ : ∃ m, n = m + 1 := ⟨n - 1, by omega⟩
      obtain ⟨k, hk⟩ : ∃ k, bs.length = k + 1 := ⟨bs.length - 1, by omega⟩
      rw [hk]
      simp only [clientPacketsWithin, if_neg hnil]
      cases hf : readFrame bs with
      | none => rfl
      | some r =>
        have hs := readFrame_shorter hf
        have hm := ih m (by omega) (show r.2.length ≤ m by omega)
        have hk := ih k (by omega) (show r.2.length ≤ k by omega)
        simp only [hm, hk]

theorem readClientPackets_nil : readClientPackets [] = some [] := rfl

/-- A packet in front of a stream is read first. -/
theorem readClientPackets_append {bs : List UInt8} {packet : ClientPacket} (h : readClientPacket bs = some packet)
    (rest : List UInt8) : readClientPackets (bs ++ rest) = (readClientPackets rest).map (packet :: ·) := by
  obtain ⟨frame, hf⟩ : ∃ frame, readFrame bs = some (frame, []) := by
    unfold readClientPacket at h
    split at h
    · rename_i frame hf
      exact ⟨frame, hf⟩
    · cases h
  have hs := readFrame_shorter hf
  have hne : bs ++ rest ≠ [] := by
    intro hnil
    rw [(List.append_eq_nil_iff.mp hnil).1] at hs
    exact absurd hs (by simp)
  have hcut : (bs ++ rest).take ((bs ++ rest).length - rest.length) = bs := by
    rw [List.length_append, Nat.add_sub_cancel]
    exact List.take_left' rfl
  rw [← clientPacketsWithin_enough (Nat.le_succ (bs ++ rest).length)]
  simp only [clientPacketsWithin, if_neg hne, readFrame_append hf rest, List.nil_append, hcut, h]
  rw [clientPacketsWithin_enough (by simp)]

theorem readClientPackets_flatMap {α : Type} {write : α → List UInt8} {meaning : α → ClientPacket} {xs : List α}
    (h : ∀ x ∈ xs, readClientPacket (write x) = some (meaning x)) :
    readClientPackets (xs.flatMap write) = some (xs.map meaning) := by
  induction xs with
  | nil => exact readClientPackets_nil
  | cons x xs ih =>
    rw [List.flatMap_cons, readClientPackets_append (h x List.mem_cons_self),
      ih fun y hy => h y (List.mem_cons_of_mem x hy)]
    rfl

end UMqtt.Wire

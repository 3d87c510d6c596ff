/-
  UMqtt.Codec.LengthField — which bytes of a stream are length bytes, and where one too many comes.

  `Scan` reads chunks without an array, an index or a buffer: it knows between which packets it is,
  which length bytes wait for the end of their length and how much of a body is still to come. A
  byte is a length byte from the one behind a type byte up to the first below 0x80; but a PINGRESP
  is complete with any, and leaves a length byte of 0x80 or more to wait through the packets behind
  it. Of the world outside it sees what the decoder sees: the allocator and the callback.

  The decoder follows it byte by byte (`At`), since the bytes that wait are what it has stored. So it
  leaves its arrays exactly where a length byte comes behind four that wait (`feed_in_bounds`).
-/

import UMqtt.Codec.Bounds

namespace UMqtt.Codec

open UMqtt.Lib UMqtt.Crt

/-! ## The scan -/

/-- Where in a stream, with the length bytes that wait. -/
inductive Place where
  | between (waiting : List UInt8)
  | length (type : ControlPacketType) (flags : UInt8) (waiting : List UInt8)
  | body (type : ControlPacketType) (flags : UInt8) (received : List UInt8) (missing : Nat)
  /-- No body can be filled, and one more byte is taken for it. -/
  | starved
  | stuck
  /-- A length byte came behind four that wait. -/
  | overlong
  deriving DecidableEq, Repr

/-- What a chunk of no bytes makes of it: the type of the packet is an error. -/
def Place.spoiled : Place → Place
  | .between waiting => .length .packetTypeError 0 waiting
  | .length _ flags waiting => .length .packetTypeError flags waiting
  | .body _ flags received missing => .body .packetTypeError flags received missing
  | place => place

structure Scan (σ : Type) where
  place : Place
  outside : Mallocs × σ

namespace Scan

variable {σ : Type} (cb : Run.Callback σ)

/-- The length ends with this many bytes in front of its last one, and says `n`. -/
def lengthEnd (type : ControlPacketType) (flags : UInt8) (behind n : Nat) (outside : Mallocs × σ) : Nat × Scan σ :=
  -- a fourth length byte is refused, and its body awaited all the same
  let result := if behind = 3 then failure else 0
  let type := if behind = 3 then .packetTypeError else type
  if n = 0 then
    if type = .pingresp then (result, ⟨.between [], cb ⟨type, flags, none⟩ outside⟩) else (result, ⟨.starved, outside⟩)
  else
    let r := newHeaderData n outside.1
    if r.1 = 0 then
      if type = .pingresp then (result, ⟨.between [], cb ⟨type, flags, r.2.1⟩ (r.2.2, outside.2)⟩)
      else (result, ⟨.body type flags [] n, (r.2.2, outside.2)⟩)
    else (failure, ⟨if r.2.1 = none then .starved else .stuck, (r.2.2, outside.2)⟩)

def byte (b : UInt8) (s : Scan σ) : Nat × Scan σ :=
  match s.place with
  | .between waiting => (0, ⟨.length (packetTypeByte b) (flagValueByte b) waiting, s.outside⟩)
  | .length type flags waiting =>
    if waiting.length = 4 then (failure, ⟨.overlong, s.outside⟩)
    else if ¬ Base128.continues b then lengthEnd cb type flags waiting.length (Base128.value (waiting ++ [b])) s.outside
    else if type = .pingresp then (0, ⟨.between (waiting ++ [b]), cb ⟨type, flags, none⟩ s.outside⟩)
    else (0, ⟨.length type flags (waiting ++ [b]), s.outside⟩)
  | .body type flags received missing =>
    if missing = 1 then (0, ⟨.between [], cb ⟨type, flags, some (Buffer.ofBytes (received ++ [b]))⟩ s.outside⟩)
    else (0, ⟨.body type flags (received ++ [b]) (missing - 1), s.outside⟩)
  | .starved => (0, ⟨.stuck, s.outside⟩)
  | .stuck => (failure, s)
  | .overlong => (failure, s)

def chunk (bytes : List UInt8) (s : Scan σ) : Nat × Scan σ :=
  if bytes = [] then (failure, ⟨s.place.spoiled, s.outside⟩) else runUntil (byte cb) bytes s

def start (ms : Mallocs) (x : σ) : Scan σ := ⟨.between [], (ms, x)⟩

def reached (chunks : List (List UInt8)) (ms : Mallocs) (x : σ) : Place := (calls (chunk cb) chunks (start ms x)).2.place

end Scan

/-! ## The decoder follows the scan -/

/-- Length bytes that can wait. -/
structure Waiting (waiting : List UInt8) : Prop where
  continues : ∀ d ∈ waiting, Base128.continues d
  short : waiting.length ≤ 4

def At (c : CodecInstance) : Place → Prop
  | .between waiting => Reading c .unknown 0 waiting ∧ Waiting waiting
  | .length type flags waiting => Reading c type flags waiting ∧ Waiting waiting ∧ type ≠ .unknown
  | .body type flags received missing => Filling c type flags received missing ∧ 0 < missing
  | .starved => c.fault = none ∧ c.codecState = .varHeader ∧ c.headerData = none
  | .stuck => c.fault = none ∧
    (c.codecState = .payload ∨ c.codecState = .varHeader ∧ c.headerData = some ⟨none, 0, false⟩)
  | .overlong => c.fault = some .storeWrite

/-- The scan has come as far as the decoder, and sees the same world. -/
structure Follows {σ : Type} (s : Scan σ) (r : Run σ) : Prop where
  codec : At r.codec s.place
  outside : s.outside = (r.mallocs, r.rest)

section Bytes

variable {σ : Type} {cb : Run.Callback σ} {s : Scan σ} {r : Run σ} {c : CodecInstance} {ms : Mallocs} {result : Nat}

theorem receive_quiet {b : UInt8} (h : advance r.codec r.mallocs b = ⟨result, false, c, ms⟩) :
    receiveByte Run.slot (Run.call cb) b r = (result, { r with codec := c, mallocs := ms }) := by
  have hget : Run.slot.get r = (r.codec, r.mallocs) := rfl
  simp only [receiveByte, hget, h, Bool.false_eq_true, if_false]
  rfl

theorem receive_complete {b : UInt8} (h : advance r.codec r.mallocs b = ⟨result, true, c, ms⟩) :
    receiveByte Run.slot (Run.call cb) b r =
      (result, ⟨c.cleanUp, (cb c.packet (ms, r.rest)).1, r.packets ++ [c.packet], (cb c.packet (ms, r.rest)).2⟩) := by
  have hget : Run.slot.get r = (r.codec, r.mallocs) := rfl
  simp only [receiveByte, hget, h, if_true]
  rfl

/-- Behind the type byte everything is a length byte. -/
theorem advance_length {t : ControlPacketType} {f : UInt8} {ds : List UInt8} (h : Reading r.codec t f ds) (ht : t ≠ .unknown)
    (b : UInt8) (ms : Mallocs) {prepared : Nat × CodecInstance × Mallocs}
    (hp : prepareheaderDataInfo r.codec b ms = prepared) :
    advance r.codec ms b = ⟨prepared.1,
      (if prepared.1 = 0 then prepared.2.1 else { prepared.2.1 with currPacket := .packetTypeError }).currPacket = .pingresp,
      if prepared.1 = 0 then prepared.2.1 else { prepared.2.1 with currPacket := .packetTypeError }, prepared.2.2⟩ := by
  simp only [advance, h.fault, h.state, h.type, if_neg ht, hp, Option.isSome_none, Bool.false_eq_true, if_false]

/-- A packet that is complete, and the decoder between packets again. -/
theorem follows_complete {waiting : List UInt8} (h : Reading c.cleanUp .unknown 0 waiting) (hw : Waiting waiting) {p : Packet}
    (hp : c.packet = p) (packets : List Packet) {outside : Mallocs × σ} (ho : outside = (ms, r.rest)) :
    Follows ⟨.between waiting, cb p outside⟩ ⟨c.cleanUp, (cb c.packet (ms, r.rest)).1, packets, (cb c.packet (ms, r.rest)).2⟩ := by
  rw [hp, ho]
  exact ⟨⟨h, hw⟩, rfl⟩

theorem packet_of {t : ControlPacketType} {f : UInt8} {data : Option Buffer} (ht : c.currPacket = t) (hf : c.headerFlags = f)
    (hd : c.headerData = data) : c.packet = ⟨t, f, data⟩ := by rw [CodecInstance.packet, ht, hf, hd]

theorem waiting_nil : Waiting [] := ⟨by simp, by simp⟩

/-- The last length byte, of up to four. -/
theorem end_follows {t : ControlPacketType} {f : UInt8} {ds : List UInt8} (h : Reading r.codec t f ds) (hw : Waiting ds)
    (ht : t ≠ .unknown) (hl : ds.length ≠ 4) {b : UInt8} (hb : ¬ Base128.continues b) (ho : s.outside = (r.mallocs, r.rest)) :
    (Scan.lengthEnd cb t f ds.length (Base128.value (ds ++ [b])) s.outside).1 =
        (receiveByte Run.slot (Run.call cb) b r).1 ∧
      Follows (Scan.lengthEnd cb t f ds.length (Base128.value (ds ++ [b])) s.outside).2
        (receiveByte Run.slot (Run.call cb) b r).2 := by
  have hshort := hw.short
  have hprepare := prepareheaderDataInfo_end h.stored hw.continues (by omega) hb r.mallocs
  simp only at hprepare
  have hadvance := advance_length h ht b r.mallocs hprepare
  unfold Scan.lengthEnd
  by_cases hv : Base128.value (ds ++ [b]) = 0
  · -- there is no body
    rw [if_neg (show ¬ 0 < Base128.value (ds ++ [b]) by omega)] at hadvance
    simp only [if_pos hv]
    by_cases h3 : ds.length = 3
    · simp only [h3, if_true, show ¬ Crt.failure = 0 by decide, if_false, reduceCtorEq, decide_false] at hadvance ⊢
      rw [receive_quiet hadvance]
      exact ⟨rfl, ⟨h.fault, rfl, h.data⟩, ho⟩
    · simp only [h3, if_false, if_true, h.type] at hadvance ⊢
      by_cases hp : t = .pingresp
      · simp only [hp, if_true, decide_true] at hadvance ⊢
        rw [receive_complete hadvance]
        refine ⟨rfl, follows_complete ?_ waiting_nil ?_ _ ho⟩
        · exact ⟨h.fault, rfl, rfl, rfl, rfl, rfl, ⟨_, rfl⟩⟩
        · exact packet_of rfl h.flags h.data
      · simp only [hp, if_false, decide_false] at hadvance ⊢
        rw [receive_quiet hadvance]
        exact ⟨rfl, ⟨h.fault, rfl, h.data⟩, ho⟩
  · -- the body is allocated, or not
    have hpos : 0 < Base128.value (ds ++ [b]) := Nat.pos_of_ne_zero hv
    rw [if_pos hpos] at hadvance
    rcases newHeaderData_cases hpos r.mallocs with ⟨hnew, block, hdata, hblock⟩ | ⟨hnew, hdata⟩
    · simp only [if_neg hv, ho, hnew, if_true, hdata] at hadvance ⊢
      by_cases h3 : ds.length = 3
      · simp only [h3, if_true, show ¬ Crt.failure = 0 by decide, if_false, reduceCtorEq, decide_false] at hadvance ⊢
        rw [receive_quiet hadvance]
        exact ⟨rfl, ⟨⟨h.fault, rfl, rfl, h.flags, rfl, rfl, ⟨block, rfl, hblock⟩⟩, hpos⟩, rfl⟩
      · simp only [h3, if_false, if_true, h.type] at hadvance ⊢
        by_cases hp : t = .pingresp
        · simp only [hp, if_true, decide_true] at hadvance ⊢
          rw [receive_complete hadvance]
          refine ⟨rfl, follows_complete ?_ waiting_nil ?_ _ rfl⟩
          · exact ⟨h.fault, rfl, rfl, rfl, rfl, rfl, ⟨_, rfl⟩⟩
          · exact packet_of rfl h.flags rfl
        · simp only [hp, if_false, decide_false] at hadvance ⊢
          rw [receive_quiet hadvance]
          exact ⟨rfl, ⟨⟨h.fault, rfl, rfl, h.flags, rfl, rfl, ⟨block, rfl, hblock⟩⟩, hpos⟩, rfl⟩
    · simp only [if_neg hv, ho, hnew, show ¬ Crt.failure = 0 by decide, if_false, reduceCtorEq, decide_false] at hadvance ⊢
      rw [receive_quiet hadvance]
      rcases hdata with hdata | hdata
      · simp only [hdata, if_true]
        exact ⟨trivial, ⟨h.fault, rfl, rfl⟩, rfl⟩
      · simp only [hdata, reduceCtorEq, if_false]
        exact ⟨trivial, ⟨h.fault, Or.inr ⟨rfl, rfl⟩⟩, rfl⟩

/-- A length byte that another one follows. -/
theorem continue_follows {t : ControlPacketType} {f : UInt8} {ds : List UInt8} (h : Reading r.codec t f ds) (hw : Waiting ds)
    (ht : t ≠ .unknown) (hl : ds.length ≠ 4) {b : UInt8} (hb : Base128.continues b) :
    ∃ c, advance r.codec r.mallocs b = ⟨0, t = .pingresp, c, r.mallocs⟩ ∧ Reading c t f (ds ++ [b]) ∧ Waiting (ds ++ [b]) := by
  have hshort := hw.short
  obtain ⟨store, hprepare, hstore⟩ := prepareheaderDataInfo_continue h.stored (by omega) hb r.mallocs
  have hadvance := advance_length h ht b r.mallocs hprepare
  simp only [if_true, h.type] at hadvance
  refine ⟨_, hadvance, ⟨h.fault, h.state, rfl, h.flags, h.data, by simp [h.index], hstore⟩, ?_, ?_⟩
  · intro d hd
    rcases List.mem_append.mp hd with hd | hd
    · exact hw.continues d hd
    · rw [List.mem_singleton.mp hd]; exact hb
  · rw [List.length_append, List.length_singleton]; omega

theorem length_follows {t : ControlPacketType} {f : UInt8} {waiting : List UInt8} {outside : Mallocs × σ}
    (h : Follows ⟨.length t f waiting, outside⟩ r) (b : UInt8) :
    ((Scan.mk (.length t f waiting) outside).byte cb b).1 = (receiveByte Run.slot (Run.call cb) b r).1 ∧
      Follows ((Scan.mk (.length t f waiting) outside).byte cb b).2 (receiveByte Run.slot (Run.call cb) b r).2 := by
  obtain ⟨⟨hr, hw, ht⟩, ho⟩ := h
  by_cases h4 : waiting.length = 4
  · have hi : ¬ r.codec.remainLenIndex < 4 := by rw [hr.index]; omega
    have hprepare : prepareheaderDataInfo r.codec b r.mallocs =
        (failure, { r.codec with lengthBytes := r.codec.lengthBytes ++ [b], fault := some .storeWrite }, r.mallocs) := by
      simp only [prepareheaderDataInfo, dif_neg hi]
    have hadvance := advance_length hr ht b r.mallocs hprepare
    simp only [show ¬ Crt.failure = 0 by decide, if_false, reduceCtorEq, decide_false] at hadvance
    rw [receive_quiet hadvance]
    simp only [Scan.byte, if_pos h4]
    exact ⟨trivial, rfl, ho⟩
  · by_cases hb : Base128.continues b
    · obtain ⟨c, ha, hc, hw'⟩ := continue_follows hr hw ht h4 hb
      by_cases hp : t = .pingresp
      · have hpacket := packet_of hc.type hc.flags hc.data
        simp only [hp, decide_true] at ha hpacket
        rw [receive_complete ha]
        simp only [Scan.byte, if_neg h4, not_not.mpr hb, if_false, hp, if_true]
        exact ⟨trivial, follows_complete ⟨hc.fault, rfl, rfl, rfl, rfl, hc.index, hc.store⟩ hw' hpacket _ ho⟩
      · simp only [hp, decide_false] at ha
        rw [receive_quiet ha]
        simp only [Scan.byte, if_neg h4, not_not.mpr hb, if_false, hp]
        exact ⟨trivial, ⟨hc, hw', ht⟩, ho⟩
    · simp only [Scan.byte, if_neg h4, hb, not_false_eq_true, if_true]
      exact end_follows (s := ⟨.length t f waiting, outside⟩) hr hw ht h4 hb ho

theorem body_follows {t : ControlPacketType} {f : UInt8} {received : List UInt8} {missing : Nat} {outside : Mallocs × σ}
    (h : Follows ⟨.body t f received missing, outside⟩ r) (b : UInt8) :
    ((Scan.mk (.body t f received missing) outside).byte cb b).1 = (receiveByte Run.slot (Run.call cb) b r).1 ∧
      Follows ((Scan.mk (.body t f received missing) outside).byte cb b).2 (receiveByte Run.slot (Run.call cb) b r).2 := by
  obtain ⟨⟨hf, hm⟩, ho⟩ := h
  obtain ⟨n, rfl⟩ : ∃ n, missing = n + 1 := ⟨missing - 1, by omega⟩
  obtain ⟨c, ha, hc⟩ := advance_fill hf r.mallocs b
  by_cases hn : n = 0
  · subst hn
    simp only [decide_true] at ha
    rw [receive_complete ha]
    simp only [Scan.byte, Nat.zero_add, if_true]
    refine ⟨trivial, follows_complete ?_ waiting_nil hc.packet _ ho⟩
    exact ⟨hc.fault, rfl, rfl, rfl, rfl, hc.index, ⟨_, rfl⟩⟩
  · simp only [hn, decide_false] at ha
    rw [receive_quiet ha]
    simp only [Scan.byte, Nat.add_eq_right, hn, if_false, Nat.add_sub_cancel]
    exact ⟨trivial, ⟨hc, by omega⟩, ho⟩

theorem byte_follows (h : Follows s r) (b : UInt8) :
    (s.byte cb b).1 = (receiveByte Run.slot (Run.call cb) b r).1 ∧
      Follows (s.byte cb b).2 (receiveByte Run.slot (Run.call cb) b r).2 := by
  rcases s with ⟨place, outside⟩
  have hat : At r.codec place := h.codec
  have ho : outside = (r.mallocs, r.rest) := h.outside
  cases place with
  | between waiting =>
    obtain ⟨hr, hw⟩ := hat
    obtain ⟨c, ha, hc⟩ := advance_type hr r.mallocs b
    rw [receive_quiet ha]
    exact ⟨rfl, ⟨hc, hw, packetTypeByte_onWire b |>.2⟩, ho⟩
  | length t f waiting => exact length_follows h b
  | body t f received missing => exact body_follows h b
  | starved =>
    obtain ⟨hf, hs, hd⟩ := hat
    have ha : advance r.codec r.mallocs b = ⟨0, false, { r.codec with codecState := .payload }, r.mallocs⟩ := by
      simp [advance, hf, hs, hd]
    rw [receive_quiet ha]
    exact ⟨rfl, ⟨hf, Or.inl rfl⟩, ho⟩
  | stuck =>
    obtain ⟨hf, hs⟩ := hat
    have ha : advance r.codec r.mallocs b =
        ⟨failure, false, { r.codec with currPacket := .packetTypeError }, r.mallocs⟩ := by
      rcases hs with hs | ⟨hs, hd⟩
      · simp [advance, hf, hs]
      · simp [advance, hf, hs, hd, Buffer.uChar]
    rw [receive_quiet ha]
    exact ⟨rfl, ⟨hf, hs⟩, ho⟩
  | overlong =>
    have hf : r.codec.fault = some .storeWrite := hat
    have ha : advance r.codec r.mallocs b = ⟨failure, false, r.codec, r.mallocs⟩ := by simp [advance, hf]
    rw [receive_quiet ha]
    exact ⟨rfl, hf, ho⟩

theorem spoiled_at {place : Place} (h : At c place) : At { c with currPacket := .packetTypeError } place.spoiled := by
  cases place with
  | between waiting => exact ⟨⟨h.1.fault, h.1.state, rfl, h.1.flags, h.1.data, h.1.index, h.1.store⟩, h.2, by decide⟩
  | length t f waiting =>
    exact ⟨⟨h.1.fault, h.1.state, rfl, h.1.flags, h.1.data, h.1.index, h.1.store⟩, h.2.1, by decide⟩
  | body t f received missing =>
    exact ⟨⟨h.1.fault, h.1.state, rfl, h.1.flags, h.1.index, h.1.offset, h.1.data⟩, h.2⟩
  | starved => exact h
  | stuck => exact h
  | overlong => exact h

theorem chunk_follows (bytes : List UInt8) (s : Scan σ) (r : Run σ) (h : Follows s r) :
    (s.chunk cb bytes).1 = (bytesReceived Run.slot (Run.call cb) bytes r).1 ∧
      Follows (s.chunk cb bytes).2 (bytesReceived Run.slot (Run.call cb) bytes r).2 := by
  unfold Scan.chunk bytesReceived
  split
  · exact ⟨rfl, spoiled_at h.codec, h.outside⟩
  · exact runUntil_rel (R := Follows) _ (fun b _ _ hf => byte_follows hf b) bytes h

end Bytes

/-! ## Runs -/

theorem At.fault {c : CodecInstance} {place : Place} (h : At c place) :
    (c.fault = none ↔ place ≠ .overlong) ∧ ∀ f, c.fault = some f → f = .storeWrite := by
  cases place with
  | overlong =>
    have hf : c.fault = some .storeWrite := h
    simp [hf]
  | between waiting => simp [h.1.fault]
  | length t f waiting => simp [h.1.fault]
  | body t f received missing => simp [h.1.fault]
  | starved => simp [h.1]
  | stuck => simp [h.1]

/-- On any chunks, with any allocator and any callback that does not re-enter it, the decoder stays
    inside of its arrays exactly if no length byte comes behind four that wait; and no other access
    is ever outside. -/
theorem feed_in_bounds {σ : Type} (cb : Run.Callback σ) (chunks : List (List UInt8)) (ms : Mallocs) (x : σ) :
    ((Run.feed cb chunks (Run.start ms x)).2.codec.fault = none ↔ Scan.reached cb chunks ms x ≠ .overlong) ∧
      ∀ f, (Run.feed cb chunks (Run.start ms x)).2.codec.fault = some f → f = .storeWrite := by
  have hstart : Follows (Scan.start ms x) (Run.start ms x) := by
    refine ⟨⟨⟨rfl, rfl, rfl, rfl, rfl, rfl, ⟨_, rfl⟩⟩, waiting_nil⟩, rfl⟩
  have hend : Follows (calls (Scan.chunk cb) chunks (Scan.start ms x)).2 (Run.feed cb chunks (Run.start ms x)).2 :=
    calls_rel _ (fun bytes s r h => chunk_follows bytes s r h) chunks hstart
  exact hend.codec.fault

/-- A fifth length byte is stored behind the array. -/
theorem feed_store_overrun :
    (Run.feed (fun _ x => x) [[0x20, 0x80, 0x80, 0x80, 0x80, 0x80]] (Run.start [] ())).2.codec.fault =
      some .storeWrite := by decide

/-- So is one behind four packets: each of these PINGRESPs leaves a byte of its length to wait. -/
example : Scan.reached (fun _ x => x) [[0xD0, 0x80, 0xD0, 0x80, 0xD0, 0x80], [0xD0, 0x80, 0x20, 0x02]] [] () = .overlong := by
  decide

end UMqtt.Codec

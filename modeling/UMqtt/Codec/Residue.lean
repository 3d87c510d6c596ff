/-
  UMqtt.Codec.Residue — what a codec still holds of the bytes before.

  Nothing resets a codec but the end of a packet, so a connection that dies inside one
  leaves the next connection a codec that is not `Idle`. An idle codec behaves as a new
  one, since the fields in which they may differ are never read (`idle_core`). A codec
  that is not idle shows it on the three bytes of `probe`: it does not deliver the CONNACK
  they are (`probe_misses`). So the next bytes are decoded as by a new codec exactly when
  the codec is idle (`feed_resumed_iff`).
-/

import UMqtt.Codec.Bounds

namespace UMqtt.Codec

open UMqtt.Lib UMqtt.Crt

/-! ## Reachable codecs -/

/-- What `Inv` does not say of a codec that never left its arrays: the length bytes stored
    so far are continuation bytes with zeros behind them, there are none once the header is
    read, and between packets there are no flags. -/
structure Regular (c : CodecInstance) : Prop where
  store : c.fault = none → ∃ ds : List UInt8, ds.length = c.remainLenIndex ∧ (∀ d ∈ ds, Base128.continues d) ∧
    c.storeRemainLen.toList = ds ++ List.replicate (4 - ds.length) 0
  clear : c.fault = none → c.codecState ≠ .fixedHeader → c.remainLenIndex = 0
  flags : c.currPacket = .unknown → c.headerFlags = 0

theorem create_regular : Regular create :=
  ⟨fun _ => ⟨[], rfl, by simp, rfl⟩, fun _ _ => rfl, fun _ => rfl⟩

theorem Regular.error {c : CodecInstance} (h : Regular c) : Regular { c with currPacket := .packetTypeError } :=
  ⟨h.store, h.clear, fun e => (nomatch e)⟩

theorem Regular.cleanUp {c : CodecInstance} (h : Regular c) : Regular c.cleanUp :=
  ⟨h.store, fun _ e => absurd rfl e, fun _ => rfl⟩

theorem packetTypeByte_ne_unknown (b : UInt8) : packetTypeByte b ≠ .unknown := (packetTypeByte_onWire b).2

theorem prepare_regular {c : CodecInstance} (h : Regular c) (hf : c.fault = none) (hs : c.codecState = .fixedHeader)
    (ht : c.currPacket ≠ .unknown) (b : UInt8) (ms : Mallocs) : Regular (prepareheaderDataInfo c b ms).2.1 := by
  unfold prepareheaderDataInfo
  by_cases h4 : c.remainLenIndex < 4
  · simp only [h4, dite_true]
    by_cases h7 : b ≤ 0x7f
    · rw [if_pos h7]
      split
      · exact ⟨fun e => (nomatch e), fun e => (nomatch e), fun e => absurd e ht⟩
      · split <;> exact ⟨fun _ => ⟨[], rfl, by simp, rfl⟩, fun _ _ => rfl, fun e => absurd e ht⟩
    · have hcont : Base128.continues b := Decidable.not_not.mp fun e => h7 ((le7f b).mpr e)
      rw [if_neg h7]
      refine ⟨fun e => ?_, fun _ e => absurd hs e, fun e => absurd e ht⟩
      obtain ⟨ds, hl, hc, hst⟩ := h.store hf
      refine ⟨ds ++ [b], by simp [hl], ?_, ?_⟩
      · intro d hd
        rcases List.mem_append.mp hd with hd | hd
        · exact hc d hd
        · rw [List.mem_singleton.mp hd]; exact hcont
      · rw [Vector.toList_set, hst, ← hl, List.set_append_right _ _ (Nat.le_refl _), Nat.sub_self,
          show 4 - ds.length = 4 - (ds.length + 1) + 1 by omega, List.replicate_succ]
        simp
  · simp only [h4, dite_false]
    exact ⟨fun e => (nomatch e), fun e => (nomatch e), fun e => absurd e ht⟩

theorem advance_regular {c : CodecInstance} (h : Regular c) (ms : Mallocs) (b : UInt8) : Regular (advance c ms b).after := by
  unfold advance Advance.after
  split
  · exact h
  · rename_i hf
    have hf : c.fault = none := by simpa using hf
    split
    · rename_i hs
      split
      · exact ⟨h.store, h.clear, fun e => absurd e (packetTypeByte_ne_unknown b)⟩
      · rename_i ht
        have hp := prepare_regular h hf hs ht b ms
        by_cases hok : (prepareheaderDataInfo c b ms).1 = 0
        · simp only [if_pos hok]
          split
          · exact hp.cleanUp
          · exact hp
        · simp only [if_neg hok]
          split
          · exact hp.error.cleanUp
          · exact hp.error
    · rename_i hs
      have hclear := h.clear hf (by rw [hs]; decide)
      split
      · exact ⟨h.store, fun _ _ => hclear, h.flags⟩
      · split
        · exact h.error
        · split
          · simp only
            split
            · exact ⟨h.store, fun _ e => absurd rfl e, fun _ => rfl⟩
            · exact ⟨h.store, fun _ _ => hclear, h.flags⟩
          · exact ⟨fun e => (nomatch e), fun e => (nomatch e), h.flags⟩
    · exact h.error

/-! ## What is never read -/

/-- The codec without the ghost, and without an offset that belongs to no buffer. -/
def CodecInstance.core (c : CodecInstance) : CodecInstance :=
  { c with lengthBytes := [], bufferOffset := if c.headerData.isNone then 0 else c.bufferOffset }

theorem core_core (c : CodecInstance) : c.core.core = c.core := by
  simp only [CodecInstance.core]
  split <;> rfl

theorem core_cleanUp {c d : CodecInstance} (h : c.core = d.core) : c.cleanUp.core = d.cleanUp.core := by
  simp only [CodecInstance.core, CodecInstance.mk.injEq] at h
  simp only [CodecInstance.core, CodecInstance.cleanUp, Option.isNone_none, if_true, h]

theorem core_packet {c d : CodecInstance} (h : c.core = d.core) : c.packet = d.packet := by
  simp only [CodecInstance.core, CodecInstance.mk.injEq] at h
  simp only [CodecInstance.packet, h]

/-- Two steps that differ in nothing that shows. -/
structure Advance.Alike (a b : Advance) : Prop where
  result : a.result = b.result
  complete : a.complete = b.complete
  codec : a.codec.core = b.codec.core
  mallocs : a.mallocs = b.mallocs

/-- What `prepareheaderDataInfo` makes of a codec and of its core. -/
structure SamePrepare (a b : Nat × CodecInstance × Mallocs) (t : ControlPacketType) : Prop where
  result : a.1 = b.1
  codec : a.2.1.core = b.2.1.core
  type : a.2.1.currPacket = t
  type' : b.2.1.currPacket = t
  mallocs : a.2.2 = b.2.2

theorem prepare_core (c : CodecInstance) (b : UInt8) (ms : Mallocs) :
    SamePrepare (prepareheaderDataInfo c.core b ms) (prepareheaderDataInfo c b ms) c.currPacket := by
  unfold prepareheaderDataInfo
  by_cases h4 : c.remainLenIndex < 4
  · have h4' : c.core.remainLenIndex < 4 := h4
    rw [dif_pos h4, dif_pos h4']
    by_cases h7 : b ≤ 0x7f
    · rw [if_pos h7, if_pos h7]
      have hst : c.core.storeRemainLen.set c.core.remainLenIndex b h4' = c.storeRemainLen.set c.remainLenIndex b h4 := rfl
      simp only [hst]
      cases lengthLoop (c.storeRemainLen.set c.remainLenIndex b h4).toList 1 0 with
      | none =>
        refine ⟨rfl, ?_, rfl, rfl, rfl⟩
        cases hd : c.headerData <;> simp [CodecInstance.core, hd]
      | some r =>
        by_cases ht : 0 < r.2
        · simp only [if_pos ht]
          exact ⟨rfl, rfl, rfl, rfl, rfl⟩
        · simp only [if_neg ht]
          refine ⟨rfl, ?_, rfl, rfl, rfl⟩
          cases hd : c.headerData <;> simp [CodecInstance.core, hd]
    · rw [if_neg h7, if_neg h7]
      refine ⟨rfl, ?_, rfl, rfl, rfl⟩
      cases hd : c.headerData <;> simp [CodecInstance.core, hd]
  · have h4' : ¬ c.core.remainLenIndex < 4 := h4
    rw [dif_neg h4, dif_neg h4']
    refine ⟨rfl, ?_, rfl, rfl, rfl⟩
    cases hd : c.headerData <;> simp [CodecInstance.core, hd]

theorem core_setType {c d : CodecInstance} (h : c.core = d.core) (t : ControlPacketType) :
    { c with currPacket := t }.core = { d with currPacket := t }.core :=
  congrArg (fun e : CodecInstance => { e with currPacket := t }) h

theorem advance_core (c : CodecInstance) (ms : Mallocs) (b : UInt8) : (advance c.core ms b).Alike (advance c ms b) := by
  have hcc := core_core c
  unfold advance
  have hfault : c.core.fault = c.fault := rfl
  have hstate : c.core.codecState = c.codecState := rfl
  have htype : c.core.currPacket = c.currPacket := rfl
  have hdata : c.core.headerData = c.headerData := rfl
  rw [hfault, hstate, htype, hdata]
  split
  · exact ⟨rfl, rfl, hcc, rfl⟩
  · split
    · split
      · exact ⟨rfl, rfl, congrArg (fun e : CodecInstance =>
          { e with currPacket := packetTypeByte b, headerFlags := flagValueByte b }) hcc, rfl⟩
      · have hp := prepare_core c b ms
        by_cases hok : (prepareheaderDataInfo c b ms).1 = 0
        · simp only [hp.result, hok, if_true]
          exact ⟨rfl, by simp only [hp.type, hp.type'], hp.codec, hp.mallocs⟩
        · simp only [hp.result, hok, if_false]
          exact ⟨rfl, rfl, core_setType hp.codec _, hp.mallocs⟩
    · cases hd : c.headerData with
      | none =>
        simp only
        exact ⟨rfl, rfl, rfl, rfl⟩
      | some d =>
        have hoff : c.core.bufferOffset = c.bufferOffset := by simp [CodecInstance.core, hd]
        simp only [hoff]
        cases Buffer.uChar (some d) with
        | none =>
          simp only
          exact ⟨rfl, rfl, by simp only [CodecInstance.core, hd, Option.isNone_some, Bool.false_eq_true, if_false], rfl⟩
        | some dataBytes =>
          by_cases hin : c.bufferOffset < dataBytes.length
          · simp only [if_pos hin]
            exact ⟨rfl, rfl, rfl, rfl⟩
          · simp only [if_neg hin]
            exact ⟨rfl, rfl, by simp only [CodecInstance.core, hd, Option.isNone_some, Bool.false_eq_true, if_false], rfl⟩
    · exact ⟨rfl, rfl, core_setType hcc _, rfl⟩

theorem advance_alike {c d : CodecInstance} (h : c.core = d.core) (ms : Mallocs) (b : UInt8) :
    (advance c ms b).Alike (advance d ms b) := by
  have h1 := advance_core c ms b
  have h2 := advance_core d ms b
  rw [h] at h1
  exact ⟨h1.result.symm.trans h2.result, h1.complete.symm.trans h2.complete, h1.codec.symm.trans h2.codec,
    h1.mallocs.symm.trans h2.mallocs⟩

theorem Advance.Alike.after {a b : Advance} (h : a.Alike b) : a.after.core = b.after.core := by
  simp only [Advance.after, h.complete]
  split
  · exact core_cleanUp h.codec
  · exact h.codec

/-- An idle codec is a new one, up to what is never read. -/
theorem idle_core {c : CodecInstance} (hi : Idle c) (hr : Regular c) : c.core = create.core := by
  obtain ⟨ds, hl, -, hst⟩ := hr.store hi.fault
  rw [hi.index] at hl
  rw [List.length_eq_zero_iff.mp hl, List.length_nil, List.nil_append] at hst
  have hstore : c.storeRemainLen = Vector.replicate 4 0 := Vector.toList_inj.mp (by rw [hst]; rfl)
  simp only [CodecInstance.core, create, hi.fault, hi.state, hi.type, hi.data, hi.index, hr.flags hi.type, hstore,
    Option.isNone_none, if_true]

/-! ## In step -/

section Rel

variable {W V : Type} {s : Slot W (CodecInstance × Mallocs)} {t : Slot V (CodecInstance × Mallocs)}

/-- Two callers hold codecs that differ in nothing that shows. -/
structure InStep (s : Slot W (CodecInstance × Mallocs)) (t : Slot V (CodecInstance × Mallocs)) (R : W → V → Prop) : Prop where
  codec : ∀ {w v}, R w v → (s.get w).1.core = (t.get v).1.core
  mallocs : ∀ {w v}, R w v → (s.get w).2 = (t.get v).2
  set : ∀ {w v c d} ms, R w v → c.core = d.core → R (s.set (c, ms) w) (t.set (d, ms) v)

variable {R : W → V → Prop} {cb : Packet → W → W} {cb' : Packet → V → V}

theorem InStep.receiveByte (h : InStep s t R) (hcb : ∀ p w v, R w v → R (cb p w) (cb' p v)) (b : UInt8) (w : W) (v : V)
    (hR : R w v) : (receiveByte s cb b w).1 = (receiveByte t cb' b v).1 ∧ R (receiveByte s cb b w).2 (receiveByte t cb' b v).2 := by
  have ha := advance_alike (h.codec hR) (s.get w).2 b
  rw [h.mallocs hR] at ha
  have hset := h.set (advance (t.get v).1 (t.get v).2 b).mallocs hR ha.codec
  simp only [Codec.receiveByte, h.mallocs hR, ha.result, ha.complete, ha.mallocs]
  refine ⟨trivial, ?_⟩
  split
  · simp only [completePacketData, s.get_set, t.get_set, core_packet ha.codec]
    have hcall := hcb (advance (t.get v).1 (t.get v).2 b).codec.packet _ _ hset
    have := h.set (t.get (cb' (advance (t.get v).1 (t.get v).2 b).codec.packet
      (t.set ((advance (t.get v).1 (t.get v).2 b).codec, (advance (t.get v).1 (t.get v).2 b).mallocs) v))).2 hcall
      (core_cleanUp (h.codec hcall))
    simp only [Slot.modify, h.mallocs hcall]
    exact this
  · exact hset

theorem InStep.bytesReceived (h : InStep s t R) (hcb : ∀ p w v, R w v → R (cb p w) (cb' p v)) (buffer : List UInt8) (w : W)
    (v : V) (hR : R w v) : (bytesReceived s cb buffer w).1 = (bytesReceived t cb' buffer v).1 ∧
      R (bytesReceived s cb buffer w).2 (bytesReceived t cb' buffer v).2 := by
  by_cases he : buffer = []
  · simp only [Codec.bytesReceived, if_pos he]
    refine ⟨trivial, ?_⟩
    simp only [Slot.modify, h.mallocs hR]
    exact h.set _ hR (core_setType (h.codec hR) _)
  · rw [bytesReceived_ne_nil s cb he, bytesReceived_ne_nil t cb' he]
    exact runUntil_rel _ (h.receiveByte hcb) buffer hR

end Rel

/-! ## What a codec inside a packet shows -/

theorem probe_sized : Sized .connack [0] := sized_body (by decide) (by decide) (by decide)

def probeFrame : Frame := ⟨.connack, connackFrame.flags, [0], connack_onWire, probe_sized⟩

def probe : List UInt8 := [0x20, 0x01, 0x00]

theorem probe_bytes : probe = probeFrame.bytes := by
  simp only [Frame.bytes, probeFrame, connackFrame, List.length_singleton, Base128.encode_lt (show 1 < 128 by decide)]
  rfl

section Shows

variable {W : Type} {s : Slot W (CodecInstance × Mallocs)} {packetComplete : Packet → W → W}

/-- A byte that fails ends the call. -/
theorem runUntil_failed {c : CodecInstance} {ms : Mallocs} {b : UInt8} (hr : (advance c ms b).result ≠ 0)
    (hc : (advance c ms b).complete = false) (rest : List UInt8) (w : W) :
    runUntil (receiveByte s packetComplete) (b :: rest) (s.set (c, ms) w) =
      ((advance c ms b).result, s.set ((advance c ms b).codec, (advance c ms b).mallocs) w) := by
  simp only [runUntil_cons, receiveByte_set, hc, if_neg hr, Bool.false_eq_true, if_false]

variable (s packetComplete) in
/-- A body that is not complete yet is not delivered. -/
theorem fill_partial {t : ControlPacketType} {f : UInt8} (ms : Mallocs) (w : W) :
    ∀ (bs pre : List UInt8) (n : Nat) (c : CodecInstance), Filling c t f pre n → bs.length < n →
      ∃ c', runUntil (receiveByte s packetComplete) bs (s.set (c, ms) w) = (0, s.set (c', ms) w) := by
  intro bs
  induction bs with
  | nil => intro pre n c _ _; exact ⟨c, rfl⟩
  | cons b bs ih =>
    intro pre n c h hn
    obtain ⟨n, rfl⟩ : ∃ m, n = m + 1 := ⟨n - 1, by simp only [List.length_cons] at hn; omega⟩
    simp only [List.length_cons, Nat.add_lt_add_iff_right] at hn
    obtain ⟨c1, ha, h1⟩ := advance_fill h ms b
    obtain ⟨c2, hr⟩ := ih (pre ++ [b]) n c1 h1 hn
    exact ⟨c2, by rw [runUntil_quiet (by simpa [show n ≠ 0 by omega] using ha), hr]⟩

/-- Behind three or four stored length bytes no last one is taken. -/
theorem prepareheaderDataInfo_overlong {c : CodecInstance} {ds : List UInt8} (h : Stored c ds)
    (hd : ∀ d ∈ ds, Base128.continues d) (hl : 3 ≤ ds.length) {b : UInt8} (hb : ¬ Base128.continues b) (ms : Mallocs) :
    (prepareheaderDataInfo c b ms).1 = failure := by
  by_cases hi : c.remainLenIndex < 4
  · have hlen : ds.length = 3 := by rw [h.index] at hi; omega
    rw [prepareheaderDataInfo_end h hd (by omega) hb]
    simp only [hlen, if_true]
    split
    · simp only [ite_self]
    · rfl
  · simp only [prepareheaderDataInfo, dif_neg hi]

/-- What three or four stored length bytes make of one more. -/
theorem advance_overlong {c : CodecInstance} {t : ControlPacketType} {f : UInt8} {ds : List UInt8} (h : Reading c t f ds)
    (ht : t ≠ .unknown) (hd : ∀ d ∈ ds, Base128.continues d) (hl : 3 ≤ ds.length) (ms : Mallocs) {b : UInt8}
    (hb : ¬ Base128.continues b) : (advance c ms b).result ≠ 0 ∧ (advance c ms b).complete = false := by
  have hresult := prepareheaderDataInfo_overlong h.stored hd hl hb ms
  simp [advance, h.fault, h.state, h.type, ht, hresult, Crt.failure]

end Shows

namespace Run

variable {σ : Type} {cb : Callback σ}

variable (cb) in
/-- Nothing that was delivered is taken back. -/
theorem packets_prefix (bs : List UInt8) (r : Run σ) :
    r.packets <+: (runUntil (receiveByte slot (call cb)) bs r).2.packets := by
  refine runUntil_inv (I := fun r' : Run σ => r.packets <+: r'.packets) _ ?_ bs List.prefix_rfl
  intro b r' h
  simp only [receiveByte]
  split
  · exact h.trans (List.prefix_append _ _)
  · exact h

/-- Nothing is delivered, or something else than `p` before anything. -/
def Misses (p : Packet) (r : Run σ) : Prop := r.packets.head? ≠ some p

/-- Once another packet has come first. -/
theorem misses_after {p q : Packet} (hq : q ≠ p) {r : Run σ} (hr : r.packets = [q]) (bs : List UInt8) :
    Misses p (runUntil (receiveByte slot (call cb)) bs r).2 := by
  obtain ⟨more, h⟩ := packets_prefix cb bs r
  intro e
  rw [← h, hr, List.singleton_append, List.head?_cons, Option.some.injEq] at e
  exact hq e

/-- A body under construction takes bytes that are no body. -/
theorem filling_misses {c : CodecInstance} {t : ControlPacketType} {f : UInt8} {pre : List UInt8} {n : Nat}
    (h : Filling c t f pre n) (hn : 0 < n) {p : Packet} {bs : List UInt8}
    (hp : n ≤ bs.length → p.headerData ≠ some (Buffer.ofBytes (pre ++ bs.take n))) (ms : Mallocs) {r : Run σ}
    (hr : r.packets = []) : Misses p (runUntil (receiveByte slot (call cb)) bs (slot.set (c, ms) r)).2 := by
  by_cases hl : n ≤ bs.length
  · have htake : (bs.take n).length = n := by rw [List.length_take]; omega
    obtain ⟨c', hc', hrun⟩ := fill_run slot (call cb) ms r (bs.take n) pre c
      (by rintro he; rw [he] at htake; simp only [List.length_nil] at htake; omega) (by rw [htake]; exact h)
    rw [← List.take_append_drop n bs, runUntil_append_ok _ hrun]
    refine misses_after (q := c'.packet) ?_ ?_ _
    · intro e
      rw [← e, hc'.packet] at hp
      exact hp hl rfl
    · simp only [completePacketData, Slot.modify, slot, call, hr, List.nil_append]
  · obtain ⟨c', hrun⟩ := fill_partial slot (call cb) ms r bs pre n c h (by omega)
    rw [hrun]
    simp [Misses, slot, hr]

/-- A length that is longer than the rest of the probe swallows it. -/
theorem length_misses {c : CodecInstance} {t : ControlPacketType} {f : UInt8} {ds : List UInt8} (h : Reading c t f ds)
    (ht : t ≠ .unknown) (hd : ∀ d ∈ ds, Base128.continues d) {b : UInt8} (hb : ¬ Base128.continues b)
    {rest : List UInt8} (hv : rest.length < Base128.value (ds ++ [b])) {p : Packet} (hp : p.packet ≠ .pingresp)
    {r : Run σ} (hr : r.packets = []) :
    Misses p (runUntil (receiveByte slot (call cb)) (b :: rest) (slot.set (c, []) r)).2 := by
  by_cases hl : ds.length ≤ 2
  · obtain ⟨c', ms', ha, hfill, -⟩ := advance_last h ht hd hl succeed_nil hb (by omega)
    by_cases hping : t = .pingresp
    · have hrun : runUntil (receiveByte slot (call cb)) [b] (slot.set (c, []) r) = _ :=
        runUntil_complete (by simpa [hping] using ha) r
      rw [show b :: rest = [b] ++ rest from rfl, runUntil_append_ok _ hrun]
      refine misses_after (q := c'.packet) ?_ ?_ _
      · rintro rfl
        exact hp (hfill.type.trans hping)
      · simp only [completePacketData, Slot.modify, slot, call, hr, List.nil_append]
    · rw [runUntil_quiet (by simpa [hping] using ha)]
      exact filling_misses hfill (by omega) (by omega) ms' hr
  · obtain ⟨ha, ha'⟩ := advance_overlong h ht hd (by omega) [] hb
    rw [runUntil_failed ha ha']
    simp [Misses, slot, hr]

variable (cb) in
/-- A reachable codec that is not between packets does not deliver the probe. -/
theorem probe_misses {c : CodecInstance} (hinv : Inv c) (hreg : Regular c) (hidle : ¬ Idle c) {r : Run σ}
    (hr : r.packets = []) :
    Misses probeFrame.packet (runUntil (receiveByte slot (call cb)) probe (slot.set (c, []) r)).2 := by
  have hnil : (advance c [] 0x20).result = failure ∧ (advance c [] 0x20).complete = false →
      Misses probeFrame.packet (runUntil (receiveByte slot (call cb)) probe (slot.set (c, []) r)).2 := by
    rintro ⟨hn, hc⟩
    rw [probe, runUntil_failed (by rw [hn]; decide) hc]
    simp [Misses, slot, hr]
  cases hf : c.fault with
  | some f => exact hnil (by simp [advance, hf])
  | none =>
    cases hs : c.codecState with
    | payload => exact hnil (by simp [advance, hf, hs])
    | varHeader =>
      have hi := hreg.clear hf (by rw [hs]; decide)
      cases hd : c.headerData with
      | none =>
        -- the state PAYLOAD fails on the byte after this one
        have ha : advance c [] 0x20 = ⟨0, false, { c with codecState := .payload }, []⟩ := by simp [advance, hf, hs, hd]
        rw [probe, runUntil_quiet ha, runUntil_failed (by simp [advance, hf, Crt.failure]) (by simp [advance, hf])]
        simp [Misses, slot, hr]
      | some d =>
        have hbody := hinv.body
        rw [hd] at hbody
        rcases hbody with rfl | ⟨block, rfl, hlt⟩
        · exact hnil (by simp [advance, hf, hs, hd, Buffer.uChar])
        · have hfill : Filling c c.currPacket c.headerFlags (block.take c.bufferOffset) (block.length - c.bufferOffset) :=
            ⟨hf, hs, rfl, rfl, hi, by rw [List.length_take]; omega,
              ⟨block.drop c.bufferOffset, by rw [List.take_append_drop, hd], by rw [List.length_drop]⟩⟩
          refine filling_misses hfill (by omega) ?_ [] hr
          intro hn e
          simp only [probeFrame, Frame.packet, reduceCtorEq, if_false, Option.some.injEq] at e
          have hbytes := congrArg Buffer.bytes e
          simp only [Buffer.bytes_ofBytes] at hbytes
          have hlen := congrArg List.length hbytes
          simp only [List.length_append, List.length_take, probe, List.length_cons, List.length_nil] at hlen hn
          have hone : block.length - c.bufferOffset = 1 := by omega
          have hpre : block.take c.bufferOffset = [] := List.length_eq_zero_iff.mp (by rw [List.length_take]; omega)
          rw [hone, hpre] at hbytes
          exact absurd hbytes (by decide)
    | fixedHeader =>
      have hd := hinv.noData hs
      obtain ⟨ds, hl, hc, hst⟩ := hreg.store hf
      have hread : Reading c c.currPacket c.headerFlags ds := ⟨hf, hs, rfl, rfl, hd, hl.symm, ⟨_, hst⟩⟩
      by_cases ht : c.currPacket = .unknown
      · -- between packets, with length bytes left over
        have hne : ds ≠ [] := fun e => hidle ⟨hf, hs, ht, hd, by rw [← hl, e]; rfl⟩
        rw [ht] at hread
        obtain ⟨c', ha, h'⟩ := advance_type hread [] 0x20
        rw [probe, runUntil_quiet ha]
        refine length_misses h' (packetTypeByte_ne_unknown _) hc (by decide) ?_ (by decide) hr
        have hpos : 0 < ds.length := List.length_pos_iff.mpr hne
        have hpow : 128 ^ 1 ≤ 128 ^ ds.length := Nat.pow_le_pow_right (by decide) hpos
        rw [Base128.value_snoc, show Base128.digit 0x01 = 1 from rfl]
        simp only [List.length_singleton]
        omega
      · rw [probe]
        refine length_misses hread ht hc (by decide) ?_ (by decide) hr
        have hpow : 1 ≤ 128 ^ ds.length := Nat.one_le_pow _ _ (by decide)
        rw [Base128.value_snoc, show Base128.digit 0x20 = 32 from rfl]
        simp only [List.length_cons, List.length_nil]
        omega

/-- The codec `c` and the allocator `ms`, nothing delivered yet. -/
def resume (c : CodecInstance) (ms : Mallocs) (x : σ) : Run σ := ⟨c, ms, [], x⟩

theorem feed_one (cb : Callback σ) {buffer : List UInt8} (h : buffer ≠ []) (r : Run σ) :
    (feed cb [buffer] r).2 = (runUntil (receiveByte slot (call cb)) buffer (slot.set (r.codec, r.mallocs) r)).2 := by
  simp only [feed, calls, bytesReceived_ne_nil slot (call cb) h]
  rw [show (r.codec, r.mallocs) = slot.get r from rfl, slot.set_get]

theorem feed_probe_fresh (cb : Callback σ) (x : σ) : ¬ Misses probeFrame.packet (feed cb [probe] (start [] x)).2 := by
  obtain ⟨c', ms', hpk, -, -, -, hrun⟩ := frame_run slot (call cb) probeFrame create_idle
    succeed_nil (start [] x)
  rw [← probe_bytes] at hrun
  rw [feed_one cb (by decide)]
  simp only [start] at hrun ⊢
  rw [hrun]
  simp [Misses, completePacketData, slot, call, hpk, Slot.modify]

/-- Whatever comes next, a reachable codec delivers of it what a new one would exactly when
    it stands between two packets. -/
theorem feed_resumed_iff (cb : Callback σ) (x : σ) {c : CodecInstance} (hinv : Inv c) (hreg : Regular c) :
    (∀ ms chunks, (feed cb chunks (resume c ms x)).2.packets = (feed cb chunks (start ms x)).2.packets) ↔ Idle c := by
  constructor
  · intro h
    by_cases hidle : Idle c
    · exact hidle
    · have hmiss := probe_misses cb hinv hreg hidle (r := resume c [] x) rfl
      have hfeed := feed_one cb (show probe ≠ [] by decide) (resume c [] x)
      simp only [resume] at hmiss hfeed h
      rw [Misses, ← hfeed, h [] [probe]] at hmiss
      exact absurd hmiss (feed_probe_fresh cb x)
  · intro hidle ms chunks
    have hstep : InStep slot slot fun r r' : Run σ =>
        r.codec.core = r'.codec.core ∧ r.mallocs = r'.mallocs ∧ r.packets = r'.packets ∧ r.rest = r'.rest :=
      ⟨fun h => h.1, fun h => h.2.1, fun _ h hc => ⟨hc, rfl, h.2.2⟩⟩
    have hcall : ∀ (p : Packet) (r r' : Run σ),
        (r.codec.core = r'.codec.core ∧ r.mallocs = r'.mallocs ∧ r.packets = r'.packets ∧ r.rest = r'.rest) →
        ((call cb p r).codec.core = (call cb p r').codec.core ∧ (call cb p r).mallocs = (call cb p r').mallocs ∧
          (call cb p r).packets = (call cb p r').packets ∧ (call cb p r).rest = (call cb p r').rest) := by
      rintro p r r' ⟨hc, hm, hp, hx⟩
      simp only [call, hm, hp, hx]
      exact ⟨hc, trivial, trivial, trivial⟩
    exact (calls_rel _ (hstep.bytesReceived hcall) chunks (w := resume c ms x) (v := start ms x)
      ⟨idle_core hidle hreg, rfl, rfl, rfl⟩).2.2.1

end Run

end UMqtt.Codec

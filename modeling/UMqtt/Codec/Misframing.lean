/-
  UMqtt.Codec.Misframing — the decoder against reference framing, on any bytes.

  Every stream is packets that the decoder takes (`Piece`) and a rest that starts with no
  such packet (`exists_pieces`). The pieces are delivered as reference framing has them
  (`pieces_run`). In the rest one of two headers goes wrong (`Misread`): behind a PINGRESP
  any length byte completes it, so one that is not 0 delivers a packet whose body or whose
  length is still to come; and a fifth length byte is stored outside of the length field.
  On any other rest nothing more is delivered (`rest_run`).

  Proved (`framed_iff`): at every moment of a stream, however it is cut into chunks, the
  packets delivered before the first non-zero return are the first packets of reference
  framing, and no access has been out of bounds, if and only if the stream comes to neither
  header.
-/

import UMqtt.Wire.Frames
import UMqtt.Codec.Residue

namespace UMqtt.Codec

open UMqtt.Lib UMqtt.Crt

/-! ## Packets and frames -/

/-- What the callback is given, as reference framing names it. -/
def Packet.raw (p : Packet) : Wire.RawFrame :=
  ⟨p.packet.value.toNat / 16, p.flags.toNat, (p.headerData.map Buffer.bytes).getD []⟩

theorem typeNibble (b : UInt8) : (packetTypeByte b).value.toNat / 16 = b.toNat / 16 := by
  have key : ∀ i : Fin 256, (packetTypeByte (UInt8.ofNat i.val)).value.toNat / 16 = i.val / 16 := by decide +kernel
  have hb := key ⟨b.toNat, b.toNat_lt⟩
  simpa using hb

theorem flagNibble (b : UInt8) : (flagValueByte b).toNat = b.toNat % 16 := by
  rw [flagValueByte, UInt8.toNat_and]
  exact Nat.and_two_pow_sub_one_eq_mod b.toNat 4

theorem Piece.raw (p : Piece) : p.packet.raw = .ofHeader p.header p.body := by
  have hs := p.sized
  simp only [Packet.raw, Piece.packet, Wire.RawFrame.ofHeader, typeNibble, flagNibble]
  split
  · rename_i hp
    obtain ⟨-, -, hbody⟩ := (if_pos hp).mp hs
    rw [hbody]; rfl
  · simp only [Option.map_some, Option.getD_some, Buffer.bytes_ofBytes]

/-- Reference framing reads a piece off the front. -/
theorem Piece.readFrame (p : Piece) (rest : List UInt8) :
    Wire.readFrame (p.bytes ++ rest) = some (p.packet.raw, rest) := by
  have hs := p.sized
  have hlen : p.init.length < 4 ∧ Base128.value (p.init ++ [p.last]) = p.body.length := by
    split at hs
    · obtain ⟨hinit, hlast, hbody⟩ := hs
      rw [hinit, hlast, hbody]
      exact ⟨by decide, rfl⟩
    · exact ⟨by omega, hs.2.1⟩
  have hread := Wire.readLength_numeral p.continues p.ends hlen.1 (p.body ++ rest)
  rw [hlen.2] at hread
  have hf := Wire.readFrame_eq p.header hread (by simp)
  simp only [List.take_left', List.drop_left'] at hf
  rw [p.raw, ← hf]
  simp only [Piece.bytes, List.cons_append, List.append_assoc]

theorem frames_pieces (ps : List Piece) (rest : List UInt8) :
    Wire.frames (ps.flatMap Piece.bytes ++ rest) = ps.map (fun p => p.packet.raw) ++ Wire.frames rest := by
  induction ps with
  | nil => rfl
  | cons p ps ih =>
    rw [List.flatMap_cons, List.append_assoc, Wire.frames_cons (p.readFrame _), ih, List.map_cons, List.cons_append]

/-! ## Streams -/

/-- No packet that the decoder takes is at the front. -/
def NoPiece (bs : List UInt8) : Prop := ∀ (p : Piece) rest, bs ≠ p.bytes ++ rest

theorem exists_pieces (bs : List UInt8) : ∃ ps rest, bs = List.flatMap Piece.bytes ps ++ rest ∧ NoPiece rest := by
  induction hn : bs.length using Nat.strongRecOn generalizing bs with
  | _ n ih =>
    by_cases h : NoPiece bs
    · exact ⟨[], bs, rfl, h⟩
    · obtain ⟨p, rest, rfl⟩ : ∃ (p : Piece) (rest : List UInt8), bs = p.bytes ++ rest := by
        simpa [NoPiece] using h
      have hshort : rest.length < n := by
        rw [← hn, List.length_append, Piece.bytes, List.length_cons]; omega
      obtain ⟨ps, rest', rfl, hrest⟩ := ih rest.length hshort rest rfl
      exact ⟨p :: ps, rest', by rw [List.flatMap_cons, List.append_assoc], hrest⟩

/-- A header that the decoder does not take as reference framing does: a PINGRESP with a length
    byte other than 0, or a length that goes on behind its fourth byte. -/
def Misread (bs : List UInt8) : Prop :=
  (∃ header length rest, bs = header :: length :: rest ∧ packetTypeByte header = .pingresp ∧ length ≠ 0) ∨
    ∃ header ds e rest, bs = header :: (ds ++ e :: rest) ∧ packetTypeByte header ≠ .pingresp ∧ ds.length = 4 ∧
      ∀ b ∈ ds, Base128.continues b

theorem Misread.append {bs : List UInt8} (h : Misread bs) (more : List UInt8) : Misread (bs ++ more) := by
  rcases h with ⟨header, length, rest, rfl, hp, hl⟩ | ⟨header, ds, e, rest, rfl, hp, hl, hc⟩
  · exact Or.inl ⟨header, length, rest ++ more, rfl, hp, hl⟩
  · exact Or.inr ⟨header, ds, e, rest ++ more, by simp, hp, hl, hc⟩

/-- The stream comes to no header that is misread. -/
def WellRead (bs : List UInt8) : Prop := ∀ ps rest, bs = List.flatMap Piece.bytes ps ++ rest → ¬ Misread rest

/-- A piece at the front is not misread. -/
theorem not_misread_piece (p : Piece) (rest : List UInt8) : ¬ Misread (p.bytes ++ rest) := by
  have hs := p.sized
  rintro (⟨header, length, more, he, hp, hl⟩ | ⟨header, ds, e, more, he, hp, hlen, hds⟩)
  · simp only [Piece.bytes, List.cons_append, List.cons.injEq] at he
    rw [he.1, if_pos hp] at hs
    rw [hs.1, hs.2.1] at he
    exact hl (List.cons.inj he.2).1.symm
  · simp only [Piece.bytes, List.cons_append, List.append_assoc, List.cons.injEq] at he
    rw [he.1, if_neg hp] at hs
    have hi : p.init.length < ds.length := by omega
    have hget := congrArg (fun l => l[p.init.length]?) he.2
    simp only [List.getElem?_append_right (Nat.le_refl _), Nat.sub_self, List.getElem?_cons_zero,
      List.getElem?_append_left hi] at hget
    exact p.ends (hds p.last (List.mem_of_getElem? hget.symm))

/-- Packets that the decoder takes, one behind the other, are a well-read stream. -/
theorem wellRead_pieces (ps : List Piece) : WellRead (ps.flatMap Piece.bytes) := by
  intro qs
  induction qs generalizing ps with
  | nil =>
    intro rest hrest hmis
    rw [List.flatMap_nil, List.nil_append] at hrest
    cases ps with
    | nil =>
      rw [← hrest] at hmis
      rcases hmis with ⟨_, _, _, he, -⟩ | ⟨_, _, _, _, he, -⟩ <;> cases he
    | cons p ps =>
      rw [← hrest, List.flatMap_cons] at hmis
      exact not_misread_piece p _ hmis
  | cons q qs ih =>
    intro rest hrest
    cases ps with
    | nil => cases hrest
    | cons p ps =>
      have hp := p.readFrame (ps.flatMap Piece.bytes)
      have hq := q.readFrame (qs.flatMap Piece.bytes ++ rest)
      rw [List.flatMap_cons, List.flatMap_cons, List.append_assoc] at hrest
      rw [hrest, hq] at hp
      exact ih ps rest (Prod.mk.inj (Option.some.inj hp)).2.symm

/-! ## Single bytes -/

section Bytes

variable {c : CodecInstance} {t : ControlPacketType} {f : UInt8} {ds : List UInt8}

/-- Whatever its length byte, a PINGRESP is complete. -/
theorem advance_ping_any (h : Reading c .pingresp f []) {ms : Mallocs} (hm : Succeed ms) (b : UInt8) :
    (advance c ms b).result = 0 ∧ (advance c ms b).complete = true := by
  by_cases hb : Base128.continues b
  · have hi : c.remainLenIndex < 4 := by rw [h.index]; decide
    have h7 : ¬ b ≤ 0x7f := fun e => (le7f b).mp e hb
    simp [advance, h.fault, h.state, h.type, prepareheaderDataInfo, hi, h7]
  · by_cases h0 : b = 0
    · obtain ⟨c', ha, -⟩ := advance_ping h ms
      rw [h0, ha]; exact ⟨rfl, rfl⟩
    · have hpos : 0 < Base128.value ([] ++ [b]) := by
        have hne : b.toNat ≠ 0 := fun e => h0 (UInt8.toNat_inj.mp e)
        simp only [Base128.continues] at hb
        simp only [List.nil_append, Base128.value, Base128.digit]
        omega
      obtain ⟨c', ms', ha, -⟩ := advance_last h (by decide) (by simp) (by simp) hm hb hpos
      rw [ha]; exact ⟨rfl, by simp⟩

/-- A fifth length byte is stored behind the length field. -/
theorem advance_fifth (h : Reading c t f ds) (ht : t ≠ .unknown) (hl : ds.length = 4) (ms : Mallocs) (b : UInt8) :
    (advance c ms b).result ≠ 0 ∧ (advance c ms b).complete = false ∧ (advance c ms b).codec.fault = some .storeWrite := by
  have hi : ¬ c.remainLenIndex < 4 := by rw [h.index]; omega
  simp [advance, h.fault, h.state, h.type, ht, prepareheaderDataInfo, hi, Crt.failure]

/-- A fourth length byte that ends the length fails, inside of the length field. -/
theorem advance_fourth (h : Reading c t f ds) (ht : t ≠ .unknown) (hd : ∀ d ∈ ds, Base128.continues d) (hl : ds.length = 3)
    (ms : Mallocs) {b : UInt8} (hb : ¬ Base128.continues b) :
    (advance c ms b).result ≠ 0 ∧ (advance c ms b).complete = false ∧ (advance c ms b).codec.fault = none := by
  obtain ⟨hr, hc⟩ := advance_overlong h ht hd (by omega) ms hb
  refine ⟨hr, hc, ?_⟩
  have hi : c.remainLenIndex < 4 := by rw [h.index]; omega
  have hloop := lengthLoop_store (c.storeRemainLen.set c.remainLenIndex b hi)
  have hfault : (prepareheaderDataInfo c b ms).2.1.fault = none := by
    simp only [prepareheaderDataInfo, dif_pos hi, if_pos ((le7f b).mpr hb)]
    split
    · rename_i hnone
      rw [hnone] at hloop; cases hloop
    · split
      · exact h.fault
      · exact h.fault
  simp only [advance, h.fault, h.state, h.type, Option.isSome_none, Bool.false_eq_true, if_false, if_neg ht]
  split <;> exact hfault

/-- A length of 0 of anything but a PINGRESP leaves the codec waiting for a body that it has not got. -/
theorem advance_zero (h : Reading c t f ds) (ht : t ≠ .unknown) (hp : t ≠ .pingresp) (hd : ∀ d ∈ ds, Base128.continues d)
    (hl : ds.length ≤ 2) (ms : Mallocs) {b : UInt8} (hb : ¬ Base128.continues b) (hv : Base128.value (ds ++ [b]) = 0) :
    ∃ c', advance c ms b = ⟨0, false, c', ms⟩ ∧ c'.fault = none ∧ c'.codecState = .varHeader ∧ c'.headerData = none := by
  have hi : c.remainLenIndex < 4 := by rw [h.index]; omega
  obtain ⟨rest, hr⟩ := store_set h.stored hi b
  have hloop := lengthLoop_value ds 0 0 b rest hd hb (by simpa using hl)
  simp only [Nat.pow_zero, Nat.one_mul, Nat.zero_add, hv] at hloop
  rw [List.append_assoc, List.singleton_append] at hr
  refine ⟨{ c with lengthBytes := c.lengthBytes ++ [b], codecState := .varHeader, remainLenIndex := 0,
                   storeRemainLen := Vector.replicate 4 0 }, ?_, h.fault, rfl, h.data⟩
  simp [advance, h.fault, h.state, h.type, ht, hp, prepareheaderDataInfo, hi, (le7f b).mpr hb, hr, hloop]

end Bytes

/-! ## Runs of bytes -/

section Runs

variable {W : Type} (s : Slot W (CodecInstance × Mallocs)) (packetComplete : Packet → W → W)

/-- The codec that waits for no body fails on the second byte. -/
theorem stuck_run {c : CodecInstance} (hf : c.fault = none) (hs : c.codecState = .varHeader) (hd : c.headerData = none)
    (ms : Mallocs) (bs : List UInt8) (w : W) :
    ∃ c', c'.fault = none ∧ (runUntil (receiveByte s packetComplete) bs (s.set (c, ms) w)).2 = s.set (c', ms) w := by
  cases bs with
  | nil => exact ⟨c, hf, rfl⟩
  | cons b bs =>
    have ha : advance c ms b = ⟨0, false, { c with codecState := .payload }, ms⟩ := by simp [advance, hf, hs, hd]
    rw [runUntil_quiet ha]
    cases bs with
    | nil => exact ⟨{ c with codecState := .payload }, hf, rfl⟩
    | cons b' bs =>
      have ha' : advance { c with codecState := .payload } ms b' =
          ⟨failure, false, { c with codecState := .payload, currPacket := .packetTypeError }, ms⟩ := by simp [advance, hf]
      rw [runUntil_failed (by rw [ha']; exact show Crt.failure ≠ 0 by decide) (by rw [ha']), ha']
      exact ⟨{ c with codecState := .payload, currPacket := .packetTypeError }, hf, rfl⟩

/-- A body that is not complete yet keeps the codec in order. -/
theorem partial_run {t : ControlPacketType} {f : UInt8} (ms : Mallocs) (w : W) (bs pre : List UInt8) {n : Nat}
    {c : CodecInstance} (h : Filling c t f pre n) (hn : bs.length < n) :
    ∃ c', c'.fault = none ∧ (runUntil (receiveByte s packetComplete) bs (s.set (c, ms) w)).2 = s.set (c', ms) w := by
  induction bs generalizing pre n c with
  | nil => exact ⟨c, h.fault, rfl⟩
  | cons b bs ih =>
    obtain ⟨n, rfl⟩ : ∃ m, n = m + 1 := ⟨n - 1, by simp only [List.length_cons] at hn; omega⟩
    simp only [List.length_cons, Nat.add_lt_add_iff_right] at hn
    obtain ⟨c', ha, h'⟩ := advance_fill h ms b
    rw [runUntil_quiet (by simpa [show n ≠ 0 by omega] using ha)]
    exact ih _ h' hn

/-- What follows the last packet that the decoder takes, unless it is misread: nothing more is
    delivered, and only the codec changes. -/
theorem rest_run {c : CodecInstance} {ms : Mallocs} (hc : Idle c) (hm : Succeed ms) {rest : List UInt8}
    (hn : NoPiece rest) (hr : ¬ Misread rest) (w : W) :
    ∃ c' ms', c'.fault = none ∧
      (runUntil (receiveByte s packetComplete) rest (s.set (c, ms) w)).2 = s.set (c', ms') w := by
  cases rest with
  | nil => exact ⟨c, ms, hc.fault, rfl⟩
  | cons header bs =>
    have hne := (packetTypeByte_onWire header).2
    obtain ⟨c1, ha, h1⟩ := advance_type hc.reading ms header
    rw [runUntil_quiet ha]
    by_cases hp : packetTypeByte header = .pingresp
    · cases bs with
      | nil => exact ⟨c1, ms, h1.fault, rfl⟩
      | cons length bs =>
        by_cases hl : length = 0
        · subst hl
          exact absurd rfl (hn ⟨header, [], 0, [], by simp, by decide, (if_pos hp).mpr ⟨rfl, rfl, rfl⟩⟩ bs)
        · exact absurd (Or.inl ⟨header, length, bs, rfl, hp, hl⟩) hr
    · obtain ⟨ds, tail, hbs, hds, htail⟩ : ∃ ds tail, bs = ds ++ tail ∧ (∀ b ∈ ds, Base128.continues b) ∧
          ∀ b ∈ tail.head?, ¬ Base128.continues b := by
        refine ⟨bs.takeWhile fun b => decide (Base128.continues b), bs.dropWhile fun b => decide (Base128.continues b),
          List.takeWhile_append_dropWhile.symm, fun b hb => ?_, fun b hb => ?_⟩
        · simpa using List.mem_takeWhile_imp hb
        · have hhead := List.head?_dropWhile_not (fun b => decide (Base128.continues b)) bs
          rw [Option.mem_def.mp hb] at hhead
          simpa using hhead
      subst hbs
      have hshort : ds.length ≤ 4 := by
        by_contra hlong
        obtain ⟨e, more, he⟩ := List.exists_cons_of_length_pos (l := ds.drop 4) (by rw [List.length_drop]; omega)
        refine hr (Or.inr ⟨header, ds.take 4, e, more ++ tail, ?_, hp, by rw [List.length_take]; omega,
          fun b hb => hds b (List.mem_of_mem_take hb)⟩)
        rw [show e :: (more ++ tail) = (e :: more) ++ tail from rfl, ← he, ← List.append_assoc, List.take_append_drop]
      obtain ⟨c2, h2, hr2⟩ := continue_run s packetComplete hne hp ms tail w ds [] c1 h1 hds
        (by simp only [List.length_nil]; omega)
      rw [List.nil_append] at h2
      rw [hr2]
      cases tail with
      | nil => exact ⟨c2, ms, h2.fault, rfl⟩
      | cons last body =>
        have hlast := htail last rfl
        have hthree : ds.length ≤ 3 := by
          by_contra hfour
          exact hr (Or.inr ⟨header, ds, last, body, rfl, hp, by omega, hds⟩)
        by_cases htwo : ds.length ≤ 2
        · by_cases hv : Base128.value (ds ++ [last]) = 0
          · obtain ⟨c3, ha3, hf3, hs3, hd3⟩ := advance_zero h2 hne hp hds htwo ms hlast hv
            rw [runUntil_quiet ha3]
            obtain ⟨c4, hf4, hr4⟩ := stuck_run s packetComplete hf3 hs3 hd3 ms body w
            exact ⟨c4, ms, hf4, hr4⟩
          · obtain ⟨c3, ms3, ha3, h3, hm3⟩ := advance_last h2 hne hds htwo hm hlast (by omega)
            rw [runUntil_quiet (by simpa [hp] using ha3)]
            by_cases hbody : body.length < Base128.value (ds ++ [last])
            · obtain ⟨c4, hf4, hr4⟩ := partial_run s packetComplete ms3 w body [] h3 hbody
              exact ⟨c4, ms3, hf4, hr4⟩
            · have hlen : (body.take (Base128.value (ds ++ [last]))).length = Base128.value (ds ++ [last]) := by
                rw [List.length_take]; omega
              have hsized : ds.length ≤ 2 ∧ Base128.value (ds ++ [last]) = (body.take (Base128.value (ds ++ [last]))).length ∧
                  body.take (Base128.value (ds ++ [last])) ≠ [] :=
                ⟨htwo, hlen.symm, fun e => hv (by rw [← hlen, e]; rfl)⟩
              refine absurd ?_ (hn ⟨header, ds, last, body.take (Base128.value (ds ++ [last])), hds, hlast,
                (if_neg hp).mpr hsized⟩ (body.drop (Base128.value (ds ++ [last]))))
              simp only [Piece.bytes, List.cons_append, List.append_assoc, List.take_append_drop]
        · obtain ⟨hres, hcomp, hfault⟩ := advance_fourth h2 hne hds (by omega) ms hlast
          rw [runUntil_failed hres hcomp]
          exact ⟨_, _, hfault, rfl⟩

end Runs

/-! ## What is delivered -/

namespace Run

section Delivered

variable {σ : Type} {cb : Callback σ} (hcb : ∀ p x, Succeed x.1 → Succeed (cb p x).1)

include hcb

/-- The pieces at the front of a stream are delivered, in order. -/
theorem pieces_run (ps : List Piece) {r : Run σ} (hc : Idle r.codec) (hm : Succeed r.mallocs) :
    ∃ r', runUntil (receiveByte slot (call cb)) (ps.flatMap Piece.bytes) r = (0, r') ∧
      r'.packets = r.packets ++ ps.map Piece.packet ∧ Idle r'.codec ∧ Succeed r'.mallocs := by
  induction ps generalizing r with
  | nil => exact ⟨r, rfl, (List.append_nil _).symm, hc, hm⟩
  | cons p ps ih =>
    obtain ⟨c, ms, hpk, hf, hx, hm', hrun⟩ := piece_run slot (call cb) p hc hm r
    rw [show slot.set (r.codec, r.mallocs) r = r from rfl] at hrun
    obtain ⟨v, hv⟩ : ∃ v, v = completePacketData slot (call cb) (slot.set (c, ms) r) := ⟨_, rfl⟩
    have hpackets : v.packets = r.packets ++ [p.packet] := by rw [hv, ← hpk]; rfl
    rw [← hv] at hrun
    obtain ⟨r', hr', hp', hc', hms'⟩ := ih (r := v) (by rw [hv]; exact cleanUp_idle hf hx)
      (by rw [hv]; exact hcb _ _ hm')
    refine ⟨r', ?_, ?_, hc', hms'⟩
    · rw [List.flatMap_cons, runUntil_append_ok _ hrun, hr']
    · rw [hp', hpackets, List.append_assoc]; rfl

omit hcb in
/-- A run of chunks up to the first that fails is a run of the bytes that it has consumed. -/
theorem chunks_run (cb : Callback σ) (chunks : List (List UInt8)) (r : Run σ) :
    ∃ bs, bs <+: chunks.flatten ∧
      (runUntil (bytesReceived slot (call cb)) chunks r).2.packets = (runUntil (receiveByte slot (call cb)) bs r).2.packets ∧
      (runUntil (bytesReceived slot (call cb)) chunks r).2.codec.fault =
        (runUntil (receiveByte slot (call cb)) bs r).2.codec.fault := by
  induction chunks generalizing r with
  | nil => exact ⟨[], List.nil_prefix, rfl, rfl⟩
  | cons chunk chunks ih =>
    rw [runUntil_cons]
    by_cases hne : chunk = []
    · subst hne
      refine ⟨[], List.nil_prefix, ?_⟩
      simp only [bytesReceived, if_true, if_neg (show ¬ Crt.failure = 0 by decide), runUntil_nil]
      exact ⟨rfl, rfl⟩
    · rw [bytesReceived_ne_nil _ _ hne]
      split
      · rename_i h0
        obtain ⟨bs, hbs, hpackets, hfault⟩ := ih (runUntil (receiveByte slot (call cb)) chunk r).2
        refine ⟨chunk ++ bs, ?_, ?_⟩
        · rw [List.flatten_cons]; exact (List.prefix_append_right_inj chunk).mpr hbs
        · rw [runUntil_append, if_pos h0]
          exact ⟨hpackets, hfault⟩
      · exact ⟨chunk, by rw [List.flatten_cons]; exact List.prefix_append _ _, rfl, rfl⟩

/-- Up to the first non-zero return, the packets delivered are the first ones of reference
    framing, and no access was out of bounds: behind one that is, nothing can be said. -/
def Framed (cb : Callback σ) (ms : Mallocs) (x : σ) (chunks : List (List UInt8)) : Prop :=
  let r := (runUntil (bytesReceived slot (call cb)) chunks (start ms x)).2
  r.packets.map Packet.raw <+: Wire.frames chunks.flatten ∧ r.codec.fault = none

/-- Well-read bytes are framed as they should be. -/
theorem wellRead_framed {ms : Mallocs} (hm : Succeed ms) (x : σ) {bs : List UInt8} (h : WellRead bs) :
    let r := (runUntil (receiveByte slot (call cb)) bs (start ms x)).2
    r.packets.map Packet.raw <+: Wire.frames bs ∧ r.codec.fault = none := by
  obtain ⟨ps, rest, rfl, hn⟩ := exists_pieces bs
  obtain ⟨r, hr, hp, hc, hms⟩ := pieces_run hcb ps (r := start ms x) create_idle hm
  obtain ⟨c, ms', hf, hrest⟩ := rest_run slot (call cb) hc hms hn (h ps rest rfl) r
  rw [show slot.set (r.codec, r.mallocs) r = r from rfl] at hrest
  simp only [runUntil_append_ok _ hr, hrest]
  refine ⟨?_, hf⟩
  rw [frames_pieces, show (slot.set (c, ms') r).packets = r.packets from rfl, hp]
  simp only [start, List.nil_append, List.map_map]
  exact List.prefix_append _ _

/-- Behind the last byte of a misread header the packets or the accesses are wrong. -/
theorem misread_framed {ms : Mallocs} (hm : Succeed ms) (x : σ) (ps : List Piece) {rest : List UInt8} (h : Misread rest) :
    ∃ header more, rest = header ++ more ∧ header ≠ [] ∧
      let r := (runUntil (receiveByte slot (call cb)) (ps.flatMap Piece.bytes ++ header) (start ms x)).2
      ¬ (r.packets.map Packet.raw <+: Wire.frames (ps.flatMap Piece.bytes ++ header) ∧ r.codec.fault = none) := by
  obtain ⟨r, hr, hp, hc, hms⟩ := pieces_run hcb ps (r := start ms x) create_idle hm
  rcases h with ⟨header, length, more, rfl, hping, hl⟩ | ⟨header, ds, e, more, rfl, hping, hlen, hds⟩
  · refine ⟨[header, length], more, rfl, List.cons_ne_nil _ _, fun hframed => ?_⟩
    obtain ⟨c1, ha, h1⟩ := advance_type hc.reading r.mallocs header
    rw [hping] at h1
    obtain ⟨hres, hcomp⟩ := advance_ping_any h1 hms length
    have hnone : Wire.readFrame [header, length] = none := by
      have hne : length.toNat ≠ 0 := fun e => hl (UInt8.toNat_inj.mp e)
      by_cases hcont : Base128.continues length
      · have hread : Wire.readLength 4 ([length] ++ []) = none := Wire.readLength_none (by simpa using hcont) (Or.inl rfl)
        simp only [List.append_nil] at hread
        simp only [Wire.readFrame, hread]
      · have hread : Wire.readLength 4 ([] ++ length :: []) = some (Base128.value [length], []) :=
          Wire.readLength_numeral (by simp) hcont (by decide) []
        simp only [List.nil_append] at hread
        simp only [Base128.continues] at hcont
        have hpos : ¬ Base128.value [length] ≤ ([] : List UInt8).length := by
          simp only [Base128.value, Base128.digit, List.length_nil]; omega
        simp only [Wire.readFrame, hread, if_neg hpos]
    have hcount := hframed.1.length_le
    rw [frames_pieces, Wire.frames_none hnone, runUntil_append_ok _ hr, ← show slot.set (r.codec, r.mallocs) r = r from rfl,
      runUntil_quiet ha, runUntil_cons, receiveByte_set, if_pos hres, if_pos hcomp] at hcount
    simp only [runUntil_nil, completePacketData, Slot.modify, slot, call, hp, start, List.nil_append, List.length_map,
      List.length_append, List.length_nil, List.length_cons] at hcount
    omega
  · refine ⟨header :: (ds ++ [e]), more, by simp, List.cons_ne_nil _ _, fun hframed => ?_⟩
    have hne := (packetTypeByte_onWire header).2
    obtain ⟨c1, ha, h1⟩ := advance_type hc.reading r.mallocs header
    obtain ⟨c2, h2, hr2⟩ := continue_run slot (call cb) hne hping r.mallocs [e] r ds [] c1 h1 hds
      (by simp only [List.length_nil]; omega)
    obtain ⟨hres, hcomp, hfault⟩ := advance_fifth h2 hne hlen r.mallocs e
    have hnone := hframed.2
    rw [runUntil_append_ok _ hr, ← show slot.set (r.codec, r.mallocs) r = r from rfl, runUntil_quiet ha, hr2,
      runUntil_failed hres hcomp] at hnone
    exact absurd (hfault.symm.trans hnone) (by decide)

/-- The decoder frames a stream as it should at every moment, however it is cut, if and only if
    it comes to no header that is misread. -/
theorem framed_iff {ms : Mallocs} (hm : Succeed ms) (x : σ) (bs : List UInt8) :
    (∀ chunks, chunks.flatten <+: bs → Framed cb ms x chunks) ↔ WellRead bs := by
  constructor
  · intro h ps rest hbs hmis
    obtain ⟨header, more, rfl, hne, hwrong⟩ := misread_framed hcb hm x ps hmis
    have hchunk := h [ps.flatMap Piece.bytes ++ header] (by
      rw [List.flatten_singleton, hbs, ← List.append_assoc]; exact List.prefix_append _ _)
    apply hwrong
    simp only [Framed, List.flatten_singleton, runUntil_cons, runUntil_nil] at hchunk
    rw [bytesReceived_ne_nil _ _ (List.append_ne_nil_of_right_ne_nil _ hne)] at hchunk
    split at hchunk <;> exact hchunk
  · intro h chunks hprefix
    obtain ⟨taken, htaken, hpackets, hfault⟩ := chunks_run cb chunks (start ms x)
    have hwell : WellRead taken := by
      obtain ⟨more, rfl⟩ := htaken.trans hprefix
      intro ps rest htake hmis
      exact h ps (rest ++ more) (by rw [htake, List.append_assoc]) (hmis.append more)
    obtain ⟨hframed, hnone⟩ := wellRead_framed hcb hm x hwell
    obtain ⟨more, hmore⟩ := htaken
    refine ⟨?_, hfault.trans hnone⟩
    rw [hpackets, ← hmore]
    exact hframed.trans (Wire.frames_prefix _ _)

end Delivered

def pingPiece : Piece := ⟨0xD0, [], 0, [], by simp, by decide, (if_pos rfl).mpr ⟨rfl, rfl, rfl⟩⟩

def connackPiece : Piece := ⟨0x20, [0x82], 0, [1, 5], by simp [Base128.continues], by decide, (if_neg nofun).mpr (by decide)⟩

theorem framed_pieces : Framed (fun _ (x : Mallocs × Unit) => x) [] () [[0xD0, 0, 0x20], [0x82, 0, 1]] :=
  (@framed_iff Unit (fun _ x => x) (fun _ _ h => h) [] succeed_nil () _).mpr (wellRead_pieces [pingPiece, connackPiece])
    [[0xD0, 0, 0x20], [0x82, 0, 1]] (by decide)

/-- The body of a PINGRESP is not waited for, but taken for a CONNACK. -/
theorem pingresp_body_misframed :
    let stream : List UInt8 := [0xD0, 3, 0x20, 1, 5]
    (runUntil (bytesReceived slot (call fun _ (x : Mallocs × Unit) => x)) [stream] (start [] ())).2.packets.map Packet.raw =
        [⟨13, 0, [0, 0, 0]⟩, ⟨2, 0, [5]⟩] ∧
      Wire.frames stream = [⟨13, 0, [0x20, 1, 5]⟩] ∧
      ¬ Framed (fun _ (x : Mallocs × Unit) => x) [] () [stream] := by
  have hpackets : (runUntil (bytesReceived slot (call fun _ (x : Mallocs × Unit) => x)) [[0xD0, 3, 0x20, 1, 5]]
      (start [] ())).2.packets.map Packet.raw = [⟨13, 0, [0, 0, 0]⟩, ⟨2, 0, [5]⟩] := by decide +kernel
  have hframes : Wire.frames [0xD0, 3, 0x20, 1, 5] = [⟨13, 0, [0x20, 1, 5]⟩] := by decide
  refine ⟨hpackets, hframes, fun h => ?_⟩
  have hlen := h.1.length_le
  rw [hpackets, List.flatten_singleton, hframes] at hlen
  exact absurd hlen (by decide)

end Run

end UMqtt.Codec

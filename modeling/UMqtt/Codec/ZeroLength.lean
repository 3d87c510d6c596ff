/-
  UMqtt.Codec.ZeroLength — a packet without a body, and what the decoder makes of the next ones.

  Only a PINGRESP is completed by a length of 0. Any other packet without a body leaves the codec
  in VAR_HEADER with no buffer: the next byte is swallowed and the one after it is an error, so
  nothing that follows is ever delivered (`bodyless_run`). A body of more than 2097151 bytes ends
  a stream as well, at the last byte of its length.

  Proved (`undisturbed_iff`): behind the two bytes `t`, 0 a stream of packets is delivered in
  every chunking exactly when the stream is empty, or `t` is a PINGRESP and every packet of the
  stream is one that the decoder frames.
-/

import UMqtt.Codec.Lengths
import UMqtt.Codec.Misframing

namespace UMqtt.Codec

open UMqtt.Lib UMqtt.Crt

/-! ## Packets on the wire -/

/-- Any type byte with a body of an MQTT length; a PINGRESP has none. -/
structure WirePacket where
  header : UInt8
  body : List UInt8
  fits : body.length ≤ Wire.maxRemainingLength
  ping : packetTypeByte header = .pingresp → body = []

namespace WirePacket

def bytes (p : WirePacket) : List UInt8 := p.header :: (Base128.encode p.body.length ++ p.body)

def raw (p : WirePacket) : Wire.RawFrame := .ofHeader p.header p.body

def Framed (p : WirePacket) : Prop := Sized (packetTypeByte p.header) p.body

end WirePacket

theorem header_eq (b : UInt8) : (packetTypeByte b).value ||| UInt8.ofNat (b.toNat % 16) = b := by
  have key : ∀ i : Fin 256,
      (packetTypeByte (UInt8.ofNat i.val)).value ||| UInt8.ofNat ((UInt8.ofNat i.val).toNat % 16) = UInt8.ofNat i.val := by
    decide +kernel
  have hb := key ⟨b.toNat, b.toNat_lt⟩
  simpa using hb

theorem WirePacket.exists_piece {p : WirePacket} (h : p.Framed) : ∃ q : Piece, q.bytes = p.bytes ∧ q.packet.raw = p.raw := by
  obtain ⟨q, hbytes, hpacket⟩ := Frame.exists_piece
    ⟨packetTypeByte p.header, ⟨p.header.toNat % 16, Nat.mod_lt _ (by decide)⟩, p.body, packetTypeByte_onWire p.header, h⟩
  have hflags : (UInt8.ofNat (p.header.toNat % 16)).toNat = p.header.toNat % 16 :=
    Base128.toNat_ofNat_lt (by omega)
  refine ⟨q, ?_, ?_⟩
  · rw [hbytes]
    simp only [Frame.bytes, WirePacket.bytes, header_eq]
  · rw [hpacket]
    simp only [Packet.raw, Frame.packet, WirePacket.raw, Wire.RawFrame.ofHeader, typeNibble, hflags]
    split
    · rw [p.ping ‹_›]
      rfl
    · simp only [Option.map_some, Option.getD_some, Buffer.bytes_ofBytes]

/-- Packets that the decoder frames are pieces of the stream. -/
theorem exists_pieces_of_framed {s : List WirePacket} (h : ∀ p ∈ s, p.Framed) : ∃ ps : List Piece,
    ps.flatMap Piece.bytes = s.flatMap WirePacket.bytes ∧ ps.map (fun p => p.packet.raw) = s.map WirePacket.raw := by
  induction s with
  | nil => exact ⟨[], rfl, rfl⟩
  | cons p s ih =>
    obtain ⟨q, hq, hraw⟩ := WirePacket.exists_piece (h p List.mem_cons_self)
    obtain ⟨ps, hps, hraws⟩ := ih fun p hp => h p (List.mem_cons_of_mem _ hp)
    refine ⟨q :: ps, ?_, ?_⟩
    · rw [List.flatMap_cons, List.flatMap_cons, hq, hps]
    · rw [List.map_cons, List.map_cons, hraw, hraws]

theorem exists_first_unframed {s : List WirePacket} (h : ¬ ∀ p ∈ s, p.Framed) :
    ∃ good bad rest, s = good ++ bad :: rest ∧ (∀ p ∈ good, p.Framed) ∧ ¬ bad.Framed := by
  induction s with
  | nil => exact absurd (fun p hp => absurd hp List.not_mem_nil) h
  | cons p s ih =>
    by_cases hp : p.Framed
    · obtain ⟨good, bad, rest, rfl, hgood, hbad⟩ := ih fun hs => h (List.forall_mem_cons.mpr ⟨hp, hs⟩)
      exact ⟨p :: good, bad, rest, rfl, List.forall_mem_cons.mpr ⟨hp, hgood⟩, hbad⟩
    · exact ⟨[], p, s, rfl, fun q hq => absurd hq List.not_mem_nil, hp⟩

/-! ## What ends a stream -/

section Ends

variable {W : Type} (s : Slot W (CodecInstance × Mallocs)) (packetComplete : Packet → W → W)

/-- A packet without a body that is no PINGRESP, and whatever follows it. -/
theorem bodyless_run {c : CodecInstance} (hc : Idle c) (ms : Mallocs) {header : UInt8}
    (hp : packetTypeByte header ≠ .pingresp) (rest : List UInt8) (w : W) :
    ∃ c', (runUntil (receiveByte s packetComplete) (header :: 0 :: rest) (s.set (c, ms) w)).2 = s.set (c', ms) w ∧
      (rest = [] → (runUntil (receiveByte s packetComplete) (header :: 0 :: rest) (s.set (c, ms) w)).1 = 0 ∧
        c'.fault = none ∧ c'.codecState = .varHeader ∧ c'.headerData = none) := by
  obtain ⟨c1, ha, h1⟩ := advance_type hc.reading ms header
  obtain ⟨c2, ha2, hf, hs, hd⟩ := advance_zero h1 (packetTypeByte_onWire header).2 hp (by simp) (by simp) ms
    (show ¬ Base128.continues 0 by decide) rfl
  rw [runUntil_quiet ha, runUntil_quiet ha2]
  cases rest with
  | nil => exact ⟨c2, rfl, fun _ => ⟨rfl, hf, hs, hd⟩⟩
  | cons b rest =>
    obtain ⟨c3, -, hr⟩ := stuck_run s packetComplete hf hs hd ms (b :: rest) w
    exact ⟨c3, hr, fun h => absurd h (List.cons_ne_nil _ _)⟩

/-- Behind a packet that is not framed nothing is delivered, and it is not delivered itself. -/
theorem unframed_run {c : CodecInstance} (hc : Idle c) (ms : Mallocs) {p : WirePacket} (hp : ¬ p.Framed) (rest : List UInt8)
    (w : W) : ∃ x, (runUntil (receiveByte s packetComplete) (p.bytes ++ rest) (s.set (c, ms) w)).2 = s.set x w := by
  have hping : packetTypeByte p.header ≠ .pingresp := by
    intro h
    apply hp
    rw [WirePacket.Framed, Sized, if_pos h]
    exact p.ping h
  rw [WirePacket.Framed, Sized, if_neg hping] at hp
  by_cases h0 : p.body.length = 0
  · obtain ⟨c', hr, -⟩ := bodyless_run s packetComplete hc ms hping (p.body ++ rest) w
    refine ⟨(c', ms), ?_⟩
    rw [WirePacket.bytes, h0, Base128.encode_lt (by decide)]
    exact hr
  · have hlong : ¬ p.body.length ≤ 2097151 := fun h => hp ⟨by omega, h⟩
    obtain ⟨init, last, he, hcont, hlast, hv⟩ := Base128.encode_shape p.body.length
    obtain ⟨h3, h2⟩ := numeral_length he hv p.fits
    have hne := (packetTypeByte_onWire p.header).2
    obtain ⟨c1, ha, h1⟩ := advance_type hc.reading ms p.header
    obtain ⟨c2, h2', hr2⟩ := continue_run s packetComplete hne hping ms (last :: (p.body ++ rest)) w init [] c1 h1 hcont
      (by simp only [List.length_nil]; omega)
    rw [List.nil_append] at h2'
    obtain ⟨hres, hcomp, -⟩ := advance_fourth h2' hne hcont (by omega) ms hlast
    refine ⟨((advance c2 ms last).codec, (advance c2 ms last).mallocs), ?_⟩
    rw [WirePacket.bytes, he]
    simp only [List.cons_append, List.append_assoc, List.nil_append]
    rw [runUntil_quiet ha, hr2, runUntil_failed hres hcomp]

end Ends

/-! ## Behind a packet without a body -/

namespace Run

variable {σ : Type} {cb : Callback σ} {r : Run σ}

/-- The two bytes, in one call or in two, fail; or the packets behind them are delivered, and they
    alone, however they are cut. -/
def Undisturbed (cb : Callback σ) (r : Run σ) (t : UInt8) (s : List WirePacket) : Prop :=
  ∀ opening chunks, (∀ ch ∈ opening, ch ≠ []) → (∀ ch ∈ chunks, ch ≠ []) →
    opening.flatten = [t, 0] → chunks.flatten = s.flatMap WirePacket.bytes →
    (∃ result ∈ (feed cb opening r).1, result ≠ 0) ∨
      (feed cb chunks (feed cb opening r).2).2.packets.map Packet.raw =
        (feed cb opening r).2.packets.map Packet.raw ++ s.map WirePacket.raw

/-- A run of bytes that does not fail, cut into calls. -/
theorem feed_flatten {chunks : List (List UInt8)} (hne : ∀ ch ∈ chunks, ch ≠ []) {bs : List UInt8} (hcut : chunks.flatten = bs)
    {r' : Run σ} (h : runUntil (receiveByte slot (call cb)) bs r = (0, r')) : feed cb chunks r = (chunks.map fun _ => 0, r') := by
  rw [← hcut] at h
  rw [feed, calls_congr fun ch hch => bytesReceived_ne_nil slot (call cb) (hne ch hch)]
  exact calls_of_flatten _ h

theorem feed_whole {bs : List UInt8} (h : bs ≠ []) (r : Run σ) :
    feed cb [bs] r = ([(runUntil (receiveByte slot (call cb)) bs r).1], (runUntil (receiveByte slot (call cb)) bs r).2) := by
  rw [feed, calls, calls_nil, bytesReceived_ne_nil slot (call cb) h]

theorem bytes_ne_nil {s : List WirePacket} (h : s ≠ []) : s.flatMap WirePacket.bytes ≠ [] := by
  cases s with
  | nil => exact absurd rfl h
  | cons p s => exact List.cons_ne_nil _ _

/-- Without a body, and no PINGRESP: nothing that follows is delivered. -/
theorem bodyless_disturbs (hc : Idle r.codec) {t : UInt8} (ht : packetTypeByte t ≠ .pingresp) {s : List WirePacket}
    (hs : s ≠ []) : ¬ Undisturbed cb r t s := by
  intro h
  have hne := bytes_ne_nil hs
  have hone := h [[t, 0]] [s.flatMap WirePacket.bytes] (by simp) (by simpa using hne) rfl (List.flatten_singleton)
  obtain ⟨c, hrun, hend⟩ := bodyless_run slot (call cb) hc r.mallocs ht [] r
  obtain ⟨hzero, hf, hst, hd⟩ := hend rfl
  obtain ⟨c', -, hstuck⟩ := stuck_run slot (call cb) hf hst hd r.mallocs (s.flatMap WirePacket.bytes) r
  rw [show slot.set (r.codec, r.mallocs) r = r from rfl] at hrun hzero
  rw [feed_whole (List.cons_ne_nil _ _), feed_whole hne, hzero, hrun, hstuck] at hone
  rcases hone with ⟨result, hmem, hres⟩ | hone
  · exact hres (List.mem_singleton.mp hmem)
  · have hlen := congrArg List.length hone
    have hpos := List.length_pos_iff.mpr hs
    simp only [List.length_append, List.length_map] at hlen
    have hsame : (slot.set (c', r.mallocs) r).packets = (slot.set (c, r.mallocs) r).packets := rfl
    rw [hsame] at hlen
    omega

def pingPieceOf (t : UInt8) (ht : packetTypeByte t = .pingresp) : Piece :=
  ⟨t, [], 0, [], pingPiece.continues, pingPiece.ends, (if_pos ht).mpr ⟨rfl, rfl, rfl⟩⟩

section Delivered

variable (hcb : ∀ p x, Succeed x.1 → Succeed (cb p x).1)

include hcb

/-- Behind a PINGRESP, packets that the decoder frames. -/
theorem framed_undisturbed (hc : Idle r.codec) (hm : Succeed r.mallocs) {t : UInt8} (ht : packetTypeByte t = .pingresp)
    {s : List WirePacket} (hs : ∀ p ∈ s, p.Framed) : Undisturbed cb r t s := by
  intro opening chunks hopening hchunks hcut hcuts
  obtain ⟨r1, hr1, hp1, hc1, hm1⟩ := pieces_run hcb [pingPieceOf t ht] hc hm
  obtain ⟨ps, hbytes, hraw⟩ := exists_pieces_of_framed hs
  obtain ⟨r2, hr2, hp2, -, -⟩ := pieces_run hcb ps hc1 hm1
  rw [hbytes] at hr2
  right
  rw [feed_flatten hopening hcut hr1, feed_flatten hchunks hcuts hr2, hp2, List.map_append, ← hraw, List.map_map]
  rfl

/-- Behind a PINGRESP, a packet that it does not frame. -/
theorem unframed_disturbs (hc : Idle r.codec) (hm : Succeed r.mallocs) {t : UInt8} (ht : packetTypeByte t = .pingresp)
    {s : List WirePacket} (hs : ¬ ∀ p ∈ s, p.Framed) : ¬ Undisturbed cb r t s := by
  intro h
  obtain ⟨good, bad, rest, rfl, hgood, hbad⟩ := exists_first_unframed hs
  obtain ⟨r1, hr1, hp1, hc1, hm1⟩ := pieces_run hcb [pingPieceOf t ht] hc hm
  obtain ⟨ps, hbytes, hraw⟩ := exists_pieces_of_framed hgood
  obtain ⟨r2, hr2, hp2, hc2, hm2⟩ := pieces_run hcb ps hc1 hm1
  obtain ⟨x, hend⟩ := unframed_run slot (call cb) hc2 r2.mallocs hbad (rest.flatMap WirePacket.bytes) r2
  have hne : (good ++ bad :: rest).flatMap WirePacket.bytes ≠ [] := bytes_ne_nil (by simp)
  have hone := h [[t, 0]] [(good ++ bad :: rest).flatMap WirePacket.bytes] (by simp) (by simpa using hne) rfl
    (List.flatten_singleton)
  have hping : feed cb [[t, 0]] r = ([0], r1) := feed_flatten (by simp) rfl hr1
  rw [hping, feed_whole hne, List.flatMap_append, List.flatMap_cons, ← hbytes,
    runUntil_append_ok _ hr2, ← show slot.set (r2.codec, r2.mallocs) r2 = r2 from rfl, hend] at hone
  rcases hone with ⟨result, hmem, hres⟩ | hone
  · exact hres (List.mem_singleton.mp hmem)
  · have hlen := congrArg List.length hone
    have hcount := congrArg List.length hraw
    have hsame : (slot.set x r2).packets = r2.packets := rfl
    rw [hsame, hp2] at hlen
    simp only [List.length_append, List.length_map, List.length_cons] at hlen hcount
    omega

/-- Behind the two bytes a stream is delivered, however it is cut, exactly when it is empty, or the
    two bytes are a PINGRESP and the decoder frames every packet of the stream. -/
theorem undisturbed_iff (hc : Idle r.codec) (hm : Succeed r.mallocs) (t : UInt8) (s : List WirePacket) :
    Undisturbed cb r t s ↔ s = [] ∨ packetTypeByte t = .pingresp ∧ ∀ p ∈ s, p.Framed := by
  by_cases hs : s = []
  · subst hs
    refine ⟨fun _ => Or.inl rfl, fun _ => ?_⟩
    intro opening chunks _ hchunks _ hcuts
    have hnil : chunks = [] := by
      by_contra hne
      obtain ⟨ch, hch⟩ := List.exists_mem_of_ne_nil _ hne
      exact hchunks ch hch (List.flatten_eq_nil_iff.mp hcuts ch hch)
    right
    rw [hnil, List.map_nil, List.append_nil]
    rfl
  · by_cases ht : packetTypeByte t = .pingresp
    · by_cases hf : ∀ p ∈ s, p.Framed
      · exact ⟨fun _ => Or.inr ⟨ht, hf⟩, fun _ => framed_undisturbed hcb hc hm ht hf⟩
      · refine ⟨fun h => absurd h (unframed_disturbs hcb hc hm ht hf), fun h => ?_⟩
        rcases h with h | h
        · exact absurd h hs
        · exact absurd h.2 hf
    · refine ⟨fun h => absurd h (bodyless_disturbs hc ht hs), fun h => ?_⟩
      rcases h with h | h
      · exact absurd h hs
      · exact absurd h.1 ht

end Delivered

def subackPacket : WirePacket := ⟨0x90, [0, 7, 1], by decide, fun h => absurd h (by decide)⟩

/-- Behind a PINGRESP it is delivered. -/
theorem undisturbed_suback :
    Undisturbed (fun _ (x : Mallocs × Unit) => x) (start [] ()) 0xD0 [subackPacket] ↔
      [subackPacket] = [] ∨ packetTypeByte 0xD0 = .pingresp ∧ ∀ p ∈ [subackPacket], p.Framed :=
  undisturbed_iff (fun _ _ h => h) create_idle succeed_nil 0xD0 [subackPacket]

/-- Behind an UNSUBACK without a body it is not: its first byte is swallowed, the call fails, and
    no packet is ever delivered. -/
theorem bodyless_swallows :
    let r := (feed (fun _ (x : Mallocs × Unit) => x) [[0xB0, 0]] (start [] ())).2
    (feed (fun _ (x : Mallocs × Unit) => x) [[0xB0, 0]] (start [] ())).1 = [0] ∧
      (feed (fun _ (x : Mallocs × Unit) => x) [[0x90], [3, 0, 7, 1]] r).1 = [0, Crt.failure] ∧
      (feed (fun _ (x : Mallocs × Unit) => x) [[0x90], [3, 0, 7, 1]] r).2.packets = [] ∧
      ¬ Undisturbed (fun _ (x : Mallocs × Unit) => x) (start [] ()) 0xB0 [subackPacket] := by
  refine ⟨by decide +kernel, by decide +kernel, by decide +kernel, ?_⟩
  exact bodyless_disturbs create_idle (by decide) (List.cons_ne_nil _ _)

end Run

end UMqtt.Codec

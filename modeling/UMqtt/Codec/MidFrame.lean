/-
  UMqtt.Codec.MidFrame — the decoder in the middle of a stream.

  `Within fr pre c`: of the frame `fr` the codec has taken `pre`, which is not all of it. One
  more byte of the frame is taken, and the last one completes it (`Within.step`). So of a stream
  of frames that has come in so far, in any chunks, the whole ones have reached the callback and
  the codec is within the next one (`Serves.part`), whatever the caller does between two chunks
  that leaves the codec alone.
-/

import UMqtt.Codec.Framing

namespace UMqtt.Codec

open UMqtt.Lib UMqtt.Crt

/-! ## Within a frame -/

inductive Within (fr : Frame) : List UInt8 → CodecInstance → Prop
  | start {c : CodecInstance} (idle : Idle c) : Within fr [] c
  | length {c : CodecInstance} {ds more : List UInt8} (cut : Base128.encode fr.body.length = ds ++ more) (hmore : more ≠ [])
      (reading : Reading c fr.type (UInt8.ofNat fr.flags) ds) :
      Within fr ((fr.type.value ||| UInt8.ofNat fr.flags) :: ds) c
  | body {c : CodecInstance} {written more : List UInt8} (cut : fr.body = written ++ more) (hmore : more ≠ [])
      (filling : Filling c fr.type (UInt8.ofNat fr.flags) written more.length) :
      Within fr ((fr.type.value ||| UInt8.ofNat fr.flags) :: (Base128.encode fr.body.length ++ written)) c

structure Takes (c : CodecInstance) (ms : Mallocs) (b : UInt8) (complete : Bool) (c' : CodecInstance) (ms' : Mallocs) : Prop where
  advance : advance c ms b = ⟨0, complete, c', ms'⟩
  mallocs : Succeed ms'

structure Complete (fr : Frame) (c : CodecInstance) : Prop where
  packet : c.packet = fr.packet
  fault : c.fault = none
  index : c.remainLenIndex = 0

section Step

variable {fr : Frame} {c : CodecInstance} {ms : Mallocs} {b : UInt8} {ds more : List UInt8}

theorem Frame.type_ne_unknown (fr : Frame) : fr.type ≠ .unknown := fr.onWire.2

/-- A body that is not empty is not a PINGRESP's. -/
theorem Frame.type_ne_pingresp (h : fr.body ≠ []) : fr.type ≠ .pingresp := by
  intro ht
  have hs := fr.sized
  rw [Sized, if_pos ht] at hs
  exact h hs

theorem Frame.body_le (fr : Frame) : fr.body.length ≤ 2097151 := by
  have hs := fr.sized
  unfold Sized at hs
  split at hs
  · rw [hs]; decide
  · exact hs.2

/-- The shortest numeral cut in front of one of its bytes: what is in front continues, and the
    byte continues unless it is the last one. -/
theorem encode_cut {n : Nat} (hn : n ≤ 2097151) (h : Base128.encode n = ds ++ b :: more) :
    (∀ d ∈ ds, Base128.continues d) ∧ ds.length ≤ 2 ∧
      (more = [] → ¬ Base128.continues b ∧ Base128.value (ds ++ [b]) = n) ∧ (more ≠ [] → Base128.continues b) := by
  obtain ⟨init, last, he, hc, hl, hv⟩ := Base128.encode_shape n
  have hlen : (Base128.encode n).length ≤ 2 + 1 := Base128.length_encode_le (by omega)
  rw [h, List.length_append, List.length_cons] at hlen
  rw [h] at he
  rcases List.eq_nil_or_concat more with rfl | ⟨front, x, rfl⟩
  · obtain ⟨rfl, hb⟩ := List.append_inj' he rfl
    simp only [List.cons.injEq, and_true] at hb
    subst hb
    exact ⟨hc, by omega, fun _ => ⟨hl, hv⟩, fun hne => absurd rfl hne⟩
  · rw [List.concat_eq_append, ← List.cons_append, ← List.append_assoc] at he
    obtain ⟨rfl, -⟩ := List.append_inj' he rfl
    refine ⟨fun d hd => hc d (List.mem_append_left _ hd), by omega, fun hnil => absurd hnil (by simp), fun _ => ?_⟩
    exact hc b (List.mem_append_right _ List.mem_cons_self)

/-- A byte of the remaining length. -/
theorem Reading.step (h : Reading c fr.type (UInt8.ofNat fr.flags) ds) (hm : Succeed ms)
    (hcut : Base128.encode fr.body.length = ds ++ b :: more) :
    ∃ c' ms', (Takes c ms b false c' ms' ∧ more ++ fr.body ≠ [] ∧
        Within fr ((fr.type.value ||| UInt8.ofNat fr.flags) :: (ds ++ [b])) c') ∨
      (Takes c ms b true c' ms' ∧ more ++ fr.body = [] ∧ Complete fr c') := by
  obtain ⟨hds, hlen, hlast, hgoes⟩ := encode_cut fr.body_le hcut
  by_cases hmore : more = []
  · subst hmore
    obtain ⟨hb, hv⟩ := hlast rfl
    by_cases hbody : fr.body = []
    · -- A body of no bytes: a PINGRESP, complete with the byte 0.
      have ht : fr.type = .pingresp := by
        by_contra hne
        have hs := fr.sized
        rw [Sized, if_neg hne, hbody] at hs
        exact absurd hs.1 (by decide)
      rw [hbody, List.length_nil, Base128.encode_lt (by decide)] at hcut
      obtain ⟨rfl, hb0⟩ : ds = [] ∧ b = 0 := by
        cases ds with
        | nil => exact ⟨rfl, by simpa using hcut.symm⟩
        | cons d ds => simp at hcut
      rw [ht] at h
      obtain ⟨c', ha, hp, hf, hi⟩ := advance_ping h ms
      refine ⟨c', ms, Or.inr ⟨⟨by rw [hb0]; exact ha, hm⟩, by rw [hbody]; rfl, ⟨?_, hf, hi⟩⟩⟩
      rw [hp, Frame.packet, if_pos ht, ht]
    · have hpos := List.length_pos_iff.mpr hbody
      obtain ⟨c', ms', ha, hfill, hs⟩ := advance_last h fr.type_ne_unknown hds hlen hm hb (by omega)
      rw [hv] at hfill
      refine ⟨c', ms', Or.inl ⟨⟨?_, hs⟩, by simpa using hbody, ?_⟩⟩
      · rw [ha]; simp [fr.type_ne_pingresp hbody]
      · have hwithin := @Within.body fr c' [] fr.body rfl hbody hfill
        rwa [List.append_nil, hcut] at hwithin
  · have hbody : fr.body ≠ [] := by
      intro hbody
      rw [hbody, List.length_nil, Base128.encode_lt (by decide)] at hcut
      have := congrArg List.length hcut
      have hpos := List.length_pos_iff.mpr hmore
      simp only [List.length_append, List.length_cons, List.length_nil] at this
      omega
    obtain ⟨c', ha, h'⟩ := advance_continue h fr.type_ne_unknown (fr.type_ne_pingresp hbody) (by omega) ms (hgoes hmore)
    refine ⟨c', ms, Or.inl ⟨⟨ha, hm⟩, by simp [hbody], ?_⟩⟩
    exact .length (by rw [hcut, List.append_assoc]; rfl) hmore h'

/-- What the codec has taken is not all of the frame. -/
theorem Within.left {pre : List UInt8} (h : Within fr pre c) : ∃ b post, fr.bytes = pre ++ b :: post := by
  cases h with
  | start idle => exact ⟨_, _, rfl⟩
  | @length c ds more cut hmore reading =>
    obtain ⟨d, more, rfl⟩ := List.exists_cons_of_ne_nil hmore
    exact ⟨d, more ++ fr.body, by simp [Frame.bytes, cut]⟩
  | @body c written more cut hmore filling =>
    obtain ⟨d, more, rfl⟩ := List.exists_cons_of_ne_nil hmore
    refine ⟨d, more, ?_⟩
    rw [Frame.bytes]
    generalize Base128.encode fr.body.length = numeral
    simp [cut]

/-- One more byte of the frame: the codec stays within it or, with the last one, holds it. -/
theorem Within.step {pre post : List UInt8} (h : Within fr pre c) (hm : Succeed ms) (hb : fr.bytes = pre ++ b :: post) :
    ∃ c' ms', (Takes c ms b false c' ms' ∧ post ≠ [] ∧ Within fr (pre ++ [b]) c') ∨
      (Takes c ms b true c' ms' ∧ post = [] ∧ Complete fr c') := by
  cases h with
  | start idle =>
    simp only [Frame.bytes, List.nil_append, List.cons.injEq] at hb
    obtain ⟨rfl, rfl⟩ := hb
    obtain ⟨htype, hflags⟩ := typeByte_roundtrip fr.type fr.onWire fr.flags
    obtain ⟨c', ha, h'⟩ := advance_type idle.reading ms (fr.type.value ||| UInt8.ofNat fr.flags)
    rw [htype, hflags] at h'
    refine ⟨c', ms, Or.inl ⟨⟨ha, hm⟩, by simp [Base128.encode_ne_nil], ?_⟩⟩
    exact .length rfl (Base128.encode_ne_nil _) h'
  | @length c ds more cut hmore reading =>
    cases more with
    | nil => exact absurd rfl hmore
    | cons d more =>
      simp only [Frame.bytes, cut, List.cons_append, List.append_assoc, List.cons.injEq, List.append_cancel_left_eq] at hb
      obtain ⟨-, rfl, rfl⟩ := hb
      exact reading.step hm cut
  | @body c written more cut hmore filling =>
    cases more with
    | nil => exact absurd rfl hmore
    | cons d more =>
      have hpost : d = b ∧ more = post := by
        rw [Frame.bytes] at hb
        generalize Base128.encode fr.body.length = numeral at hb
        simpa [cut] using hb
      obtain ⟨rfl, rfl⟩ := hpost
      obtain ⟨c', ha, h'⟩ := advance_fill filling ms d
      by_cases hlast : more = []
      · subst hlast
        have hbody : fr.body ≠ [] := by rw [cut]; simp
        refine ⟨c', ms, Or.inr ⟨⟨by simpa using ha, hm⟩, rfl, ⟨?_, h'.fault, h'.index⟩⟩⟩
        rw [h'.packet, Frame.packet, if_neg (fr.type_ne_pingresp hbody), cut]
      · have hpos := List.length_pos_iff.mpr hlast
        refine ⟨c', ms, Or.inl ⟨⟨by rw [ha]; simp [hlast], hm⟩, hlast, ?_⟩⟩
        have hwithin := @Within.body fr c' (written ++ [d]) more (by rw [cut]; simp) hlast h'
        simpa using hwithin

end Step

/-! ## Within a stream -/

section Streams

variable {W α : Type} {s : Slot W (CodecInstance × Mallocs)} {packetComplete : Packet → W → W} {frame : α → Frame}

/-- Of a stream of packets, of which `rest` are not whole yet, the codec has taken `pre` of the next. -/
def Midway (frame : α → Frame) (pre : List UInt8) (rest : List α) (c : CodecInstance) : Prop :=
  pre = [] ∧ Idle c ∨ ∃ a rest', rest = a :: rest' ∧ Within (frame a) pre c

/-- Between two packets, whichever come next. -/
theorem Midway.idle {c : CodecInstance} (h : Idle c) (rest : List α) : Midway frame [] rest c := Or.inl ⟨rfl, h⟩

/-- More packets behind the others. -/
theorem Midway.more {pre : List UInt8} {rest : List α} {c : CodecInstance} (h : Midway frame pre rest c) (later : List α) :
    Midway frame pre (rest ++ later) c := by
  rcases h with h | ⟨a, rest', rfl, h⟩
  · exact Or.inl h
  · exact Or.inr ⟨a, rest' ++ later, rfl, h⟩

/-- Where all that was sent has been taken, nothing of a packet is left. -/
theorem Midway.done {pre : List UInt8} {rest : List α} {c : CodecInstance} (h : Midway frame pre rest c)
    (hall : pre = rest.flatMap fun a => (frame a).bytes) : rest = [] := by
  rcases h with ⟨rfl, -⟩ | ⟨a, rest', rfl, h⟩
  · cases rest with
    | nil => rfl
    | cons a rest => simp [List.flatMap_cons, Frame.bytes] at hall
  · obtain ⟨b, post, hb⟩ := h.left
    have hlen := congrArg List.length hall
    simp only [List.flatMap_cons, hb, List.length_append, List.length_cons] at hlen
    omega

/-- The packet that the next byte belongs to. -/
theorem Midway.next {pre more : List UInt8} {b : UInt8} {rest : List α} {c : CodecInstance} (h : Midway frame pre rest c)
    (hstream : pre ++ b :: more = rest.flatMap fun a => (frame a).bytes) :
    ∃ a rest' post, rest = a :: rest' ∧ Within (frame a) pre c ∧ (frame a).bytes = pre ++ b :: post ∧
      more = post ++ rest'.flatMap fun a => (frame a).bytes := by
  obtain ⟨a, rest, rfl, hwithin⟩ : ∃ a rest', rest = a :: rest' ∧ Within (frame a) pre c := by
    rcases h with ⟨rfl, hidle⟩ | h
    · cases rest with
      | nil => simp at hstream
      | cons a rest => exact ⟨a, rest, rfl, .start hidle⟩
    · exact h
  obtain ⟨b', post, hb⟩ := hwithin.left
  rw [List.flatMap_cons, hb, List.append_assoc, List.append_cancel_left_eq, List.cons_append, List.cons.injEq] at hstream
  obtain ⟨rfl, hmore⟩ := hstream
  exact ⟨a, rest, post, rfl, hwithin, hb, hmore⟩

/-- A packet that is complete is handed over, and the codec is cleaned up. -/
theorem Serves.complete {R : List α → W → Prop} (h : Serves s packetComplete frame R) {done : List α} {a : α} {w : W}
    {c : CodecInstance} {ms : Mallocs} (hR : R done w) (hc : Complete (frame a) c) (hm : Succeed ms) :
    R (done ++ [a]) (completePacketData s packetComplete (s.set (c, ms) w)) ∧
      Idle (s.get (completePacketData s packetComplete (s.set (c, ms) w))).1 ∧
      Succeed (s.get (completePacketData s packetComplete (s.set (c, ms) w))).2 := by
  obtain ⟨hR', hcodec, hms⟩ := h.step (a := a) (h.keep (x := (c, ms)) hR) (by rw [s.get_set]; exact hc.fault)
    (by rw [s.get_set]; exact hm)
  rw [s.get_set] at hcodec
  simp only [completePacketData, Slot.modify, s.get_set, hc.packet, hcodec]
  exact ⟨h.keep hR', cleanUp_idle hc.fault hc.index, hms⟩

/-- Of a stream that has come in so far the whole packets are served, and the codec is midway. -/
theorem Serves.part {R : List α → W → Prop} (h : Serves s packetComplete frame R) :
    ∀ (bs later : List UInt8) (done rest : List α) (pre : List UInt8) (w : W), R done w → Midway frame pre rest (s.get w).1 →
      Succeed (s.get w).2 → pre ++ (bs ++ later) = (rest.flatMap fun a => (frame a).bytes) →
      ∃ now rest' pre' w', runUntil (receiveByte s packetComplete) bs w = (0, w') ∧ rest = now ++ rest' ∧
        pre ++ bs = (now.flatMap fun a => (frame a).bytes) ++ pre' ∧ R (done ++ now) w' ∧
        Midway frame pre' rest' (s.get w').1 ∧ Succeed (s.get w').2 := by
  intro bs
  induction bs with
  | nil =>
    intro later done rest pre w hR hmid hm _
    exact ⟨[], rest, pre, w, rfl, rfl, by simp, by simpa using hR, hmid, hm⟩
  | cons b bs ih =>
    intro later done rest pre w hR hmid hm hstream
    obtain ⟨a, rest, post, rfl, hwithin, hb, hlater⟩ := hmid.next hstream
    obtain ⟨c', ms', ⟨htakes, hpost, hwithin'⟩ | ⟨htakes, rfl, hcomplete⟩⟩ := hwithin.step hm hb
    · have hrun := @runUntil_quiet W s packetComplete _ _ _ _ _ htakes.advance bs w
      rw [show ((s.get w).1, (s.get w).2) = s.get w from rfl, s.set_get] at hrun
      obtain ⟨now, rest', pre', w', hr, hrest, hpre, hstate⟩ := ih later done (a :: rest) (pre ++ [b]) (s.set (c', ms') w)
        (h.keep hR) (Or.inr ⟨a, rest, rfl, by rw [s.get_set]; exact hwithin'⟩) (by rw [s.get_set]; exact htakes.mallocs)
        (by rw [List.append_assoc]; exact hstream)
      exact ⟨now, rest', pre', w', hrun.trans hr, hrest, by rw [← hpre]; simp, hstate⟩
    · have hrun := @runUntil_complete W s packetComplete _ _ _ _ _ htakes.advance w
      rw [show ((s.get w).1, (s.get w).2) = s.get w from rfl, s.set_get] at hrun
      obtain ⟨hR', hidle, hm'⟩ := h.complete hR hcomplete htakes.mallocs
      obtain ⟨now, rest', pre', w', hr, hrest, hpre, hstate⟩ := ih later (done ++ [a]) rest []
        (completePacketData s packetComplete (s.set (c', ms') w)) hR' (.idle hidle rest) hm' hlater
      refine ⟨a :: now, rest', pre', w', ?_, by rw [hrest]; rfl, ?_, by simpa using hstate⟩
      · rw [show b :: bs = [b] ++ bs from rfl, runUntil_append_ok _ hrun, hr]
      · rw [List.nil_append] at hpre
        rw [List.flatMap_cons, hb, hpre]
        simp

end Streams

end UMqtt.Codec

/-
  UMqtt.Codec.Bounds — the decoder's array accesses, on any input at all.

  The four bytes of `storeRemainLen` are filled by `prepareheaderDataInfo`, which resets
  its index on a byte below 0x80 only and checks the index nowhere. So the index is the
  number of continuation bytes that came last, over packets too (a PINGRESP completes
  without resetting it), and the store leaves the array exactly when a length byte follows
  four of them (`Inv`). The length loop and the body bytes stay in bounds on every input.
-/

import UMqtt.Codec.Framing

namespace UMqtt.Codec

open UMqtt.Lib UMqtt.Crt

/-! ## Length bytes -/

/-- Four continuation bytes in a row, and one more length byte behind them. -/
def Overlong (ds : List UInt8) : Prop :=
  ∃ field e, field.length = 4 ∧ (∀ b ∈ field, Base128.continues b) ∧ field ++ [e] <:+: ds

def trailing (ds : List UInt8) : Nat := ds.foldl (fun n b => if Base128.continues b then n + 1 else 0) 0

theorem trailing_snoc (ds : List UInt8) (b : UInt8) :
    trailing (ds ++ [b]) = if Base128.continues b then trailing ds + 1 else 0 := by
  simp only [trailing, List.foldl_append, List.foldl_cons, List.foldl_nil]

theorem le_trailing (ds : List UInt8) : ∀ n, n ≤ trailing ds ↔
    ∃ field : List UInt8, field.length = n ∧ (∀ b ∈ field, Base128.continues b) ∧ field <:+ ds := by
  induction ds using List.reverseRecOn with
  | nil =>
    intro n
    constructor
    · intro h
      have hn : n = 0 := Nat.le_zero.mp h
      exact ⟨[], by simp [hn], by simp, List.suffix_rfl⟩
    · rintro ⟨field, hl, -, hs⟩
      rw [List.suffix_nil.mp hs] at hl
      exact hl ▸ Nat.zero_le _
  | append_singleton ds b ih =>
    intro n
    rw [trailing_snoc]
    constructor
    · intro h
      cases n with
      | zero => exact ⟨[], rfl, by simp, List.nil_suffix⟩
      | succ n =>
        by_cases hb : Base128.continues b
        · rw [if_pos hb] at h
          obtain ⟨field, hl, hc, hs⟩ := (ih n).mp (by omega)
          refine ⟨field ++ [b], by simp [hl], ?_, List.suffix_concat_iff.mpr (Or.inr ⟨field, rfl, hs⟩)⟩
          intro x hx
          rcases List.mem_append.mp hx with hx | hx
          · exact hc x hx
          · rw [List.mem_singleton.mp hx]; exact hb
        · rw [if_neg hb] at h; omega
    · rintro ⟨field, hl, hc, hs⟩
      rcases List.suffix_concat_iff.mp hs with rfl | ⟨field', rfl, hs'⟩
      · simp only [List.length_nil] at hl; omega
      · rw [if_pos (hc b (by simp))]
        have := (ih field'.length).mpr ⟨field', rfl, fun x hx => hc x (by simp [hx]), hs'⟩
        simp only [List.length_append, List.length_singleton] at hl
        omega

theorem overlong_snoc (ds : List UInt8) (e : UInt8) : Overlong (ds ++ [e]) ↔ Overlong ds ∨ 4 ≤ trailing ds := by
  rw [le_trailing]
  constructor
  · rintro ⟨field, e', hl, hc, hi⟩
    rcases List.infix_concat_iff.mp hi with hs | hi
    · rcases List.suffix_concat_iff.mp hs with h | ⟨field', h, hs⟩
      · simp at h
      · rw [List.append_inj_left' h rfl] at hl hc
        exact Or.inr ⟨field', hl, hc, hs⟩
    · exact Or.inl ⟨field, e', hl, hc, hi⟩
  · rintro (⟨field, e', hl, hc, hi⟩ | ⟨field, hl, hc, hs⟩)
    · exact ⟨field, e', hl, hc, List.infix_concat_iff.mpr (Or.inr hi)⟩
    · exact ⟨field, e, hl, hc,
        List.infix_concat_iff.mpr (Or.inl (List.suffix_concat_iff.mpr (Or.inr ⟨field, rfl, hs⟩)))⟩

theorem not_overlong_nil : ¬ Overlong [] := by
  rintro ⟨field, e, hl, -, hi⟩
  have := List.infix_nil.mp hi
  simp at this

/-! ## The length loop -/

/-- The multiplier check ends the loop on the fourth byte at the latest. -/
theorem lengthLoop_four (a b c d : UInt8) : (lengthLoop [a, b, c, d] 1 0).isSome := by
  simp only [lengthLoop]
  repeat' split
  all_goals first | rfl | (simp at *)

theorem lengthLoop_store (v : Vector UInt8 4) : (lengthLoop v.toList 1 0).isSome := by
  obtain ⟨⟨l⟩, hl⟩ := v
  match l, hl with
  | [a, b, c, d], _ => exact lengthLoop_four a b c d

/-- A fourth length byte makes the loop fail, its value computed. -/
theorem lengthLoop_failing {ds : List UInt8} (hd : ∀ d ∈ ds, Base128.continues d) (hl : ds.length = 3) (b : UInt8) :
    lengthLoop (ds ++ [b]) 1 0 = some (failure, Base128.value (ds ++ [b])) := by
  match ds, hl with
  | [x, y, z], _ =>
    have hx := (and128 x).mpr (hd x (by simp))
    have hy := (and128 y).mpr (hd y (by simp))
    have hz := (and128 z).mpr (hd z (by simp))
    simp only [List.cons_append, List.nil_append, lengthLoop, if_pos hx, if_pos hy, if_pos hz, and127, Base128.value]
    simp only [show ¬ 128 * 128 * 128 < 1 * 128 by decide, show ¬ 128 * 128 * 128 < 1 * 128 * 128 by decide,
      show ¬ 128 * 128 * 128 < 1 * 128 * 128 * 128 by decide, if_false,
      show 128 * 128 * 128 < 1 * 128 * 128 * 128 * 128 by decide, if_true]
    congr 2
    omega

/-- What the last of up to four length bytes makes of the codec. -/
theorem prepareheaderDataInfo_end {c : CodecInstance} {ds : List UInt8} (h : Stored c ds)
    (hd : ∀ d ∈ ds, Base128.continues d) (hl : ds.length ≤ 3) {b : UInt8} (hb : ¬ Base128.continues b) (ms : Mallocs) :
    prepareheaderDataInfo c b ms =
      let result := if ds.length = 3 then failure else 0
      let read := { c with lengthBytes := c.lengthBytes ++ [b], codecState := .varHeader, remainLenIndex := 0,
                           storeRemainLen := Vector.replicate 4 0 }
      if 0 < Base128.value (ds ++ [b]) then
        let r := newHeaderData (Base128.value (ds ++ [b])) ms
        (if r.1 = 0 then result else failure, { read with bufferOffset := 0, headerData := r.2.1 }, r.2.2)
      else (result, read, ms) := by
  have hi : c.remainLenIndex < 4 := by rw [h.index]; omega
  obtain ⟨rest, hr⟩ := store_set h hi b
  have hloop : lengthLoop (c.storeRemainLen.set c.remainLenIndex b hi).toList 1 0 =
      some (if ds.length = 3 then failure else 0, Base128.value (ds ++ [b])) := by
    rw [hr]
    by_cases h3 : ds.length = 3
    · have hrest : rest = [] := by
        have hlen := congrArg List.length hr
        simp only [Vector.length_toList, List.length_append, List.length_singleton, h3] at hlen
        exact List.length_eq_zero_iff.mp (by omega)
      rw [hrest, List.append_nil, if_pos h3, lengthLoop_failing hd h3 b]
    · have hvalue := lengthLoop_value ds 0 0 b rest hd hb (by omega)
      simp only [Nat.pow_zero, Nat.one_mul, Nat.zero_add] at hvalue
      rw [List.append_assoc, List.singleton_append, if_neg h3, hvalue]
  simp only [prepareheaderDataInfo, dif_pos hi, if_pos ((le7f b).mpr hb), hloop]

/-! ## The invariant -/

/-- A body under construction is one block of its size with room for another byte. -/
def BodyOk (offset : Nat) : Option Buffer → Prop
  | none => True
  | some b => b = ⟨none, 0, false⟩ ∨ ∃ block, b = Buffer.ofBytes block ∧ offset < block.length

structure Inv (c : CodecInstance) : Prop where
  index : c.fault = none → c.remainLenIndex = trailing c.lengthBytes
  small : c.remainLenIndex ≤ 4
  fits : c.fault = none → ¬ Overlong c.lengthBytes
  faulted : ∀ f, c.fault = some f → f = .storeWrite ∧ Overlong c.lengthBytes
  noData : c.codecState = .fixedHeader → c.headerData = none
  body : BodyOk c.bufferOffset c.headerData

theorem create_inv : Inv create :=
  ⟨fun _ => rfl, Nat.zero_le _, fun _ => not_overlong_nil, fun _ h => (nomatch h), fun _ => rfl, trivial⟩

/-- A body is allocated in full, or there is nothing to fill. -/
theorem newHeaderData_cases {n : Nat} (hn : 0 < n) (ms : Mallocs) :
    ((newHeaderData n ms).1 = 0 ∧ ∃ block, (newHeaderData n ms).2.1 = some (Buffer.ofBytes block) ∧ block.length = n) ∨
      ((newHeaderData n ms).1 = failure ∧
        ((newHeaderData n ms).2.1 = none ∨ (newHeaderData n ms).2.1 = some ⟨none, 0, false⟩)) := by
  unfold newHeaderData Buffer.new
  rcases hhandle : malloc 8 ms with ⟨handle, ms'⟩
  cases handle with
  | none => exact Or.inr ⟨rfl, Or.inl rfl⟩
  | some handle =>
    simp only [Option.map_some, Buffer.preBuild, show n ≠ 0 by omega, if_false, Option.isSome_none, Bool.false_eq_true]
    rcases hblock : malloc n ms' with ⟨block, ms''⟩
    cases block with
    | none => exact Or.inr ⟨rfl, Or.inr rfl⟩
    | some block =>
      have hlen := malloc_length hblock
      exact Or.inl ⟨rfl, block, by simp only [Buffer.ofBytes, hlen], hlen⟩

theorem newHeaderData_bodyOk {n : Nat} (hn : 0 < n) (ms : Mallocs) : BodyOk 0 (newHeaderData n ms).2.1 := by
  rcases newHeaderData_cases hn ms with ⟨-, block, hdata, hblock⟩ | ⟨-, hdata | hdata⟩
  · rw [hdata]
    exact Or.inr ⟨block, rfl, by omega⟩
  · rw [hdata]
    trivial
  · rw [hdata]
    exact Or.inl rfl

theorem prepare_inv {c : CodecInstance} (h : Inv c) (hf : c.fault = none) (hs : c.codecState = .fixedHeader) (b : UInt8)
    (ms : Mallocs) : Inv (prepareheaderDataInfo c b ms).2.1 := by
  have hd : c.headerData = none := h.noData hs
  have hi : c.remainLenIndex = trailing c.lengthBytes := h.index hf
  have hover : Overlong (c.lengthBytes ++ [b]) ↔ 4 ≤ c.remainLenIndex := by
    rw [overlong_snoc, hi]
    exact or_iff_right (h.fits hf)
  unfold prepareheaderDataInfo
  by_cases h4 : c.remainLenIndex < 4
  · have hfits : ¬ Overlong (c.lengthBytes ++ [b]) := fun ho => by have := hover.mp ho; omega
    simp only [h4, dite_true]
    by_cases h7 : b ≤ 0x7f
    · have hcont : ¬ Base128.continues b := (le7f b).mp h7
      rw [if_pos h7]
      split
      · rename_i hl
        have := lengthLoop_store (c.storeRemainLen.set c.remainLenIndex b h4)
        rw [hl] at this; cases this
      · rename_i result totalLen _
        split
        · rename_i htot
          refine ⟨fun _ => ?_, Nat.zero_le _, fun _ => hfits, ?_, fun e => (nomatch e), newHeaderData_bodyOk htot ms⟩
          · simp only [trailing_snoc, if_neg hcont]
          · intro f hf'; simp only [hf] at hf'; cases hf'
        · refine ⟨fun _ => ?_, Nat.zero_le _, fun _ => hfits, ?_, fun e => (nomatch e), by simp only [hd]; trivial⟩
          · simp only [trailing_snoc, if_neg hcont]
          · intro f hf'; simp only [hf] at hf'; cases hf'
    · have hcont : Base128.continues b := Decidable.not_not.mp fun e => h7 ((le7f b).mpr e)
      rw [if_neg h7]
      refine ⟨fun _ => ?_, Nat.succ_le_of_lt h4, fun _ => hfits, ?_, fun _ => hd, by simp only [hd]; trivial⟩
      · simp only [trailing_snoc, if_pos hcont, hi]
      · intro f hf'; simp only [hf] at hf'; cases hf'
  · simp only [h4, dite_false]
    refine ⟨fun e => (nomatch e), h.small, fun e => (nomatch e), ?_, fun _ => hd, by simp only [hd]; trivial⟩
    intro f hf'
    cases hf'
    exact ⟨rfl, hover.mpr (by omega)⟩

theorem Inv.setType {c : CodecInstance} (h : Inv c) (t : ControlPacketType) (f : UInt8) :
    Inv { c with currPacket := t, headerFlags := f } :=
  ⟨h.index, h.small, h.fits, h.faulted, h.noData, h.body⟩

theorem Inv.error {c : CodecInstance} (h : Inv c) : Inv { c with currPacket := .packetTypeError } :=
  ⟨h.index, h.small, h.fits, h.faulted, h.noData, h.body⟩

theorem Inv.cleanUp {c : CodecInstance} (h : Inv c) : Inv c.cleanUp :=
  ⟨h.index, h.small, h.fits, h.faulted, fun _ => rfl, trivial⟩

/-- A byte keeps the invariant, also when it completes the packet. -/
theorem advance_inv {c : CodecInstance} (h : Inv c) (ms : Mallocs) (b : UInt8) : Inv (advance c ms b).after := by
  unfold advance Advance.after
  split
  · exact h
  · rename_i hf
    have hf : c.fault = none := by simpa using hf
    split
    · rename_i hs
      split
      · exact h.setType _ _
      · have hp := prepare_inv h hf hs b ms
        by_cases hok : (prepareheaderDataInfo c b ms).1 = 0
        · simp only [if_pos hok]
          split
          · exact hp.cleanUp
          · exact hp
        · simp only [if_neg hok]
          split
          · exact hp.error.cleanUp
          · exact hp.error
    · rename_i hs
      split
      · exact ⟨h.index, h.small, h.fits, h.faulted, fun e => (nomatch e), h.body⟩
      · rename_i d hd
        have hbody := h.body
        rw [hd] at hbody
        rcases hbody with rfl | ⟨block, rfl, hlt⟩
        · exact h.error
        · have hu : Buffer.uChar (some (Buffer.ofBytes block)) = some block :=
            Buffer.uChar_ofBytes (by rintro rfl; simp at hlt)
          simp only [hu, if_pos hlt, Buffer.write_inside hlt]
          split
          · exact ⟨h.index, h.small, h.fits, h.faulted, fun _ => rfl, trivial⟩
          · rename_i hroom
            refine ⟨h.index, h.small, h.fits, h.faulted, fun e => ?_, Or.inr ⟨_, rfl, by simpa using hroom⟩⟩
            simp only [hs] at e; cases e
    · exact h.error

end UMqtt.Codec

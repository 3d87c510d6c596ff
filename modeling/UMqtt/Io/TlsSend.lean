/-
  UMqtt.Io.TlsSend — one packet through `tlsio_mbedtls_send`.

  The packet goes to `mbedtls_ssl_write` once, and a result other than its size is a failure.
  mbedtls takes the leading bytes of at most one record, `F` of them, and then a failure is
  reported for a packet whose beginning is on the encrypted stream (`send_truncates`). The
  result is an `int` and the size is a `size_t`, so a negative one is compared with the sizes
  from 2^31 on.

  `mbedtls_ssl_write` is a parameter: it calls `on_io_send`, so it may leave any instance, and
  `Writes` says how much of the packet it accepts.

  Proved (`send_allOrNothing_iff`): a call is all or nothing exactly when the write is not
  divided, and no packet longer than `F` can be sent. Over a run of undivided writes the stream
  is the packets whose send returned 0 (`sends_stream`).
-/

import UMqtt.Io.TlsIo

namespace UMqtt.Io.TlsSend

open UMqtt.Crt

/-! ## tlsio_mbedtls_send -/

/-- The fields of `TLS_IO_INSTANCE` that a send uses, and every byte that mbedtls has accepted. -/
structure TlsSender (κ : Type) where
  tlsioState : TlsioState
  onSendComplete : Option κ
  accepted : List UInt8
  deriving DecidableEq, Repr

abbrev SslWrite (κ : Type) := List UInt8 → TlsSender κ → Int × TlsSender κ

def tlsioMbedtlsSend {κ : Type} (sslWrite : SslWrite κ) (buffer : List UInt8) (onSendComplete : Option κ)
    (io : TlsSender κ) : Nat × TlsSender κ :=
  if io.tlsioState ≠ .opened then (failure, io)
  else
    let r := sslWrite buffer { io with onSendComplete := onSendComplete }
    (if asSizeT r.1 ≠ buffer.length then failure else 0, r.2)

/-- Nothing is accepted and the result is an error code, or it is the number of leading bytes
    that are. -/
structure Writes {κ : Type} (F : Nat) (sslWrite : SslWrite κ) : Prop where
  int : F < 2 ^ 31
  result : ∀ buffer io,
    (-2 ^ 31 ≤ (sslWrite buffer io).1 ∧ (sslWrite buffer io).1 < 0 ∧ (sslWrite buffer io).2.accepted = io.accepted) ∨
    ∃ n : Nat, 1 ≤ n ∧ n ≤ min buffer.length F ∧ (sslWrite buffer io).1 = n ∧
      (sslWrite buffer io).2.accepted = io.accepted ++ buffer.take n

/-- All of the buffer is accepted and the call says so, or nothing of it. -/
structure AllOrNothing {κ : Type} (buffer : List UInt8) (io : TlsSender κ) (r : Nat × TlsSender κ) : Prop where
  all : r.1 = 0 → r.2.accepted = io.accepted ++ buffer
  nothing : r.1 ≠ 0 → r.2.accepted = io.accepted

/-- The write takes the whole buffer, or it fails with a code that is not the size of it. -/
def Undivided {κ : Type} (sslWrite : SslWrite κ) (buffer : List UInt8) (io : TlsSender κ) : Prop :=
  (sslWrite buffer io).1 = buffer.length ∨ (sslWrite buffer io).1 < 0 ∧ asSizeT (sslWrite buffer io).1 ≠ buffer.length

variable {κ : Type} {F : Nat} {sslWrite : SslWrite κ} {buffer : List UInt8} {io : TlsSender κ}

/-! ## One write -/

theorem failure_ne : failure ≠ 0 := by decide

theorem grown_ne {accepted : List UInt8} (h : 0 < buffer.length) : accepted ≠ accepted ++ buffer := by
  intro heq
  have hlen := congrArg List.length heq
  rw [List.length_append] at hlen
  omega

theorem take_accepted {accepted : List UInt8} {n : Nat} (hn : n ≤ buffer.length) :
    accepted ++ buffer.take n = accepted ++ buffer ↔ n = buffer.length := by
  rw [List.append_cancel_left_eq]
  refine ⟨fun h => ?_, fun h => ?_⟩
  · have hl := congrArg List.length h
    rw [List.length_take] at hl
    omega
  · rw [h, List.take_length]

theorem not_opened (h : io.tlsioState ≠ .opened) (cb : Option κ) : tlsioMbedtlsSend sslWrite buffer cb io = (failure, io) :=
  if_pos h

theorem opened (h : io.tlsioState = .opened) (cb : Option κ) : tlsioMbedtlsSend sslWrite buffer cb io =
    (if asSizeT (sslWrite buffer { io with onSendComplete := cb }).1 ≠ buffer.length then failure else 0,
      (sslWrite buffer { io with onSendComplete := cb }).2) :=
  if_neg fun hn => hn h

theorem Undivided.allOrNothing (hw : Writes F sslWrite) {cb : Option κ}
    (hu : io.tlsioState = .opened → Undivided sslWrite buffer { io with onSendComplete := cb }) :
    AllOrNothing buffer io (tlsioMbedtlsSend sslWrite buffer cb io) := by
  by_cases ho : io.tlsioState = .opened
  · have hu := hu ho
    rw [opened ho]
    rcases hw.result buffer { io with onSendComplete := cb } with ⟨hl, hneg, hacc⟩ | ⟨n, hn, hmin, hres, hacc⟩
    · rcases hu with hu | ⟨-, hu⟩
      · omega
      · rw [if_pos hu]
        exact ⟨fun h => absurd h failure_ne, fun _ => hacc⟩
    · have hint := hw.int
      rcases hu with hu | ⟨hu, -⟩
      · have hlen : n = buffer.length := by omega
        rw [hres, hlen, asSizeT_natCast (by omega), if_neg fun h => h rfl]
        refine ⟨fun _ => ?_, fun h => absurd rfl h⟩
        rw [hacc, (take_accepted (by omega)).mpr hlen]
      · omega
  · rw [not_opened ho]
    exact ⟨fun h => absurd h failure_ne, fun _ => rfl⟩

theorem AllOrNothing.undivided (hw : Writes F sslWrite) {cb : Option κ}
    (h : AllOrNothing buffer io (tlsioMbedtlsSend sslWrite buffer cb io)) (ho : io.tlsioState = .opened) :
    Undivided sslWrite buffer { io with onSendComplete := cb } := by
  rw [opened ho] at h
  have hall := h.all
  have hnothing := h.nothing
  rcases hw.result buffer { io with onSendComplete := cb } with ⟨hl, hneg, hacc⟩ | ⟨n, hn, hmin, hres, hacc⟩
  · have hlarge := asSizeT_neg hl hneg
    by_cases heq : asSizeT (sslWrite buffer { io with onSendComplete := cb }).1 = buffer.length
    · -- a code that is the size by chance: 0 is returned and nothing has been accepted
      exact absurd (hacc.symm.trans (hall (if_neg fun hne => hne heq))) (grown_ne (by omega))
    · exact Or.inr ⟨hneg, heq⟩
  · by_cases hlen : n = buffer.length
    · left
      rw [hres, hlen]
    · have hint := hw.int
      have hne : asSizeT (sslWrite buffer { io with onSendComplete := cb }).1 ≠ buffer.length := by
        rw [hres, asSizeT_natCast (by omega)]
        exact hlen
      have hkept := hnothing (by rw [if_pos hne]; exact failure_ne)
      exact absurd (hkept.symm.trans hacc) (grown_ne (by rw [List.length_take]; omega))

/-! ## What can be sent -/

/-- Takes one record of at most `F` bytes; there is none to make of an empty buffer. -/
def writeRecord (F : Nat) : SslWrite κ := fun buffer io =>
  if min buffer.length F = 0 then (mbedtlsErrSslWantRead, io)
  else (min buffer.length F, { io with accepted := io.accepted ++ buffer.take F })

theorem writeRecord_writes (κ : Type) {F : Nat} (h : F < 2 ^ 31) : Writes F (writeRecord F : SslWrite κ) := by
  refine ⟨h, fun buffer io => ?_⟩
  by_cases h0 : min buffer.length F = 0
  · left
    simp only [writeRecord, if_pos h0, and_true]
    exact ⟨by decide, by decide⟩
  · right
    refine ⟨min buffer.length F, by omega, Nat.le_refl _, ?_, ?_⟩
    · simp only [writeRecord, if_neg h0]
      omega
    · simp only [writeRecord, if_neg h0]
      rw [List.append_cancel_left_eq, List.take_eq_take_iff]
      omega

/-- There is a write with which the buffer goes through. -/
def Sendable (F : Nat) (buffer : List UInt8) (cb : Option κ) (io : TlsSender κ) : Prop :=
  ∃ sslWrite, Writes F sslWrite ∧ (tlsioMbedtlsSend sslWrite buffer cb io).1 = 0 ∧
    (tlsioMbedtlsSend sslWrite buffer cb io).2.accepted = io.accepted ++ buffer

theorem sendable_iff (hF : F < 2 ^ 31) (ho : io.tlsioState = .opened) (cb : Option κ) :
    Sendable F buffer cb io ↔ 1 ≤ buffer.length ∧ buffer.length ≤ F := by
  refine ⟨fun h => ?_, fun h => ?_⟩
  · obtain ⟨sslWrite, hw, hzero, hall⟩ := h
    rw [opened ho] at hzero hall
    rcases hw.result buffer { io with onSendComplete := cb } with ⟨hl, hneg, hacc⟩ | ⟨n, hn, hmin, hres, hacc⟩
    · have hlarge := asSizeT_neg hl hneg
      have heq : asSizeT (sslWrite buffer { io with onSendComplete := cb }).1 = buffer.length := by
        by_contra hne
        rw [if_pos hne] at hzero
        cases hzero
      exact absurd (hacc.symm.trans hall) (grown_ne (by omega))
    · rw [hacc] at hall
      have hlen := (take_accepted (by omega)).mp hall
      omega
  · refine ⟨writeRecord F, writeRecord_writes κ hF, ?_, ?_⟩
    · rw [opened ho]
      have hmin : (min buffer.length F : Int) = (buffer.length : Nat) := by omega
      simp only [writeRecord, if_neg (show ¬ min buffer.length F = 0 by omega)]
      rw [hmin, asSizeT_natCast (by omega), if_neg fun h => h rfl]
    · rw [opened ho]
      simp only [writeRecord, if_neg (show ¬ min buffer.length F = 0 by omega), List.take_of_length_le h.2]

/-- A call is all or nothing exactly when the write of an open transport is not divided, and what
    an open transport can send is what one record holds. -/
theorem send_allOrNothing_iff (hw : Writes F sslWrite) (buffer : List UInt8) (cb : Option κ) (io : TlsSender κ) :
    (AllOrNothing buffer io (tlsioMbedtlsSend sslWrite buffer cb io) ↔
      (io.tlsioState = .opened → Undivided sslWrite buffer { io with onSendComplete := cb })) ∧
    (io.tlsioState = .opened → (Sendable F buffer cb io ↔ 1 ≤ buffer.length ∧ buffer.length ≤ F)) :=
  ⟨⟨fun h ho => h.undivided hw ho, fun h => Undivided.allOrNothing hw h⟩, fun ho => sendable_iff hw.int ho cb⟩

/-- A packet that one record holds. -/
theorem record_sends :
    (AllOrNothing [0xc0, 0] ⟨.opened, none, []⟩ (tlsioMbedtlsSend (writeRecord 2) [0xc0, 0] (some ()) ⟨.opened, none, []⟩) ↔
      (TlsioState.opened = .opened → Undivided (writeRecord 2) [0xc0, 0] ⟨.opened, some (), []⟩)) ∧
    (TlsioState.opened = .opened → (Sendable 2 [0xc0, 0] (some ()) ⟨.opened, none, []⟩ ↔ 1 ≤ 2 ∧ 2 ≤ 2)) :=
  send_allOrNothing_iff (writeRecord_writes Unit (by decide)) [0xc0, 0] (some ()) ⟨.opened, none, []⟩

def mbedtlsSslMaxContentLen : Nat := 10240

def longPacket : List UInt8 := List.replicate (mbedtlsSslMaxContentLen + 1) 0

theorem length_longPacket : longPacket.length = mbedtlsSslMaxContentLen + 1 := List.length_replicate

theorem writeRecord_long (io : TlsSender κ) : writeRecord mbedtlsSslMaxContentLen longPacket io =
    ((mbedtlsSslMaxContentLen : Int), { io with accepted := io.accepted ++ longPacket.take mbedtlsSslMaxContentLen }) := by
  have hmin : min longPacket.length mbedtlsSslMaxContentLen = mbedtlsSslMaxContentLen := by
    rw [length_longPacket]
    decide
  have hmin' : (min (longPacket.length : Int) mbedtlsSslMaxContentLen) = mbedtlsSslMaxContentLen := by omega
  simp only [writeRecord, hmin, hmin', if_neg (show ¬ mbedtlsSslMaxContentLen = 0 by decide)]

/-- A packet one byte longer than a record: its beginning is on the stream, the call fails, and
    no other write would do. -/
theorem send_truncates :
    ¬ AllOrNothing longPacket ⟨.opened, none, []⟩
        (tlsioMbedtlsSend (writeRecord mbedtlsSslMaxContentLen) longPacket (some ()) ⟨.opened, none, []⟩) ∧
      (tlsioMbedtlsSend (writeRecord mbedtlsSslMaxContentLen) longPacket (some ()) ⟨.opened, none, []⟩).2.accepted =
        longPacket.take mbedtlsSslMaxContentLen ∧
      ¬ Sendable mbedtlsSslMaxContentLen longPacket (some ()) ⟨.opened, none, []⟩ := by
  refine ⟨fun h => ?_, ?_, fun h => ?_⟩
  · have hu := h.undivided (writeRecord_writes Unit (by decide)) rfl
    rw [Undivided, writeRecord_long, length_longPacket] at hu
    rcases hu with hu | ⟨hu, -⟩
    · exact absurd hu (by decide)
    · exact absurd hu (by decide)
  · rw [opened rfl, writeRecord_long]
    rfl
  · have hle := ((sendable_iff (by decide) rfl (some ())).mp h).2
    rw [length_longPacket] at hle
    exact absurd hle (by decide)

/-! ## A run of sends -/

/-- One packet after the other, each with the write it meets. -/
def sends : List (SslWrite κ × List UInt8 × Option κ) → TlsSender κ → List Nat × TlsSender κ
  | [], io => ([], io)
  | (sslWrite, buffer, cb) :: rest, io =>
    let r := tlsioMbedtlsSend sslWrite buffer cb io
    let q := sends rest r.2
    (r.1 :: q.1, q.2)

def AllUndivided : List (SslWrite κ × List UInt8 × Option κ) → TlsSender κ → Prop
  | [], _ => True
  | (sslWrite, buffer, cb) :: rest, io =>
    (io.tlsioState = .opened → Undivided sslWrite buffer { io with onSendComplete := cb }) ∧
      AllUndivided rest (tlsioMbedtlsSend sslWrite buffer cb io).2

/-- The stream is the packets whose send returned 0, whole and in order. -/
theorem sends_stream (calls : List (SslWrite κ × List UInt8 × Option κ)) (hw : ∀ c ∈ calls, Writes F c.1) (io : TlsSender κ)
    (hu : AllUndivided calls io) : (sends calls io).2.accepted =
      io.accepted ++ (((sends calls io).1.zip calls).filter (·.1 = 0)).flatMap (·.2.2.1) := by
  induction calls generalizing io with
  | nil => simp [sends]
  | cons c rest ih =>
    obtain ⟨sslWrite, buffer, cb⟩ := c
    have hone := Undivided.allOrNothing (hw _ List.mem_cons_self) hu.1
    have hrest := ih (fun c hc => hw c (List.mem_cons_of_mem _ hc)) _ hu.2
    simp only [sends, List.zip_cons_cons]
    rw [hrest]
    by_cases hz : (tlsioMbedtlsSend sslWrite buffer cb io).1 = 0
    · rw [hone.all hz, List.filter_cons_of_pos (by simpa using hz), List.flatMap_cons, List.append_assoc]
    · rw [hone.nothing hz, List.filter_cons_of_neg (by simpa using hz)]

end UMqtt.Io.TlsSend

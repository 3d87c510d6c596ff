/-
  UMqtt.Io.TlsRead — what `tlsio_mbedtls_dowork` does with the results of `mbedtls_ssl_read`.

  The read loop hands on what is positive and ends at the first result that is not, whatever it
  is: only the underlying socket, the encrypted writes and a `realloc` that fails report an
  error. What they do, and what the owner's callbacks do, while mbedtls reads and while
  `on_bytes_received` runs is a list of `Doing`s. A read that never returns has no place in a
  run, and nothing opens the transport again. Both callbacks are set.

  Proved (`doworks_reported_iff`): over the calls on an open instance, the first fatal read is
  reported once and is the last one exactly when, from that read to the end of its call, one thing
  goes wrong: a socket error, a `realloc` that fails or a send that does (`FailsOnce`).
-/

import UMqtt.Io.TlsIo

namespace UMqtt.Io.TlsRead

open UMqtt.Lib UMqtt.Crt

/-! ## What happens under a call -/

inductive Doing where
  | socket (o : Outcome)
  | taken (n : Nat)
  | sendFails (ownerCloses : Bool)
  | closes
  deriving DecidableEq, Repr

/-- `taken` is what `on_io_recv` copies out, `sendFails` a failed `xio_send` in `on_io_send`. -/
def Doing.apply (d : Doing) (io : TlsIoInstance) : TlsIoInstance :=
  match d with
  | .socket o => deliver o io
  | .taken n => { io with socketIoReadBytes := io.socketIoReadBytes.drop n }
  | .sendFails ownerCloses => owner ownerCloses { io with tlsioState := .error }
  | .closes => (tlsioMbedtlsClose io).2

/-- The doing calls `on_io_error`. -/
def Doing.indicates (d : Doing) (io : TlsIoInstance) : Bool :=
  match d with
  | .socket (.error _) => io.tlsioState = .opened
  | .socket (.bytes _ _ reallocs _) => io.socketIo && !reallocs
  | .socket (.sent _) => false
  | .taken _ => false
  | .sendFails _ => true
  | .closes => false

def afterAll (ds : List Doing) (io : TlsIoInstance) : TlsIoInstance := ds.foldl (fun io d => d.apply io) io

def reports : List Doing → TlsIoInstance → Nat
  | [], _ => 0
  | d :: ds, io => (if d.indicates io then 1 else 0) + reports ds (d.apply io)

/-! ## tlsio_mbedtls_dowork -/

/-- A read is recorded when it is called, with the state that it is called in. -/
inductive TlsEvent where
  | read (state : TlsioState) (result : Int) (buffer : List UInt8)
  | received (buffer : List UInt8)
  | ioError
  deriving DecidableEq, Repr

structure Reader where
  io : TlsIoInstance
  trace : List TlsEvent
  deriving DecidableEq, Repr

/-- A read that fills some of the 64 bytes, and what `on_bytes_received` does with them. -/
structure SslRead where
  during : List Doing
  buffer : List UInt8
  positive : 0 < buffer.length
  fits : buffer.length ≤ 64
  callback : List Doing
  deriving DecidableEq, Repr

/-- The read that ends the loop. -/
structure LastRead where
  during : List Doing
  result : Int
  notPositive : result ≤ 0
  deriving DecidableEq, Repr

/-- What one call meets, the `xio_dowork` on the socket after the reads included. -/
structure Dowork where
  reads : List SslRead
  last : LastRead
  socket : List Outcome
  deriving DecidableEq, Repr

def Reader.log (e : TlsEvent) (w : Reader) : Reader := { w with trace := w.trace ++ [e] }

def act (w : Reader) (d : Doing) : Reader :=
  ⟨d.apply w.io, w.trace ++ if d.indicates w.io then [.ioError] else []⟩

def acts (ds : List Doing) (w : Reader) : Reader := ds.foldl act w

/-- The loop; the result of the function is always 0. -/
def decodeSslReceivedBytes : List SslRead → LastRead → Reader → Reader
  | [], last, w => acts last.during (w.log (.read w.io.tlsioState last.result []))
  | r :: reads, last, w =>
    let w := acts r.during (w.log (.read w.io.tlsioState r.buffer.length r.buffer))
    let w := acts r.callback (w.log (.received r.buffer))
    decodeSslReceivedBytes reads last w

def tlsioMbedtlsDowork (c : Dowork) (w : Reader) : Reader :=
  if w.io.tlsioState ≠ .notOpen ∧ w.io.tlsioState ≠ .error then
    acts (c.socket.map .socket) (decodeSslReceivedBytes c.reads c.last w)
  else w

def doworks (calls : List Dowork) (w : Reader) : Reader := calls.foldl (fun w c => tlsioMbedtlsDowork c w) w

/-! ## What is reported -/

def mbedtlsErrSslWantWrite : Int := -0x6880

def Fatal (result : Int) : Prop := result ≤ 0 ∧ result ≠ mbedtlsErrSslWantRead ∧ result ≠ mbedtlsErrSslWantWrite

instance (result : Int) : Decidable (Fatal result) := by unfold Fatal; infer_instance

/-- A fatal result of a read that an open instance calls. -/
def TlsEvent.isFatal : TlsEvent → Bool
  | .read state result _ => state = .opened ∧ Fatal result
  | .received _ | .ioError => false

def TlsEvent.positive : TlsEvent → Option (List UInt8)
  | .read _ result buffer => if 0 < result then some buffer else none
  | .received _ | .ioError => none

def TlsEvent.handedOn : TlsEvent → Option (List UInt8)
  | .received buffer => some buffer
  | .read .. | .ioError => none

/-- After the first fatal read there is one error and nothing else, and the instance is not open. -/
structure Reported (w : Reader) : Prop where
  delivered : w.trace.filterMap TlsEvent.handedOn = w.trace.filterMap TlsEvent.positive
  once : ∀ e after, w.trace.dropWhile (fun e => !e.isFatal) = e :: after → after = [.ioError] ∧ w.io.tlsioState ≠ .opened

/-- What happens from the last read to the end of the call. -/
def Dowork.ending (c : Dowork) : List Doing := c.last.during ++ c.socket.map .socket

def Dowork.early (c : Dowork) : List Doing := c.reads.flatMap fun r => r.during ++ r.callback

/-! ## What goes wrong -/

def Doing.fails : Doing → Bool
  | .socket (.error _) | .sendFails _ => true
  | .socket (.bytes _ _ reallocs _) => !reallocs
  | .socket (.sent _) | .taken _ | .closes => false

/-- The owner closes, from the callback that this leads to or by itself. -/
def Doing.closing : Doing → Bool
  | .socket (.error ownerCloses) | .socket (.sent ownerCloses) | .sendFails ownerCloses => ownerCloses
  | .socket (.bytes _ _ reallocs ownerCloses) => !reallocs && ownerCloses
  | .taken _ => false
  | .closes => true

def Doing.sendFailing : Doing → Bool
  | .sendFails _ => true
  | .socket _ | .taken _ | .closes => false

/-- Nothing fails, and nobody closes. -/
def Undisturbed (ds : List Doing) : Prop := ∀ d ∈ ds, d.fails = false ∧ d.closing = false

/-- Behind a failure on a socket that is still there: a socket error is passed over, whoever
    would have closed for it. Behind a close only a send can fail. -/
def NoFurther : List Doing → Prop
  | [] => True
  | .socket (.error _) :: ds => NoFurther ds
  | d :: ds => d.fails = false ∧ if d.closing then ds.countP Doing.sendFailing = 0 else NoFurther ds

/-- Exactly one thing goes wrong, as far as an open instance hears of it. -/
def FailsOnce : List Doing → Prop
  | [] => False
  | d :: ds =>
    if d.fails then if d.closing then ds.countP Doing.sendFailing = 0 else NoFurther ds
    else if d.closing then ds.countP Doing.sendFailing = 1
    else FailsOnce ds

/-- If the first fatal read is called by an instance that is still open, then exactly one thing
    goes wrong from it to the end of its call. -/
def FatalReported : List Dowork → Prop
  | [] => True
  | c :: calls => Undisturbed c.early →
    if Fatal c.last.result then FailsOnce c.ending else Undisturbed c.ending → FatalReported calls

variable {w : Reader} {io : TlsIoInstance} {c : Dowork}

/-! ## Doings -/

def beforeLast (reads : List SslRead) (io : TlsIoInstance) : TlsIoInstance :=
  afterAll (reads.flatMap fun r => r.during ++ r.callback) io

theorem afterAll_append (ds es : List Doing) (io : TlsIoInstance) : afterAll (ds ++ es) io = afterAll es (afterAll ds io) :=
  List.foldl_append

theorem acts_eq (ds : List Doing) (w : Reader) :
    acts ds w = ⟨afterAll ds w.io, w.trace ++ List.replicate (reports ds w.io) .ioError⟩ := by
  induction ds generalizing w with
  | nil => simp [acts, afterAll, reports]
  | cons d ds ih =>
    have hcons : acts (d :: ds) w = acts ds (act w d) := rfl
    rw [hcons, ih]
    simp only [act, reports, afterAll, List.foldl_cons, List.append_assoc]
    by_cases h : d.indicates w.io
    · simp only [h, if_true, List.singleton_append, Nat.add_comm 1, List.replicate_succ]
    · simp only [h, Bool.false_eq_true, if_false, List.nil_append, Nat.zero_add]

@[simp] theorem log_io (e : TlsEvent) (w : Reader) : (w.log e).io = w.io := rfl
@[simp] theorem log_trace (e : TlsEvent) (w : Reader) : (w.log e).trace = w.trace ++ [e] := rfl
@[simp] theorem acts_io (ds : List Doing) (w : Reader) : (acts ds w).io = afterAll ds w.io := by rw [acts_eq]

theorem afterAll_socket (os : List Outcome) (io : TlsIoInstance) : afterAll (os.map .socket) io = xioDowork os io := by
  rw [afterAll, xioDowork, List.foldl_map]
  rfl

/-- `on_io_recv` is such a list: what its calls of `xio_dowork` bring, and what it takes. -/
theorem onIoRecv_doings {works : Nat → List Outcome} {sz fuel : Nat} {r : Int × List UInt8 × TlsIoInstance}
    (h : onIoRecv works sz fuel io = some r) : ∃ ds, r.2.2 = afterAll ds io := by
  rw [onIoRecv, Option.map_eq_some_iff] at h
  obtain ⟨io', hloop, htake⟩ := h
  obtain ⟨n, hn⟩ := whileBreak_rounds _ _ _ hloop
  rw [rounds_xioDowork] at hn
  refine ⟨((List.range n).flatMap works).map .socket ++ [.taken (Int.bmod (min io'.socketIoReadBytes.length sz) (2 ^ 32)).toNat], ?_⟩
  rw [afterAll_append, afterAll_socket, ← hn, ← htake]
  rfl

/-! ## An instance that has left OPEN -/

/-- The states that an instance which was open can be in. -/
def Settled (io : TlsIoInstance) : Prop := io.tlsioState = .opened ∨ io.tlsioState = .notOpen ∨ io.tlsioState = .error

theorem owner_settled {closes : Bool} (h : Settled io) : Settled (owner closes io) := by
  cases closes with
  | false => exact h
  | true =>
    rcases h with h | h | h
    · rw [owner_true (by simp [h]) (by simp [h])]
      exact Or.inr (Or.inl rfl)
    · right; left
      simp [owner, tlsioMbedtlsClose, h]
    · rw [owner_true (by simp [h]) (by simp [h])]
      exact Or.inr (Or.inl rfl)

theorem owner_left {closes : Bool} (h : io.tlsioState ≠ .opened) : (owner closes io).tlsioState ≠ .opened := by
  unfold owner tlsioMbedtlsClose
  split
  · split
    · exact h
    · simp
  · exact h

theorem apply_settled (d : Doing) (h : Settled io) : Settled (d.apply io) := by
  have herror : ∀ closes, Settled (owner closes { io with tlsioState := .error }) := fun _ => owner_settled (Or.inr (Or.inr rfl))
  cases d with
  | taken n => exact h
  | sendFails closes => exact herror closes
  | closes =>
    have howner : Settled (owner true io) := owner_settled h
    exact howner
  | socket o =>
    cases o with
    | sent closes => exact owner_settled h
    | bytes first rest reallocs closes =>
      simp only [Doing.apply, deliver, onUnderlyingIoBytesReceived]
      split
      · split
        · exact h
        · exact herror closes
      · exact h
    | error closes =>
      rcases h with h | h | h
      · simpa only [Doing.apply, deliver, onUnderlyingIoError, h] using herror closes
      · simp only [Doing.apply, deliver, onUnderlyingIoError, h]
        exact Or.inr (Or.inl h)
      · simp only [Doing.apply, deliver, onUnderlyingIoError, h]
        exact Or.inr (Or.inr h)

/-- Nothing leads back to OPEN, and a report leads out of it. -/
theorem apply_left (d : Doing) (h : Settled io) (hd : io.tlsioState ≠ .opened ∨ d.indicates io = true) :
    (d.apply io).tlsioState ≠ .opened := by
  have herror : ∀ closes, (owner closes { io with tlsioState := .error }).tlsioState ≠ .opened := fun _ => owner_left (by simp)
  cases d with
  | taken n => rcases hd with hd | hd <;> first | exact hd | cases hd
  | sendFails closes => exact herror closes
  | closes =>
    rcases hd with hd | hd
    · have howner : (owner true io).tlsioState ≠ .opened := owner_left hd
      exact howner
    · cases hd
  | socket o =>
    cases o with
    | sent closes => rcases hd with hd | hd <;> first | exact owner_left hd | cases hd
    | bytes first rest reallocs closes =>
      simp only [Doing.apply, deliver, onUnderlyingIoBytesReceived]
      simp only [Doing.indicates, Bool.and_eq_true, Bool.not_eq_true'] at hd
      split
      · split
        · rcases hd with hd | hd
          · exact hd
          · simp_all
        · exact herror closes
      · rcases hd with hd | hd
        · exact hd
        · exact absurd hd.1 ‹_›
    | error closes =>
      rcases h with h | h | h
      · simpa only [Doing.apply, deliver, onUnderlyingIoError, h] using herror closes
      · simp only [Doing.apply, deliver, onUnderlyingIoError, h]
        simp
      · simp only [Doing.apply, deliver, onUnderlyingIoError, h]
        simp

theorem afterAll_settled (ds : List Doing) (h : Settled io) : Settled (afterAll ds io) := by
  induction ds generalizing io with
  | nil => exact h
  | cons d ds ih => exact ih (apply_settled d h)

theorem afterAll_left (ds : List Doing) (h : Settled io) (hd : io.tlsioState ≠ .opened ∨ 0 < reports ds io) :
    (afterAll ds io).tlsioState ≠ .opened := by
  induction ds generalizing io with
  | nil =>
    rcases hd with hd | hd
    · exact hd
    · exact absurd hd (Nat.lt_irrefl 0)
  | cons d ds ih =>
    apply ih (apply_settled d h)
    by_cases hi : d.indicates io = true
    · exact Or.inl (apply_left d h (Or.inr hi))
    · rcases hd with hd | hd
      · exact Or.inl (apply_left d h (Or.inl hd))
      · right
        simpa [reports, hi] using hd

/-! ## One call -/

theorem reports_append (ds es : List Doing) (io : TlsIoInstance) :
    reports (ds ++ es) io = reports ds io + reports es (afterAll ds io) := by
  induction ds generalizing io with
  | nil => simp [reports, afterAll]
  | cons d ds ih =>
    simp only [List.cons_append, reports, ih, afterAll, List.foldl_cons]
    omega

theorem decode_io (reads : List SslRead) (last : LastRead) (w : Reader) :
    (decodeSslReceivedBytes reads last w).io = afterAll last.during (beforeLast reads w.io) := by
  induction reads generalizing w with
  | nil => simp only [decodeSslReceivedBytes, acts_io, log_io]; rfl
  | cons r reads ih =>
    simp only [decodeSslReceivedBytes]
    rw [ih]
    simp only [acts_io, log_io, beforeLast, List.flatMap_cons, afterAll_append]

def NoFatal (trace : List TlsEvent) : Prop := ∀ e ∈ trace, e.isFatal = false

theorem noFatal_append {xs ys : List TlsEvent} : NoFatal (xs ++ ys) ↔ NoFatal xs ∧ NoFatal ys := List.forall_mem_append

theorem noFatal_replicate (n : Nat) : NoFatal (List.replicate n .ioError) := by
  intro e he
  rw [List.eq_of_mem_replicate he]
  rfl

theorem positive_noFatal (r : SslRead) (state : TlsioState) : NoFatal [.read state r.buffer.length r.buffer] := by
  intro e he
  have hpos := r.positive
  rw [List.mem_singleton] at he
  subst he
  refine decide_eq_false fun h => ?_
  have hle := h.2.1
  omega

/-- The last read is the only one that can be fatal. -/
theorem decode_trace (reads : List SslRead) (last : LastRead) (w : Reader) : ∃ es, NoFatal es ∧
    (decodeSslReceivedBytes reads last w).trace = w.trace ++ es ++ TlsEvent.read (beforeLast reads w.io).tlsioState last.result [] ::
      List.replicate (reports last.during (beforeLast reads w.io)) .ioError := by
  induction reads generalizing w with
  | nil =>
    refine ⟨[], fun e he => absurd he List.not_mem_nil, ?_⟩
    simp [decodeSslReceivedBytes, acts_eq, beforeLast, afterAll]
  | cons r reads ih =>
    obtain ⟨es, hes, htrace⟩ := ih (acts r.callback ((acts r.during (w.log (.read w.io.tlsioState r.buffer.length r.buffer))).log
      (.received r.buffer)))
    refine ⟨[.read w.io.tlsioState r.buffer.length r.buffer] ++ (List.replicate (reports r.during w.io) .ioError ++
      ([.received r.buffer] ++ (List.replicate (reports r.callback (afterAll r.during w.io)) .ioError ++ es))), ?_, ?_⟩
    · rw [noFatal_append, noFatal_append, noFatal_append, noFatal_append]
      refine ⟨positive_noFatal r _, noFatal_replicate _, ?_, noFatal_replicate _, hes⟩
      intro e he
      rw [List.mem_singleton.mp he]
      rfl
    · simp only [decodeSslReceivedBytes]
      rw [htrace]
      simp only [acts_eq, log_io, log_trace, beforeLast, List.flatMap_cons, afterAll_append, List.append_assoc]

/-- A call that is made. -/
theorem dowork_trace (h : io.tlsioState = .opened) (c : Dowork) (trace : List TlsEvent) : ∃ es, NoFatal es ∧
    (tlsioMbedtlsDowork c ⟨io, trace⟩).trace = trace ++ es ++ TlsEvent.read (beforeLast c.reads io).tlsioState c.last.result [] ::
      List.replicate (reports c.ending (beforeLast c.reads io)) .ioError := by
  obtain ⟨es, hes, htrace⟩ := decode_trace c.reads c.last ⟨io, trace⟩
  refine ⟨es, hes, ?_⟩
  rw [tlsioMbedtlsDowork, if_pos (by simp [h]), acts_eq]
  simp only [htrace, decode_io, Dowork.ending, reports_append, List.append_assoc, List.cons_append, List.replicate_append_replicate]

theorem dowork_io (h : io.tlsioState = .opened) (c : Dowork) (trace : List TlsEvent) :
    (tlsioMbedtlsDowork c ⟨io, trace⟩).io = afterAll c.ending (beforeLast c.reads io) := by
  rw [tlsioMbedtlsDowork, if_pos (by simp [h]), acts_io, decode_io, Dowork.ending, afterAll_append]

theorem settled_left (h : Settled io) (ho : io.tlsioState ≠ .opened) :
    ¬ (io.tlsioState ≠ .notOpen ∧ io.tlsioState ≠ .error) := by
  rcases h with h | h | h
  · exact absurd h ho
  · exact fun hn => hn.1 h
  · exact fun hn => hn.2 h

/-- Nothing happens to an instance that has left OPEN. -/
theorem doworks_left (h : Settled w.io) (ho : w.io.tlsioState ≠ .opened) (calls : List Dowork) : doworks calls w = w := by
  induction calls with
  | nil => rfl
  | cons c calls ih =>
    have hc : tlsioMbedtlsDowork c w = w := if_neg (settled_left h ho)
    rw [doworks, List.foldl_cons, hc]
    exact ih

theorem doworks_cons (c : Dowork) (calls : List Dowork) (w : Reader) :
    doworks (c :: calls) w = doworks calls (tlsioMbedtlsDowork c w) := rfl

/-- The trace only grows. -/
theorem doworks_grows (calls : List Dowork) (h : Settled w.io) : ∃ es, (doworks calls w).trace = w.trace ++ es := by
  induction calls generalizing w with
  | nil => exact ⟨[], (List.append_nil _).symm⟩
  | cons c calls ih =>
    rcases w with ⟨io, trace⟩
    by_cases ho : io.tlsioState = .opened
    · obtain ⟨es, -, htrace⟩ := dowork_trace ho c trace
      have hs : Settled (tlsioMbedtlsDowork c ⟨io, trace⟩).io := by
        rw [dowork_io ho]
        exact afterAll_settled _ (afterAll_settled _ h)
      obtain ⟨fs, hfs⟩ := ih hs
      rw [doworks_cons, hfs, htrace, List.append_assoc, List.append_assoc]
      exact ⟨_, rfl⟩
    · exact ⟨[], by rw [doworks_left h ho, List.append_nil]⟩

/-! ## Delivery -/

/-- The positive results so far have all been handed on. -/
def Delivered (trace : List TlsEvent) : Prop := trace.filterMap TlsEvent.handedOn = trace.filterMap TlsEvent.positive

theorem delivered_append {xs ys : List TlsEvent} (hx : Delivered xs) (hy : Delivered ys) : Delivered (xs ++ ys) := by
  unfold Delivered
  rw [List.filterMap_append, List.filterMap_append, hx, hy]

theorem delivered_replicate (n : Nat) : Delivered (List.replicate n .ioError) := by
  induction n with
  | zero => rfl
  | succ n ih => rw [Delivered, List.replicate_succ]; exact ih

theorem acts_delivered (ds : List Doing) (h : Delivered w.trace) : Delivered (acts ds w).trace := by
  rw [acts_eq]
  exact delivered_append h (delivered_replicate _)

theorem last_delivered (state : TlsioState) (last : LastRead) : Delivered [.read state last.result []] := by
  have hpos : ¬ 0 < last.result := not_lt.mpr last.notPositive
  simp only [Delivered, List.filterMap_cons, List.filterMap_nil, TlsEvent.handedOn, TlsEvent.positive, if_neg hpos]

/-- Between a positive read and its delivery there are only errors. -/
theorem read_delivered (state : TlsioState) (r : SslRead) (n : Nat) :
    Delivered (.read state r.buffer.length r.buffer :: (List.replicate n .ioError ++ [.received r.buffer])) := by
  have hpos : (0 : Int) < r.buffer.length := by exact_mod_cast r.positive
  have herrors : ∀ f : TlsEvent → Option (List UInt8), f .ioError = none →
      (List.replicate n TlsEvent.ioError).filterMap f = [] := fun f hf => List.filterMap_replicate_of_none hf
  simp only [Delivered, List.filterMap_cons, List.filterMap_append, List.filterMap_nil, TlsEvent.handedOn, TlsEvent.positive,
    if_pos hpos, herrors TlsEvent.handedOn rfl, herrors TlsEvent.positive rfl, List.nil_append]

theorem decode_delivered (reads : List SslRead) (last : LastRead) (h : Delivered w.trace) :
    Delivered (decodeSslReceivedBytes reads last w).trace := by
  induction reads generalizing w with
  | nil =>
    apply acts_delivered
    exact delivered_append h (last_delivered _ last)
  | cons r reads ih =>
    apply ih
    apply acts_delivered
    have hread := delivered_append h (read_delivered w.io.tlsioState r (reports r.during w.io))
    simpa only [acts_eq, log_trace, log_io, List.append_assoc, List.cons_append, List.nil_append] using hread

theorem doworks_delivered (calls : List Dowork) (h : Delivered w.trace) : Delivered (doworks calls w).trace := by
  induction calls generalizing w with
  | nil => exact h
  | cons c calls ih =>
    apply ih
    simp only [tlsioMbedtlsDowork]
    split
    · exact acts_delivered _ (decode_delivered _ _ h)
    · exact h

/-! ## The first fatal read -/

/-- What follows the first fatal read, when there is one. -/
def Once (w : Reader) : Prop := ∀ e after, w.trace.dropWhile (fun e => !e.isFatal) = e :: after →
  after = [.ioError] ∧ w.io.tlsioState ≠ .opened

theorem once_noFatal (h : NoFatal w.trace) : Once w := by
  intro e after he
  have hnil : w.trace.dropWhile (fun e => !e.isFatal) = [] :=
    List.dropWhile_eq_nil_iff.mpr fun f hf => by simp [h f hf]
  rw [hnil] at he
  cases he

theorem once_fatal {trace after : List TlsEvent} {e : TlsEvent} (h : NoFatal trace) (he : e.isFatal = true)
    (hw : w.trace = trace ++ e :: after) : Once w ↔ after = [.ioError] ∧ w.io.tlsioState ≠ .opened := by
  have hdrop : w.trace.dropWhile (fun e => !e.isFatal) = e :: after := by
    rw [hw, List.dropWhile_append_of_pos fun f hf => by simp [h f hf], List.dropWhile_cons_of_neg (by simp [he])]
  refine ⟨fun hone => hone e after hdrop, fun hafter f fs hf => ?_⟩
  rw [hdrop] at hf
  cases hf
  exact hafter

/-- The call with the first fatal read, and the calls after it. -/
theorem fatal_once (h : Settled io) (ho : io.tlsioState = .opened) {trace : List TlsEvent} (ht : NoFatal trace)
    (hb : (beforeLast c.reads io).tlsioState = .opened) (hf : Fatal c.last.result) (calls : List Dowork) :
    Once (doworks (c :: calls) ⟨io, trace⟩) ↔ reports c.ending (beforeLast c.reads io) = 1 := by
  obtain ⟨es, hes, htrace⟩ := dowork_trace ho c trace
  have hio := dowork_io ho c trace
  have hsb : Settled (beforeLast c.reads io) := afterAll_settled _ h
  have hs : Settled (tlsioMbedtlsDowork c ⟨io, trace⟩).io := by
    rw [hio]
    exact afterAll_settled _ hsb
  have hfatal : (TlsEvent.read (beforeLast c.reads io).tlsioState c.last.result []).isFatal = true := decide_eq_true ⟨hb, hf⟩
  have hno := noFatal_append.mpr ⟨ht, hes⟩
  rw [doworks_cons]
  by_cases hleft : (tlsioMbedtlsDowork c ⟨io, trace⟩).io.tlsioState = .opened
  · -- nothing has been reported, and the next call reads again
    have hzero : reports c.ending (beforeLast c.reads io) = 0 := by
      by_contra hne
      exact afterAll_left c.ending hsb (Or.inr (Nat.pos_of_ne_zero hne)) (hio ▸ hleft)
    rw [hzero, List.replicate_zero] at htrace
    rw [hzero]
    refine ⟨fun hone => ?_, fun hone => absurd hone (by decide)⟩
    cases calls with
    | nil => exact absurd hleft ((once_fatal hno hfatal htrace).mp hone).2
    | cons c' calls =>
      obtain ⟨es', -, htrace'⟩ := dowork_trace hleft c' (tlsioMbedtlsDowork c ⟨io, trace⟩).trace
      have hs' : Settled (tlsioMbedtlsDowork c' (tlsioMbedtlsDowork c ⟨io, trace⟩)).io := by
        rw [dowork_io hleft]
        exact afterAll_settled _ (afterAll_settled _ hs)
      obtain ⟨fs, hfs⟩ := doworks_grows calls hs'
      rw [htrace', htrace, ← doworks_cons] at hfs
      simp only [List.append_assoc, List.cons_append, List.nil_append] at hfs
      rw [← List.append_assoc] at hfs
      have hafter := ((once_fatal hno hfatal hfs).mp hone).1
      have hmem : TlsEvent.read (beforeLast c'.reads (tlsioMbedtlsDowork c ⟨io, trace⟩).io).tlsioState c'.last.result [] ∈
          [TlsEvent.ioError] := by
        rw [← hafter]
        exact List.mem_append_right _ List.mem_cons_self
      cases List.mem_singleton.mp hmem
  · rw [doworks_left hs hleft, once_fatal hno hfatal htrace]
    refine ⟨fun hone => ?_, fun hone => ⟨by rw [hone]; rfl, hleft⟩⟩
    have hlen := congrArg List.length hone.1
    rwa [List.length_replicate] at hlen

/-! ## What an open instance hears -/

def opened (buffered : List UInt8) : TlsIoInstance := ⟨.opened, buffered, true⟩

/-- An open instance stays open if nothing fails and nobody closes. -/
theorem opened_calm {d : Doing} (hf : d.fails = false) (hc : d.closing = false) (buffered : List UInt8) :
    d.indicates (opened buffered) = false ∧ ∃ buffered', d.apply (opened buffered) = opened buffered' := by
  cases d with
  | taken n => exact ⟨rfl, _, rfl⟩
  | sendFails closes => cases hf
  | closes => cases hc
  | socket o =>
    cases o with
    | error closes => cases hf
    | sent closes =>
      rw [show closes = false from hc]
      exact ⟨rfl, _, rfl⟩
    | bytes first rest reallocs closes =>
      rw [show reallocs = true by simpa [Doing.fails] using hf]
      exact ⟨rfl, _, rfl⟩

/-- A close takes the socket with it. -/
theorem opened_closed {d : Doing} (hf : d.fails = false) (hc : d.closing = true) (buffered : List UInt8) :
    d.indicates (opened buffered) = false ∧ d.apply (opened buffered) = ⟨.notOpen, buffered, false⟩ := by
  cases d with
  | taken n => cases hc
  | sendFails closes => cases hf
  | closes => exact ⟨rfl, rfl⟩
  | socket o =>
    cases o with
    | error closes => cases hf
    | sent closes =>
      rw [show closes = true from hc]
      exact ⟨rfl, rfl⟩
    | bytes first rest reallocs closes =>
      rw [show reallocs = true by simpa [Doing.fails] using hf] at hc
      cases hc

/-- Every failure on an open instance is reported. -/
theorem opened_fails {d : Doing} (hf : d.fails = true) (buffered : List UInt8) :
    d.indicates (opened buffered) = true ∧
      d.apply (opened buffered) = if d.closing then ⟨.notOpen, buffered, false⟩ else ⟨.error, buffered, true⟩ := by
  cases d with
  | taken n => cases hf
  | closes => cases hf
  | sendFails closes => cases closes <;> exact ⟨rfl, rfl⟩
  | socket o =>
    cases o with
    | sent closes => cases hf
    | error closes => cases closes <;> exact ⟨rfl, rfl⟩
    | bytes first rest reallocs closes =>
      rw [show reallocs = false by simpa [Doing.fails] using hf]
      cases closes <;> exact ⟨rfl, rfl⟩

theorem afterAll_opened (ds : List Doing) (buffered : List UInt8) :
    (Undisturbed ds → ∃ buffered', afterAll ds (opened buffered) = opened buffered') ∧
      (¬ Undisturbed ds → (afterAll ds (opened buffered)).tlsioState ≠ .opened) := by
  induction ds generalizing buffered with
  | nil => exact ⟨fun _ => ⟨buffered, rfl⟩, fun h => absurd (fun d hd => absurd hd List.not_mem_nil) h⟩
  | cons d ds ih =>
    have hcons : afterAll (d :: ds) (opened buffered) = afterAll ds (d.apply (opened buffered)) := rfl
    have hopen : Settled (opened buffered) := Or.inl rfl
    rw [hcons]
    by_cases hd : d.fails = false ∧ d.closing = false
    · obtain ⟨-, buffered', happly⟩ := opened_calm hd.1 hd.2 buffered
      rw [happly]
      refine ⟨fun h => (ih buffered').1 fun e he => h e (List.mem_cons_of_mem _ he), fun h => (ih buffered').2 fun h' => h ?_⟩
      exact List.forall_mem_cons.mpr ⟨hd, h'⟩
    · refine ⟨fun h => absurd (h d List.mem_cons_self) hd, fun _ => ?_⟩
      refine afterAll_left ds (apply_settled d hopen) (Or.inl ?_)
      by_cases hf : d.fails = true
      · rw [(opened_fails hf buffered).2]
        split <;> simp
      · have hf : d.fails = false := Bool.eq_false_iff.mpr hf
        have hc : d.closing = true := by
          by_contra hc
          exact hd ⟨hf, Bool.eq_false_iff.mpr hc⟩
        rw [(opened_closed hf hc buffered).2]
        simp

/-- Without its socket an instance only hears of sends that fail. -/
theorem apply_closed (d : Doing) (hs : io.socketIo = false) (ho : io.tlsioState = .notOpen ∨ io.tlsioState = .error) :
    d.indicates io = d.sendFailing ∧ (d.apply io).socketIo = false ∧
      ((d.apply io).tlsioState = .notOpen ∨ (d.apply io).tlsioState = .error) := by
  rcases io with ⟨state, buffered, socketIo⟩
  obtain rfl : socketIo = false := hs
  have howner : ∀ closes state, state = .notOpen ∨ state = .error →
      (owner closes ⟨state, buffered, false⟩).socketIo = false ∧
        ((owner closes ⟨state, buffered, false⟩).tlsioState = .notOpen ∨
          (owner closes ⟨state, buffered, false⟩).tlsioState = .error) := by
    rintro (_ | _) state (rfl | rfl) <;> simp [owner, tlsioMbedtlsClose]
  cases d with
  | taken n => exact ⟨rfl, rfl, ho⟩
  | sendFails closes => exact ⟨rfl, howner closes .error (Or.inr rfl)⟩
  | closes => exact ⟨rfl, howner true state ho⟩
  | socket o =>
    cases o with
    | sent closes => exact ⟨rfl, howner closes state ho⟩
    | bytes first rest reallocs closes => exact ⟨rfl, rfl, ho⟩
    | error closes =>
      rcases ho with rfl | rfl
      · exact ⟨rfl, rfl, Or.inl rfl⟩
      · exact ⟨rfl, rfl, Or.inr rfl⟩

theorem reports_closed (ds : List Doing) (hs : io.socketIo = false) (ho : io.tlsioState = .notOpen ∨ io.tlsioState = .error) :
    reports ds io = ds.countP Doing.sendFailing := by
  induction ds generalizing io with
  | nil => rfl
  | cons d ds ih =>
    obtain ⟨hone, hs', ho'⟩ := apply_closed d hs ho
    rw [reports, hone, ih hs' ho', List.countP_cons, Nat.add_comm]

/-- Behind a failure everything is reported but socket errors. -/
theorem reports_failed (ds : List Doing) (buffered : List UInt8) : reports ds ⟨.error, buffered, true⟩ = 0 ↔ NoFurther ds := by
  induction ds generalizing buffered with
  | nil => exact ⟨fun _ => trivial, fun _ => rfl⟩
  | cons d ds ih =>
    have hclosed : ∀ buffered, reports ds ⟨.notOpen, buffered, false⟩ = ds.countP Doing.sendFailing :=
      fun _ => reports_closed ds rfl (Or.inl rfl)
    cases d with
    | taken n => simpa [reports, Doing.indicates, Doing.apply, NoFurther, Doing.fails, Doing.closing] using ih _
    | sendFails closes => simp [reports, Doing.indicates, NoFurther, Doing.fails]
    | closes =>
      simp [reports, Doing.indicates, Doing.apply, tlsioMbedtlsClose, NoFurther, Doing.fails, Doing.closing, hclosed]
    | socket o =>
      cases o with
      | error closes => simpa [reports, Doing.indicates, Doing.apply, deliver, onUnderlyingIoError, NoFurther] using ih buffered
      | sent closes =>
        cases closes with
        | false =>
          simpa [reports, Doing.indicates, Doing.apply, deliver, owner, NoFurther, Doing.fails, Doing.closing] using ih buffered
        | true =>
          simp [reports, Doing.indicates, Doing.apply, deliver, owner, tlsioMbedtlsClose, NoFurther, Doing.fails,
            Doing.closing, hclosed]
      | bytes first rest reallocs closes =>
        cases reallocs with
        | false => simp [reports, Doing.indicates, NoFurther, Doing.fails]
        | true =>
          simpa [reports, Doing.indicates, Doing.apply, deliver, onUnderlyingIoBytesReceived, NoFurther, Doing.fails,
            Doing.closing] using ih _

/-- An open instance reports as often as something goes wrong. -/
theorem reports_opened (ds : List Doing) (buffered : List UInt8) : reports ds (opened buffered) = 1 ↔ FailsOnce ds := by
  induction ds generalizing buffered with
  | nil => simp [reports, FailsOnce]
  | cons d ds ih =>
    rw [reports, FailsOnce]
    by_cases hf : d.fails = true
    · obtain ⟨hone, happly⟩ := opened_fails hf buffered
      rw [hone, happly, if_pos rfl, if_pos hf, Nat.add_eq_left]
      split
      · rw [reports_closed ds rfl (Or.inl rfl)]
      · exact reports_failed ds buffered
    · have hf' : d.fails = false := Bool.eq_false_iff.mpr hf
      rw [if_neg hf]
      by_cases hc : d.closing = true
      · obtain ⟨hone, happly⟩ := opened_closed hf' hc buffered
        rw [hone, happly, if_pos hc, reports_closed ds rfl (Or.inl rfl)]
        simp
      · obtain ⟨hone, buffered', happly⟩ := opened_calm hf' (Bool.eq_false_iff.mpr hc) buffered
        rw [hone, happly, if_neg hc, ← ih buffered']
        simp

/-- Over any calls, the first fatal read is reported once and is the last one exactly when one
    thing goes wrong from it to the end of its call. -/
theorem once_iff (calls : List Dowork) (buffered : List UInt8) {trace : List TlsEvent} (ht : NoFatal trace) :
    Once (doworks calls ⟨opened buffered, trace⟩) ↔ FatalReported calls := by
  induction calls generalizing buffered trace with
  | nil => exact ⟨fun _ => trivial, fun _ => once_noFatal ht⟩
  | cons c calls ih =>
    have ho : (opened buffered).tlsioState = .opened := rfl
    have hs : Settled (tlsioMbedtlsDowork c ⟨opened buffered, trace⟩).io := by
      rw [dowork_io ho]
      exact afterAll_settled _ (afterAll_settled _ (Or.inl rfl))
    have hquiet : ¬ ((beforeLast c.reads (opened buffered)).tlsioState = .opened ∧ Fatal c.last.result) →
        NoFatal (tlsioMbedtlsDowork c ⟨opened buffered, trace⟩).trace := by
      intro hf
      obtain ⟨es, hes, htrace⟩ := dowork_trace ho c trace
      rw [htrace, ← List.singleton_append, noFatal_append, noFatal_append, noFatal_append]
      refine ⟨⟨ht, hes⟩, fun e he => ?_, noFatal_replicate _⟩
      rw [List.mem_singleton.mp he]
      exact decide_eq_false hf
    rw [FatalReported]
    by_cases he : Undisturbed c.early
    · obtain ⟨buffered', hb⟩ := (afterAll_opened c.early buffered).1 he
      have hlast : beforeLast c.reads (opened buffered) = opened buffered' := hb
      by_cases hf : Fatal c.last.result
      · rw [if_pos hf, fatal_once (Or.inl rfl) ho ht (by rw [hlast]; rfl) hf calls, hlast, reports_opened]
        exact ⟨fun h _ => h, fun h => h he⟩
      · have hno := hquiet fun h => hf h.2
        rw [if_neg hf, doworks_cons]
        by_cases hend : Undisturbed c.ending
        · obtain ⟨buffered'', hb'⟩ := (afterAll_opened c.ending buffered').1 hend
          have hio : (tlsioMbedtlsDowork c ⟨opened buffered, trace⟩).io = opened buffered'' := by
            rw [dowork_io ho, hlast, hb']
          have hih := ih buffered'' hno
          rw [← hio] at hih
          exact hih.trans ⟨fun h _ _ => h, fun h => h he hend⟩
        · have hleft : (tlsioMbedtlsDowork c ⟨opened buffered, trace⟩).io.tlsioState ≠ .opened := by
            rw [dowork_io ho, hlast]
            exact (afterAll_opened c.ending buffered').2 hend
          rw [doworks_left hs hleft]
          exact ⟨fun _ _ h => absurd h hend, fun _ => once_noFatal hno⟩
    · have hearly : (beforeLast c.reads (opened buffered)).tlsioState ≠ .opened := (afterAll_opened c.early buffered).2 he
      have hno := hquiet fun h => hearly h.1
      have hleft : (tlsioMbedtlsDowork c ⟨opened buffered, trace⟩).io.tlsioState ≠ .opened := by
        rw [dowork_io ho]
        exact afterAll_left _ (afterAll_settled _ (Or.inl rfl)) (Or.inl hearly)
      rw [doworks_cons, doworks_left hs hleft]
      exact ⟨fun _ h => absurd h he, fun _ => once_noFatal hno⟩

/-! ## Runs on an open instance -/

/-- Every positive result is handed on. The first fatal one is reported once, and nothing is read
    after it, exactly when one thing goes wrong from it to the end of its call. -/
theorem doworks_reported_iff (calls : List Dowork) (buffered : List UInt8) :
    Reported (doworks calls ⟨⟨.opened, buffered, true⟩, []⟩) ↔ FatalReported calls := by
  have hone : Once (doworks calls ⟨⟨.opened, buffered, true⟩, []⟩) ↔ FatalReported calls :=
    once_iff calls buffered fun e he => absurd he List.not_mem_nil
  rw [← hone]
  exact ⟨Reported.once, fun h => ⟨doworks_delivered calls rfl, h⟩⟩

def mbedtlsErrSslPeerCloseNotify : Int := -0x7880

def closeNotify : Dowork := ⟨[], ⟨[], mbedtlsErrSslPeerCloseNotify, by decide⟩, []⟩

/-- Nobody is told, and the next call reads again. -/
theorem closeNotify_unreported :
    doworks [closeNotify, closeNotify] ⟨⟨.opened, [], true⟩, []⟩ =
        ⟨⟨.opened, [], true⟩, [.read .opened mbedtlsErrSslPeerCloseNotify [], .read .opened mbedtlsErrSslPeerCloseNotify []]⟩ ∧
      ¬ Reported (doworks [closeNotify, closeNotify] ⟨⟨.opened, [], true⟩, []⟩) := by
  refine ⟨rfl, fun h => ?_⟩
  have hafter := (h.once (.read .opened mbedtlsErrSslPeerCloseNotify []) [.read .opened mbedtlsErrSslPeerCloseNotify []] rfl).1
  exact absurd hafter (by decide)

end UMqtt.Io.TlsRead

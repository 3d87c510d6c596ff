/-
  UMqtt.Io.Transmit — what a socket instance transmits.

  The buffers sent and not yet accepted whole are a queue, of which `pending_io_list`
  holds the part still to go: `Held`. Queueing a buffer, a partial `send()` and one that
  takes the rest each keep it (`Held.queue`, `Held.part`, `Held.whole`), and the direct
  send of `socketio_send` is a queueing followed by one of the others. The one path that
  is none of them is a direct send that would block: it reports success and queues
  nothing. So a run transmits what it was given exactly when none does (`transmitted_iff`).
-/

import UMqtt.Io.SocketIo

namespace UMqtt.Io

open UMqtt.Lib UMqtt.Crt

/-! ## Buffers and events -/

section Ledger

variable {κ : Type}

def accepted (events : List (SocketEvent κ)) : List UInt8 :=
  events.flatMap fun e => match e with | .accepted bytes => bytes | .complete _ => []

def completed (events : List (SocketEvent κ)) : List κ :=
  events.filterMap fun e => match e with | .accepted _ => none | .complete k => some k

def contents (sent : List (κ × List UInt8)) : List UInt8 := sent.flatMap Prod.snd

/-- The completions of the buffers that lie within the first `n` bytes. -/
def finished : List (κ × List UInt8) → Nat → List κ
  | [], _ => []
  | (k, buffer) :: sent, n => if buffer.length ≤ n then k :: finished sent (n - buffer.length) else []

@[simp] theorem accepted_append (e e' : List (SocketEvent κ)) : accepted (e ++ e') = accepted e ++ accepted e' :=
  List.flatMap_append

@[simp] theorem completed_append (e e' : List (SocketEvent κ)) : completed (e ++ e') = completed e ++ completed e' :=
  List.filterMap_append

@[simp] theorem contents_append (b b' : List (κ × List UInt8)) : contents (b ++ b') = contents b ++ contents b' :=
  List.flatMap_append

def Nonempty (sent : List (κ × List UInt8)) : Prop := ∀ x ∈ sent, x.2 ≠ []

theorem finished_zero {sent : List (κ × List UInt8)} (h : Nonempty sent) : finished sent 0 = [] := by
  cases sent with
  | nil => rfl
  | cons x sent =>
    have hx := List.length_pos_iff.mpr (h x List.mem_cons_self)
    rw [finished, if_neg (by omega)]

/-- Behind the buffers that are done, `n` more bytes. -/
theorem finished_done (done rest : List (κ × List UInt8)) (n : Nat) :
    finished (done ++ rest) ((contents done).length + n) = done.map Prod.fst ++ finished rest n := by
  induction done with
  | nil => simp [contents]
  | cons x done ih =>
    have hlen : (contents (x :: done)).length = x.2.length + (contents done).length := by
      simp [contents, List.flatMap_cons]
    rw [List.cons_append, finished, if_pos (by omega), hlen,
      show x.2.length + (contents done).length + n - x.2.length = (contents done).length + n by omega, ih]
    rfl

/-- One more buffer behind the others finishes no earlier than they do. -/
theorem finished_snoc {sent : List (κ × List UInt8)} {x : κ × List UInt8} (hx : x.2 ≠ []) :
    ∀ {n : Nat}, n ≤ (contents sent).length → finished (sent ++ [x]) n = finished sent n := by
  have hpos := List.length_pos_iff.mpr hx
  induction sent with
  | nil =>
    intro n hn
    simp only [contents, List.flatMap_nil, List.length_nil] at hn
    rw [List.nil_append, show finished ([] : List (κ × List UInt8)) n = [] from rfl, finished, if_neg (by omega)]
  | cons y sent ih =>
    intro n hn
    have hlen : (contents (y :: sent)).length = y.2.length + (contents sent).length := by
      simp [contents, List.flatMap_cons]
    rw [List.cons_append, finished, finished]
    split
    · rw [ih (by omega)]
    · rfl

end Ledger

/-! ## The property -/

section Property

variable {κ : Type}

/-- The socket has transmitted `sent`: nothing is lost, duplicated or reordered, and the
    completions are called in order, each at the moment its buffer's last byte is accepted. -/
structure Transmitted (sent : List (κ × List UInt8)) (io : SocketIoInstance κ) : Prop where
  bytes : accepted io.events ++ io.pendingIoList.flatMap (·.bytes) = contents sent
  never_before : ∀ past, past <+: io.events → completed past <+: finished sent (accepted past).length
  at_once : ∀ past future, io.events = past ++ future → (∀ k, future.head? ≠ some (.complete k)) →
    completed past = finished sent (accepted past).length

/-- The pending list holds the buffers `rest`, of the first one the tail that is left. -/
inductive Waiting : List (PendingSocketIo κ) → List (κ × List UInt8) → Prop where
  | none : Waiting [] []
  | some {k : κ} {buffer left : List UInt8} {rest : List (κ × List UInt8)} (hleft : left ≠ []) (hsuffix : left <:+ buffer) :
    Waiting (⟨left, Option.some k⟩ :: rest.map fun x => ⟨x.2, Option.some x.1⟩) ((k, buffer) :: rest)

theorem waiting_full {rest : List (κ × List UInt8)} (h : Nonempty rest) :
    Waiting (rest.map fun x => ⟨x.2, Option.some x.1⟩) rest := by
  cases rest with
  | nil => exact .none
  | cons x rest => exact .some (h x List.mem_cons_self) List.suffix_rfl

/-- An open instance that has transmitted `sent`, of which `done` is accepted whole. -/
structure Held (sent : List (κ × List UInt8)) (io : SocketIoInstance κ) : Prop where
  transmitted : Transmitted sent io
  opened : io.ioState = .opened
  nonempty : Nonempty sent
  waiting : ∃ done rest, sent = done ++ rest ∧ Waiting io.pendingIoList rest

theorem flatMap_full (rest : List (κ × List UInt8)) :
    (rest.map fun x => (⟨x.2, some x.1⟩ : PendingSocketIo κ)).flatMap (·.bytes) = contents rest := by
  rw [List.flatMap_map]; rfl

theorem accepted_prefix_le {past events : List (SocketEvent κ)} (h : past <+: events) :
    (accepted past).length ≤ (accepted events).length := by
  obtain ⟨future, rfl⟩ := h
  simp

/-- A split of a list with one more element is a split of the list, or has nothing behind it. -/
theorem split_snoc {α : Type} {l past future : List α} {x : α} (h : l ++ [x] = past ++ future) :
    future = [] ∧ past = l ++ [x] ∨ ∃ future', future = future' ++ [x] ∧ l = past ++ future' := by
  rcases List.eq_nil_or_concat future with rfl | ⟨future', y, rfl⟩
  · exact Or.inl ⟨rfl, by simpa using h.symm⟩
  · rw [List.concat_eq_append, ← List.append_assoc] at h
    obtain ⟨hl, hx⟩ := List.append_inj' h rfl
    simp only [List.cons.injEq, and_true] at hx
    exact Or.inr ⟨future', by rw [hx, List.concat_eq_append], hl⟩

theorem created_held {io : SocketIoInstance κ} (ho : io.ioState = .opened) (hp : io.pendingIoList = []) (he : io.events = []) :
    Held [] io := by
  refine ⟨⟨by simp [hp, he, accepted, contents], ?_, ?_⟩, ho, fun x hx => (nomatch hx), [], [], rfl, by rw [hp]; exact .none⟩
  · intro past h
    rw [he, List.prefix_nil] at h
    rw [h]; exact List.prefix_rfl
  · intro past future h _
    rw [he] at h
    rw [(List.append_eq_nil_iff.mp h.symm).1]; rfl

/-- One more buffer at the end of the queue. -/
theorem Held.queue {sent : List (κ × List UInt8)} {io : SocketIoInstance κ} (h : Held sent io) {k : κ} {buffer : List UInt8}
    (hb : buffer ≠ []) :
    Held (sent ++ [(k, buffer)]) { io with pendingIoList := io.pendingIoList ++ [⟨buffer, some k⟩] } := by
  have hle : ∀ past, past <+: io.events → (accepted past).length ≤ (contents sent).length := by
    intro past hp
    have hb := congrArg List.length h.transmitted.bytes
    have := accepted_prefix_le hp
    rw [List.length_append] at hb; omega
  refine ⟨⟨?_, ?_, ?_⟩, h.opened, ?_, ?_⟩
  · simp only [List.flatMap_append, ← List.append_assoc, h.transmitted.bytes, contents_append]
    simp [contents]
  · intro past hp
    rw [finished_snoc hb (hle past hp)]
    exact h.transmitted.never_before past hp
  · intro past future he hf
    rw [finished_snoc hb (hle past ⟨future, he.symm⟩)]
    exact h.transmitted.at_once past future he hf
  · intro x hx
    rcases List.mem_append.mp hx with hx | hx
    · exact h.nonempty x hx
    · rw [List.mem_singleton.mp hx]; exact hb
  · obtain ⟨done, rest, hs, hw⟩ := h.waiting
    refine ⟨done, rest ++ [(k, buffer)], by rw [hs, List.append_assoc], ?_⟩
    simp only
    generalize io.pendingIoList = pending at hw
    cases hw with
    | none =>
      have : Waiting (_ :: List.map _ []) ((k, buffer) :: []) := Waiting.some hb List.suffix_rfl
      simpa using this
    | @some k' b' left rest' hleft hsuffix =>
      have : Waiting (_ :: List.map _ (rest' ++ [(k, buffer)])) ((k', b') :: (rest' ++ [(k, buffer)])) :=
        Waiting.some hleft hsuffix
      simpa using this

/-- How much of `sent` is accepted when `left` is all that is left of the buffer in front. -/
theorem Held.front {sent : List (κ × List UInt8)} {io : SocketIoInstance κ} (h : Held sent io) {pending : PendingSocketIo κ}
    {others : List (PendingSocketIo κ)} (hp : io.pendingIoList = pending :: others) :
    ∃ done k buffer rest, sent = done ++ (k, buffer) :: rest ∧ pending.onSendComplete = some k ∧ pending.bytes ≠ [] ∧
      pending.bytes <:+ buffer ∧ others = rest.map (fun x => ⟨x.2, some x.1⟩) ∧ Nonempty rest ∧
      (accepted io.events).length + pending.bytes.length = (contents done).length + buffer.length ∧
      completed io.events = done.map Prod.fst := by
  obtain ⟨done, rest, hs, hw⟩ := h.waiting
  rw [hp] at hw
  cases hw with
  | @some k buffer left rest hleft hsuffix =>
    have hne : Nonempty rest := fun x hx => h.nonempty x (by rw [hs]; simp [hx])
    have hlen : (accepted io.events).length + left.length = (contents done).length + buffer.length := by
      have hb := congrArg List.length h.transmitted.bytes
      rw [hp, hs, List.flatMap_cons, flatMap_full, contents_append] at hb
      simp only [contents, List.flatMap_cons, List.length_append] at hb ⊢
      omega
    refine ⟨done, k, buffer, rest, hs, rfl, hleft, hsuffix, rfl, hne, hlen, ?_⟩
    have hpos := List.length_pos_iff.mpr hleft
    have hshort := hsuffix.length_le
    rw [h.transmitted.at_once io.events [] (by simp) (by simp), hs,
      show (accepted io.events).length = (contents done).length + (buffer.length - left.length) by omega, finished_done,
      finished, if_neg (by omega), List.append_nil]

/-- `send()` takes the first `n` bytes of what is left of the buffer in front. -/
theorem Held.part {sent : List (κ × List UInt8)} {io : SocketIoInstance κ} (h : Held sent io) {pending : PendingSocketIo κ}
    {others : List (PendingSocketIo κ)} (hp : io.pendingIoList = pending :: others) {n : Nat} (hn : n < pending.bytes.length) :
    Held sent { io with
      pendingIoList := { pending with bytes := pending.bytes.drop n } :: others,
      events := io.events ++ [.accepted (pending.bytes.take n)] } := by
  obtain ⟨done, k, buffer, rest, hs, hk, hne, hsuffix, ho, hrest, hlen, hcomp⟩ := h.front hp
  have hshort := hsuffix.length_le
  have hnow : completed (io.events ++ [.accepted (pending.bytes.take n)]) =
      finished sent (accepted (io.events ++ [.accepted (pending.bytes.take n)])).length := by
    have hacc : (accepted (io.events ++ [SocketEvent.accepted (κ := κ) (pending.bytes.take n)])).length =
        (contents done).length + (buffer.length - pending.bytes.length + n) := by
      simp only [accepted_append, List.length_append]
      simp only [accepted, List.flatMap_cons, List.flatMap_nil, List.append_nil, List.length_take] at hlen ⊢
      omega
    rw [hacc, hs, finished_done, finished, if_neg (by omega), List.append_nil, completed_append, hcomp]
    simp [completed]
  refine ⟨⟨?_, ?_, ?_⟩, h.opened, h.nonempty, done, (k, buffer) :: rest, hs, ?_⟩
  · rw [← h.transmitted.bytes, hp]
    have hcut : pending.bytes.take n ++ (pending.bytes.drop n ++ others.flatMap (·.bytes)) =
        pending.bytes ++ others.flatMap (·.bytes) := by rw [← List.append_assoc, List.take_append_drop]
    simp only [accepted_append, List.flatMap_cons, List.append_assoc, ← hcut]
    simp [accepted]
  · intro past hpast
    obtain ⟨future, hf⟩ := hpast
    rcases split_snoc hf.symm with ⟨-, rfl⟩ | ⟨future', -, he⟩
    · exact ⟨[], by rw [hnow, List.append_nil]⟩
    · exact h.transmitted.never_before past ⟨future', he.symm⟩
  · intro past future he hf
    rcases split_snoc he with ⟨-, rfl⟩ | ⟨future', rfl, he'⟩
    · exact hnow
    · refine h.transmitted.at_once past future' he' ?_
      intro k' hk'
      cases future' with
      | nil => simp at hk'
      | cons e future' => exact hf k' (by simpa using hk')
  · have hdrop : pending.bytes.drop n ≠ [] := by
      intro e
      have := congrArg List.length e
      simp only [List.length_drop, List.length_nil] at this; omega
    rw [hk, ho]
    exact .some hdrop ((List.drop_suffix n _).trans hsuffix)

/-- `send()` takes all that is left of the buffer in front, and its completion is called. -/
theorem Held.whole {sent : List (κ × List UInt8)} {io : SocketIoInstance κ} (h : Held sent io) {left : List UInt8} {k : κ}
    {others : List (PendingSocketIo κ)} (hp : io.pendingIoList = ⟨left, some k⟩ :: others) :
    Held sent { io with
      pendingIoList := others, events := io.events ++ [.accepted left] ++ [.complete k] } := by
  obtain ⟨done, k', buffer, rest, hs, hk, hne, hsuffix, ho, hrest, hlen, hcomp⟩ := h.front hp
  simp only [Option.some.injEq] at hk
  subst hk
  simp only at hne hsuffix hlen
  have hacc : (accepted (io.events ++ [SocketEvent.accepted (κ := κ) left])).length =
      (contents (done ++ [(k, buffer)])).length + 0 := by
    simp only [accepted_append, contents_append, List.length_append]
    simp only [accepted, contents, List.flatMap_cons, List.flatMap_nil, List.append_nil] at hlen ⊢
    omega
  have hsplit : sent = (done ++ [(k, buffer)]) ++ rest := by rw [hs]; simp
  have hfin : finished sent (accepted (io.events ++ [SocketEvent.accepted (κ := κ) left])).length =
      done.map Prod.fst ++ [k] := by
    rw [hacc, hsplit, finished_done, finished_zero hrest]; simp
  have hall : accepted (io.events ++ [.accepted left] ++ [.complete k]) = accepted (io.events ++ [.accepted left]) := by
    rw [accepted_append]; simp [accepted]
  have hc1 : completed (io.events ++ [.accepted left]) = done.map Prod.fst := by
    rw [completed_append, hcomp]; simp [completed]
  have hc2 : completed (io.events ++ [.accepted left] ++ [.complete k]) = done.map Prod.fst ++ [k] := by
    rw [completed_append, hc1]; simp [completed]
  refine ⟨⟨?_, ?_, ?_⟩, h.opened, h.nonempty, done ++ [(k, buffer)], rest, hsplit, ?_⟩
  · rw [hall, ← h.transmitted.bytes, hp]
    simp only [accepted_append, List.flatMap_cons, List.append_assoc]
    simp [accepted]
  · intro past hpast
    obtain ⟨future, hf⟩ := hpast
    rcases split_snoc hf.symm with ⟨-, rfl⟩ | ⟨future', -, he⟩
    · exact ⟨[], by rw [hall, hfin, hc2, List.append_nil]⟩
    · rcases split_snoc he with ⟨-, rfl⟩ | ⟨future'', -, he'⟩
      · rw [hfin, hc1]; exact List.prefix_append _ _
      · exact h.transmitted.never_before past ⟨future'', he'.symm⟩
  · intro past future he hf
    rcases split_snoc he with ⟨-, rfl⟩ | ⟨future', rfl, he'⟩
    · rw [hall, hfin, hc2]
    · rcases split_snoc he' with ⟨rfl, -⟩ | ⟨future'', rfl, he''⟩
      · exact absurd rfl (hf k)
      · refine h.transmitted.at_once past future'' he'' ?_
        intro k' hk'
        cases future'' with
        | nil => simp at hk'
        | cons e future'' => exact hf k' (by simpa using hk')
  · rw [ho]
    exact waiting_full hrest

end Property

/-! ## Runs -/

inductive Call (κ : Type) where
  | send (onSendComplete : κ) (buffer : List UInt8) (answer : SendAnswer)
  | dowork (answers : List SendAnswer) (received : List RecvAnswer)

/-- Buffers are not empty, and no `send()` fails for good. -/
def Call.Admitted {κ : Type} : Call κ → Prop
  | .send _ buffer answer => buffer ≠ [] ∧ answer ≠ .fatal
  | .dowork answers _ => .fatal ∉ answers

/-- A direct send that would block. -/
def Call.Blocked {κ : Type} (io : SocketIoInstance κ) : Call κ → Prop
  | .send _ _ answer => io.pendingIoList = [] ∧ answer = .again
  | .dowork _ _ => False

instance {κ : Type} (io : SocketIoInstance κ) : DecidablePred (Call.Blocked io) := fun c => by
  cases c <;> unfold Call.Blocked <;> infer_instance

section Runs

variable {κ W : Type} (s : Slot W (SocketIoInstance κ × Mallocs)) (cb : SocketCallbacks κ W)

/-- The callbacks do not call back. -/
structure Passive : Prop where
  received : ∀ bytes w, s.get (cb.onBytesReceived bytes w) = s.get w
  error : ∀ w, s.get (cb.onIoError w) = s.get w
  complete : ∀ k w, s.get (cb.onSendComplete k w) = s.get w

def Call.run (w : W) : Call κ → Nat × W
  | .send onSendComplete buffer answer => socketioSend s cb buffer (some onSendComplete) answer w
  | .dowork answers received => (0, socketioDowork s cb answers received w)

def Call.taken (result : Nat) : Call κ → List (κ × List UInt8)
  | .send onSendComplete buffer _ => if result = 0 then [(onSendComplete, buffer)] else []
  | .dowork _ _ => []

def transmit : List (Call κ) → W → List (κ × List UInt8) × W
  | [], w => ([], w)
  | c :: calls, w =>
    let r := c.run s cb w
    let rest := transmit calls r.2
    (c.taken r.1 ++ rest.1, rest.2)

def Unblocked : List (Call κ) → W → Prop
  | [], _ => True
  | c :: calls, w => ¬ c.Blocked (s.get w).1 ∧ Unblocked calls (c.run s cb w).2

instance decidableUnblocked : ∀ (calls : List (Call κ)) (w : W), Decidable (Unblocked s cb calls w)
  | [], _ => inferInstanceAs (Decidable True)
  | c :: calls, w =>
    have := decidableUnblocked calls (c.run s cb w).2
    inferInstanceAs (Decidable (_ ∧ _))

variable {s cb}

theorem addPendingIo_succeed (io : SocketIoInstance κ) (buffer : List UInt8) (onSendComplete : Option κ) {ms : Mallocs}
    (h : Succeed ms) : ∃ ms', addPendingIo io buffer onSendComplete ms =
      (0, { io with pendingIoList := io.pendingIoList ++ [⟨buffer, onSendComplete⟩] }, ms') ∧ Succeed ms' := by
  obtain ⟨b1, ms1, h1, -, hs1⟩ := malloc_succeed h 20
  obtain ⟨b2, ms2, h2, -, hs2⟩ := malloc_succeed hs1 buffer.length
  obtain ⟨b3, ms3, h3, -, hs3⟩ := malloc_succeed hs2 8
  exact ⟨ms3, by simp only [addPendingIo, h1, h2, h3], hs3⟩

/-- The instance holds `sent`, and its allocations will succeed. -/
def Holds (s : Slot W (SocketIoInstance κ × Mallocs)) (sent : List (κ × List UInt8)) (w : W) : Prop :=
  Held sent (s.get w).1 ∧ Succeed (s.get w).2

theorem get_sendCompleted (h : Passive s cb) (k : κ) (w : W) :
    s.get (sendCompleted s cb (some k) w) =
      ({ (s.get w).1 with events := (s.get w).1.events ++ [.complete k] }, (s.get w).2) := by
  simp only [sendCompleted, h.complete, get_update]

theorem get_indicateError (h : Passive s cb) (w : W) : s.get (indicateError s cb w) = s.get w := by
  unfold indicateError
  split
  · exact h.error w
  · rfl

theorem queue_holds {sent : List (κ × List UInt8)} {w : W} (hw : Holds s sent w) {k : κ} {buffer : List UInt8}
    (hb : buffer ≠ []) :
    (queue s buffer (some k) w).1 = 0 ∧ Holds s (sent ++ [(k, buffer)]) (queue s buffer (some k) w).2 := by
  obtain ⟨ms', he, hs⟩ := addPendingIo_succeed (s.get w).1 buffer (some k) hw.2
  simp only [queue, he, Holds, s.get_set]
  exact ⟨trivial, hw.1.queue hb, hs⟩

theorem flush_holds (h : Passive s cb) (sent : List (κ × List UInt8)) : ∀ (answers : List SendAnswer) (w : W),
    .fatal ∉ answers → Holds s sent w → Holds s sent (flush s cb answers w) := by
  intro answers
  induction answers with
  | nil => intro w _ hw; exact hw
  | cons answer answers ih =>
    intro w hf hw
    rw [flush]
    split
    · exact hw
    · rename_i pending rest hp
      obtain ⟨done, k, buffer, rest', hs, hk, hne, hsuffix, ho, hrest, hlen, hcomp⟩ := hw.1.front hp
      cases answer with
      | again => exact hw
      | fatal => exact absurd List.mem_cons_self hf
      | accepted n =>
        simp only
        split
        · rename_i hn
          refine ⟨?_, by simp only [get_update, accept]; exact hw.2⟩
          simp only [get_update, accept]
          exact hw.1.part hp hn
        · refine ih _ (fun hm => hf (List.mem_cons_of_mem _ hm)) ⟨?_, ?_⟩
          · simp only [get_update, hk, get_sendCompleted h, accept, hp, List.tail_cons]
            exact hw.1.whole (by rw [hp, ← hk])
          · simp only [get_update, hk, get_sendCompleted h, accept]
            exact hw.2

theorem receive_get (h : Passive s cb) : ∀ (answers : List RecvAnswer) (w : W), s.get (receive s cb answers w) = s.get w := by
  intro answers
  induction answers with
  | nil => intro w; rfl
  | cons answer answers ih =>
    intro w
    cases answer with
    | again => rfl
    | failed => exact get_indicateError h w
    | bytes received =>
      rw [receive]
      split
      · rfl
      · have hcall : s.get (if (s.get w).1.callbacks then cb.onBytesReceived received w else w) = s.get w := by
          split
          · exact h.received received w
          · rfl
        generalize (if (s.get w).1.callbacks then cb.onBytesReceived received w else w) = w' at hcall
        simp only
        split
        · rw [ih, hcall]
        · exact hcall

theorem dowork_holds (h : Passive s cb) {sent : List (κ × List UInt8)} {answers : List SendAnswer} (hf : .fatal ∉ answers)
    (received : List RecvAnswer) {w : W} (hw : Holds s sent w) : Holds s sent (socketioDowork s cb answers received w) := by
  have hflush := flush_holds h sent answers w hf hw
  simp only [socketioDowork]
  split
  · unfold Holds
    rw [receive_get h]
    exact hflush
  · exact hflush

/-- What a call of `socketio_send` takes is held from then on, unless the send would block. -/
theorem send_holds (h : Passive s cb) {sent : List (κ × List UInt8)} {w : W} (hw : Holds s sent w) {k : κ}
    {buffer : List UInt8} (hb : buffer ≠ []) {answer : SendAnswer} (ha : answer ≠ .fatal) :
    (socketioSend s cb buffer (some k) answer w).1 = 0 ∧
      ((Call.send k buffer answer).Blocked (s.get w).1 → (socketioSend s cb buffer (some k) answer w).2 = w) ∧
      (¬ (Call.send k buffer answer).Blocked (s.get w).1 →
        Holds s (sent ++ [(k, buffer)]) (socketioSend s cb buffer (some k) answer w).2) := by
  have hlen : buffer.length ≠ 0 := fun e => hb (List.length_eq_zero_iff.mp e)
  have hopen : ¬ (s.get w).1.ioState ≠ .opened := not_not_intro hw.1.opened
  unfold socketioSend
  rw [if_neg hlen, if_neg hopen]
  cases hp : (s.get w).1.pendingIoList with
  | cons pending rest =>
    obtain ⟨h0, hq⟩ := queue_holds hw hb
    exact ⟨h0, fun hblock => absurd (hp.symm.trans hblock.1) (List.cons_ne_nil _ _), fun _ => hq⟩
  | nil =>
    cases answer with
    | fatal => exact absurd rfl ha
    | again => exact ⟨rfl, fun _ => rfl, fun hblock => absurd ⟨hp, rfl⟩ hblock⟩
    | accepted n =>
      have hq := hw.1.queue (k := k) hb
      rw [hp, List.nil_append] at hq
      simp only
      split
      · rename_i hn
        have hpart := hq.part rfl hn
        obtain ⟨ms', he, hs⟩ := addPendingIo_succeed
          { (s.get w).1 with events := (s.get w).1.events ++ [.accepted (buffer.take n)] } (buffer.drop n) (some k) hw.2
        simp only [hp, List.nil_append] at he
        simp only [queue, accept, get_update, hp, he, Holds, s.get_set]
        exact ⟨trivial, fun hblock => absurd hblock.2 (by simp), fun _ => ⟨hpart, hs⟩⟩
      · have hwhole := hq.whole rfl
        simp only [Holds, get_sendCompleted h, accept, get_update]
        refine ⟨trivial, fun hblock => absurd hblock.2 (by simp), fun _ => ⟨?_, hw.2⟩⟩
        rw [← hp] at hwhole
        exact hwhole

/-- Over a run, what is held grows by what is taken, less the buffers of blocked sends. -/
theorem transmit_holds (h : Passive s cb) : ∀ (calls : List (Call κ)), (∀ c ∈ calls, c.Admitted) →
    ∀ (sent : List (κ × List UInt8)) (w : W), Holds s sent w →
      ∃ kept, Holds s (sent ++ kept) (transmit s cb calls w).2 ∧
        (Unblocked s cb calls w → kept = (transmit s cb calls w).1) ∧
        (contents kept).length ≤ (contents (transmit s cb calls w).1).length ∧
        (¬ Unblocked s cb calls w → (contents kept).length < (contents (transmit s cb calls w).1).length) := by
  intro calls
  induction calls with
  | nil => intro _ sent w hw; exact ⟨[], by simpa [transmit] using hw, fun _ => rfl, Nat.le_refl _, fun hu => absurd trivial hu⟩
  | cons c calls ih =>
    intro hadm sent w hw
    have hc := hadm c List.mem_cons_self
    have hrest := ih fun c' hc' => hadm c' (List.mem_cons_of_mem _ hc')
    cases c with
    | dowork answers received =>
      obtain ⟨kept, hk, heq, hle, hlt⟩ := hrest sent _ (dowork_holds h hc received hw)
      refine ⟨kept, hk, fun hu => heq hu.2, by simpa [transmit, Call.taken, Call.run] using hle, fun hu => ?_⟩
      simpa [transmit, Call.taken, Call.run] using hlt fun hu' => hu ⟨fun hb => hb, hu'⟩
    | send k buffer answer =>
      obtain ⟨h0, hblocked, hsend⟩ := send_holds h hw (k := k) hc.1 hc.2
      have hpos := List.length_pos_iff.mpr hc.1
      have htaken : (transmit s cb (.send k buffer answer :: calls) w).1 =
          (k, buffer) :: (transmit s cb calls (socketioSend s cb buffer (some k) answer w).2).1 := by
        simp only [transmit, Call.run, Call.taken, h0, if_true, List.cons_append, List.nil_append]
      have hlen : ∀ l : List (κ × List UInt8), (contents ((k, buffer) :: l)).length = buffer.length + (contents l).length := by
        intro l; simp [contents, List.flatMap_cons]
      have hend : (transmit s cb (.send k buffer answer :: calls) w).2 =
          (transmit s cb calls (socketioSend s cb buffer (some k) answer w).2).2 := rfl
      rw [htaken, hend, hlen]
      by_cases hblock : (Call.send k buffer answer).Blocked (s.get w).1
      · rw [hblocked hblock]
        obtain ⟨kept, hk, -, hle, -⟩ := hrest sent w hw
        exact ⟨kept, hk, fun hu => absurd hblock hu.1, by omega, fun _ => by omega⟩
      · obtain ⟨kept, hk, heq, hle, hlt⟩ := hrest _ _ (hsend hblock)
        refine ⟨(k, buffer) :: kept, by simpa using hk, fun hu => by rw [heq hu.2], by rw [hlen]; omega, fun hu => ?_⟩
        have := hlt fun hu' => hu ⟨hblock, hu'⟩
        rw [hlen]; omega

/-- On an open instance, whatever counts or would-block answers its `send()` gives, a run of
    calls transmits the buffers it has taken exactly when no direct send would block. -/
theorem transmitted_iff (h : Passive s cb) {w : W} (hopen : (s.get w).1.ioState = .opened)
    (hpending : (s.get w).1.pendingIoList = []) (hevents : (s.get w).1.events = []) (hm : Succeed (s.get w).2)
    (calls : List (Call κ)) (hcalls : ∀ c ∈ calls, c.Admitted) :
    Transmitted (transmit s cb calls w).1 (s.get (transmit s cb calls w).2).1 ↔ Unblocked s cb calls w := by
  obtain ⟨kept, ⟨hk, -⟩, heq, -, hlt⟩ := transmit_holds h calls hcalls [] w ⟨created_held hopen hpending hevents, hm⟩
  rw [List.nil_append] at hk
  constructor
  · intro ht
    by_cases hu : Unblocked s cb calls w
    · exact hu
    · have hless := hlt hu
      rw [← ht.bytes, ← hk.transmitted.bytes] at hless
      exact absurd hless (Nat.lt_irrefl _)
  · intro hu
    rw [← heq hu]
    exact hk.transmitted

def SocketCallbacks.inert (κ W : Type) : SocketCallbacks κ W :=
  ⟨fun _ w => w, fun _ w => w, fun w => w, fun _ w => w, fun w => w⟩

/-- An instance that has just been opened, its buffers numbered. -/
def justOpened : SocketIoInstance Nat × Mallocs :=
  (socketioOpen (Slot.whole _) (.inert Nat _) true (SocketIoInstance.create Nat, [])).2

/-- A buffer that goes in three parts, the other one queued behind it. -/
theorem transmitted_in_parts :
    let calls : List (Call Nat) := [.send 1 [5, 6, 7] (.accepted 1), .send 2 [8] .again, .dowork [.accepted 1] [],
      .dowork [.accepted 1, .accepted 1] []]
    Transmitted (transmit (Slot.whole _) (.inert Nat _) calls justOpened).1
      (transmit (Slot.whole _) (.inert Nat _) calls justOpened).2.1 :=
  (transmitted_iff ⟨fun _ _ => rfl, fun _ => rfl, fun _ _ => rfl⟩ rfl rfl rfl succeed_nil _
    (by simp [Call.Admitted])).mpr (by decide)

/-- A buffer that is sent when the socket would block is taken, and gone. -/
theorem blocked_send_lost :
    let calls : List (Call Nat) := [.send 1 [5] .again, .dowork [.accepted 1] []]
    (transmit (Slot.whole _) (.inert Nat _) calls justOpened).1 = [(1, [5])] ∧
      ¬ Transmitted (transmit (Slot.whole _) (.inert Nat _) calls justOpened).1
        (transmit (Slot.whole _) (.inert Nat _) calls justOpened).2.1 := by
  refine ⟨by decide, fun h => ?_⟩
  have hbytes := h.bytes
  revert hbytes
  decide

end Runs

end UMqtt.Io

/-
  UMqtt.Client.KeepAlive — how far apart the packets of a live connection are.

  `mqtt_client_dowork` polls: behind its `xio_dowork` it reads the clock, and sends a PINGREQ
  when `packetSendTimeMs` is `keepAliveInterval` seconds ago. `watch` takes these readings and
  all sends out of the notes; what follows from them is `UMqtt.Lib.Polling`.

  Proved (`keepAlive_spaced`): on any stretch of a run on which the connection is live, is not
  reported as failed, and is polled at most `d` ms apart, two sends in a row are less than
  `1000 * keepAliveInterval + d` ms apart, and the time between its reading and its send if the
  second is a PINGREQ.
-/

import UMqtt.Lib.Polling
import UMqtt.Client.Surroundings

namespace UMqtt.Client.KeepAlive

open UMqtt.Lib UMqtt.Lib.Polling UMqtt.Crt UMqtt.Codec UMqtt.Io

/-! ## What is watched -/

/-- The reading that `mqtt_client_dowork` makes next, and each send at its `packetSendTimeMs`. -/
def watchEvent : Note → Option Polling.Event
  | .answered (.dowork _) _ before after =>
    if before.polling then (after.ticks.headD (some 0)).map fun r => .poll r.toNat else none
  | .asked (.send _ bytes) m => some (.send m.client.packetSendTimeMs.toNat (bytes = pingreqPacket))
  | _ => none

def watch (notes : List Note) : List Polling.Event := notes.filterMap watchEvent

/-- The connection is accepted and there, and the clock is not behind `start`. -/
structure LiveAt (interval : UInt16) (start : Nat) (m : Moment) : Prop where
  clientConnected : m.client.clientConnected = true
  socketConnected : m.client.socketConnected = true
  transport : m.client.xioHandle ≠ none
  interval : m.client.keepAliveInterval = interval
  closing : m.closing = false
  clock : ∀ t ∈ m.ticks.head?.join, start ≤ t.toNat

/-- Live, without an error report, and with the memory for a PINGREQ where one may be due. -/
def Live (interval : UInt16) (start : Nat) : Note → Prop
  | .asked (.error _) _ => False
  | .asked (.send _ _) m => LiveAt interval start m ∧ start ≤ m.client.packetSendTimeMs.toNat
  | .answered (.dowork _) _ before after =>
    LiveAt interval start after ∧ (before.polling = true → (mqttCodecPing after.mallocs).1.isSome)
  | n => LiveAt interval start n.moment

instance (interval : UInt16) (start : Nat) (m : Moment) : Decidable (LiveAt interval start m) :=
  decidable_of_iff (m.client.clientConnected = true ∧ m.client.socketConnected = true ∧ m.client.xioHandle ≠ none ∧
      m.client.keepAliveInterval = interval ∧ m.closing = false ∧ m.ticks.head?.join.all fun t => decide (start ≤ t.toNat))
    ⟨fun ⟨h1, h2, h3, h4, h5, h6⟩ => ⟨h1, h2, h3, h4, h5, by simpa [Option.all_eq_true] using h6⟩,
      fun ⟨h1, h2, h3, h4, h5, h6⟩ => ⟨h1, h2, h3, h4, h5, by simpa [Option.all_eq_true] using h6⟩⟩

instance (interval : UInt16) (start : Nat) : DecidablePred (Live interval start) := fun n => by
  rcases n with ⟨c, m⟩ | ⟨x, m⟩ | ⟨x, result, before, after⟩
  · exact inferInstanceAs (Decidable (LiveAt interval start m))
  · rcases x with _ | _ | ⟨h, bytes⟩ | _ | _ | _ | e | _
    · exact inferInstanceAs (Decidable (LiveAt interval start m))
    · exact inferInstanceAs (Decidable (LiveAt interval start m))
    · exact inferInstanceAs (Decidable (LiveAt interval start m ∧ start ≤ m.client.packetSendTimeMs.toNat))
    · exact inferInstanceAs (Decidable (LiveAt interval start m))
    · exact inferInstanceAs (Decidable (LiveAt interval start m))
    · exact inferInstanceAs (Decidable (LiveAt interval start m))
    · exact .isFalse fun h => h
    · exact inferInstanceAs (Decidable (LiveAt interval start m))
  · rcases x with _ | _ | _ | h | _ | _ | _ | _
    rotate_left 3
    · exact inferInstanceAs (Decidable (LiveAt interval start after ∧
        (before.polling = true → (mqttCodecPing after.mallocs).1.isSome)))
    all_goals exact inferInstanceAs (Decidable (LiveAt interval start after))

variable {interval : UInt16} {start d i : Nat} {readings : List UInt32} {w w' w'' : Scripted} {n : Note}

theorem Live.at_moment (h : Live interval start n) : LiveAt interval start n.moment := by
  unfold Live at h
  split at h
  · exact h.elim
  · exact h.1
  · exact h.1
  · exact h

@[simp] theorem watch_append (notes notes' : List Note) : watch (notes ++ notes') = watch notes ++ watch notes' :=
  List.filterMap_append

theorem watch_poll (handle : XioHandle) (result : Nat) {before : Moment} (hb : before.polling = true) {r : UInt32}
    {rest : List (Option UInt32)} (ht : w.ticks = some r :: rest) :
    watch [.answered (.dowork handle) result before (moment w)] = [.poll r.toNat] := by
  simp [watch, watchEvent, hb, moment, ht]

theorem watch_quiet (h : watchEvent n = none) : watch [n] = [] := by
  simp [watch, h]

/-! ## The stretch behind the first `i` notes -/

def since (i : Nat) (w : Scripted) : List Note := w.out.notes.drop i

theorem since_note (i : Nat) (n : Note) (w : Scripted) :
    since i (writeNote n w) = since i w ++ [n] ∨ since i (writeNote n w) = [] ∧ since i w = [] := by
  by_cases h : i ≤ w.out.notes.length
  · exact Or.inl (List.drop_append_of_le_length h)
  · refine Or.inr ⟨?_, List.drop_eq_nil_of_le (by omega)⟩
    refine List.drop_eq_nil_of_le ?_
    simp only [writeNote, List.length_append, List.length_singleton]
    omega

/-- What holds at every step: of the sends so far, of the last one, and of the clock. -/
structure Steady (interval : UInt16) (start d i : Nat) (readings : List UInt32) (w : Scripted) : Prop where
  ticks : w.ticks <:+ readings.map some
  spaced : ∀ notes, notes <+: since i w → (∀ n ∈ notes, Live interval start n) → Polled d start (watch notes) →
    Spaced (1000 * interval.toNat) d start (watch notes)
  sent : (∀ n ∈ since i w, Live interval start n) → w.client.xioHandle ≠ none →
    ∀ a, lastSend (watch (since i w)) = some a → w.client.packetSendTimeMs.toNat ≤ a
  clock : (∀ n ∈ since i w, Live interval start n) → since i w ≠ [] → ∀ t, some t ∈ w.ticks →
    lastPoll start (watch (since i w)) ≤ t.toNat ∧ ∀ a, lastSend (watch (since i w)) = some a → a ≤ t.toNat

/-- What holds when no dowork is at work on a reading. -/
structure Settled (interval : UInt16) (start d i : Nat) (readings : List UInt32) (w : Scripted) : Prop
    extends Steady interval start d i readings w where
  watched : (∀ n ∈ since i w, Live interval start n) → Polled d start (watch (since i w)) →
    Watched (1000 * interval.toNat) start (watch (since i w))

theorem live_init {notes : List Note} (h : ∀ m ∈ notes ++ [n], Live interval start m) :
    (∀ m ∈ notes, Live interval start m) ∧ Live interval start n :=
  ⟨fun m hm => h m (List.mem_append_left _ hm), h n (List.mem_append_right _ List.mem_cons_self)⟩

/-- Nothing is different that the sends depend on; the client may let go of its transport. -/
theorem Steady.same (h : Steady interval start d i readings w) (hx : w'.client.xioHandle ≠ none →
      w.client.xioHandle ≠ none ∧ w'.client.packetSendTimeMs ≤ w.client.packetSendTimeMs)
    (ht : w'.ticks <:+ w.ticks) (hn : w'.out.notes = w.out.notes) : Steady interval start d i readings w' := by
  have hsince : since i w' = since i w := by unfold since; rw [hn]
  refine ⟨ht.trans h.ticks, ?_, ?_, ?_⟩
  · rw [hsince]; exact h.spaced
  · rw [hsince]
    exact fun hl hx' a ha => (UInt32.le_iff_toNat_le.mp (hx hx').2).trans (h.sent hl (hx hx').1 a ha)
  · rw [hsince]
    exact fun hl hne t hm => h.clock hl hne t (ht.mem hm)

theorem Settled.same (h : Settled interval start d i readings w) (hx : w'.client.xioHandle ≠ none →
      w.client.xioHandle ≠ none ∧ w'.client.packetSendTimeMs ≤ w.client.packetSendTimeMs)
    (ht : w'.ticks <:+ w.ticks) (hn : w'.out.notes = w.out.notes) : Settled interval start d i readings w' := by
  refine ⟨h.toSteady.same hx ht hn, ?_⟩
  have hsince : since i w' = since i w := by unfold since; rw [hn]
  rw [hsince]; exact h.watched

/-! ## One more note -/

/-- What a note has to add, where the connection is live. -/
theorem Steady.note (h : Steady interval start d i readings w) (hn : w'.out.notes = w.out.notes) (ht : w'.ticks <:+ w.ticks)
    (hspaced : (∀ m ∈ since i w, Live interval start m) → Live interval start n →
      Polled d start (watch (since i w) ++ watch [n]) → Spaced (1000 * interval.toNat) d start (watch (since i w) ++ watch [n]))
    (hsent : (∀ m ∈ since i w, Live interval start m) → Live interval start n → w'.client.xioHandle ≠ none →
      ∀ a, lastSend (watch (since i w) ++ watch [n]) = some a → w'.client.packetSendTimeMs.toNat ≤ a)
    (hclock : (∀ m ∈ since i w, Live interval start m) → Live interval start n → ∀ t, some t ∈ w'.ticks →
      lastPoll start (watch (since i w) ++ watch [n]) ≤ t.toNat ∧
        ∀ a, lastSend (watch (since i w) ++ watch [n]) = some a → a ≤ t.toNat) :
    Steady interval start d i readings (writeNote n w') := by
  have hsince : since i w' = since i w := by unfold since; rw [hn]
  have htime : w'.ticks <:+ readings.map some := ht.trans h.ticks
  rcases since_note i n w' with he | ⟨he, -⟩
  · rw [hsince] at he
    refine ⟨htime, ?_, ?_, ?_⟩
    · intro notes hp hl hpolled
      rw [he] at hp
      rcases List.prefix_concat_iff.mp hp with rfl | hp
      · rw [watch_append] at hpolled ⊢
        exact hspaced (live_init hl).1 (live_init hl).2 hpolled
      · exact h.spaced notes hp hl hpolled
    · rw [he, watch_append]
      exact fun hl => hsent (live_init hl).1 (live_init hl).2
    · rw [he, watch_append]
      exact fun hl _ => hclock (live_init hl).1 (live_init hl).2
  · refine ⟨htime, ?_, ?_, ?_⟩
    · intro notes hp _ _
      rw [he] at hp
      rw [List.prefix_nil.mp hp]
      exact spaced_nil
    · rw [he]
      intro _ _ a ha
      cases ha
    · rw [he]
      exact fun _ hne => absurd (.refl _) hne

theorem Steady.settled (h : Steady interval start d i readings (writeNote n w))
    (hw : (∀ m ∈ since i w, Live interval start m) → Live interval start n →
      Polled d start (watch (since i w) ++ watch [n]) → Watched (1000 * interval.toNat) start (watch (since i w) ++ watch [n])) :
    Settled interval start d i readings (writeNote n w) := by
  refine ⟨h, ?_⟩
  rcases since_note i n w with he | ⟨he, -⟩
  · rw [he, watch_append]
    exact fun hl => hw (live_init hl).1 (live_init hl).2
  · rw [he]
    exact fun _ _ => watched_nil

/-- A note of no send and no reading. The client may have been given another transport, where a
    live connection had one. -/
theorem Steady.quiet_of (hs : readings.Pairwise (· ≤ ·)) (h : Steady interval start d i readings w) (he : watchEvent n = none)
    (hm : n.moment.ticks = w'.ticks)
    (hx : Live interval start n → w.client.xioHandle ≠ none ∧ w'.client.packetSendTimeMs = w.client.packetSendTimeMs)
    (ht : w'.ticks <:+ w.ticks) (hn : w'.out.notes = w.out.notes) : Steady interval start d i readings (writeNote n w') := by
  have hnil : watch (since i w) ++ watch [n] = watch (since i w) := by rw [watch_quiet he, List.append_nil]
  refine h.note hn ht ?_ ?_ ?_
  · rw [hnil]
    exact fun hl _ => h.spaced _ List.prefix_rfl hl
  · rw [hnil]
    intro hl hlive _ a ha
    rw [(hx hlive).2]
    exact h.sent hl (hx hlive).1 a ha
  · rw [hnil]
    intro hl hlive t hmem
    by_cases hne : since i w = []
    · rw [hne]
      refine ⟨first_le hs (ht.trans h.ticks) ?_ t hmem, by simp [watch, lastSend]⟩
      rw [← hm]
      exact hlive.at_moment.clock
    · exact h.clock hl hne t (ht.mem hmem)

theorem Settled.quiet_of (hs : readings.Pairwise (· ≤ ·)) (h : Settled interval start d i readings w) (he : watchEvent n = none)
    (hm : n.moment.ticks = w'.ticks)
    (hx : Live interval start n → w.client.xioHandle ≠ none ∧ w'.client.packetSendTimeMs = w.client.packetSendTimeMs)
    (ht : w'.ticks <:+ w.ticks) (hn : w'.out.notes = w.out.notes) : Settled interval start d i readings (writeNote n w') := by
  have hsince : since i w' = since i w := by unfold since; rw [hn]
  refine (h.toSteady.quiet_of hs he hm hx ht hn).settled fun hl _ hp => ?_
  rw [watch_quiet he, List.append_nil] at hp ⊢
  rw [hsince] at hl hp ⊢
  exact h.watched hl hp

theorem Settled.quiet (hs : readings.Pairwise (· ≤ ·)) (h : Settled interval start d i readings w) (he : watchEvent n = none)
    (hm : n.moment = moment w) : Settled interval start d i readings (writeNote n w) := by
  refine h.quiet_of hs he (by rw [hm]; rfl) (fun hl => ⟨?_, .refl _⟩) (List.suffix_refl _) (.refl _)
  have hat := hl.at_moment.transport
  rw [hm] at hat
  exact hat

/-- The note that the connection is not live any more. -/
theorem Steady.dead (hs : readings.Pairwise (· ≤ ·)) (h : Steady interval start d i readings w) (he : watchEvent n = none)
    (hm : n.moment = moment w) (hn : ¬ Live interval start n) : Settled interval start d i readings (writeNote n w) :=
  (h.quiet_of hs he (by rw [hm]; rfl) (fun hl => absurd hl hn) (List.suffix_refl _) (.refl _)).settled fun _ hl => absurd hl hn

/-- A send is noted with the time that was read for it. -/
theorem Steady.send (hs : readings.Pairwise (· ≤ ·)) (hk : 0 < interval) (h : Steady interval start d i readings w)
    {ms : UInt32} {handle : XioHandle} {bytes : List UInt8} (ht : w.ticks = some ms :: w'.ticks)
    (hn : w'.out.notes = w.out.notes) (hms : w'.client.packetSendTimeMs = ms)
    (hspaced : (∀ m ∈ since i w, Live interval start m) →
      Polled d start (watch (since i w) ++ [.send ms.toNat (bytes = pingreqPacket)]) →
      Spaced (1000 * interval.toNat) d start (watch (since i w) ++ [.send ms.toNat (bytes = pingreqPacket)])) :
    Settled interval start d i readings (writeNote (.asked (.send handle bytes) (moment w')) w') := by
  have hev : watch [.asked (.send handle bytes) (moment w')] = [.send ms.toNat (bytes = pingreqPacket)] := by
    rw [← hms]; rfl
  have hsince : since i w' = since i w := by unfold since; rw [hn]
  have hmem : some ms ∈ w.ticks := by rw [ht]; exact List.mem_cons_self
  have hlater : ∀ t, some t ∈ w'.ticks → ms.toNat ≤ t.toNat := fun t hm =>
    UInt32.le_iff_toNat_le.mp (reading_le hs (ht ▸ h.ticks) hm)
  have hlast : (∀ m ∈ since i w, Live interval start m) → Live interval start (.asked (.send handle bytes) (moment w')) →
      lastPoll start (watch (since i w)) ≤ ms.toNat := by
    intro hl hlive
    by_cases hne : since i w = []
    · rw [hne, ← hms]
      exact hlive.2
    · exact (h.clock hl hne ms hmem).1
  have hsteady : Steady interval start d i readings (writeNote (.asked (.send handle bytes) (moment w')) w') := by
    refine h.note hn (by rw [ht]; exact List.suffix_cons _ _) ?_ ?_ ?_
    · rw [hev]
      exact fun hl _ => hspaced hl
    · rw [hev, lastSend_send]
      rintro _ _ _ a ⟨⟩
      rw [hms]
    · rw [hev, lastPoll_send, lastSend_send]
      intro hl hlive t hm
      refine ⟨(hlast hl hlive).trans (hlater t hm), ?_⟩
      rintro a ⟨⟩
      exact hlater t hm
  refine hsteady.settled fun hl hlive _ => ?_
  rw [hsince] at hl ⊢
  rw [hev]
  have hpos : 0 < interval.toNat := UInt16.lt_iff_toNat_lt.mp hk
  exact watched_send (by omega) (hlast hl hlive)

/-- A send that others make. -/
theorem Settled.send (hs : readings.Pairwise (· ≤ ·)) (hk : 0 < interval) (h : Settled interval start d i readings w)
    {ms : UInt32} {handle : XioHandle} {bytes : List UInt8} (ht : w.ticks = some ms :: w'.ticks)
    (hn : w'.out.notes = w.out.notes) (hms : w'.client.packetSendTimeMs = ms) :
    Settled interval start d i readings (writeNote (.asked (.send handle bytes) (moment w')) w') := by
  refine h.toSteady.send hs hk ht hn hms fun hl hp => ?_
  have hpolled := Throughout.of_append hp
  exact spaced_send (h.spaced _ List.prefix_rfl hl hpolled) (h.watched hl hpolled) hp

/-- The reading of a dowork is noted. -/
theorem Settled.poll (hs : readings.Pairwise (· ≤ ·)) (h : Settled interval start d i readings w) {handle : XioHandle}
    {result : Nat} {before : Moment} (hb : before.polling = true) {r : UInt32} {rest : List (Option UInt32)}
    (ht : w.ticks = some r :: rest) :
    Steady interval start d i readings (writeNote (.answered (.dowork handle) result before (moment w)) w) := by
  have hev := watch_poll handle result hb ht
  have hlater : ∀ t, some t ∈ w.ticks → r.toNat ≤ t.toNat :=
    first_le hs h.ticks (by rw [ht]; rintro t ⟨⟩; exact Nat.le_refl _)
  refine h.toSteady.note (.refl _) (List.suffix_refl _) ?_ ?_ ?_
  · rw [hev]
    exact fun hl _ hp => spaced_poll (h.spaced _ List.prefix_rfl hl (Throughout.of_append hp))
  · rw [hev, lastSend_poll]; exact fun hl _ => h.sent hl
  · rw [hev, lastPoll_poll, lastSend_poll]
    intro hl _ t hm
    refine ⟨hlater t hm, ?_⟩
    by_cases hne : since i w = []
    · rw [hne]
      intro a ha
      cases ha
    · exact (h.clock hl hne t hm).2

/-! ## The client -/

structure Ready (interval : UInt16) (start d i : Nat) (readings : List UInt32) (w : Scripted) : Prop
    extends Settled interval start d i readings w where
  polling : (moment w).polling = false

structure Keeps (interval : UInt16) (start d i : Nat) (readings : List UInt32) (w w' : Scripted) : Prop where
  ticks : w'.ticks <:+ w.ticks
  ready : w'.ticks ≠ [] → Ready interval start d i readings w → Ready interval start d i readings w'

theorem ticks_ne_nil {ticks ticks' : List (Option UInt32)} (h : ticks' <:+ ticks) (hne : ticks' ≠ []) : ticks ≠ [] := by
  rintro rfl
  exact hne (List.suffix_nil.mp h)

theorem Keeps.trans (h : Keeps interval start d i readings w w') (h' : Keeps interval start d i readings w' w'') :
    Keeps interval start d i readings w w'' :=
  ⟨h'.ticks.trans h.ticks, fun hne hr => h'.ready hne (h.ready (ticks_ne_nil h'.ticks hne) hr)⟩

theorem keeps_same (hx : w'.client.xioHandle ≠ none →
      w.client.xioHandle ≠ none ∧ w'.client.packetSendTimeMs ≤ w.client.packetSendTimeMs)
    (ht : w'.ticks <:+ w.ticks) (hn : w'.out.notes = w.out.notes) : Keeps interval start d i readings w w' := by
  refine ⟨ht, fun _ hr => ⟨hr.toSettled.same hx ht hn, ?_⟩⟩
  have hp := hr.polling
  unfold moment at hp ⊢
  simp only at hp ⊢
  rw [hn]; exact hp

/-- The transport and the time of the last send are as they were. -/
theorem keeps_client (hx : w'.client.xioHandle = w.client.xioHandle)
    (hs : w'.client.packetSendTimeMs = w.client.packetSendTimeMs) (ht : w'.ticks <:+ w.ticks)
    (hn : w'.out.notes = w.out.notes) : Keeps interval start d i readings w w' :=
  keeps_same (fun h => ⟨by rw [← hx]; exact h, UInt32.le_of_eq hs⟩) ht hn

theorem Keeps.rfl : Keeps interval start d i readings w w := keeps_client (.refl _) (.refl _) (List.suffix_refl _) (.refl _)

theorem polling_note (n : Note) (w : Scripted) : (moment (writeNote n w)).polling = n.polls := by simp [moment, writeNote]

theorem note_keeps (hs : readings.Pairwise (· ≤ ·)) (he : watchEvent n = none) (hm : n.moment = moment w)
    (hp : n.polls = false) : Keeps interval start d i readings w (writeNote n w) :=
  ⟨List.suffix_refl _, fun _ hr => ⟨hr.toSettled.quiet hs he hm, (polling_note n w).trans hp⟩⟩

theorem currentMs_keeps (w : Scripted) : Keeps interval start d i readings w w.currentMs.2 := by
  unfold World.currentMs
  split
  · exact Keeps.rfl
  · rename_i t ticks ht
    exact keeps_client (.refl _) (.refl _) (by rw [ht]; exact List.suffix_cons t ticks) (.refl _)

theorem log_keeps (e : Event) (w : Scripted) : Keeps interval start d i readings w (w.log e) :=
  keeps_client (.refl _) (.refl _) (List.suffix_refl _) (.refl _)

/-- A call out of the client that is neither a send nor a dowork. -/
def Plain : Exit → Prop
  | .send _ _ => False
  | .dowork _ => False
  | _ => True

theorem plain_asked {x : Exit} (h : Plain x) (m : Moment) : watchEvent (.asked x m) = none := by
  cases x <;> first | rfl | exact h.elim

theorem plain_answered {x : Exit} (h : ∀ handle, x ≠ .dowork handle) (result : Nat) (before after : Moment) :
    watchEvent (.answered x result before after) = none := by
  cases x <;> first | rfl | exact absurd (.refl _) (h _)

section Client

variable {perform : Entry → Scripted → Scripted} (hs : readings.Pairwise (· ≤ ·))
  (hp : ∀ c w, Keeps interval start d i readings w (perform c w))

include hs hp

theorem keeps_script : ScriptRules perform Plain (Keeps interval start d i readings) where
  refl _ := Keeps.rfl
  trans := Keeps.trans
  perform := hp
  asked w hx := note_keeps hs (plain_asked hx _) (.refl _) (.refl _)
  answered _ _ w hx := note_keeps hs (plain_answered (by rintro handle rfl; exact hx) _ _ _) (.refl _) (.refl _)
  nextReaction _ _ := keeps_client (.refl _) (.refl _) (List.suffix_refl _) (.refl _)
  nextCalls _ := keeps_client (.refl _) (.refl _) (List.suffix_refl _) (.refl _)

theorem send_keeps (hk : 0 < interval) (data : List UInt8) (w : Scripted) :
    Keeps interval start d i readings w (sendPacketItem (scriptXio perform) data w).2 := by
  have hms : Keeps interval start d i readings w w.currentMs.2 := currentMs_keeps w
  rcases hc : w.currentMs with ⟨ms, v⟩
  rw [hc] at hms
  cases ms with
  | none => simpa only [sendPacketItem, hc] using hms
  | some ms =>
    rw [sendPacketItem_stamp hc]
    cases hx : v.client.xioHandle with
    | none => exact hms.trans (keeps_same (fun h => absurd hx h) (List.suffix_refl _) (.refl _))
    | some h =>
      refine (keeps_script hs hp).askTransport_of ⟨hms.ticks, fun hne hr => ⟨?_, polling_note _ _⟩⟩ ?_
      · obtain ⟨hticks, hout⟩ := currentMs_some hc (ticks_ne_nil hms.ticks hne)
        exact hr.toSettled.send hs hk hticks (by rw [← hout]; rfl) (.refl _)
      · exact fun result before u => note_keeps hs (plain_answered (by simp) _ _ _) (.refl _) (.refl _)

/-- A dowork of a close: nothing is read behind it. -/
theorem dowork_keeps (h : XioHandle) (w : Scripted) : Keeps interval start d i readings w ((scriptXio perform).dowork h w) := by
  have hscript := keeps_script hs hp
  obtain ⟨u, hvu, hanswer⟩ := hscript.askTransport_answered (x := .dowork h) w (note_keeps hs (.refl _) (.refl _) (.refl _))
  have hwu := (hscript.nextReaction (.dowork h) w).trans hvu
  refine Eq.mpr (congrArg _ hanswer) ⟨hwu.ticks, fun hne hr => ?_⟩
  refine ⟨(hwu.ready hne hr).toSettled.quiet hs ?_ (.refl _), polling_note _ _⟩
  have hpolling : (moment (nextReaction (.dowork h) w).2).polling = false := hr.polling
  simp [watchEvent, hpolling]

theorem keeps_close : CloseRules (scriptXio perform) (Keeps interval start d i readings) where
  refl _ := Keeps.rfl
  trans := Keeps.trans
  close _ _ w := (keeps_script hs hp).askTransport (by trivial) w
  dowork := dowork_keeps hs hp

theorem callOperation_keeps (o : Operation) (w : Scripted) :
    Keeps interval start d i readings w ((scriptApp perform).callOperation o w) :=
  (log_keeps _ w).trans ((keeps_script hs hp).tellApplication (by trivial) _)

theorem callError_keeps (e : EventError) (w : Scripted) : Keeps interval start d i readings w ((scriptApp perform).callError e w) := by
  unfold App.callError
  split
  · exact (log_keeps _ w).trans ((keeps_script hs hp).tellApplication (by trivial) _)
  · exact Keeps.rfl

theorem callDisconnected_keeps (w : Scripted) : Keeps interval start d i readings w ((scriptApp perform).callDisconnected w) := by
  unfold App.callDisconnected
  split
  · exact Keeps.rfl
  · exact (log_keeps _ w).trans ((keeps_script hs hp).tellApplication (by trivial) _)

theorem keeps_rules (hk : 0 < interval) :
    Rules (scriptXio perform) (scriptApp perform) (Keeps interval start d i readings) where
  refl _ := Keeps.rfl
  trans := Keeps.trans
  idle h := keeps_client h.xioHandle h.packetSendTimeMs (by rw [h.ticks]) (by rw [h.out])
  send := send_keeps hs hp hk
  operation w _ := callOperation_keeps hs hp _ w
  message m w := (log_keeps _ w).trans ((keeps_script hs hp).tellApplication (by trivial) _)
  error w _ := callError_keeps hs hp _ w
  close := (keeps_close hs hp).closeConnection (fun w _ => callDisconnected_keeps hs hp w) fun w =>
    keeps_same (fun h => absurd (.refl _) h) (List.suffix_refl _) (.refl _)

theorem recvComplete_keeps (hk : 0 < interval) (p : Packet) (w : Scripted) :
    Keeps interval start d i readings w (recvCompleteCallback (scriptXio perform) (scriptApp perform) p w) := by
  have hread : Keeps interval start d i readings w
      { w.log (.packet p) with mallocs := (decode w.client p w.mallocs).mallocs } :=
    keeps_client (.refl _) (.refl _) (List.suffix_refl _) (.refl _)
  have hset : ∀ {v v' : Scripted}, v'.client.xioHandle = v.client.xioHandle →
      v'.client.packetSendTimeMs = v.client.packetSendTimeMs → v'.ticks = v.ticks → v'.out = v.out →
      Keeps interval start d i readings v v' := by
    intro v v' hx ht hticks hout
    exact keeps_client hx ht (by rw [hticks]) (by rw [hout])
  refine hread.trans ((keeps_rules hs hp hk).steps.act (HandlerRules.decode_ne_noPingResponse _ _ _) ?_ ?_)
  · intro session code _
    have hop := callOperation_keeps hs hp (.connack session code)
      { w.log (.packet p) with mallocs := (decode w.client p w.mallocs).mallocs }
    simp only [act]
    split
    · exact hop.trans (hset (.refl _) (.refl _) (.refl _) (.refl _))
    · exact hop
  · intro _
    have hseen : ∀ v : Scripted, Keeps interval start d i readings v { v with client := { v.client with timeSincePing := 0 } } :=
      fun _ => hset (.refl _) (.refl _) (.refl _) (.refl _)
    simp only [act]
    split
    · exact (hseen _).trans (callOperation_keeps hs hp _ _)
    · exact hseen _

/-! ## Behind a reading -/

/-- A close is asked for, and the connection is not live any more. -/
theorem closeConnection_ready (h : Steady interval start d i readings w) (hc : w.client.socketConnected = true)
    (hx : w.client.xioHandle ≠ none) (hne : (closeConnection (scriptXio perform) (scriptApp perform) w).ticks ≠ []) :
    Ready interval start d i readings (closeConnection (scriptXio perform) (scriptApp perform) w) := by
  obtain ⟨handle, hhandle⟩ := Option.ne_none_iff_exists'.mp hx
  obtain ⟨u, hu⟩ : ∃ u, u = (nextReaction (.close handle true) w).2 := ⟨_, rfl⟩
  have huw : Steady interval start d i readings u := by
    rw [hu]
    exact h.same (fun hx => ⟨hx, UInt32.le_refl _⟩) (List.suffix_refl _) (.refl _)
  have hclosing : u.out.closing = true := by rw [hu]; rfl
  obtain ⟨q, hq⟩ : ∃ q, q = writeNote (.asked (.close handle true) (moment u)) u := ⟨_, rfl⟩
  have hready : Ready interval start d i readings q := by
    rw [hq]
    refine ⟨huw.dead hs (.refl _) (.refl _) ?_, polling_note _ _⟩
    intro hl
    have hopen : u.out.closing = false := LiveAt.closing hl
    rw [hclosing] at hopen
    cases hopen
  have hclose : Keeps interval start d i readings q ((scriptXio perform).xioClose w.client.xioHandle true w).2 := by
    rw [hhandle, hq, hu]
    exact (keeps_script hs hp).askTransport_of Keeps.rfl fun _ _ _ => note_keeps hs (.refl _) (.refl _) (.refl _)
  have hend : Keeps interval start d i readings q (closeConnection (scriptXio perform) (scriptApp perform) w) := by
    have hreleased : ∀ v : Scripted, Keeps interval start d i readings v { v with client := { v.client with xioHandle := none } } :=
      fun _ => keeps_same (fun h => absurd (.refl _) h) (List.suffix_refl _) (.refl _)
    unfold closeConnection
    rw [if_pos hc]
    simp only
    split
    · exact (hclose.trans ((keeps_close hs hp).closeLoop _ _)).trans (hreleased _)
    · exact hclose.trans (hreleased _)
  exact hend.ready hne hready

/-- The connection is reported as failed, or at least closed. -/
theorem report_ready (hk : 0 < interval) (h : Steady interval start d i readings w) (hc : w.client.socketConnected = true)
    (hx : w.client.xioHandle ≠ none)
    (hne : (setErrorCallback (scriptXio perform) (scriptApp perform) .noPingResponse w).ticks ≠ []) :
    Ready interval start d i readings (setErrorCallback (scriptXio perform) (scriptApp perform) .noPingResponse w) := by
  by_cases hcb : w.client.fnOnErrorCallBack = true
  · obtain ⟨u, hu⟩ : ∃ u, u = (nextCalls (w.log (.error .noPingResponse))).2 := ⟨_, rfl⟩
    have huw : Steady interval start d i readings u := by
      rw [hu]
      exact h.same (fun hx => ⟨hx, UInt32.le_refl _⟩) (List.suffix_refl _) (.refl _)
    obtain ⟨q, hq⟩ : ∃ q, q = writeNote (.asked (.error .noPingResponse) (moment u)) u := ⟨_, rfl⟩
    have hready : Ready interval start d i readings q := by
      rw [hq]
      exact ⟨huw.dead hs (.refl _) (.refl _) id, polling_note _ _⟩
    have htold : Keeps interval start d i readings q ((scriptApp perform).callError .noPingResponse w) := by
      unfold App.callError
      rw [if_pos hcb, hq, hu]
      exact (keeps_script hs hp).tellApplication_of Keeps.rfl fun _ _ _ => note_keeps hs (.refl _) (.refl _) (.refl _)
    exact (htold.trans ((keeps_rules hs hp hk).close _)).ready hne hready
  · have hquiet : (scriptApp perform).callError .noPingResponse w = w := by simp [App.callError, hcb]
    unfold setErrorCallback at hne ⊢
    rw [hquiet] at hne ⊢
    exact closeConnection_ready hs hp h hc hx hne

/-- The PINGREQ behind a reading. -/
theorem ping_ready (hk : 0 < interval) (h : Steady interval start d i readings w) (hx : w.client.xioHandle ≠ none)
    (hspaced : (∀ m ∈ since i w, Live interval start m) → ∀ ms : UInt32,
      Polled d start (watch (since i w) ++ [.send ms.toNat true]) →
      Spaced (1000 * interval.toNat) d start (watch (since i w) ++ [.send ms.toNat true]))
    (hne : (sendPacketItem (scriptXio perform) pingreqPacket w).2.ticks ≠ []) :
    Ready interval start d i readings (sendPacketItem (scriptXio perform) pingreqPacket w).2 := by
  obtain ⟨handle, hhandle⟩ := Option.ne_none_iff_exists'.mp hx
  have hsend : Keeps interval start d i readings w (sendPacketItem (scriptXio perform) pingreqPacket w).2 :=
    send_keeps hs hp hk pingreqPacket w
  have hticks := ticks_ne_nil hsend.ticks hne
  obtain ⟨ms, ticks, hcons, hms⟩ := currentMs_reading hticks h.ticks
  have hsent : (sendPacketItem (scriptXio perform) pingreqPacket w).2 =
      (askTransport perform (.send handle pingreqPacket) (stamp ms pingreqPacket { w with ticks := ticks })).2 := by
    rw [sendPacketItem_stamp hms]
    simp only [hhandle]
    rfl
  obtain ⟨u, hu⟩ : ∃ u, u = (nextReaction (.send handle pingreqPacket) (stamp ms pingreqPacket { w with ticks := ticks })).2 :=
    ⟨_, rfl⟩
  obtain ⟨q, hq⟩ : ∃ q, q = writeNote (.asked (.send handle pingreqPacket) (moment u)) u := ⟨_, rfl⟩
  have hready : Ready interval start d i readings q := by
    rw [hq, hu]
    refine ⟨h.send hs hk hcons (.refl _) (.refl _) ?_, polling_note _ _⟩
    rw [decide_eq_true (.refl pingreqPacket)]
    exact fun hl => hspaced hl ms
  have hkeeps : Keeps interval start d i readings q (sendPacketItem (scriptXio perform) pingreqPacket w).2 := by
    rw [hsent, hq, hu]
    exact (keeps_script hs hp).askTransport_of Keeps.rfl
      fun result before u => note_keeps hs (plain_answered (by simp) _ _ _) (.refl _) (.refl _)
  exact hkeeps.ready hne hready

omit hs hp in
/-- What the source tests, with the last send at `a` or before. -/
theorem not_due {now sent : UInt32} {a : Nat} (hsent : sent.toNat ≤ a) (ha : a ≤ now.toNat)
    (h : ¬ interval.toUInt32 ≤ (now - sent) / 1000) : now.toNat < a + 1000 * interval.toNat := by
  have hsub : (now - sent).toNat = now.toNat - sent.toNat :=
    UInt32.toNat_sub_of_le _ _ (UInt32.le_iff_toNat_le.mpr (hsent.trans ha))
  have hlt := UInt32.lt_iff_toNat_lt.mp (UInt32.not_le.mp h)
  rw [UInt32.toNat_div, hsub, UInt16.toNat_toUInt32] at hlt
  have hthousand : UInt32.toNat 1000 = 1000 := rfl
  rw [hthousand] at hlt
  omega

omit hs hp in
theorem cleared_keeps (w : Scripted) : Keeps interval start d i readings w { w with client :=
    { w.client with timeSincePing := 0, packetSendTimeMs := 0, packetState := .unknown } } :=
  keeps_same (fun h => ⟨h, UInt32.zero_le⟩) (List.suffix_refl _) (.refl _)

omit hs hp in
theorem pinged_keeps (now : UInt32) (w : Scripted) :
    Keeps interval start d i readings w { w with client := { w.client with timeSincePing := now } } :=
  keeps_client (.refl _) (.refl _) (List.suffix_refl _) (.refl _)

theorem keepAlive_keeps (hk : 0 < interval) (w : Scripted) :
    Keeps interval start d i readings w (keepAlive (scriptXio perform) (scriptApp perform) w) :=
  (keeps_rules hs hp hk).steps.keepAlive currentMs_keeps (callError_keeps hs hp _) cleared_keeps pinged_keeps w

/-- The keep-alive of a live connection, behind its reading. -/
theorem keepAlive_ready (hk : 0 < interval) (h : Steady interval start d i readings w) {r : UInt32}
    {rest : List (Option UInt32)} {es : List Polling.Event} (hw : watch (since i w) = es ++ [.poll r.toNat])
    (ht : w.ticks = some r :: rest) (hlive : LiveAt interval start (moment w))
    (hping : (mqttCodecPing w.mallocs).1.isSome) (hpolling : (moment w).polling = false)
    (hl : ∀ m ∈ since i w, Live interval start m)
    (hspaced : Polled d start es → Spaced (1000 * interval.toNat) d start es)
    (hwatched : Polled d start es → Watched (1000 * interval.toNat) start es)
    (hne : (keepAlive (scriptXio perform) (scriptApp perform) w).ticks ≠ []) :
    Ready interval start d i readings (keepAlive (scriptXio perform) (scriptApp perform) w) := by
  obtain ⟨v, hv⟩ : ∃ v : Scripted, v = { w with ticks := rest } := ⟨_, rfl⟩
  have hc : w.currentMs = (some r, v) := by simp only [World.currentMs, ht, hv]
  have hsteady : Steady interval start d i readings v := by
    rw [hv]
    exact h.same (fun hx => ⟨hx, UInt32.le_refl _⟩) (by rw [ht]; exact List.suffix_cons _ _) (.refl _)
  have hvw : v.client = w.client ∧ v.mallocs = w.mallocs ∧ since i v = since i w := by rw [hv]; exact ⟨rfl, rfl, rfl⟩
  have hsince : since i w ≠ [] := by
    intro he
    rw [he] at hw
    exact absurd hw.symm (by simp [watch])
  unfold keepAlive at hne ⊢
  rw [hc] at hne ⊢
  simp only at hne ⊢
  split at hne
  · rename_i htimeout
    rw [if_pos htimeout]
    have hready := report_ready hs hp hk hsteady (by rw [hvw.1]; exact hlive.socketConnected)
      (by rw [hvw.1]; exact hlive.transport) hne
    exact (cleared_keeps _).ready hne hready
  · rename_i htimeout
    rw [if_neg htimeout]
    split at hne
    · rename_i hdue
      rw [if_pos hdue]
      rcases hpacket : mqttCodecPing v.mallocs with ⟨_ | packet, ms⟩
      · rw [← hvw.2.1, hpacket] at hping
        cases hping
      · have hbytes : packet.bytes = pingreqPacket := constructHeaderOnly_bytes hpacket
        rw [hpacket] at hne
        obtain ⟨u, hu⟩ : ∃ u : Scripted, u = { v with mallocs := ms } := ⟨_, rfl⟩
        have hsteadyu : Steady interval start d i readings u := by
          rw [hu]
          exact hsteady.same (fun hx => ⟨hx, UInt32.le_refl _⟩) (List.suffix_refl _) (.refl _)
        have huw : u.client.xioHandle = w.client.xioHandle ∧ since i u = since i w := by
          rw [hu, hv]
          exact ⟨rfl, rfl⟩
        simp only [hbytes, ← hu] at hne ⊢
        have hready : (sendPacketItem (scriptXio perform) pingreqPacket u).2.ticks ≠ [] →
            Ready interval start d i readings (sendPacketItem (scriptXio perform) pingreqPacket u).2 := by
          refine ping_ready hs hp hk hsteadyu (by rw [huw.1]; exact hlive.transport) ?_
          rw [huw.2, hw]
          intro _ ms hpolled
          have hpoll := Throughout.of_append hpolled
          have hes := Throughout.of_append hpoll
          exact spaced_poll_send (hspaced hes) (hwatched hes) hpoll
        have hms : Keeps interval start d i readings (sendPacketItem (scriptXio perform) pingreqPacket u).2 _ := currentMs_keeps _
        split at hne
        · rename_i hnow
          rw [hnow] at hms
          exact hms.ready hne (hready (ticks_ne_nil hms.ticks hne))
        · rename_i now x hnow
          rw [hnow] at hms
          have hpinged := hms.trans (pinged_keeps now x)
          exact hpinged.ready hne (hready (ticks_ne_nil hpinged.ticks hne))
    · rename_i hdue
      rw [if_neg hdue]
      refine ⟨⟨hsteady, ?_⟩, ?_⟩
      · rw [hvw.2.2, hw]
        intro _ _
        refine watched_poll fun a ha => ?_
        rw [hvw.1, show w.client.keepAliveInterval = interval from hlive.interval] at hdue
        have hlast : lastSend (watch (since i w)) = some a := by rw [hw, lastSend_poll]; exact ha
        exact not_due (h.sent hl hlive.transport a hlast) ((h.clock hl hsince r (by rw [ht]; exact List.mem_cons_self)).2 a hlast) hdue
      · rw [hv]; exact hpolling

/-- What `mqtt_client_dowork` does when the transport has worked. -/
theorem worked_keeps (hk : 0 < interval) (w : Scripted) : Keeps interval start d i readings w
    (if w.client.socketConnected ∧ w.client.clientConnected ∧ 0 < w.client.keepAliveInterval then
      keepAlive (scriptXio perform) (scriptApp perform) w else w) := by
  split
  · exact keepAlive_keeps hs hp hk w
  · exact Keeps.rfl

theorem worked_ready (hk : 0 < interval) (h : Settled interval start d i readings w) (handle : XioHandle) (result : Nat)
    {before : Moment} (hb : before.polling = true)
    (hw' : w' = writeNote (.answered (.dowork handle) result before (moment w)) w)
    (hne : (if w'.client.socketConnected ∧ w'.client.clientConnected ∧ 0 < w'.client.keepAliveInterval then
      keepAlive (scriptXio perform) (scriptApp perform) w' else w').ticks ≠ []) :
    Ready interval start d i readings (if w'.client.socketConnected ∧ w'.client.clientConnected ∧ 0 < w'.client.keepAliveInterval
      then keepAlive (scriptXio perform) (scriptApp perform) w' else w') := by
  have hkeep : Keeps interval start d i readings w' _ := worked_keeps hs hp hk w'
  have hpolling : (moment w').polling = false := by rw [hw']; exact polling_note _ _
  have hticks : w'.ticks = w.ticks := by rw [hw']; rfl
  obtain ⟨r, rest, hcons, -⟩ := currentMs_reading (by rw [← hticks]; exact ticks_ne_nil hkeep.ticks hne) h.ticks
  have hsteady : Steady interval start d i readings w' := by rw [hw']; exact h.poll hs hb hcons
  by_cases hl : since i w' ≠ [] ∧ ∀ n ∈ since i w', Live interval start n
  · obtain ⟨hne', hl⟩ := hl
    have hsince : since i w' = since i w ++ [.answered (.dowork handle) result before (moment w)] := by
      rcases since_note i (.answered (.dowork handle) result before (moment w)) w with he | ⟨he, -⟩
      · rw [hw']; exact he
      · rw [hw'] at hne'
        exact absurd he hne'
    have hwatch : watch (since i w') = watch (since i w) ++ [.poll r.toNat] := by
      rw [hsince, watch_append, watch_poll handle result hb hcons]
    have hl' := hl
    rw [hsince] at hl'
    obtain ⟨hlw, hlive, hping⟩ := live_init hl'
    have hat : LiveAt interval start (moment w') := by
      rw [hw']
      exact ⟨hlive.clientConnected, hlive.socketConnected, hlive.transport, hlive.interval, hlive.closing, hlive.clock⟩
    have hinterval : w'.client.keepAliveInterval = interval := hat.interval
    have hworks : w'.client.socketConnected = true ∧ w'.client.clientConnected = true ∧ 0 < w'.client.keepAliveInterval :=
      ⟨hat.socketConnected, hat.clientConnected, by rw [hinterval]; exact hk⟩
    rw [if_pos hworks] at hne ⊢
    have hbuilt : (mqttCodecPing w'.mallocs).1.isSome := by rw [hw']; exact hping hb
    exact keepAlive_ready hs hp hk hsteady hwatch (hticks.trans hcons) hat hbuilt hpolling hl
      (h.spaced _ List.prefix_rfl hlw) (h.watched hlw) hne
  · refine hkeep.ready hne ⟨⟨hsteady, fun hl' _ => ?_⟩, hpolling⟩
    by_cases hnil : since i w' = []
    · rw [hnil]; exact watched_nil
    · exact absurd ⟨hnil, hl'⟩ hl

/-! ## Calls -/

/-- A dowork of the application. -/
theorem mqttClientDowork_keeps (hk : 0 < interval) (w : Scripted) : Keeps interval start d i readings w
    (mqttClientDowork (scriptXio perform) (scriptApp perform) (writeNote (.called (.api .dowork) (moment w)) w)) := by
  obtain ⟨v, hv⟩ : ∃ v, v = writeNote (.called (.api .dowork) (moment w)) w := ⟨_, rfl⟩
  rw [← hv]
  cases hx : w.client.xioHandle with
  | none =>
    have hend : mqttClientDowork (scriptXio perform) (scriptApp perform) v = v := by simp [mqttClientDowork, hv, writeNote, hx]
    rw [hend, hv]
    exact note_keeps hs (.refl _) (.refl _) (by simp [Note.polls, moment, hx])
  | some handle =>
    have hpolling : (moment v).polling = true := by
      rw [hv, polling_note]
      simp [Note.polls, moment, hx]
    obtain ⟨q, hq⟩ : ∃ q, q = (nextReaction (.dowork handle) v).2 := ⟨_, rfl⟩
    have hqv : Settled interval start d i readings v → Settled interval start d i readings q := by
      rw [hq]
      exact fun h => h.same (fun hx => ⟨hx, UInt32.le_refl _⟩) (List.suffix_refl _) (.refl _)
    have hasked : Ready interval start d i readings w →
        Ready interval start d i readings (writeNote (.asked (.dowork handle) (moment q)) q) := by
      intro hr
      have hcalled : Settled interval start d i readings v := by
        rw [hv]
        exact hr.toSettled.quiet hs (.refl _) (.refl _)
      exact ⟨(hqv hcalled).quiet hs (.refl _) (.refl _), polling_note _ _⟩
    obtain ⟨u, hu⟩ : ∃ u, u = ((nextReaction (.dowork handle) v).1.calls.map Entry.transport).foldl (fun w c => perform c w)
        (writeNote (.asked (.dowork handle) (moment q)) q) := ⟨_, rfl⟩
    have hcalls : Keeps interval start d i readings (writeNote (.asked (.dowork handle) (moment q)) q) u := by
      rw [hu]
      exact (keeps_script hs hp).calls _ _
    obtain ⟨x, hworked⟩ : ∃ x, x =
        writeNote (.answered (.dowork handle) (nextReaction (.dowork handle) v).1.result (moment q) (moment u)) u := ⟨_, rfl⟩
    have hend : mqttClientDowork (scriptXio perform) (scriptApp perform) v =
        if x.client.socketConnected ∧ x.client.clientConnected ∧ 0 < x.client.keepAliveInterval then
          keepAlive (scriptXio perform) (scriptApp perform) x else x := by
      have hvx : v.client.xioHandle = some handle := by rw [hv]; exact hx
      simp only [mqttClientDowork, hvx, hworked, hu, hq]
      rfl
    have hkeep : Keeps interval start d i readings x _ := worked_keeps hs hp hk x
    rw [hend]
    have hxu : x.ticks = u.ticks := by rw [hworked]; rfl
    have huw : u.ticks <:+ w.ticks := by
      have hqw : q.ticks = w.ticks := by rw [hq, hv]; rfl
      rw [← hqw]; exact hcalls.ticks
    refine ⟨hkeep.ticks.trans (by rw [hxu]; exact huw), fun hne hr => ?_⟩
    have hu' := hcalls.ready (by rw [← hxu]; exact ticks_ne_nil hkeep.ticks hne) (hasked hr)
    refine worked_ready hs hp hk hu'.toSettled handle _ ?_ hworked hne
    rw [hq]; exact hpolling

omit hp in
theorem arrive_keeps {c : Entry} (hc : c ≠ .api .dowork) (w : Scripted) : Keeps interval start d i readings w (arrive c w) := by
  have hpolls : (Note.called c (moment w)).polls = false := by
    unfold Note.polls
    split
    · rename_i he
      simp only [Note.called.injEq] at he
      exact absurd he.1 hc
    · rfl
  have hnote : Keeps interval start d i readings w (writeNote (.called c (moment w)) w) := note_keeps hs (.refl _) (.refl _) hpolls
  unfold arrive
  simp only
  split
  · exact hnote.trans (keeps_client (.refl _) (.refl _) (List.suffix_refl _) (.refl _))
  · exact hnote

omit hp in
/-- Another transport: where the connection was live, it had one. -/
theorem takeOptions_keeps (h : XioHandle) (mqttOptions : MqttClientOptions) (w : Scripted) : Keeps interval start d i readings w
    (takeOptions h mqttOptions (writeNote (.called (.api (.connect h mqttOptions)) (moment w)) w)).2 := by
  obtain ⟨n, hn⟩ : ∃ n, n = Note.called (.api (.connect h mqttOptions)) (moment w) := ⟨_, rfl⟩
  have hquiet : watchEvent n = none := by rw [hn]; rfl
  obtain ⟨v, hv⟩ : ∃ v, v = (takeOptions h mqttOptions w).2 := ⟨_, rfl⟩
  have hend : (takeOptions h mqttOptions (writeNote (.called (.api (.connect h mqttOptions)) (moment w)) w)).2 = writeNote n v := by
    rw [hn, hv]; rfl
  have hvw : v.ticks = w.ticks ∧ v.out = w.out ∧ v.client.packetSendTimeMs = w.client.packetSendTimeMs := by
    rw [hv]; exact ⟨rfl, rfl, rfl⟩
  rw [hend]
  refine ⟨by rw [← hvw.1]; exact List.suffix_refl _, fun _ hr => ⟨?_, by rw [polling_note, hn]; rfl⟩⟩
  refine hr.toSettled.quiet_of hs hquiet (by rw [hn, hvw.1]; rfl) ?_ (by rw [hvw.1]) (by rw [hvw.2.1])
  intro hlive
  have hat := hlive.at_moment.transport
  rw [hn] at hat
  exact ⟨hat, hvw.2.2⟩

/-! ## Runs -/

theorem mqttClientConnect_keeps (h : XioHandle) (mqttOptions : MqttClientOptions) (w : Scripted) :
    Keeps interval start d i readings w (mqttClientConnect (scriptXio perform) (some h) mqttOptions
      (writeNote (.called (.api (.connect h mqttOptions)) (moment w)) w)).2 := by
  have htake : Keeps interval start d i readings w (takeOptions h mqttOptions
      (writeNote (.called (.api (.connect h mqttOptions)) (moment w)) w)).2 := takeOptions_keeps hs h mqttOptions w
  exact mqttClientConnect_of (R := Keeps interval start d i readings) Keeps.trans h mqttOptions _ (fun _ => htake)
    (fun _ => htake.trans ((keeps_script hs hp).askTransport (x := .openIo h) (by trivial) _))
    fun _ => keeps_client (.refl _) (.refl _) (List.suffix_refl _) (.refl _)

theorem enter_keeps (hk : 0 < interval) (c : Entry) (w : Scripted) :
    Keeps interval start d i readings w (enter (scriptXio perform) (scriptApp perform) c (arrive c w)) := by
  have hr : Rules (scriptXio perform) (scriptApp perform) (Keeps interval start d i readings) := keeps_rules hs hp hk
  have hset : ∀ {v v' : Scripted}, v'.client.xioHandle = v.client.xioHandle →
      v'.client.packetSendTimeMs = v.client.packetSendTimeMs → v'.ticks = v.ticks → v'.out = v.out →
      Keeps interval start d i readings v v' := by
    intro v v' hx ht hticks hout
    exact keeps_client hx ht (by rw [hticks]) (by rw [hout])
  cases c with
  | transport c =>
    have ha : Keeps interval start d i readings w (arrive (.transport c) w) := arrive_keeps hs (by simp) w
    refine ha.trans ?_
    cases c with
    | openComplete r => exact hr.onOpenComplete r _ fun _ _ => hset (.refl _) (.refl _) (.refl _) (.refl _)
    | bytesReceived buffer => exact hr.steps.onBytesReceived (recvComplete_keeps hs hp hk) buffer _
    | ioError => exact hr.steps.onIoError _
    | sendComplete r => exact hr.steps.sendComplete r _
    | closeComplete =>
      have hdrop : ∀ v : Scripted, Keeps interval start d i readings v
          { v with client := { v.client with socketConnected := false, clientConnected := false } } :=
        fun _ => hset (.refl _) (.refl _) (.refl _) (.refl _)
      exact (hdrop _).trans (callDisconnected_keeps hs hp _)
  | api c =>
    by_cases hc : c = .dowork
    · subst hc
      exact mqttClientDowork_keeps hs hp hk w
    · have ha : Keeps interval start d i readings w (arrive (.api c) w) := arrive_keeps hs (by simpa using hc) w
      cases c with
      | connect h mqttOptions => exact mqttClientConnect_keeps hs hp h mqttOptions w
      | publish msgHandle => exact ha.trans (hr.steps.mqttClientPublish msgHandle _)
      | subscribe packetId subscribeList => exact ha.trans (hr.steps.mqttClientSubscribe packetId subscribeList _)
      | unsubscribe packetId unsubscribeList => exact ha.trans (hr.steps.mqttClientUnsubscribe packetId unsubscribeList _)
      | disconnect callback =>
        refine ha.trans (hr.mqttClientDisconnect callback _ fun v _ hwv => ?_)
        exact hwv.trans (keeps_same (fun h => absurd (.refl _) h) (List.suffix_refl _) (.refl _))
      | dowork => exact absurd (.refl _) hc

end Client

theorem perform_keeps (hs : readings.Pairwise (· ≤ ·)) (hk : 0 < interval) (n : Nat) (c : Entry) (w : Scripted) :
    Keeps interval start d i readings w (perform n c w) := by
  induction n generalizing c w with
  | zero => exact Keeps.rfl
  | succ n ih => exact enter_keeps hs ih hk c w

theorem performAll_keeps (hs : readings.Pairwise (· ≤ ·)) (hk : 0 < interval) (n : Nat) (calls : List Entry) (w : Scripted) :
    Keeps interval start d i readings w (performAll n calls w) :=
  performAll_of (fun _ => Keeps.rfl) Keeps.trans (perform_keeps hs hk n) calls w

/-- On a live stretch, `start` is a time that none of its clock readings is before, and the polls
    are those of `mqtt_client_dowork`. -/
theorem keepAlive_spaced (n : Nat) (calls : List Entry) (msgRecv opCallback onErrorCallBack : Bool) (mallocs : Mallocs)
    (readings : List UInt32) (transport : List Reaction) (application : List (List ApiCall)) (interval : UInt16)
    (start d : Nat) (before stretch after : List Note) (hs : readings.Pairwise (· ≤ ·)) (hk : 0 < interval)
    (hread : (clocked n calls (.init msgRecv opCallback onErrorCallBack) mallocs readings transport application).ticks ≠ [])
    (hnotes : (clocked n calls (.init msgRecv opCallback onErrorCallBack) mallocs readings transport application).out.notes =
      before ++ stretch ++ after)
    (hlive : ∀ n ∈ stretch, Live interval start n) (hpolled : Polled d start (watch stretch)) :
    Spaced (1000 * interval.toNat) d start (watch stretch) := by
  obtain ⟨w, hw⟩ : ∃ w, w = scripted (.init msgRecv opCallback onErrorCallBack) mallocs (readings.map some) transport application :=
    ⟨_, rfl⟩
  have hnone : since before.length w = [] := by rw [hw]; exact List.drop_nil
  have hstart : Ready interval start d before.length readings w := by
    refine ⟨⟨⟨by rw [hw]; exact List.suffix_refl _, ?_, ?_, ?_⟩, ?_⟩, by rw [hw]; rfl⟩
    · rw [hnone]
      intro notes hp _ _
      rw [List.prefix_nil.mp hp]
      exact spaced_nil
    · rw [hnone]
      intro _ _ a ha
      cases ha
    · rw [hnone]
      exact fun _ hne => absurd (.refl _) hne
    · rw [hnone]
      exact fun _ _ => watched_nil
  have hrun : Keeps interval start d before.length readings w (performAll n calls w) := performAll_keeps hs hk n calls w
  unfold clocked at hread hnotes
  rw [← hw] at hread hnotes
  refine (hrun.ready hread hstart).spaced stretch ?_ hlive hpolled
  unfold since
  rw [hnotes, List.append_assoc, List.drop_left]
  exact List.prefix_append _ _

def secondReadings : List UInt32 := [1000, 2000, 3000, 5000, 7000, 7100, 7200, 9000]

/-- After its CONNACK the client subscribes at 3000, and sends a PINGREQ at 7100, read at 7000. -/
def polledRun : Scripted :=
  clocked 4
    [.api (.connect 0 fourSeconds), .api .dowork, .api (.subscribe 1 [⟨.ofBlock [0x78], .deliverAtMostOnce⟩]), .api .dowork,
      .api .dowork]
    (.init true true true) [] secondReadings
    [⟨[.openComplete .ok], 0⟩, ⟨[], 0⟩, ⟨[.bytesReceived acceptedConnack], 0⟩] []

theorem polledRun_spaced :
    watch (polledRun.out.notes.drop 11) = [.poll 2000, .send 3000 false, .poll 5000, .poll 7000, .send 7100 true] ∧
      Spaced 4000 3000 1500 (watch (polledRun.out.notes.drop 11)) := by
  have hread : polledRun.ticks ≠ [] := by decide +kernel
  have hnotes : polledRun.out.notes = polledRun.out.notes.take 11 ++ polledRun.out.notes.drop 11 ++ [] := by
    rw [List.append_nil, List.take_append_drop]
  have hlive : ∀ n ∈ polledRun.out.notes.drop 11, Live 4 1500 n := by decide +kernel
  have hpolled : Polled 3000 1500 (watch (polledRun.out.notes.drop 11)) := by decide +kernel
  exact ⟨by decide +kernel,
    keepAlive_spaced 4 _ true true true [] secondReadings _ [] 4 1500 3000 _ _ [] (by decide) (by decide) hread hnotes hlive hpolled⟩

end UMqtt.Client.KeepAlive

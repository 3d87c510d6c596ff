/-
  UMqtt.Client.Drain — two linked clients that keep working come to rest.

  A packet stands for the rest of its handshake (`Sent.chain`), at most four packets. So all that
  the two clients ever get is bounded by what was published (`Joined.bounded`), also where their
  applications publish out of callbacks. A round in which both work in full either gets a packet,
  or leaves nothing but what is on its way to the left one; and two rounds in a row that get
  nothing leave nothing at all. Hence `settled_rounds`.
-/

import UMqtt.Client.Handshake

namespace UMqtt.Client.Peers

open UMqtt.Lib UMqtt.Crt UMqtt.Codec UMqtt.Io
open OverSocket (Sys)

/-! ## How many packets there can be -/

namespace Sent

/-- The packets of a handshake from this one on, this one included. -/
def chain : Sent → Nat
  | publish p _ _ => if p.qosValue = .deliverExactlyOnce then 4 else if p.qosValue = .deliverAtLeastOnce then 2 else 1
  | ack .pubrec _ => 3
  | ack .pubrel _ => 2
  | ack _ _ => 1

def total (sent : List Sent) : Nat := (sent.map chain).sum

@[simp] theorem total_nil : total [] = 0 := rfl

@[simp] theorem total_cons (s : Sent) (sent : List Sent) : total (s :: sent) = s.chain + total sent := by
  simp only [total, List.map_cons, List.sum_cons]

@[simp] theorem total_append (sent sent' : List Sent) : total (sent ++ sent') = total sent + total sent' := by
  simp only [total, List.map_append, List.sum_append]

theorem total_sublist {sent sent' : List Sent} (h : sent.Sublist sent') : total sent ≤ total sent' := by
  induction h with
  | slnil => exact Nat.le_refl _
  | cons s _ ih => rw [total_cons]; omega
  | cons_cons s _ ih => rw [total_cons, total_cons]; omega

/-- A packet that is got is one, and its reply stands for the rest. -/
theorem chain_reply (s : Sent) : s.chain = 1 + total s.reply := by
  cases s with
  | publish p ok plain => cases hq : p.qosValue <;> simp [chain, reply, hq]
  | ack kind packetId => cases kind <;> rfl

theorem total_reply (got : List Sent) : total got = got.length + total (got.flatMap reply) := by
  induction got with
  | nil => rfl
  | cons s got ih =>
    rw [total_cons, List.flatMap_cons, total_append, List.length_cons, chain_reply s]
    omega

/-- What is sent is an acknowledgement or a message, and a message stands for four packets at most. -/
theorem total_le (sent : List Sent) : total sent ≤ total (sent.flatMap acks) + 4 * (sent.flatMap contents).length := by
  induction sent with
  | nil => exact Nat.le_refl _
  | cons s sent ih =>
    rw [total_cons, List.flatMap_cons, List.flatMap_cons, total_append, List.length_append]
    cases s with
    | publish p ok plain =>
      have hchain : (publish p ok plain).chain ≤ 4 := by
        simp only [chain]
        split
        · omega
        · split <;> omega
      have hcontents : (publish p ok plain).contents.length = 1 := rfl
      omega
    | ack kind packetId =>
      have hacks : total (ack kind packetId).acks = (ack kind packetId).chain := by simp [acks]
      omega

end Sent

section Bounded

variable {taken : Prop} {h : XioHandle} {gotA keptA gotB keptB : List Sent} {l : Link}

/-- What one side has got, and what for: at most what the other side has sent. -/
theorem Flow.total_le {kept got sgot : List Sent} {sender : Sys} {stream : List UInt8} {c : CodecInstance}
    (hf : Flow h kept got sender stream c) (hs : Talking taken h sgot (sgot.flatMap Sent.reply) [] kept sender) :
    Sent.total got + sgot.length ≤ Sent.total sgot + 4 * (published sender).length := by
  obtain ⟨rest, -, hkept, -⟩ := hf
  obtain ⟨sent, hsub, hacks, hcontents, -⟩ := hs.sent
  have hgot : Sent.total got ≤ Sent.total sent :=
    Sent.total_sublist ((List.sublist_append_left got rest).trans (hkept ▸ hsub))
  have hsent := Sent.total_le sent
  have hreply := Sent.total_reply sgot
  rw [hacks] at hsent
  have hlen : (sent.flatMap Sent.contents).length = (published sender).length := by
    rw [List.append_nil] at hcontents
    rw [hcontents, List.length_map]
  omega

/-- Four packets for each message that was published, at most. -/
theorem Joined.bounded (hj : Joined taken h gotA keptA gotB keptB l) :
    gotA.length + gotB.length ≤ 4 * ((published l.a).length + (published l.b).length) := by
  have hb := hj.toB.total_le hj.a
  have ha := hj.toA.total_le hj.b
  omega

end Bounded

/-! ## A client that works in full -/

section Full

variable {taken : Prop} {h : XioHandle} {gotA keptA gotB keptB : List Sent} {l : Link}

/-- What a full `mqtt_client_dowork` of the left client does, in which it got `now` and its socket
    came to hold `ext` besides `kept`. -/
structure Worked (h : XioHandle) (kept now ext : List Sent) (l l' : Link) : Prop where
  b : l'.b = l.b
  inbox : l'.toA = []
  outbox : l'.toB = l.toB ++ fresh h l.a l'.a
  unanswered : now = [] → ext = []
  accepted : kept.flatMap Sent.bytes <+: accepted (l'.a.out.sockets h).events
  due : due l'.a ≤ due l.a
  came : (l.b.out.sockets h).pendingIoList = [] → now = [] → l.toA = []

theorem full_joined (n : Nat) {act : Act} (ha : act.Full h l.a l.toA) (hj : Joined taken h gotA keptA gotB keptB l) :
    ∃ now ext, Joined taken h (gotA ++ now) (keptA ++ ext) gotB keptB (step n h l (.a, act)) ∧
      Worked h keptA now ext l (step n h l (.a, act)) := by
  cases act with
  | publish m => exact ha.elim
  | dowork answers sizes =>
    obtain ⟨hf, hcovers, hall⟩ := ha
    obtain ⟨rest, pre, hkept, hacc, hcoming⟩ := hj.toA.coming hj.b
    have hpieces := cut_flatten sizes l.toA
    rw [hall, List.append_nil] at hpieces
    rw [← hpieces] at hcoming
    obtain ⟨now, rest', pre', hrest, hpre, hsince, hcoming', hcover⟩ :=
      dowork_talking n hf (cut_ne_nil sizes l.toA) hj.a hcoming
    obtain ⟨ext, hext, htalk⟩ := hsince.talking
    refine ⟨now, ext, ⟨htalk, hj.b, hj.toB.sent hsince.onward, rest', pre', ?_, ?_, hcoming'.midway⟩,
      ⟨rfl, hall, rfl, hext, hcover hcovers, hsince.due, fun hpending hnow => ?_⟩⟩
    · rw [hkept, hrest, List.append_assoc]
    · rw [← hpieces, hpre, ← List.append_assoc, ← List.flatMap_append] at hacc
      rw [show (step n h l (.a, .dowork answers sizes)).toA = [] from hall, List.append_nil]
      exact hacc
    · -- Nothing waits behind what has come, so that what is midway is nothing.
      have hstream := hcoming'.stream
      rw [hpending, List.flatMap_nil, List.append_nil] at hstream
      have hdone := hcoming'.midway.done hstream
      rw [hdone, List.flatMap_nil] at hstream
      rw [hnow, hstream, List.flatMap_nil, hpieces] at hpre
      exact (List.append_eq_nil_iff.mp hpre).2

/-- Where all that the socket holds is accepted, nothing waits. -/
theorem Talking.emptied {got replies kept : List Sent} {debt : List Content} {w : Sys}
    (ht : Talking taken h got replies debt kept w) (ha : kept.flatMap Sent.bytes <+: accepted (w.out.sockets h).events) :
    (w.out.sockets h).pendingIoList = [] := by
  have hbytes := ht.held.transmitted.bytes
  obtain ⟨done, rest, -, hwaiting⟩ := ht.held.waiting
  rw [contents_buffers] at hbytes
  have hlen := ha.length_le
  rw [← hbytes, List.length_append] at hlen
  generalize (w.out.sockets h).pendingIoList = pending at hwaiting hlen ⊢
  cases hwaiting with
  | none => rfl
  | some hleft hsuffix =>
    have hpos := List.length_pos_iff.mpr hleft
    simp only [List.flatMap_cons, List.length_append] at hlen
    omega

/-- What is accepted where nothing waits is all that the socket holds. -/
theorem Talking.accepted_all {got replies kept : List Sent} {debt : List Content} {w : Sys}
    (ht : Talking taken h got replies debt kept w) (hp : (w.out.sockets h).pendingIoList = []) :
    accepted (w.out.sockets h).events = kept.flatMap Sent.bytes := by
  have hbytes := ht.held.transmitted.bytes
  rwa [hp, List.flatMap_nil, List.append_nil, contents_buffers] at hbytes

theorem Quiescent.swap (hq : Quiescent h l) : Quiescent h (swap l) := ⟨hq.b, hq.a, hq.toB, hq.toA⟩

/-- A client at rest that works in full stays at rest. -/
theorem full_quiescent (n : Nat) {act : Act} (ha : act.Full h l.a l.toA) (hj : Joined taken h gotA keptA gotB keptB l)
    (hq : Quiescent h l) : Quiescent h (step n h l (.a, act)) := by
  obtain ⟨now, ext, hj', hw⟩ := full_joined n ha hj
  have hnow : now = [] := by
    have hflow := hj.toA
    rw [hq.toA] at hflow
    have hgot := hflow.all_got hj.b hq.b
    obtain ⟨rest, -, hkept, -⟩ := hj'.toA
    have hlen := congrArg List.length hkept
    rw [← hgot, List.length_append, List.length_append] at hlen
    exact List.length_eq_zero_iff.mp (by omega)
  have hext := hw.unanswered hnow
  have htalk := hj'.a
  rw [hext, List.append_nil] at htalk
  have hpending := htalk.emptied hw.accepted
  refine ⟨hpending, ?_, hw.inbox, ?_⟩
  · rw [hw.b]
    exact hq.b
  · rw [hw.outbox, hq.toB, fresh, htalk.accepted_all hpending, hj.a.accepted_all hq.a, List.drop_length]
    rfl

end Full

/-! ## Rounds -/

section Rounds

variable {taken : Prop} {h : XioHandle} {gotA keptA gotB keptB : List Sent} {l l' : Link}

/-- Nothing is left but what is on its way to the left client. -/
structure Still (h : XioHandle) (l : Link) : Prop where
  a : (l.a.out.sockets h).pendingIoList = []
  b : (l.b.out.sockets h).pendingIoList = []
  toB : l.toB = []

/-- What a round from `l` to `l'` does, in which the clients had got `before` packets and then
    have got `after`. -/
structure Turned (h : XioHandle) (before after : Nat) (l l' : Link) : Prop where
  due : due l'.a + due l'.b ≤ due l.a + due l.b
  more : before ≤ after
  still : after = before → Still h l'
  rest : after = before → Still h l → Quiescent h l
  quiescent : Quiescent h l → Quiescent h l'

theorem round_joined (n : Nat) {actA actB : Act} (hj : Joined taken h gotA keptA gotB keptB l)
    (ha : actA.Full h l.a l.toA) (hl : l' = step n h l (.a, actA)) (hb : actB.Full h l'.b l'.toB) :
    ∃ gotA' keptA' gotB' keptB', Joined taken h gotA' keptA' gotB' keptB' (step n h l' (.b, actB)) ∧
      Turned h (gotA.length + gotB.length) (gotA'.length + gotB'.length) l (step n h l' (.b, actB)) := by
  obtain ⟨nowA, extA, hjA, hwA⟩ := full_joined n ha hj
  rw [← hl] at hjA hwA
  -- The right side is the left one of the link seen from there.
  obtain ⟨nowB, extB, hjB, hwB⟩ := @full_joined taken h _ _ _ _ (swap l') n actB hb hjA.swap
  refine ⟨_, _, _, _, hjB.swap, ?_, ?_, ?_, ?_, ?_⟩
  · have hdueA := hwA.due
    have hdueB : due (step n h l' (.b, actB)).b ≤ due l'.b := hwB.due
    have hsame : (step n h l' (.b, actB)).a = l'.a := rfl
    rw [hwA.b] at hdueB
    rw [hsame]
    omega
  · simp only [List.length_append]
    omega
  · intro hnone
    simp only [List.length_append] at hnone
    have hnowA : nowA = [] := List.length_eq_zero_iff.mp (by omega)
    have hnowB : nowB = [] := List.length_eq_zero_iff.mp (by omega)
    have htalkA := hjA.a
    have htalkB := hjB.a
    rw [hwA.unanswered hnowA, List.append_nil] at htalkA
    rw [hwB.unanswered hnowB, List.append_nil] at htalkB
    exact ⟨htalkA.emptied hwA.accepted, htalkB.emptied hwB.accepted, hwB.inbox⟩
  · intro hnone hstill
    simp only [List.length_append] at hnone
    have hnowA : nowA = [] := List.length_eq_zero_iff.mp (by omega)
    exact ⟨hstill.a, hstill.b, hwA.came hstill.b hnowA, hstill.toB⟩
  · intro hq
    have hq' : Quiescent h l' := hl ▸ full_quiescent n ha hj hq
    exact (full_quiescent n hb hjA.swap hq'.swap).swap

/-- Rounds upon rounds: `budget` bounds the packets that are still to be got. A round that gets
    none leaves the link still, and if it was still before, at rest. -/
theorem rounds_quiescent (n : Nat) {k : Nat} (hr : Rounds n h k l l') :
    ∀ {gotA keptA gotB keptB : List Sent} (budget : Nat), Joined taken h gotA keptA gotB keptB l →
      4 * (due l.a + due l.b) ≤ gotA.length + gotB.length + budget →
      (∃ gotA' keptA' gotB' keptB', Joined taken h gotA' keptA' gotB' keptB' l') ∧
        (Quiescent h l → Quiescent h l') ∧ (Still h l → 2 * budget + 1 ≤ k → Quiescent h l') ∧
        (2 * budget + 2 ≤ k → Quiescent h l') := by
  induction hr with
  | none l =>
    intro gotA keptA gotB keptB budget hj _
    exact ⟨⟨_, _, _, _, hj⟩, id, fun _ hk => by omega, fun hk => by omega⟩
  | @one k l l₁ l' actA actB ha hl hb _ ih =>
    intro gotA keptA gotB keptB budget hj hbudget
    obtain ⟨gotA', keptA', gotB', keptB', hj', ht⟩ := round_joined n hj ha hl hb
    have hmore := ht.more
    have hdue := ht.due
    by_cases hnone : gotA'.length + gotB'.length = gotA.length + gotB.length
    · obtain ⟨hjoined, hquiet, hstill, -⟩ := ih budget hj' (by omega)
      refine ⟨hjoined, fun hq => hquiet (ht.quiescent hq), fun hs _ => ?_, fun hk => ?_⟩
      · exact hquiet (ht.quiescent (ht.rest hnone hs))
      · exact hstill (ht.still hnone) (by omega)
    · -- A packet more: there is one less to come.
      have hbound := hj'.bounded
      have hpublished : (published (step n h l₁ (.b, actB)).a).length + (published (step n h l₁ (.b, actB)).b).length ≤
          due l.a + due l.b := by
        have hdue' := ht.due
        simp only [due] at hdue' ⊢
        omega
      obtain ⟨hjoined, hquiet, -, hrun⟩ := ih (budget - 1) hj' (by omega)
      exact ⟨hjoined, fun hq => hquiet (ht.quiescent hq), fun _ hk => hrun (by omega), fun hk => hrun (by omega)⟩

/-- From wherever an interleaving has left two linked clients, rounds in which both work in full
    bring everything to rest, at the latest after eight for each message published or still to be
    published, and two more. If no direct `send()` was hindered, all of it is then received and
    acknowledged. -/
theorem settled_rounds (n : Nat) {start l : Link} (hf : Fresh h start) (steps : List (Side × Act))
    (hs : ∀ s ∈ steps, s.2.Admitted) {k : Nat} (hr : Rounds n h k (run n h steps start) l)
    (hk : 8 * (due (run n h steps start).a + due (run n h steps start).b) + 2 ≤ k) :
    Quiescent h l ∧ (Unhindered start l → Completed l.a l.b ∧ Completed l.b l.a) := by
  obtain ⟨_, _, _, _, hj⟩ := run_joined n steps hs hf.joined
  obtain ⟨⟨_, _, _, _, hj'⟩, -, -, hquiet⟩ := rounds_quiescent n hr _ hj (Nat.le_add_left _ _)
  have hq := hquiet (by omega)
  refine ⟨hq, fun hu => ?_⟩
  exact ⟨hj'.completed hq hu.taken hu.enoughA hu.enoughB, hj'.swap.completed hq.swap hu.taken hu.enoughB hu.enoughA⟩

def fullWork (h : XioHandle) (w : Sys) (inbox : List UInt8) : Act :=
  .dowork ((w.out.sockets h).pendingIoList.map fun pending => .accepted pending.bytes.length) [inbox.length]

theorem fullWork_full (h : XioHandle) (w : Sys) (inbox : List UInt8) : (fullWork h w inbox).Full h w inbox := by
  refine ⟨?_, ?_, ?_⟩
  · intro hm
    obtain ⟨pending, -, hp⟩ := List.mem_map.mp hm
    cases hp
  · induction (w.out.sockets h).pendingIoList with
    | nil => trivial
    | cons pending rest ih => exact ⟨Nat.le_refl _, ih⟩
  · simp only [cut, List.take_length, List.drop_length]
    split
    · assumption
    · rfl

def workRounds (n : Nat) (h : XioHandle) : Nat → Link → Link
  | 0, l => l
  | k + 1, l =>
    let l' := step n h l (.a, fullWork h l.a l.toA)
    workRounds n h k (step n h l' (.b, fullWork h l'.b l'.toB))

theorem rounds_workRounds (n : Nat) (h : XioHandle) (k : Nat) (l : Link) : Rounds n h k l (workRounds n h k l) := by
  induction k generalizing l with
  | zero => exact .none l
  | succ k ih => exact .one (fullWork_full h _ _) rfl (fullWork_full h _ _) (ih _)

/-- The dialogue again, of which only the question is told. -/
theorem question_settled : Quiescent 0 (workRounds 0 0 18 (run 0 0 [(.a, .publish question)] linked)) ∧
    (Unhindered linked (workRounds 0 0 18 (run 0 0 [(.a, .publish question)] linked)) →
      Completed (workRounds 0 0 18 (run 0 0 [(.a, .publish question)] linked)).a
          (workRounds 0 0 18 (run 0 0 [(.a, .publish question)] linked)).b ∧
        Completed (workRounds 0 0 18 (run 0 0 [(.a, .publish question)] linked)).b
          (workRounds 0 0 18 (run 0 0 [(.a, .publish question)] linked)).a) :=
  settled_rounds 0 linked_fresh [(.a, .publish question)] (by simpa [Act.Admitted] using question_deliverable)
    (rounds_workRounds 0 0 18 _) (by decide +kernel)

end Rounds

end UMqtt.Client.Peers

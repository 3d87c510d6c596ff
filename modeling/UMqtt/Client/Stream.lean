/-
  UMqtt.Client.Stream — all that a client hands to one of its transports, in any run, as the
  server at the other end has to read it.

  `stream` is what the sends have handed over, one behind the other; `requests` is what has been
  asked for, in the order of the asking. `stream_run`: if what was asked for leaves nothing
  to the server that the codec does not check, a server reads the stream to its last byte, and
  reads just what was asked for.
-/

import UMqtt.Client.Prompts

namespace UMqtt.Client.Stream

open UMqtt.Lib UMqtt.Crt UMqtt.Codec UMqtt.Io UMqtt.Client UMqtt.Client.Prompts

def stream (h : XioHandle) (notes : List Note) : List UInt8 :=
  ((notes.filterMap Note.sent).filter fun s => s.1 = h).flatMap fun s => s.2

/-- What this note asks for on this transport. -/
def Note.requestOn (h : XioHandle) (n : Note) : Option Request :=
  if (Note.sends n).map Prod.fst = some h then Note.request n else none

/-- What is asked for on this transport, where it can be had. -/
def requests (h : XioHandle) (notes : List Note) : List Request := notes.filterMap (Note.requestOn h)

variable {n : Note} {h : XioHandle} {bytes : List UInt8} {r : Request} {notes : List Note}

theorem sends_some (hs : Note.sends n = some (h, bytes)) :
    ∃ r packet ms', Note.request n = some r ∧ r.encode (Note.moment n).mallocs = (some packet, ms') ∧ bytes = packet.bytes := by
  obtain ⟨r, hr, hhanded⟩ := Option.bind_eq_some_iff.mp hs
  unfold handed at hhanded
  split at hhanded
  · rename_i packet ms h' hp hticks hx
    refine ⟨r, packet, _, hr, Prod.ext hp rfl, ?_⟩
    exact (congrArg Prod.snd (Option.some.inj hhanded)).symm
  · cases hhanded

/-- Every note has the packet that it asks for sent. -/
theorem bytes_requested (hc : ∀ r, Note.request n = some r → r.Checked) (hs : Note.sends n = some (h, bytes)) :
    ∃ r, Note.requestOn h n = some r ∧ r.Checked ∧ r.Fits ∧ bytes = r.packet := by
  obtain ⟨r, packet, ms', hr, he, rfl⟩ := sends_some hs
  obtain ⟨hfits, hbytes⟩ := encode_built (hc r hr) he
  refine ⟨r, ?_, hc r hr, hfits, hbytes⟩
  rw [Note.requestOn, hs, Option.map_some, if_pos rfl, hr]

theorem stream_requests (hc : ∀ n ∈ notes, ∀ r, Note.requestOn h n = some r → r.Checked) :
    ((notes.filterMap Note.sends).filter fun s => s.1 = h).flatMap (fun s => s.2) = (requests h notes).flatMap Request.packet ∧
      ∀ r ∈ requests h notes, r.Fits := by
  induction notes with
  | nil => exact ⟨rfl, by simp [requests]⟩
  | cons n notes ih =>
    obtain ⟨hstream, hfits⟩ := ih fun m hm => hc m (List.mem_cons_of_mem n hm)
    unfold requests at hstream hfits ⊢
    by_cases hon : (Note.sends n).map Prod.fst = some h
    · obtain ⟨⟨h', bytes⟩, hs, rfl⟩ := Option.map_eq_some_iff.mp hon
      have hreq : Note.requestOn h' n = Note.request n := if_pos hon
      obtain ⟨r, hr, -, hf, rfl⟩ := bytes_requested (fun r hr => hc n List.mem_cons_self r (hreq.trans hr)) hs
      rw [List.filterMap_cons_some hs, List.filterMap_cons_some hr, List.filter_cons_of_pos (by simp), List.flatMap_cons,
        List.flatMap_cons, hstream]
      refine ⟨rfl, fun q hq => ?_⟩
      rcases List.mem_cons.mp hq with rfl | hq
      · exact hf
      · exact hfits q hq
    · have hr : Note.requestOn h n = none := if_neg hon
      rw [List.filterMap_cons_none hr]
      refine ⟨?_, hfits⟩
      cases hs : Note.sends n with
      | none => rw [List.filterMap_cons_none hs, hstream]
      | some s =>
        rw [hs, Option.map_some, Option.some.injEq] at hon
        rw [List.filterMap_cons_some hs, List.filter_cons_of_neg (by simpa using hon), hstream]

/-- In the run of a new client, a server reads all that is handed to a transport, to the last byte, as
    the packets that were asked for, in the order of the asking. -/
theorem stream_run (h : XioHandle) (n : Nat) (calls : List Entry) (msgRecv opCallback onErrorCallBack : Bool)
    (mallocs : Mallocs) (ticks : List (Option UInt32)) (transport : List Reaction) (application : List (List ApiCall))
    (hc : ∀ r ∈ requests h (performAll n calls
      (scripted (.init msgRecv opCallback onErrorCallBack) mallocs ticks transport application)).out.notes, r.Checked) :
    Wire.readClientPackets (stream h (performAll n calls
        (scripted (.init msgRecv opCallback onErrorCallBack) mallocs ticks transport application)).out.notes) =
      some ((requests h (performAll n calls
        (scripted (.init msgRecv opCallback onErrorCallBack) mallocs ticks transport application)).out.notes).map
          Request.meaning) := by
  obtain ⟨w, hw⟩ : ∃ w, w = performAll n calls
      (scripted (.init msgRecv opCallback onErrorCallBack) mallocs ticks transport application) := ⟨_, rfl⟩
  have hrun := new_client_answers n calls msgRecv opCallback onErrorCallBack mallocs ticks transport application
  rw [← hw] at hc hrun ⊢
  have hsent := (hrun.prompted throughout_nil).filterMap_announced
  rw [show w.out.notes.getLast?.bind Note.sends = none from hrun.calm.due, Option.toList_none, List.append_nil] at hsent
  have hchecked : ∀ m ∈ w.out.notes, ∀ r, Note.requestOn h m = some r → r.Checked := fun m hm r hr =>
    hc r (List.mem_filterMap.mpr ⟨m, hm, hr⟩)
  obtain ⟨hstream, hfits⟩ := stream_requests hchecked
  rw [stream, ← hsent, hstream]
  exact Wire.readClientPackets_flatMap fun r hr => readClientPacket_packet (hfits r hr)

def clientX : MqttClientOptions := { clientId := some (.ofBlock [0x78]) }

def ask : Message := Message.owned 7 (.ofBlock [0x74]) .deliverExactlyOnce [0x61, 0x62]

/-- The application publishes and subscribes out of the callback for the CONNACK, and is answered. -/
def asked : Scripted :=
  performAll 4 [.api (.connect 0 clientX), .transport (.bytesReceived acceptedConnack),
      .transport (.bytesReceived [0x50, 2, 0, 7]), .api (.disconnect none)]
    (scripted (.init true true true) [] [] [⟨[.openComplete .ok], 0⟩]
      [[.publish ask, .subscribe 5 [⟨.ofBlock [0x74], .deliverAtLeastOnce⟩]]])

theorem asked_understood :
    Wire.readClientPackets (stream 0 asked.out.notes) =
      some [.connect (carried clientX), .publish ⟨4, [0x74], some 7, [0x61, 0x62]⟩, .subscribe ⟨5, [([0x74], 1)]⟩,
        .pubrel 7, .disconnect] :=
  (stream_run 0 4 _ true true true [] [] _ _ (by decide +kernel)).trans (by decide +kernel)

end UMqtt.Client.Stream

/-
  UMqtt.Client.Peers — two clients, each of which receives what the other one sends.

  Each runs over its own socket, and what one socket accepts is on its way to the other. A
  `Step` is a call from outside on either side: `mqtt_client_publish`, or `mqtt_client_dowork`
  with what its system calls will do, `send()` as it is told and `recv()` in pieces of the given
  sizes of what is on its way. An application may publish out of its callbacks. So a run is any
  interleaving, and what is on its way is cut anywhere.

  `Delivered` is what a run owes at every moment: messages, acknowledgements, releases and
  completions each come in the order of what they answer, none of them twice. `Completed` is
  what it owes once everything is sent and received.
-/

import UMqtt.Client.OverSocket
import UMqtt.Client.RoundTrip
import UMqtt.Codec.MidFrame
import UMqtt.Io.Alone

namespace UMqtt.Client.Peers

open UMqtt.Lib UMqtt.Crt UMqtt.Codec UMqtt.Io
open OverSocket (Sys Outside)

/-! ## What the two applications see -/

/-- What a message that is published and the message that is received of it have in common.
    Without a QoS there is no packet id. -/
structure Content where
  qosValue : QosValue
  duplicateMsg : Bool
  serverRetain : Bool
  topicName : Option CString
  payload : List UInt8
  packetId : UInt16
  deriving DecidableEq, Repr

def content (m : Message) : Content :=
  ⟨m.qosInfo, m.isDuplicateMsg, m.isMessageRetained, m.getTopicName, m.payload,
    if m.qosInfo = .deliverAtMostOnce then 0 else m.packetId⟩

def publishedNote : OverSocket.Note → Option Message
  | .called (.publish m) _ => some m
  | _ => none

def published (w : Sys) : List Message := w.out.notes.filterMap publishedNote

/-- The messages that were passed to `mqtt_client_publish` or that the application still has to
    pass to it out of its callbacks, at most. -/
def due (w : Sys) : Nat := (published w).length + w.out.application.flatten.length

def received (w : Sys) : List Message := messages w.trace

def operations (w : Sys) : List Operation :=
  w.trace.filterMap fun e => match e with | .operation o => some o | _ => none

def ackId : AckKind → Operation → Option UInt16
  | .puback, .publishAck packetId => some packetId
  | .pubrec, .publishRecv packetId => some packetId
  | .pubrel, .publishRel packetId => some packetId
  | .pubcomp, .publishComp packetId => some packetId
  | _, _ => none

def reported (kind : AckKind) (w : Sys) : List UInt16 := (operations w).filterMap (ackId kind)

def idsAt (qosValue : QosValue) (ms : List Message) : List UInt16 :=
  (ms.filter fun m => m.qosInfo = qosValue).map (·.packetId)

/-! ## Runs -/

structure Link where
  a : Sys
  b : Sys
  /-- Accepted by one socket, and not yet returned by `recv()` on the other. -/
  toA : List UInt8
  toB : List UInt8

inductive Side where
  | a
  | b
  deriving DecidableEq, Repr

inductive Act where
  | publish (m : Message)
  | dowork (answers : List SendAnswer) (sizes : List Nat)

/-- What `recv()` returns of a stream in pieces of these sizes, and what is left of it. -/
def cut : List Nat → List UInt8 → List (List UInt8) × List UInt8
  | [], stream => ([], stream)
  | size :: sizes, stream =>
    if stream.take size = [] then cut sizes stream
    else (stream.take size :: (cut sizes (stream.drop size)).1, (cut sizes (stream.drop size)).2)

section Runs

variable (n : Nat) (h : XioHandle)

/-- One side acts: its state behind it, and what is still on its way to it. -/
def Act.run (act : Act) (w : Sys) (inbox : List UInt8) : Sys × List UInt8 :=
  match act with
  | .publish m => (OverSocket.perform (n + 2) (.publish m) w, inbox)
  | .dowork answers sizes =>
    let pieces := cut sizes inbox
    (OverSocket.perform (n + 2) .dowork { w with out := { w.out with doworks := [(answers, pieces.1.map .bytes)] } }, pieces.2)

def fresh (w w' : Sys) : List UInt8 :=
  (accepted (w'.out.sockets h).events).drop (accepted (w.out.sockets h).events).length

def step (l : Link) (s : Side × Act) : Link :=
  match s.1 with
  | .a =>
    let r := s.2.run n l.a l.toA
    { a := r.1, b := l.b, toA := r.2, toB := l.toB ++ fresh h l.a r.1 }
  | .b =>
    let r := s.2.run n l.b l.toB
    { a := l.a, b := r.1, toA := l.toA ++ fresh h l.b r.1, toB := r.2 }

def run (steps : List (Side × Act)) (l : Link) : Link := steps.foldl (step n h) l

end Runs

/-! ## Rounds -/

def Covers : List SendAnswer → List (PendingSocketIo Unit) → Prop
  | _, [] => True
  | .accepted count :: answers, pending :: rest => pending.bytes.length ≤ count ∧ Covers answers rest
  | _, _ :: _ => False

/-- A `mqtt_client_dowork` that sends all that waits and receives all that has come, in any pieces. -/
def Act.Full (h : XioHandle) (w : Sys) (inbox : List UInt8) : Act → Prop
  | .publish _ => False
  | .dowork answers sizes => .fatal ∉ answers ∧ Covers answers (w.out.sockets h).pendingIoList ∧ (cut sizes inbox).2 = []

/-- So many times the one side and then the other works in full. -/
inductive Rounds (n : Nat) (h : XioHandle) : Nat → Link → Link → Prop
  | none (l : Link) : Rounds n h 0 l l
  | one {k : Nat} {l l' l'' : Link} {actA actB : Act} (a : actA.Full h l.a l.toA) (eqA : l' = step n h l (.a, actA))
      (b : actB.Full h l'.b l'.toB) (rest : Rounds n h k (step n h l' (.b, actB)) l'') : Rounds n h (k + 1) l l''

/-! ## What is assumed -/

/-- What `mqtt_client_publish` sends of the message. -/
def asPublished (m : Message) (topicName : CString) : Published :=
  ⟨m.qosInfo, m.isDuplicateMsg, m.isMessageRetained, m.packetId, topicName, m.payload⟩

/-- Well-formed and short enough for the decoder, which takes a QoS 0 message with DUP or RETAIN
    set for one of another QoS. -/
def Deliverable (m : Message) : Prop :=
  ∃ topicName, m.getTopicName = some topicName ∧ (asPublished m topicName).Ok ∧
    (m.qosInfo = .deliverAtMostOnce → m.isDuplicateMsg = false ∧ m.isMessageRetained = false)

def Act.Admitted : Act → Prop
  | .publish m => Deliverable m
  | .dowork answers _ => .fatal ∉ answers

/-- A client that has just been connected: its socket is open and has sent nothing yet, the
    keep-alive is off, the application only publishes out of its callbacks, allocations and
    readings of the clock succeed. -/
structure Established (h : XioHandle) (w : Sys) : Prop where
  ready : Ready (some h) w
  mallocs : Succeed w.mallocs
  keepAlive : w.client.keepAliveInterval = 0
  codec : Codec.Idle w.client.codec
  application : ∀ cs ∈ w.out.application, ∀ c ∈ cs, ∃ m, c = .publish m ∧ Deliverable m
  opened : (w.out.sockets h).ioState = .opened
  callbacks : (w.out.sockets h).callbacks = true
  pending : (w.out.sockets h).pendingIoList = []
  events : (w.out.sockets h).events = []
  trace : w.trace = []
  notes : w.out.notes = []

structure Fresh (h : XioHandle) (l : Link) : Prop where
  a : Established h l.a
  b : Established h l.b
  toA : l.toA = []
  toB : l.toB = []

/-! ## What is owed -/

/-- Of what `a` has published, `b` has received a part, in order; and so on along both
    handshakes. -/
structure Delivered (a b : Sys) : Prop where
  messages : ((received b).map content).Sublist ((published a).map content)
  acks : (reported .puback a).Sublist (idsAt .deliverAtLeastOnce (received b))
  recs : (reported .pubrec a).Sublist (idsAt .deliverExactlyOnce (received b))
  rels : (reported .pubrel b).Sublist (reported .pubrec a)
  comps : (reported .pubcomp a).Sublist (reported .pubrel b)

structure Completed (a b : Sys) : Prop where
  messages : (received b).map content = (published a).map content
  acks : reported .puback a = idsAt .deliverAtLeastOnce (published a)
  recs : reported .pubrec a = idsAt .deliverExactlyOnce (published a)
  rels : reported .pubrel b = idsAt .deliverExactlyOnce (published a)
  comps : reported .pubcomp a = idsAt .deliverExactlyOnce (published a)

/-- Nothing waits to be sent, and nothing is on its way. -/
structure Quiescent (h : XioHandle) (l : Link) : Prop where
  a : (l.a.out.sockets h).pendingIoList = []
  b : (l.b.out.sockets h).pendingIoList = []
  toA : l.toA = []
  toB : l.toB = []

/-- Every direct `send()` takes something: the answers say so, and there are enough of them. -/
structure Unhindered (l l' : Link) : Prop where
  taken : ∀ x ∈ l.a.out.sends ++ l.b.out.sends, ∃ count, x = .accepted count
  enoughA : l'.a.out.sends ≠ []
  enoughB : l'.b.out.sends ≠ []

end UMqtt.Client.Peers

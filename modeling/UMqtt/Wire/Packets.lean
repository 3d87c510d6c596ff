/-
  UMqtt.Wire.Packets — PUBLISH, SUBSCRIBE and UNSUBSCRIBE as MQTT 3.1.1 lays them out, of no
  implementation in particular.

  The readers check the layout: the type, the fixed flags, the lengths, that a list has an
  entry and that no byte is left over. What the fields may say (a packet id of 0, an empty
  topic, a requested QoS) is left to whoever reads them.
-/

import UMqtt.Wire.Connect

namespace UMqtt.Wire

/-! ## PUBLISH -/

structure Publish where
  flags : Nat
  topic : List UInt8
  packetId : Option Nat
  payload : List UInt8
  deriving DecidableEq, Repr

def publishQos (flags : Nat) : Nat := flags / 2 % 4

/-- The packet identifier is there when the QoS is not 0. -/
def readPublish (flags : Nat) (body : List UInt8) : Option Publish :=
  match readString body with
  | none => none
  | some (topic, rest) =>
    if publishQos flags = 0 then some ⟨flags, topic, none, rest⟩
    else match rest with
      | hi :: lo :: payload => some ⟨flags, topic, some (256 * hi.toNat + lo.toNat), payload⟩
      | _ => none

/-- A stream that is one PUBLISH packet. -/
def parsePublish (bs : List UInt8) : Option Publish :=
  match readFrame bs with
  | some (frame, []) =>
    if frame.type = 3 ∧ publishQos frame.flags ≤ 2 then readPublish frame.flags frame.body else none
  | _ => none

/-! ## Lists of topics -/

/-- Read to the end, at most so many times. -/
def readAll {α : Type} (read : List UInt8 → Option (α × List UInt8)) : Nat → List UInt8 → Option (List α)
  | _, [] => some []
  | 0, _ :: _ => none
  | n + 1, b :: bs =>
    match read (b :: bs) with
    | none => none
    | some (x, rest) => (readAll read n rest).map (x :: ·)

/-- A topic filter and the QoS asked for. -/
def readSubscription (bs : List UInt8) : Option ((List UInt8 × UInt8) × List UInt8) :=
  match readString bs with
  | some (topic, qos :: rest) => some ((topic, qos), rest)
  | _ => none

/-- A packet identifier and a list of entries. -/
structure TopicList (α : Type) where
  packetId : Nat
  entries : List α
  deriving DecidableEq, Repr

/-- A stream that is one packet of this type with a list of at least one entry, none of which is
    shorter than a byte. -/
def parseTopicList {α : Type} (type : Nat) (read : List UInt8 → Option (α × List UInt8)) (bs : List UInt8) :
    Option (TopicList α) :=
  match readFrame bs with
  | some (⟨t, flags, hi :: lo :: payload⟩, []) =>
    if t = type ∧ flags = 2 ∧ payload ≠ [] then
      (readAll read payload.length payload).map fun entries => ⟨256 * hi.toNat + lo.toNat, entries⟩
    else none
  | _ => none

def parseSubscribe : List UInt8 → Option (TopicList (List UInt8 × UInt8)) := parseTopicList 8 readSubscription

def parseUnsubscribe : List UInt8 → Option (TopicList (List UInt8)) := parseTopicList 10 readString

/-! ## What the readers take -/

/-- Entries that are each read back are read back together. -/
theorem readAll_flatMap {α β : Type} {read : List UInt8 → Option (α × List UInt8)} {write : β → List UInt8} {entry : β → α}
    {xs : List β} (hw : ∀ x ∈ xs, write x ≠ []) (hr : ∀ x ∈ xs, ∀ rest, read (write x ++ rest) = some (entry x, rest))
    {n : Nat} (hn : xs.length ≤ n) : readAll read n (xs.flatMap write) = some (xs.map entry) := by
  induction xs generalizing n with
  | nil => cases n <;> rfl
  | cons x xs ih =>
    obtain ⟨n, rfl⟩ : ∃ m, n = m + 1 := ⟨n - 1, by simp only [List.length_cons] at hn; omega⟩
    rw [List.length_cons, Nat.add_le_add_iff_right] at hn
    have hx := hr x List.mem_cons_self (xs.flatMap write)
    have hrest := ih (fun y hy => hw y (List.mem_cons_of_mem _ hy)) (fun y hy => hr y (List.mem_cons_of_mem _ hy)) hn
    rw [List.flatMap_cons]
    cases hb : write x with
    | nil => exact absurd hb (hw x List.mem_cons_self)
    | cons b bs =>
      rw [hb, List.cons_append] at hx
      rw [List.cons_append, readAll, hx]
      simp only [hrest, Option.map_some, List.map_cons]

theorem length_le_flatMap {α : Type} {write : α → List UInt8} {xs : List α} (hw : ∀ x ∈ xs, write x ≠ []) :
    xs.length ≤ (xs.flatMap write).length := by
  induction xs with
  | nil => exact Nat.le_refl _
  | cons x xs ih =>
    have hx := List.length_pos_iff.mpr (hw x List.mem_cons_self)
    have hxs := ih fun y hy => hw y (List.mem_cons_of_mem _ hy)
    rw [List.flatMap_cons, List.length_append, List.length_cons]; omega

theorem readSubscription_append {s bs : List UInt8} {qos : UInt8} {rest : List UInt8}
    (h : readString bs = some (s, qos :: rest)) : readSubscription bs = some ((s, qos), rest) := by
  simp only [readSubscription, h]

theorem parsePublish_frame {header : UInt8} {bs : List UInt8} {flags n : Nat} {body : List UInt8}
    (hheader : header.toNat = 48 + flags) (hflags : flags < 16) (hqos : publishQos flags ≤ 2)
    (hlen : readLength 4 bs = some (n, body)) (hn : n = body.length) :
    parsePublish (header :: bs) = readPublish flags body := by
  have hf := readFrame_eq header hlen (by simp only [hn, Nat.le_refl])
  simp only [hn, List.take_length, List.drop_length] at hf
  have htype : header.toNat / 16 = 3 := by omega
  have hmod : header.toNat % 16 = flags := by omega
  simp only [parsePublish, hf, RawFrame.ofHeader, htype, hmod, hqos, and_self, if_true]

theorem parseTopicList_frame {α : Type} {read : List UInt8 → Option (α × List UInt8)} {header : UInt8} {type n : Nat}
    {bs payload : List UInt8} {hi lo : UInt8} {entries : List α} (hheader : header.toNat = 16 * type + 2)
    (hlen : readLength 4 bs = some (n, hi :: lo :: payload)) (hn : n = payload.length + 2) (hne : payload ≠ [])
    (hread : readAll read payload.length payload = some entries) :
    parseTopicList type read (header :: bs) = some ⟨256 * hi.toNat + lo.toNat, entries⟩ := by
  have hf := readFrame_eq header hlen (by simp only [hn, List.length_cons, Nat.le_refl])
  have htake : (hi :: lo :: payload).take n = hi :: lo :: payload := by rw [List.take_of_length_le]; simp [hn]
  have hdrop : (hi :: lo :: payload).drop n = [] := by rw [List.drop_of_length_le]; simp [hn]
  have htype : header.toNat / 16 = type := by omega
  have hmod : header.toNat % 16 = 2 := by omega
  rw [htake, hdrop] at hf
  simp only [parseTopicList, hf, RawFrame.ofHeader, htype, hmod, hne, ne_eq, not_false_eq_true, and_self, if_true, hread,
    Option.map_some]

end UMqtt.Wire

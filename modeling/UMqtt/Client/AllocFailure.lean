/-
  UMqtt.Client.AllocFailure — allocations that fail in `mqtt_client_connect` and in
  `mqttmessage_create`.

  `mallocAndStrcpy_s` clears its block before it tests the pointer, so a copy without memory is a
  write through NULL, although the test behind it would have returned ENOMEM and the callers
  unwind on that: the options are cleared and the transport is not opened (`copyFails_refused`),
  the message is freed. The two allocations of `mqttmessage_create` itself are tested, and what
  was there is freed once; `Heap` is the allocator with a ledger of its blocks.

  Proved (`allocFailure_iff`): a connect and a creation both end as errors when their allocations
  fail, and not in a write through NULL, exactly when neither an option copy nor the topic copy
  is refused its memory.
-/

import UMqtt.Lib.Ledger
import UMqtt.Client.Options

namespace UMqtt.Client.AllocFailure

open UMqtt.Lib UMqtt.Crt UMqtt.Codec UMqtt.Io UMqtt.Client.Options

/-! ## mqttmessage_create on a heap -/

/-- Blocks are numbered as they are allocated. -/
structure Heap where
  mallocs : Mallocs
  ledger : List (Ledger.Entry Nat)
  next : Nat

namespace Heap

def start (ms : Mallocs) : Heap := ⟨ms, [], 0⟩

def malloc (n : Nat) (h : Heap) : Option Nat × Heap :=
  match Crt.malloc n h.mallocs with
  | (none, ms) => (none, { h with mallocs := ms })
  | (some _, ms) => (some h.next, ⟨ms, h.ledger ++ [.created h.next], h.next + 1⟩)

def free (block : Nat) (h : Heap) : Heap := { h with ledger := h.ledger ++ [.released block] }

/-- The block of the copy; `none` is the write through NULL. -/
def mallocAndStrcpy (source : CString) (h : Heap) : Option Nat × Heap := h.malloc (source.strlen + 1)

def mqttmessageCreate (packetId : UInt16) (topicName : Option CString) (qosValue : QosValue) (appMsg : List UInt8)
    (h : Heap) : CreateResult × Heap :=
  match topicName with
  | none => (.null, h)
  | some topicName =>
    match h.malloc 48 with
    | (none, h) => (.null, h)
    | (some result, h) =>
      match h.mallocAndStrcpy topicName with
      | (none, h) => (.nullWrite, h)
      | (some topic, h) =>
        if 0 < appMsg.length then
          match h.malloc appMsg.length with
          | (none, h) => (.null, (h.free topic).free result)
          | (some _, h) => (.created (.owned packetId topicName qosValue appMsg), h)
        else (.created (.owned packetId topicName qosValue appMsg), h)

end Heap

section Create

variable (packetId : UInt16) (topicName : Option CString) (qosValue : QosValue) (appMsg : List UInt8) (h : Heap)

theorem heapMalloc_cases (n : Nat) (h : Heap) :
    denied h.mallocs 0 ∧ h.malloc n = (none, { h with mallocs := h.mallocs.tail }) ∨
      ¬ denied h.mallocs 0 ∧ h.malloc n = (some h.next, ⟨h.mallocs.tail, h.ledger ++ [.created h.next], h.next + 1⟩) := by
  rcases malloc_cases n h.mallocs with ⟨hd, hm⟩ | ⟨hd, block, hm, -⟩
  · exact Or.inl ⟨hd, by simp only [Heap.malloc, hm]⟩
  · exact Or.inr ⟨hd, by simp only [Heap.malloc, hm]⟩

/-- Without the ledger it is `mqttmessage_create`. -/
theorem create_forget : ((h.mqttmessageCreate packetId topicName qosValue appMsg).1,
    (h.mqttmessageCreate packetId topicName qosValue appMsg).2.mallocs) =
      mqttmessageCreate packetId topicName qosValue appMsg appMsg.length h.mallocs := by
  cases topicName with
  | none => rfl
  | some topicName =>
    simp only [Heap.mqttmessageCreate, Heap.mallocAndStrcpy, Heap.malloc, mqttmessageCreate, mallocAndStrcpy]
    rcases Crt.malloc 48 h.mallocs with ⟨_ | b, ms⟩
    · rfl
    · simp only
      rcases Crt.malloc (topicName.strlen + 1) ms with ⟨_ | b', ms'⟩
      · rfl
      · simp only
        by_cases hl : 0 < appMsg.length
        · simp only [if_pos hl, Message.owned]
          rcases Crt.malloc appMsg.length ms' with ⟨_ | b'', ms''⟩
          · rfl
          · rfl
        · simp only [if_neg hl, Message.owned]

def AllocationFails (topicName : Option CString) (appMsg : List UInt8) (ms : Mallocs) : Prop :=
  topicName ≠ none ∧ (denied ms 0 ∨ denied ms 1 ∨ 0 < appMsg.length ∧ denied ms 2)

def TopicCopyFails (topicName : Option CString) (ms : Mallocs) : Prop :=
  topicName ≠ none ∧ ¬ denied ms 0 ∧ denied ms 1

/-- NULL is returned, not written to, and what was allocated is released once. -/
structure Unwound (r : CreateResult × Heap) : Prop where
  null : r.1 = .null
  released : Ledger.Settled r.2.ledger

theorem topicCopy_crashes {ms : Mallocs} (h : TopicCopyFails topicName ms) :
    ((Heap.start ms).mqttmessageCreate packetId topicName qosValue appMsg).1 = .nullWrite := by
  obtain ⟨ht, h0, h1⟩ := h
  obtain ⟨topic, rfl⟩ := Option.ne_none_iff_exists'.mp ht
  rcases heapMalloc_cases 48 (Heap.start ms) with ⟨hd, -⟩ | ⟨-, hm⟩
  · exact absurd hd h0
  · have hm : (Heap.start ms).malloc 48 = (some 0, ⟨ms.tail, [.created 0], 1⟩) := hm
    simp only [Heap.mqttmessageCreate, hm, Heap.mallocAndStrcpy]
    rcases heapMalloc_cases (topic.strlen + 1) ⟨ms.tail, [.created 0], 1⟩ with ⟨-, hm'⟩ | ⟨hd, -⟩
    · simp only [hm']
    · exact absurd h1 (fun hd' => hd (denied_tail.mpr hd'))

theorem create_unwound {ms : Mallocs} (hf : AllocationFails topicName appMsg ms) (ht : ¬ TopicCopyFails topicName ms) :
    Unwound ((Heap.start ms).mqttmessageCreate packetId topicName qosValue appMsg) := by
  obtain ⟨hne, hf⟩ := hf
  obtain ⟨topic, rfl⟩ := Option.ne_none_iff_exists'.mp hne
  rcases heapMalloc_cases 48 (Heap.start ms) with ⟨hd, hm⟩ | ⟨hd, hm⟩
  · simp only [Heap.mqttmessageCreate, hm]
    exact ⟨rfl, rfl⟩
  · have h1 : ¬ denied ms 1 := fun h1 => ht ⟨hne, hd, h1⟩
    obtain ⟨hlen, h2⟩ : 0 < appMsg.length ∧ denied ms 2 := by
      rcases hf with hf | hf | hf
      · exact absurd hf hd
      · exact absurd hf h1
      · exact hf
    have hm : (Heap.start ms).malloc 48 = (some 0, ⟨ms.tail, [.created 0], 1⟩) := hm
    simp only [Heap.mqttmessageCreate, hm, Heap.mallocAndStrcpy, if_pos hlen]
    rcases heapMalloc_cases (topic.strlen + 1) ⟨ms.tail, [.created 0], 1⟩ with ⟨hd', -⟩ | ⟨-, hm'⟩
    · exact absurd (denied_tail.mp hd') h1
    · simp only [hm']
      rcases heapMalloc_cases appMsg.length ⟨ms.tail.tail, [.created 0, .created 1], 2⟩ with ⟨-, hm''⟩ | ⟨hd'', -⟩
      · simp only [List.singleton_append, hm'']
        exact ⟨rfl, rfl⟩
      · exact absurd (denied_tail.mpr (denied_tail.mpr h2)) hd''

/-- Each block is freed as often as it was allocated. -/
theorem unwound_frees {r : CreateResult × Heap} (hr : Unwound r) (block : Nat) :
    r.2.ledger.count (.released block) = r.2.ledger.count (.created block) :=
  Ledger.count_released hr.released block

end Create

/-! ## mqtt_client_connect -/

def passedStrings (mqttOptions : MqttClientOptions) : List CString := stringOptions.filterMap fun field => field.get mqttOptions

/-- There is a transport to connect, and one of the copies fails. -/
def OptionCopyFails (xioHandle : Option XioHandle) (mqttOptions : MqttClientOptions) (ms : Mallocs) : Prop :=
  xioHandle ≠ none ∧ ∃ i < (passedStrings mqttOptions).length, denied ms i

def copyAll (fields : List StringOption) (mqttOptions : MqttClientOptions) (c : Cloning) : Cloning :=
  fields.foldl (fun c field => c.copy field mqttOptions) c

theorem copyAll_failed (fields : List StringOption) (mqttOptions : MqttClientOptions) {c : Cloning} (h : c.result ≠ 0) :
    copyAll fields mqttOptions c = c := by
  induction fields with
  | nil => rfl
  | cons field fields ih =>
    have hcopy : c.copy field mqttOptions = c := if_neg h
    simp only [copyAll, List.foldl_cons, hcopy]
    exact ih

/-- The first copy without memory ends the copying, in a write through NULL; without one all are made. -/
theorem copyAll_cases (fields : List StringOption) (mqttOptions : MqttClientOptions) {c : Cloning} (h : c.result = 0)
    (hc : c.crashed = false) :
    (∃ i < (fields.filterMap fun field => field.get mqttOptions).length, denied c.mallocs i) ∧
        (copyAll fields mqttOptions c).result ≠ 0 ∧ (copyAll fields mqttOptions c).crashed = true ∨
      (¬ ∃ i < (fields.filterMap fun field => field.get mqttOptions).length, denied c.mallocs i) ∧
        (copyAll fields mqttOptions c).result = 0 ∧ (copyAll fields mqttOptions c).crashed = false := by
  induction fields generalizing c with
  | nil =>
    refine Or.inr ⟨?_, h, hc⟩
    rintro ⟨i, hi, -⟩
    exact absurd hi (Nat.not_lt_zero i)
  | cons field fields ih =>
    rcases hs : field.get mqttOptions with _ | source
    · have hcopy : c.copy field mqttOptions = c := by simp only [Cloning.copy, h, if_true, hs]
      simp only [List.filterMap_cons, hs, copyAll, List.foldl_cons, hcopy]
      exact ih h hc
    · simp only [List.filterMap_cons, hs, copyAll, List.foldl_cons, List.length_cons]
      rcases malloc_cases (source.strlen + 1) c.mallocs with ⟨hd, hm⟩ | ⟨hd, block, hm, -⟩
      · have hcopy : c.copy field mqttOptions = { c with result := failure, mallocs := c.mallocs.tail, crashed := true } := by
          simp only [Cloning.copy, h, if_true, hs, mallocAndStrcpy, hm]
        have hfailed : (c.copy field mqttOptions).result ≠ 0 := by
          rw [hcopy]
          exact show Crt.failure ≠ 0 by decide
        have hall := copyAll_failed fields mqttOptions hfailed
        rw [copyAll] at hall
        rw [hall, hcopy]
        exact Or.inl ⟨⟨0, Nat.succ_pos _, hd⟩, show Crt.failure ≠ 0 by decide, rfl⟩
      · have hcopy : c.copy field mqttOptions =
            { c with options := field.set (some source) c.options, mallocs := c.mallocs.tail } := by
          simp only [Cloning.copy, h, if_true, hs, mallocAndStrcpy, hm]
        have hshift : (∃ i < (fields.filterMap fun field => field.get mqttOptions).length + 1, denied c.mallocs i) ↔
            ∃ i < (fields.filterMap fun field => field.get mqttOptions).length, denied c.mallocs.tail i := by
          constructor
          · rintro ⟨i, hi, hdi⟩
            cases i with
            | zero => exact absurd hdi hd
            | succ i => exact ⟨i, by omega, denied_tail.mpr hdi⟩
          · rintro ⟨i, hi, hdi⟩
            exact ⟨i + 1, by omega, denied_tail.mp hdi⟩
        rw [hcopy, hshift]
        exact ih (c := { c with options := field.set (some source) c.options, mallocs := c.mallocs.tail }) h hc

theorem clone_copies (mqttOptions : MqttClientOptions) (c : Cloning) :
    (cloneMqttOptions mqttOptions c).result = (copyAll stringOptions mqttOptions c).result ∧
      (cloneMqttOptions mqttOptions c).crashed = (copyAll stringOptions mqttOptions c).crashed := by
  have hall : copyAll stringOptions mqttOptions c = ((((c.copy clientIdOption mqttOptions).copy willTopicOption mqttOptions).copy
    willMessageOption mqttOptions).copy usernameOption mqttOptions).copy passwordOption mqttOptions := rfl
  unfold cloneMqttOptions
  simp only [← hall]
  split
  · exact ⟨rfl, rfl⟩
  · exact ⟨rfl, rfl⟩

section Connect

variable {σ : Type} (xio : Xio σ) (xioHandle : Option XioHandle) (mqttOptions : MqttClientOptions)

/-- The connect has failed without a write through NULL, the stored strings are NULL, and it is the
    same over any other transports: none is asked to open. -/
structure Refused (w : World σ) : Prop where
  result : (mqttClientConnect xio xioHandle mqttOptions w).1 ≠ 0
  sound : (mqttClientConnect xio xioHandle mqttOptions w).2.crashed = false
  blank : Blank (mqttClientConnect xio xioHandle mqttOptions w).2.client.mqttOptions
  unopened : ∀ other : Xio σ, mqttClientConnect other xioHandle mqttOptions w = mqttClientConnect xio xioHandle mqttOptions w

variable {xioHandle mqttOptions} {w : World σ}

/-- Apart from the write through NULL a failed copy is what it should be. -/
theorem copyFails_refused (h : OptionCopyFails xioHandle mqttOptions w.mallocs) (hw : w.crashed = false) :
    (mqttClientConnect xio xioHandle mqttOptions w).1 ≠ 0 ∧
      Blank (mqttClientConnect xio xioHandle mqttOptions w).2.client.mqttOptions ∧
      (∀ other : Xio σ, mqttClientConnect other xioHandle mqttOptions w = mqttClientConnect xio xioHandle mqttOptions w) ∧
      (mqttClientConnect xio xioHandle mqttOptions w).2.crashed = true := by
  obtain ⟨hne, hfail⟩ := h
  obtain ⟨handle, rfl⟩ := Option.ne_none_iff_exists'.mp hne
  obtain ⟨c, hc⟩ : ∃ c, c = cloneMqttOptions mqttOptions ⟨0, w.client.mqttOptions, w.mallocs, w.crashed⟩ := ⟨_, rfl⟩
  have hcopies := clone_copies mqttOptions ⟨0, w.client.mqttOptions, w.mallocs, w.crashed⟩
  have hcase : c.result ≠ 0 ∧ c.crashed = true := by
    rw [hc, hcopies.1, hcopies.2]
    have hstart : (⟨0, w.client.mqttOptions, w.mallocs, w.crashed⟩ : Cloning).result = 0 := rfl
    rcases copyAll_cases stringOptions mqttOptions hstart hw with h | h
    · exact h.2
    · exact absurd hfail h.1
  have hblank : Blank c.options := by
    have hresult := hcase.1
    rw [hc] at hresult ⊢
    exact clone_failed hresult
  have htake : (takeOptions handle mqttOptions w).1 ≠ 0 := by
    simp only [takeOptions, ← hc]
    exact hcase.1
  have hcall : ∀ other : Xio σ, mqttClientConnect other (some handle) mqttOptions w =
      (failure, (takeOptions handle mqttOptions w).2) := by
    intro other
    simp only [mqttClientConnect, if_pos htake]
  rw [hcall xio]
  refine ⟨show Crt.failure ≠ 0 by decide, ?_, fun other => hcall other, ?_⟩
  · simp only [takeOptions, ← hc]
    exact hblank
  · simp only [takeOptions, ← hc]
    exact hcase.2

variable (xioHandle mqttOptions w) in
/-- When an option copy fails the connect is refused, and when an allocation of the message fails
    it is unwound, both without a write through NULL: exactly when neither an option copy nor the
    topic copy fails. -/
theorem allocFailure_iff (hw : w.crashed = false) (packetId : UInt16) (topicName : Option CString) (qosValue : QosValue)
    (appMsg : List UInt8) (ms : Mallocs) :
    ((OptionCopyFails xioHandle mqttOptions w.mallocs → Refused xio xioHandle mqttOptions w) ∧
      (AllocationFails topicName appMsg ms → Unwound ((Heap.start ms).mqttmessageCreate packetId topicName qosValue appMsg))) ↔
    ¬ OptionCopyFails xioHandle mqttOptions w.mallocs ∧ ¬ TopicCopyFails topicName ms := by
  refine ⟨fun h => ⟨fun hf => ?_, fun ht => ?_⟩, fun h => ⟨fun hf => absurd hf h.1, fun hf => ?_⟩⟩
  · have hcrashed := (copyFails_refused xio hf hw).2.2.2
    rw [(h.1 hf).sound] at hcrashed
    cases hcrashed
  · have hnull := (h.2 ⟨ht.1, Or.inr (Or.inl ht.2.2)⟩).null
    rw [topicCopy_crashes packetId topicName qosValue appMsg ht] at hnull
    cases hnull
  · exact create_unwound packetId topicName qosValue appMsg hf h.2

end Connect

def topicName : CString := ⟨[97], by decide⟩

def created (ms : Mallocs) : World Unit := ⟨MqttClient.init true true true, ms, [], false, [], ()⟩

/-- Memory for a message and its topic, but not for its payload. -/
def noPayload : Mallocs := [some fun _ => 0, some fun _ => 0, none]

theorem noPayload_unwound :
    ((OptionCopyFails (some 0) {} (created []).mallocs → Refused (Xio.inert Unit) (some 0) {} (created [])) ∧
      (AllocationFails (some topicName) [1] noPayload →
        Unwound ((Heap.start noPayload).mqttmessageCreate 1 (some topicName) .deliverAtMostOnce [1]))) ↔
    ¬ OptionCopyFails (some 0) {} (created []).mallocs ∧ ¬ TopicCopyFails (some topicName) noPayload :=
  allocFailure_iff (Xio.inert Unit) (some 0) {} (created []) rfl 1 (some topicName) .deliverAtMostOnce [1] noPayload

/-- The copy of a client identifier and the copy of a topic, without memory for either. -/
theorem copies_crash :
    (mqttClientConnect (Xio.inert Unit) (some 0) { clientId := some topicName } (created [none])).2.crashed = true ∧
      (OptionCopyFails (some 0) { clientId := some topicName } [none] ∧
        ¬ Refused (Xio.inert Unit) (some 0) { clientId := some topicName } (created [none])) ∧
      ((Heap.start [some fun _ => 0, none]).mqttmessageCreate 1 (some topicName) .deliverAtMostOnce [1]).1 = .nullWrite ∧
      AllocationFails (some topicName) [1] [some fun _ => 0, none] ∧
      ¬ Unwound ((Heap.start [some fun _ => 0, none]).mqttmessageCreate 1 (some topicName) .deliverAtMostOnce [1]) := by
  refine ⟨rfl, ⟨⟨by decide, 0, by decide, rfl⟩, fun h => ?_⟩, rfl, ⟨by decide, Or.inr (Or.inl rfl)⟩, fun h => ?_⟩
  · exact absurd h.sound (by decide)
  · exact absurd h.null (by decide)

end UMqtt.Client.AllocFailure

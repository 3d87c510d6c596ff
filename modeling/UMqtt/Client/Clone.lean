/-
  UMqtt.Client.Clone — the pointers of `MQTT_MESSAGE` (uMQTT/src/mqtt_message.c): what a
  message owns, what it borrows, and what `mqttmessage_clone` copies of it.

  A block of memory holds bytes or an `MQTT_MESSAGE`. A message from `mqttmessage_create`
  owns a block with the topic and, if it is not empty, one with the payload; a message
  created in place points to the caller's. An access to a block that is not there, or past
  its end, has no meaning (`none`), and neither has the `memset` that `mallocAndStrcpy_s`
  makes of its block before it tests it for NULL. `view` follows the pointers: it is the
  `Message` that the getters read.

  `mqttmessage_clone` hands the owned pointers to `mqttmessage_create`, so of a message
  created in place, whose owned topic is NULL, it makes nothing (`clone_in_place`). A clone
  of an owned message shares no block with it, and shows the same whatever becomes of the
  original and of the buffers that it was built of. Together (`clone_preserves_iff`): a
  message is preserved by cloning exactly when `mqttmessage_create` built it.
-/

import UMqtt.Lib.Memory
import UMqtt.Client.Message

namespace UMqtt.Client.Clone

open UMqtt.Lib UMqtt.Crt UMqtt.Codec

/-! ## The code -/

structure AppPayload where
  message : Option Nat
  length : Nat
  deriving DecidableEq, Repr

structure MqttMessage where
  packetId : UInt16
  qosInfo : QosValue
  topicName : Option Nat
  appPayload : AppPayload
  constTopicName : Option Nat
  constPayload : AppPayload
  isDuplicateMsg : Bool
  isMessageRetained : Bool
  deriving DecidableEq, Repr

inductive Object where
  | bytes (bs : List UInt8)
  | message (msg : MqttMessage)
  deriving DecidableEq, Repr

def zeroed : MqttMessage := ⟨0, .deliverAtMostOnce, none, ⟨none, 0⟩, none, ⟨none, 0⟩, false, false⟩

def stringAt (m : Memory Object) (a : Nat) : Option CString :=
  match m.block a with
  | some (.bytes bs) => if 0 ∈ bs then some (CString.ofBlock bs) else none
  | _ => none

def bytesAt (m : Memory Object) (p : Option Nat) (size : Nat) : Option (List UInt8) :=
  match p.bind m.block with
  | some (.bytes bs) => if size ≤ bs.length then some (bs.take size) else none
  | _ => none

def mqttmessageCreateInPlace (al : Allocator Object) (packetId : UInt16) (topicName : Option Nat) (qosValue : QosValue)
    (appMsg : Option Nat) (appMsgLength : Nat) (m : Memory Object) : Option Nat × Memory Object :=
  match topicName with
  | none => (none, m)
  | some topicName =>
    match m.malloc al 48 (.message zeroed) with
    | none => (none, m)
    | some (result, m) =>
      (some result, m.write result (some (.message { zeroed with
        constTopicName := some topicName, packetId := packetId, qosInfo := qosValue,
        constPayload := ⟨if 0 < appMsgLength then appMsg else none, appMsgLength⟩ })))

def mqttmessageCreate (al : Allocator Object) (packetId : UInt16) (topicName : Option Nat) (qosValue : QosValue)
    (appMsg : Option Nat) (appMsgLength : Nat) (m : Memory Object) : Option (Option Nat × Memory Object) :=
  match topicName with
  | none => some (none, m)
  | some topicName =>
    match m.malloc al 48 (.message zeroed) with
    | none => some (none, m)
    | some (result, m) => do
      let topic ← stringAt m topicName
      let (copy, m) ← m.malloc al (topic.strlen + 1) (.bytes (topic.bytes ++ [0]))
      let created : MqttMessage := { zeroed with
        topicName := some copy, packetId := packetId, qosInfo := qosValue, appPayload := ⟨none, appMsgLength⟩ }
      if 0 < appMsgLength then
        match m.malloc al appMsgLength (.bytes (List.replicate appMsgLength 0)) with
        | none => do
          let m ← m.free copy
          let m ← m.free result
          some (none, m)
        | some (message, m) => do
          let bs ← bytesAt m appMsg appMsgLength
          some (some result, (m.write message (some (.bytes bs))).write result
            (some (.message { created with appPayload := ⟨some message, appMsgLength⟩ })))
      else some (some result, m.write result (some (.message created)))

def setFlag (set : MqttMessage → MqttMessage) (handle : Option Nat) (m : Memory Object) : Option (Nat × Memory Object) :=
  match handle with
  | none => some (failure, m)
  | some h =>
    match m.block h with
    | some (.message msgInfo) => some (0, m.write h (some (.message (set msgInfo))))
    | _ => none

def mqttmessageSetIsDuplicateMsg (handle : Option Nat) (duplicateMsg : Bool) :
    Memory Object → Option (Nat × Memory Object) :=
  setFlag (fun msgInfo => { msgInfo with isDuplicateMsg := duplicateMsg }) handle

def mqttmessageSetIsRetained (handle : Option Nat) (retainMsg : Bool) : Memory Object → Option (Nat × Memory Object) :=
  setFlag (fun msgInfo => { msgInfo with isMessageRetained := retainMsg }) handle

def freePointer (p : Option Nat) (m : Memory Object) : Option (Memory Object) :=
  match p with
  | none => some m
  | some a => m.free a

def mqttmessageDestroy (handle : Option Nat) (m : Memory Object) : Option (Memory Object) :=
  match handle with
  | none => some m
  | some h =>
    match m.block h with
    | some (.message msgInfo) => do
      let m ← freePointer msgInfo.topicName m
      let m ← freePointer msgInfo.appPayload.message m
      m.free h
    | _ => none

def mqttmessageClone (al : Allocator Object) (handle : Option Nat) (m : Memory Object) :
    Option (Option Nat × Memory Object) :=
  match handle with
  | none => some (none, m)
  | some h =>
    match m.block h with
    | some (.message mqttMessage) => do
      let (result, m) ← mqttmessageCreate al mqttMessage.packetId mqttMessage.topicName mqttMessage.qosInfo
        mqttMessage.appPayload.message mqttMessage.appPayload.length m
      if result = none then some (result, m)
      else
        let (_, m) ← mqttmessageSetIsDuplicateMsg result mqttMessage.isDuplicateMsg m
        let (_, m) ← mqttmessageSetIsRetained result mqttMessage.isMessageRetained m
        some (result, m)
    | _ => none

/-! ## What the getters read -/

def viewPayload (m : Memory Object) (p : AppPayload) : Option Client.AppPayload :=
  match p.message with
  | none => some ⟨none, p.length⟩
  | some a => (bytesAt m (some a) p.length).map fun bs => ⟨some bs, p.length⟩

def viewTopic (m : Memory Object) (p : Option Nat) : Option (Option CString) :=
  match p with
  | none => some none
  | some a => (stringAt m a).map some

/-- The message behind a handle, with its pointers followed. -/
def view (m : Memory Object) (h : Nat) : Option Message :=
  match m.block h with
  | some (.message msg) => do
    let topicName ← viewTopic m msg.topicName
    let appPayload ← viewPayload m msg.appPayload
    let constTopicName ← viewTopic m msg.constTopicName
    let constPayload ← viewPayload m msg.constPayload
    some ⟨msg.packetId, msg.qosInfo, topicName, appPayload, constTopicName, constPayload, msg.isDuplicateMsg,
      msg.isMessageRetained⟩
  | _ => none

structure Shown where
  packetId : UInt16
  topicName : Option CString
  qosType : QosValue
  isDuplicateMsg : Bool
  isRetained : Bool
  payload : List UInt8
  length : Nat
  deriving DecidableEq, Repr

def shown (msg : Message) : Shown :=
  ⟨msg.packetId, msg.getTopicName, msg.qosInfo, msg.isDuplicateMsg, msg.isMessageRetained, msg.payload,
    msg.getApplicationMsg.length⟩

/-! ## Messages that are built, and cloned -/

inductive Builder where
  | create
  | createInPlace
  deriving DecidableEq, Repr

inductive Setter where
  | duplicate (duplicateMsg : Bool)
  | retained (retainMsg : Bool)
  deriving DecidableEq, Repr

def build (al : Allocator Object) (builder : Builder) (packetId : UInt16) (topicName : Option Nat) (qosValue : QosValue)
    (appMsg : Option Nat) (appMsgLength : Nat) (m : Memory Object) : Option (Option Nat × Memory Object) :=
  match builder with
  | .create => mqttmessageCreate al packetId topicName qosValue appMsg appMsgLength m
  | .createInPlace => some (mqttmessageCreateInPlace al packetId topicName qosValue appMsg appMsgLength m)

def setAll (handle : Option Nat) : List Setter → Memory Object → Option (Memory Object)
  | [], m => some m
  | .duplicate d :: setters, m => (mqttmessageSetIsDuplicateMsg handle d m).bind fun r => setAll handle setters r.2
  | .retained r :: setters, m => (mqttmessageSetIsRetained handle r m).bind fun r => setAll handle setters r.2

def buffers (topicName : Nat) (appMsg : Option Nat) (appMsgLength : Nat) : List Nat :=
  topicName :: if 0 < appMsgLength then appMsg.toList else []

/-- The message that was built is cloned, and the clone shows what it showed: at once, after the
    original was destroyed, and whatever then becomes of the caller's buffers and of memory that is free. -/
def ClonePreserves (al : Allocator Object) (builder : Builder) (packetId : UInt16) (topicName : Nat) (qosValue : QosValue)
    (appMsg : Option Nat) (appMsgLength : Nat) (setters : List Setter) (m : Memory Object) : Prop :=
  ∃ original clone m1 m2 m3 msg,
    build al builder packetId (some topicName) qosValue appMsg appMsgLength m = some (some original, m1) ∧
    setAll (some original) setters m1 = some m2 ∧
    mqttmessageClone al (some original) m2 = some (some clone, m3) ∧
    view m2 original = some msg ∧
    (mqttmessageDestroy (some original) m3).isSome ∧
    ∀ m4, m4 = m3 ∨ mqttmessageDestroy (some original) m3 = some m4 →
      ∀ m5, Memory.Keeps (buffers topicName appMsg appMsgLength) m4 m5 → (view m5 clone).map shown = some (shown msg)

/-! ## Owned messages -/

section Owned

variable {m m' : Memory Object} {h : Nat} {msg : MqttMessage} {topic : CString} {payload : List UInt8}

theorem stringAt_copy {a : Nat} (ha : m.block a = some (.bytes (topic.bytes ++ [0]))) : stringAt m a = some topic := by
  have ht : CString.ofBlock (topic.bytes ++ [0]) = topic := by
    apply CString.ext
    simp only [CString.ofBlock]
    rw [List.takeWhile_append_of_pos]
    · simp
    · intro b hb
      have hne : b ≠ 0 := ne_of_mem_of_not_mem hb topic.noNul
      simpa using hne
  simp only [stringAt, ha]
  rw [if_pos (by simp), ht]

def blocks (h : Nat) (msg : MqttMessage) : List Nat := msg.topicName.toList ++ msg.appPayload.message.toList ++ [h]

/-- A message that owns its topic and its payload, each in a block of its own. -/
structure Owned (m : Memory Object) (h : Nat) (msg : MqttMessage) (topic : CString) (payload : List UInt8) : Prop where
  held : m.block h = some (.message msg)
  topicName : ∃ t, msg.topicName = some t ∧ m.block t = some (.bytes (topic.bytes ++ [0]))
  length : msg.appPayload.length = payload.length
  appPayload : payload = [] ∧ msg.appPayload.message = none ∨
    payload ≠ [] ∧ ∃ p, msg.appPayload.message = some p ∧ m.block p = some (.bytes payload)
  constTopicName : msg.constTopicName = none
  constPayload : msg.constPayload = ⟨none, 0⟩
  distinct : (blocks h msg).Nodup

theorem Owned.inUse (ho : Owned m h msg topic payload) : ∀ a ∈ blocks h msg, m.block a ≠ none := by
  intro a ha
  obtain ⟨t, ht, htb⟩ := ho.topicName
  simp only [blocks, ht, Option.toList_some, List.mem_append, List.mem_singleton] at ha
  rcases ha with (rfl | ha) | rfl
  · simp [htb]
  · rcases ho.appPayload with ⟨-, hp⟩ | ⟨-, p, hp, hpb⟩
    · rw [hp] at ha
      cases ha
    · rw [hp, Option.toList_some, List.mem_singleton] at ha
      subst ha
      simp [hpb]
  · simp [ho.held]

/-- Its blocks are all that it is read from. -/
theorem Owned.congr (ho : Owned m h msg topic payload) (hm : ∀ a ∈ blocks h msg, m'.block a = m.block a) :
    Owned m' h msg topic payload where
  held := by rw [hm h (by simp [blocks]), ho.held]
  topicName := by
    obtain ⟨t, ht, htb⟩ := ho.topicName
    exact ⟨t, ht, by rw [hm t (by simp [blocks, ht]), htb]⟩
  length := ho.length
  appPayload := by
    rcases ho.appPayload with hp | ⟨hne, p, hp, hpb⟩
    · exact Or.inl hp
    · exact Or.inr ⟨hne, p, hp, by rw [hm p (by simp [blocks, hp]), hpb]⟩
  constTopicName := ho.constTopicName
  constPayload := ho.constPayload
  distinct := ho.distinct

def Owned.message (msg : MqttMessage) (topic : CString) (payload : List UInt8) : Message :=
  { Message.owned msg.packetId topic msg.qosInfo payload with
    isDuplicateMsg := msg.isDuplicateMsg, isMessageRetained := msg.isMessageRetained }

theorem Owned.view (ho : Owned m h msg topic payload) : view m h = some (Owned.message msg topic payload) := by
  obtain ⟨t, ht, htb⟩ := ho.topicName
  have htopic : viewTopic m msg.topicName = some (some topic) := by
    simp only [viewTopic, ht, stringAt_copy htb, Option.map_some]
  have hpayload : viewPayload m msg.appPayload = some (Message.owned 0 topic msg.qosInfo payload).appPayload := by
    rcases ho.appPayload with ⟨rfl, hp⟩ | ⟨hne, p, hp, hpb⟩
    · simp only [viewPayload, hp, ho.length]
      rfl
    · have hlen : 0 < payload.length := List.length_pos_iff.mpr hne
      simp only [viewPayload, hp, bytesAt, Option.bind_some, hpb, ho.length, Nat.le_refl, if_true, Option.map_some,
        List.take_length, Message.owned, if_pos hlen]
  simp only [Clone.view, ho.held, htopic, hpayload, ho.constTopicName, ho.constPayload, Option.bind_eq_bind,
    Option.bind_some]
  rfl

/-- The setters write the flags and nothing else. -/
theorem Owned.flagged {d r : Bool} (ho : Owned m h msg topic payload)
    (hh : m'.block h = some (.message { msg with isDuplicateMsg := d, isMessageRetained := r }))
    (hm : ∀ a, a ≠ h → m'.block a = m.block a) :
    Owned m' h { msg with isDuplicateMsg := d, isMessageRetained := r } topic payload := by
  have hn := ho.distinct
  rw [blocks, List.nodup_append_comm, List.singleton_append, List.nodup_cons] at hn
  refine ⟨hh, ?_, ho.length, ?_, ho.constTopicName, ho.constPayload, ho.distinct⟩
  · obtain ⟨t, ht, htb⟩ := ho.topicName
    have hne : t ≠ h := by
      rintro rfl
      exact hn.1 (by simp [ht])
    exact ⟨t, ht, by rw [hm t hne, htb]⟩
  · rcases ho.appPayload with hp | ⟨hne, p, hp, hpb⟩
    · exact Or.inl hp
    · have hph : p ≠ h := by
        rintro rfl
        exact hn.1 (by simp [hp])
      exact Or.inr ⟨hne, p, hp, by rw [hm p hph, hpb]⟩

end Owned

/-! ## What the functions do -/

section Specs

variable {m m' : Memory Object} {h : Nat} {msg : MqttMessage} {topic : CString} {payload : List UInt8}
variable {al : Allocator Object}

theorem setFlag_spec (hh : m.block h = some (.message msg)) (set : MqttMessage → MqttMessage) :
    setFlag set (some h) m = some (0, m.write h (some (.message (set msg)))) := by
  simp only [setFlag, hh]

theorem setAll_spec (hh : m.block h = some (.message msg)) (setters : List Setter) :
    ∃ d r m', setAll (some h) setters m = some m' ∧
      m'.block h = some (.message { msg with isDuplicateMsg := d, isMessageRetained := r }) ∧
      ∀ a, a ≠ h → m'.block a = m.block a := by
  induction setters generalizing m msg with
  | nil => exact ⟨msg.isDuplicateMsg, msg.isMessageRetained, m, rfl, hh, fun _ _ => rfl⟩
  | cons setter setters ih =>
    cases setter with
    | duplicate duplicateMsg =>
      have hw : (m.write h (some (.message { msg with isDuplicateMsg := duplicateMsg }))).block h = _ := Memory.write_self
      obtain ⟨d, r, m', hs, hb, hm⟩ := ih hw
      refine ⟨d, r, m', ?_, hb, ?_⟩
      · simp only [setAll, mqttmessageSetIsDuplicateMsg, setFlag_spec hh, Option.bind_some]
        exact hs
      · intro a ha
        rw [hm a ha, Memory.write_ne ha]
    | retained retainMsg =>
      have hw : (m.write h (some (.message { msg with isMessageRetained := retainMsg }))).block h = _ := Memory.write_self
      obtain ⟨d, r, m', hs, hb, hm⟩ := ih hw
      refine ⟨d, r, m', ?_, hb, ?_⟩
      · simp only [setAll, mqttmessageSetIsRetained, setFlag_spec hh, Option.bind_some]
        exact hs
      · intro a ha
        rw [hm a ha, Memory.write_ne ha]

theorem stringAt_inUse {a : Nat} (ha : stringAt m a = some topic) : m.block a ≠ none := by
  intro hn
  simp only [stringAt, hn, reduceCtorEq] at ha

theorem stringAt_congr {a : Nat} (ha : m'.block a = m.block a) : stringAt m' a = stringAt m a := by
  simp only [stringAt, ha]

theorem bytesAt_inUse {p : Option Nat} {size : Nat} {bs : List UInt8} (hp : bytesAt m p size = some bs) :
    ∃ a, p = some a ∧ m.block a ≠ none := by
  cases p with
  | none => simp [bytesAt] at hp
  | some a =>
    refine ⟨a, rfl, ?_⟩
    intro hn
    simp [bytesAt, hn] at hp

theorem bytesAt_congr {a size : Nat} (ha : m'.block a = m.block a) : bytesAt m' (some a) size = bytesAt m (some a) size := by
  simp only [bytesAt, Option.bind_some, ha]

/-- A message of its own blocks, none of which was in use. -/
theorem create_spec (hal : al.Succeeds) (packetId : UInt16) {t : Nat} (qosValue : QosValue) {p : Option Nat}
    (ht : stringAt m t = some topic) (hp : payload ≠ [] → bytesAt m p payload.length = some payload) :
    ∃ h m' msg, mqttmessageCreate al packetId (some t) qosValue p payload.length m = some (some h, m') ∧
      Owned m' h msg topic payload ∧ msg.packetId = packetId ∧ msg.qosInfo = qosValue ∧
      msg.isDuplicateMsg = false ∧ msg.isMessageRetained = false ∧
      (∀ a ∈ blocks h msg, m.block a = none) ∧ ∀ a, a ∉ blocks h msg → m'.block a = m.block a := by
  obtain ⟨h, m1, hm1, hh, hh1, hf1⟩ := Memory.malloc_spec hal 48 (.message zeroed) m
  have hth : t ≠ h := by
    rintro rfl
    exact stringAt_inUse ht hh
  have ht1 : stringAt m1 t = some topic := by rw [stringAt_congr (hf1 t hth), ht]
  obtain ⟨c, m2, hm2, hc, hc2, hf2⟩ := Memory.malloc_spec hal (topic.strlen + 1) (.bytes (topic.bytes ++ [0])) m1
  have hch : c ≠ h := by
    rintro rfl
    rw [hh1] at hc
    cases hc
  rw [hf1 c hch] at hc
  by_cases hne : payload = []
  · subst hne
    let created : MqttMessage := { zeroed with
      topicName := some c, packetId := packetId, qosInfo := qosValue, appPayload := ⟨none, 0⟩ }
    refine ⟨h, m2.write h (some (.message created)), created, ?_, ?_, rfl, rfl, rfl, rfl, ?_, ?_⟩
    · simp only [mqttmessageCreate, hm1, ht1, hm2, Option.bind_eq_bind, Option.bind_some, List.length_nil, Nat.lt_irrefl,
        if_false]
      rfl
    · refine ⟨Memory.write_self, ⟨c, rfl, ?_⟩, rfl, Or.inl ⟨rfl, rfl⟩, rfl, rfl, ?_⟩
      · rw [Memory.write_ne hch, hc2]
      · simp [created, blocks, hch]
    · intro a ha
      simp only [created, blocks, Option.toList_some, Option.toList_none, List.append_nil, List.mem_append,
        List.mem_singleton] at ha
      rcases ha with rfl | rfl
      · exact hc
      · exact hh
    · intro a ha
      simp only [created, blocks, Option.toList_some, Option.toList_none, List.append_nil, List.mem_append,
        List.mem_singleton, not_or] at ha
      rw [Memory.write_ne ha.2, hf2 a ha.1, hf1 a ha.2]
  · have hlen : 0 < payload.length := List.length_pos_iff.mpr hne
    obtain ⟨a, rfl, ha⟩ := bytesAt_inUse (hp hne)
    obtain ⟨q, m3, hm3, hq, hq3, hf3⟩ :=
      Memory.malloc_spec hal payload.length (.bytes (List.replicate payload.length 0)) m2
    have hqc : q ≠ c := by
      rintro rfl
      rw [hc2] at hq
      cases hq
    have hqh : q ≠ h := by
      rintro rfl
      rw [hf2 q hqc, hh1] at hq
      cases hq
    rw [hf2 q hqc, hf1 q hqh] at hq
    have hsame : m3.block a = m.block a := by
      rw [hf3 a (by rintro rfl; exact ha hq), hf2 a (by rintro rfl; exact ha hc), hf1 a (by rintro rfl; exact ha hh)]
    have hread : bytesAt m3 (some a) payload.length = some payload := by rw [bytesAt_congr hsame, hp hne]
    let created : MqttMessage := { zeroed with
      topicName := some c, packetId := packetId, qosInfo := qosValue, appPayload := ⟨some q, payload.length⟩ }
    refine ⟨h, (m3.write q (some (.bytes payload))).write h (some (.message created)), created, ?_, ?_, rfl, rfl, rfl, rfl,
      ?_, ?_⟩
    · simp only [mqttmessageCreate, hm1, ht1, hm2, hm3, hread, Option.bind_eq_bind, Option.bind_some, if_pos hlen]
      rfl
    · refine ⟨Memory.write_self, ⟨c, rfl, ?_⟩, rfl, Or.inr ⟨hne, q, rfl, ?_⟩, rfl, rfl, ?_⟩
      · rw [Memory.write_ne hch, Memory.write_ne hqc.symm, hf3 c hqc.symm, hc2]
      · rw [Memory.write_ne hqh, Memory.write_self]
      · simp [created, blocks, hch, hqc.symm, hqh]
    · intro b hb
      simp only [created, blocks, Option.toList_some, List.mem_append, List.mem_singleton] at hb
      rcases hb with (rfl | rfl) | rfl
      · exact hc
      · exact hq
      · exact hh
    · intro b hb
      simp only [created, blocks, Option.toList_some, List.mem_append, List.mem_singleton, not_or] at hb
      obtain ⟨⟨hbc, hbq⟩, hbh⟩ := hb
      rw [Memory.write_ne hbh, Memory.write_ne hbq, hf3 b hbq, hf2 b hbc, hf1 b hbh]

/-- What is behind the handle is the message that the model by value creates. -/
theorem create_refines (hal : al.Succeeds) {ms : Mallocs} (hms : Succeed ms) (packetId : UInt16) {t : Nat}
    (qosValue : QosValue) {p : Option Nat} (ht : stringAt m t = some topic)
    (hp : payload ≠ [] → bytesAt m p payload.length = some payload) :
    ∃ h m' created ms', mqttmessageCreate al packetId (some t) qosValue p payload.length m = some (some h, m') ∧
      Client.mqttmessageCreate packetId (some topic) qosValue payload payload.length ms = (.created created, ms') ∧
      view m' h = some created := by
  obtain ⟨ms', hvalue, -⟩ := mqttmessageCreate_succeed hms packetId topic qosValue payload
  obtain ⟨h, m', msg, hc, ho, hid, hqos, hd, hr, -⟩ := create_spec hal packetId qosValue ht hp
  refine ⟨h, m', _, ms', hc, hvalue, ?_⟩
  rw [ho.view, Owned.message, hid, hqos, hd, hr]
  rfl

/-- The clone of an owned message: the same message, of blocks of its own. -/
theorem clone_spec (hal : al.Succeeds) (ho : Owned m h msg topic payload) :
    ∃ h' m' msg', mqttmessageClone al (some h) m = some (some h', m') ∧ Owned m' h' msg' topic payload ∧
      Owned.message msg' topic payload = Owned.message msg topic payload ∧
      (∀ a ∈ blocks h' msg', m.block a = none) ∧ ∀ a, a ∉ blocks h' msg' → m'.block a = m.block a := by
  obtain ⟨t, ht, htb⟩ := ho.topicName
  have hp : payload ≠ [] → bytesAt m msg.appPayload.message payload.length = some payload := by
    intro hne
    rcases ho.appPayload with ⟨he, -⟩ | ⟨-, p, hp, hpb⟩
    · exact absurd he hne
    · simp only [hp, bytesAt, Option.bind_some, hpb, Nat.le_refl, if_true, List.take_length]
  obtain ⟨h', m1, msg1, hc, ho1, hid, hqos, -, -, hunused, hframe⟩ :=
    create_spec hal msg.packetId msg.qosInfo (stringAt_copy htb) hp
  have hset : ∃ m2, mqttmessageClone al (some h) m = some (some h', m2) ∧
      m2.block h' = some (.message { msg1 with
        isDuplicateMsg := msg.isDuplicateMsg, isMessageRetained := msg.isMessageRetained }) ∧
      ∀ a, a ≠ h' → m2.block a = m1.block a := by
    let duplicate : MqttMessage := { msg1 with isDuplicateMsg := msg.isDuplicateMsg }
    have hw : (m1.write h' (some (.message duplicate))).block h' = some (.message duplicate) := Memory.write_self
    have hd := setFlag_spec ho1.held fun msgInfo => { msgInfo with isDuplicateMsg := msg.isDuplicateMsg }
    have hr := setFlag_spec hw fun msgInfo => { msgInfo with isMessageRetained := msg.isMessageRetained }
    refine ⟨(m1.write h' (some (.message duplicate))).write h' (some (.message { duplicate with
      isMessageRetained := msg.isMessageRetained })), ?_, Memory.write_self, ?_⟩
    · simp only [mqttmessageClone, ho.held, ht, ho.length, hc, Option.bind_eq_bind, Option.bind_some, reduceCtorEq, if_false,
        mqttmessageSetIsDuplicateMsg, mqttmessageSetIsRetained, hd]
      rw [hr]
      rfl
    · intro a ha
      rw [Memory.write_ne ha, Memory.write_ne ha]
  obtain ⟨m2, hclone, hb2, hf2⟩ := hset
  refine ⟨h', m2, _, hclone, ho1.flagged hb2 hf2, ?_, hunused, ?_⟩
  · simp only [Owned.message, hid, hqos]
  · intro a ha
    have hne : a ≠ h' := by
      rintro rfl
      exact ha (by simp [blocks])
    rw [hf2 a hne, hframe a ha]

/-- A message created in place has no topic of its own to clone. -/
theorem clone_in_place (hh : m.block h = some (.message msg)) (ht : msg.topicName = none) :
    mqttmessageClone al (some h) m = some (none, m) := by
  simp only [mqttmessageClone, hh, ht, mqttmessageCreate, Option.bind_eq_bind, Option.bind_some, if_true]

theorem createInPlace_spec (hal : al.Succeeds) (packetId : UInt16) (t : Nat) (qosValue : QosValue) (p : Option Nat)
    (size : Nat) : ∃ h m' msg, mqttmessageCreateInPlace al packetId (some t) qosValue p size m = (some h, m') ∧
      m'.block h = some (.message msg) ∧ msg.topicName = none := by
  obtain ⟨h, m1, hm1, -⟩ := Memory.malloc_spec hal 48 (.message zeroed) m
  let built : MqttMessage := { zeroed with
    constTopicName := some t, packetId := packetId, qosInfo := qosValue,
    constPayload := ⟨if 0 < size then p else none, size⟩ }
  refine ⟨h, m1.write h (some (.message built)), built, ?_, Memory.write_self, rfl⟩
  simp only [mqttmessageCreateInPlace, hm1]
  rfl

/-- Destroying an owned message frees its blocks and no other. -/
theorem destroy_spec (ho : Owned m h msg topic payload) :
    ∃ m', mqttmessageDestroy (some h) m = some m' ∧ ∀ a, a ∉ blocks h msg → m'.block a = m.block a := by
  obtain ⟨t, ht, htb⟩ := ho.topicName
  have hfree : m.free t = some (m.write t none) := Memory.free_spec (by simp [htb])
  have hth : t ≠ h := by
    rintro rfl
    rw [ho.held] at htb
    cases htb
  rcases ho.appPayload with ⟨-, hp⟩ | ⟨-, p, hp, hpb⟩
  · have hfreeh : (m.write t none).free h = some ((m.write t none).write h none) := by
      apply Memory.free_spec
      rw [Memory.write_ne hth.symm, ho.held]
      exact Option.some_ne_none _
    refine ⟨(m.write t none).write h none, ?_, ?_⟩
    · simp only [mqttmessageDestroy, ho.held, freePointer, ht, hp, hfree, hfreeh, Option.bind_eq_bind, Option.bind_some]
    · intro a ha
      simp only [blocks, ht, hp, Option.toList_some, Option.toList_none, List.append_nil, List.mem_append,
        List.mem_singleton, not_or] at ha
      rw [Memory.write_ne ha.2, Memory.write_ne ha.1]
  · have hpt : p ≠ t := by
      have hn := ho.distinct
      simp only [blocks, ht, hp, Option.toList_some, List.cons_append, List.nil_append, List.nodup_cons, List.mem_cons,
        not_or] at hn
      exact Ne.symm hn.1.1
    have hph : p ≠ h := by
      rintro rfl
      rw [ho.held] at hpb
      cases hpb
    have hfreep : (m.write t none).free p = some ((m.write t none).write p none) := by
      apply Memory.free_spec
      rw [Memory.write_ne hpt, hpb]
      exact Option.some_ne_none _
    have hfreeh : ((m.write t none).write p none).free h = some (((m.write t none).write p none).write h none) := by
      apply Memory.free_spec
      rw [Memory.write_ne hph.symm, Memory.write_ne hth.symm, ho.held]
      exact Option.some_ne_none _
    refine ⟨((m.write t none).write p none).write h none, ?_, ?_⟩
    · simp only [mqttmessageDestroy, ho.held, freePointer, ht, hp, hfree, hfreep, hfreeh, Option.bind_eq_bind,
        Option.bind_some]
    · intro a ha
      simp only [blocks, ht, hp, Option.toList_some, List.mem_append, List.mem_singleton, not_or] at ha
      rw [Memory.write_ne ha.2, Memory.write_ne ha.1.2, Memory.write_ne ha.1.1]

end Specs

/-! ## What cloning preserves -/

/-- The blocks that two messages own are not the same, if those of one were free when the other had its own. -/
theorem apart {m : Memory Object} {xs ys : List Nat} (hx : ∀ a ∈ xs, m.block a = none) (hy : ∀ a ∈ ys, m.block a ≠ none) :
    ∀ a ∈ ys, a ∉ xs := fun a hya hxa => hy a hya (hx a hxa)

theorem buffers_inUse {m : Memory Object} {t : Nat} {topic : CString} {p : Option Nat} {payload : List UInt8}
    (ht : stringAt m t = some topic) (hp : payload ≠ [] → bytesAt m p payload.length = some payload) :
    ∀ a ∈ buffers t p payload.length, m.block a ≠ none := by
  intro a ha
  rcases List.mem_cons.mp ha with rfl | ha
  · exact stringAt_inUse ht
  · by_cases hne : payload = []
    · simp [hne] at ha
    · obtain ⟨b, rfl, hb⟩ := bytesAt_inUse (hp hne)
      rw [if_pos (List.length_pos_iff.mpr hne), Option.toList_some, List.mem_singleton] at ha
      rw [ha]
      exact hb

theorem owned_preserved {al : Allocator Object} (hal : al.Succeeds) (packetId : UInt16) (qosValue : QosValue)
    (setters : List Setter) {m : Memory Object} {t : Nat} {topic : CString} {p : Option Nat} {payload : List UInt8}
    (ht : stringAt m t = some topic) (hp : payload ≠ [] → bytesAt m p payload.length = some payload) :
    ClonePreserves al .create packetId t qosValue p payload.length setters m := by
  obtain ⟨h, m1, msg, hbuild, ho, -, -, -, -, hfree, hframe⟩ := create_spec hal packetId qosValue ht hp
  obtain ⟨d, r, m2, hset, hb, hkeep⟩ := setAll_spec ho.held setters
  have ho2 := ho.flagged hb hkeep
  obtain ⟨h', m3, msg', hclone, ho3, hsame, hfree', hframe'⟩ := clone_spec hal ho2
  have hother := apart hfree' ho2.inUse
  obtain ⟨m4, hdestroy, hframe4⟩ := destroy_spec (ho2.congr fun a ha => hframe' a (hother a ha))
  -- the caller's buffers were in use before anything was allocated
  have hbuffers : ∀ a ∈ buffers t p payload.length, m2.block a ≠ none := by
    intro a ha
    have hm := buffers_inUse ht hp a ha
    have hblocks : a ∉ blocks h msg := fun hab => hm (hfree a hab)
    have hne : a ≠ h := by
      rintro rfl
      exact hblocks (by simp [blocks])
    rw [hkeep a hne, hframe a hblocks]
    exact hm
  refine ⟨h, h', m1, m2, m3, _, hbuild, hset, hclone, ho2.view, by rw [hdestroy]; rfl, ?_⟩
  intro m5 hm5 m6 hkeeps
  have ho5 : Owned m5 h' msg' topic payload := by
    rcases hm5 with rfl | hd
    · exact ho3
    · rw [hdestroy] at hd
      cases hd
      exact ho3.congr fun a ha => hframe4 a fun hab => hother a hab ha
  have ho6 : Owned m6 h' msg' topic payload := by
    apply ho5.congr
    intro a ha
    exact hkeeps a (fun hab => apart hfree' hbuffers a hab ha) (ho5.inUse a ha)
  rw [ho6.view, Option.map_some, hsame]

theorem in_place_not_preserved {al : Allocator Object} (hal : al.Succeeds) (packetId : UInt16) (t : Nat)
    (qosValue : QosValue) (p : Option Nat) (size : Nat) (setters : List Setter) (m : Memory Object) :
    ¬ ClonePreserves al .createInPlace packetId t qosValue p size setters m := by
  intro hc
  obtain ⟨original, clone, m1, m2, m3, -, hbuild, hset, hclone, -⟩ := hc
  obtain ⟨h, m1', msg, hmade, hh, ht⟩ := createInPlace_spec (m := m) hal packetId t qosValue p size
  rw [build, hmade, Option.some.injEq, Prod.mk.injEq, Option.some.injEq] at hbuild
  obtain ⟨rfl, rfl⟩ := hbuild
  obtain ⟨d, r, m2', hset', hh2, -⟩ := setAll_spec hh setters
  rw [hset, Option.some.injEq] at hset'
  subst hset'
  rw [clone_in_place hh2 ht] at hclone
  cases hclone

/-- Cloning preserves the messages that `mqttmessage_create` builds, and no other. -/
theorem clone_preserves_iff (al : Allocator Object) (hal : al.Succeeds) (builder : Builder) (packetId : UInt16)
    (topicName : Nat) (qosValue : QosValue) (appMsg : Option Nat) (payload : List UInt8) (setters : List Setter)
    (m : Memory Object) (topic : CString) (ht : stringAt m topicName = some topic)
    (hp : payload ≠ [] → bytesAt m appMsg payload.length = some payload) :
    ClonePreserves al builder packetId topicName qosValue appMsg payload.length setters m ↔ builder = .create := by
  cases builder with
  | create => exact iff_of_true (owned_preserved hal packetId qosValue setters ht hp) rfl
  | createInPlace =>
    have hlost := in_place_not_preserved hal packetId topicName qosValue appMsg payload.length setters m
    exact iff_of_false hlost nofun

def callersBlocks (a : Nat) : Option Object :=
  if a = 1 then some (.bytes [116, 0]) else if a = 2 then some (.bytes [9, 8]) else none

theorem callersBlocks_unused (a : Nat) (ha : 3 ≤ a) : callersBlocks a = none := by
  rw [callersBlocks, if_neg (by omega), if_neg (by omega)]

def callersBuffers : Memory Object := ⟨callersBlocks, 3, callersBlocks_unused⟩

theorem callersBuffers_cloned :
    ClonePreserves (bump Object) .create 7 1 .deliverAtLeastOnce (some 2) 2 [.retained true] callersBuffers :=
  (clone_preserves_iff (bump Object) (bump_succeeds Object) .create 7 1 .deliverAtLeastOnce (some 2) [9, 8] [.retained true]
    callersBuffers (CString.ofBlock [116, 0]) (by decide) (fun _ => by decide)).mpr rfl

/-- Of a message in place the clone is NULL. -/
theorem in_place_lost : stringAt callersBuffers 1 = some (CString.ofBlock [116, 0]) ∧
    bytesAt callersBuffers (some 2) 2 = some [9, 8] ∧
    ¬ ClonePreserves (bump Object) .createInPlace 7 1 .deliverAtLeastOnce (some 2) 2 [] callersBuffers :=
  ⟨by decide, by decide, in_place_not_preserved (bump_succeeds Object) 7 1 .deliverAtLeastOnce (some 2) 2 [] callersBuffers⟩

end UMqtt.Client.Clone

/-
  UMqtt.Client.Message — `MQTT_MESSAGE` (uMQTT/src/mqtt_message.c).

  A message owns its topic and payload, or, created in place, borrows the caller's
  (`constTopicName`, `constPayload`). Its functions are modelled on a live handle.
-/

import UMqtt.Crt.Strings
import UMqtt.Codec.Encode

namespace UMqtt.Client

open UMqtt.Crt UMqtt.Codec

structure AppPayload where
  message : Option (List UInt8)
  length : Nat
  deriving DecidableEq, Repr

structure Message where
  packetId : UInt16
  qosInfo : QosValue
  topicName : Option CString
  appPayload : AppPayload
  constTopicName : Option CString
  constPayload : AppPayload
  isDuplicateMsg : Bool
  isMessageRetained : Bool
  deriving DecidableEq, Repr

/-- What `mqttmessage_create` does: a handle, NULL, or a write through NULL. -/
inductive CreateResult where
  | created (m : Message)
  | null
  | nullWrite
  deriving DecidableEq, Repr

/-- `mqttmessage_create`; `appMsg` is what is known of the `appMsgLength` bytes at that pointer. -/
def mqttmessageCreate (packetId : UInt16) (topicName : Option CString) (qosValue : QosValue) (appMsg : List UInt8)
    (appMsgLength : Nat) (ms : Mallocs) : CreateResult × Mallocs :=
  match topicName with
  | none => (.null, ms)
  | some topicName =>
    match malloc 48 ms with
    | (none, ms) => (.null, ms)
    | (some _, ms) =>
      match mallocAndStrcpy topicName ms with
      | (.nullWrite, ms) => (.nullWrite, ms)
      | (.copied topic, ms) =>
        let result : Message :=
          { packetId := packetId, qosInfo := qosValue, topicName := some topic, appPayload := ⟨none, appMsgLength⟩,
            constTopicName := none, constPayload := ⟨none, 0⟩, isDuplicateMsg := false, isMessageRetained := false }
        if 0 < appMsgLength then
          match malloc appMsgLength ms with
          | (none, ms) => (.null, ms)
          | (some _, ms) => (.created { result with appPayload := ⟨some appMsg, appMsgLength⟩ }, ms)
        else (.created result, ms)

namespace Message

def getTopicName (m : Message) : Option CString := if m.topicName.isNone then m.constTopicName else m.topicName

def getApplicationMsg (m : Message) : AppPayload := if 0 < m.constPayload.length then m.constPayload else m.appPayload

/-- The bytes at `payload->message`, `payload->length` of them. -/
def payload (m : Message) : List UInt8 := (m.getApplicationMsg.message.getD []).take m.getApplicationMsg.length

end Message

def Message.owned (packetId : UInt16) (topicName : CString) (qosValue : QosValue) (appMsg : List UInt8) : Message :=
  { packetId := packetId, qosInfo := qosValue, topicName := some topicName,
    appPayload := ⟨if 0 < appMsg.length then some appMsg else none, appMsg.length⟩, constTopicName := none,
    constPayload := ⟨none, 0⟩, isDuplicateMsg := false, isMessageRetained := false }

theorem Message.payload_owned (packetId : UInt16) (topicName : CString) (qosValue : QosValue) (appMsg : List UInt8) :
    (Message.owned packetId topicName qosValue appMsg).payload = appMsg := by
  simp only [payload, getApplicationMsg, owned, Nat.lt_irrefl, if_false]
  split
  · exact List.take_length
  · rw [List.length_eq_zero_iff.mp (by omega : appMsg.length = 0)]; rfl

/-- NULL comes back when the handle or the payload gets no memory; without memory for the
    topic the program is gone. -/
theorem mqttmessageCreate_null_iff (packetId : UInt16) (topicName : CString) (qosValue : QosValue)
    (appMsg : List UInt8) (appMsgLength : Nat) (ms : Mallocs) :
    (mqttmessageCreate packetId (some topicName) qosValue appMsg appMsgLength ms).1 = .null ↔
      denied ms 0 ∨ ¬ denied ms 1 ∧ 0 < appMsgLength ∧ denied ms 2 := by
  simp only [mqttmessageCreate, mallocAndStrcpy]
  rcases malloc_cases 48 ms with ⟨h0, h⟩ | ⟨h0, b, h, -⟩
  · simp only [h, h0, true_or]
  · rcases malloc_cases (topicName.strlen + 1) ms.tail with ⟨h1, h'⟩ | ⟨h1, b', h', -⟩
    · rw [denied_tail] at h1
      simp only [h, h', h0, h1, not_true_eq_false, false_and, or_self, iff_false]
      exact fun e => nomatch e
    · rw [denied_tail] at h1
      by_cases hl : 0 < appMsgLength
      · rcases malloc_cases appMsgLength ms.tail.tail with ⟨h2, h''⟩ | ⟨h2, b'', h'', -⟩
        · rw [denied_tail, denied_tail] at h2
          simp only [h, h', h'', h0, h1, h2, hl, if_true, not_false_eq_true, and_self, or_true]
        · rw [denied_tail, denied_tail] at h2
          simp only [h, h', h'', h0, h1, h2, hl, if_true, and_false, or_self, iff_false]
          exact fun e => nomatch e
      · simp only [h, h', h0, h1, hl, if_false, false_and, and_false, or_self, iff_false]
        exact fun e => nomatch e

theorem mqttmessageCreate_succeed {ms : Mallocs} (hm : Succeed ms) (packetId : UInt16) (topicName : CString)
    (qosValue : QosValue) (appMsg : List UInt8) :
    ∃ ms', mqttmessageCreate packetId (some topicName) qosValue appMsg appMsg.length ms =
      (.created (Message.owned packetId topicName qosValue appMsg), ms') ∧ Succeed ms' := by
  obtain ⟨b1, ms1, h1, -, hs1⟩ := malloc_succeed hm 48
  obtain ⟨ms2, h2, hs2⟩ := mallocAndStrcpy_succeed hs1 topicName
  by_cases hl : 0 < appMsg.length
  · obtain ⟨b3, ms3, h3, -, hs3⟩ := malloc_succeed hs2 appMsg.length
    exact ⟨ms3, by simp only [mqttmessageCreate, h1, h2, if_pos hl, h3, Message.owned], hs3⟩
  · exact ⟨ms2, by simp only [mqttmessageCreate, h1, h2, if_neg hl, Message.owned], hs2⟩

end UMqtt.Client

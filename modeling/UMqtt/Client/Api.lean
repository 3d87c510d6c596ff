/-
  UMqtt.Client.Api — the functions of uMQTT/src/mqtt_client.c that the application calls.
-/

import UMqtt.Client.Receive

namespace UMqtt.Client

open UMqtt.Lib UMqtt.Crt UMqtt.Codec UMqtt.Io

/-! ## Creation -/

def defaultMaxPingResponseTime : UInt16 := 80

def MqttClient.init (msgRecv opCallback onErrorCallBack : Bool) : MqttClient :=
  { xioHandle := none, codec := create, packetState := .unknown, packetSendTimeMs := 0,
    fnOperationCallback := opCallback, fnMessageRecv := msgRecv, fnOnErrorCallBack := onErrorCallBack,
    disconnectCb := none, qosValue := .deliverAtMostOnce, keepAliveInterval := 0, mqttOptions := {},
    clientConnected := false, socketConnected := false, rawBytesTrace := false, timeSincePing := 0,
    maxPingRespTime := defaultMaxPingResponseTime }

/-- The client, its tick counter and its codec are allocated. -/
def mqttClientInit (msgRecv opCallback onErrorCallBack : Bool) (ms : Mallocs) : Option MqttClient × Mallocs :=
  if msgRecv = false then (none, ms)
  else match malloc 120 ms with
    | (none, ms) => (none, ms)
    | (some _, ms) =>
      match malloc 16 ms with
      | (none, ms) => (none, ms)
      | (some _, ms) =>
        match malloc 44 ms with
        | (none, ms) => (none, ms)
        | (some _, ms) => (some (MqttClient.init msgRecv opCallback onErrorCallBack), ms)

/-! ## Options -/

def clearMqttOptions (o : MqttClientOptions) : MqttClientOptions :=
  { o with clientId := none, willTopic := none, willMessage := none, username := none, password := none }

/-- `cloneMqttOptions` under way: its result, the client's options, and whether a copy
    without memory has written through NULL. -/
structure Cloning where
  result : Nat
  options : MqttClientOptions
  mallocs : Mallocs
  crashed : Bool

abbrev StringOption := Slot MqttClientOptions (Option CString)

def clientIdOption : StringOption :=
  ⟨(·.clientId), fun s o => { o with clientId := s }, fun _ _ => rfl, fun _ _ _ => rfl, fun _ => rfl⟩

def willTopicOption : StringOption :=
  ⟨(·.willTopic), fun s o => { o with willTopic := s }, fun _ _ => rfl, fun _ _ _ => rfl, fun _ => rfl⟩

def willMessageOption : StringOption :=
  ⟨(·.willMessage), fun s o => { o with willMessage := s }, fun _ _ => rfl, fun _ _ _ => rfl, fun _ => rfl⟩

def usernameOption : StringOption :=
  ⟨(·.username), fun s o => { o with username := s }, fun _ _ => rfl, fun _ _ _ => rfl, fun _ => rfl⟩

def passwordOption : StringOption :=
  ⟨(·.password), fun s o => { o with password := s }, fun _ _ => rfl, fun _ _ _ => rfl, fun _ => rfl⟩

/-- Copy one string, unless it is NULL or an earlier copy has failed. -/
def Cloning.copy (field : StringOption) (mqttOptions : MqttClientOptions) (c : Cloning) : Cloning :=
  if c.result = 0 then
    match field.get mqttOptions with
    | none => c
    | some source =>
      match mallocAndStrcpy source c.mallocs with
      | (.nullWrite, ms) => { c with result := failure, mallocs := ms, crashed := true }
      | (.copied string, ms) => { c with options := field.set (some string) c.options, mallocs := ms }
  else c

def cloneMqttOptions (mqttOptions : MqttClientOptions) (c : Cloning) : Cloning :=
  let c := c.copy clientIdOption mqttOptions
  let c := c.copy willTopicOption mqttOptions
  let c := c.copy willMessageOption mqttOptions
  let c := c.copy usernameOption mqttOptions
  let c := c.copy passwordOption mqttOptions
  if c.result = 0 then
    { c with options := { c.options with
        keepAliveInterval := mqttOptions.keepAliveInterval, messageRetain := mqttOptions.messageRetain,
        useCleanSession := mqttOptions.useCleanSession,
        qualityOfServiceValue := mqttOptions.qualityOfServiceValue } }
  else { c with options := clearMqttOptions c.options }

/-! ## Calls -/

section Calls

variable {σ : Type} (xio : Xio σ) (app : App σ)

/-- What `mqtt_client_connect` does before it opens the transport. -/
def takeOptions (xioHandle : XioHandle) (mqttOptions : MqttClientOptions) (w : World σ) : Nat × World σ :=
  let half := mqttOptions.keepAliveInterval / 2
  let client := { w.client with
    xioHandle := some xioHandle, packetState := .unknown, qosValue := mqttOptions.qualityOfServiceValue,
    keepAliveInterval := mqttOptions.keepAliveInterval,
    maxPingRespTime := if defaultMaxPingResponseTime < half then defaultMaxPingResponseTime else half }
  let c := cloneMqttOptions mqttOptions ⟨0, client.mqttOptions, w.mallocs, w.crashed⟩
  (c.result, { w with client := { client with mqttOptions := c.options }, mallocs := c.mallocs, crashed := c.crashed })

/-- `mqtt_client_connect`, of a live client and options that are not NULL. -/
def mqttClientConnect (xioHandle : Option XioHandle) (mqttOptions : MqttClientOptions) (w : World σ) : Nat × World σ :=
  match xioHandle with
  | none => (failure, w)
  | some h =>
    let (cloned, w) := takeOptions h mqttOptions w
    if cloned ≠ 0 then (failure, w)
    else
      let r := xio.openIo h w
      if r.1 ≠ 0 then
        (failure, { r.2 with client := { r.2.client with mqttOptions := clearMqttOptions r.2.client.mqttOptions } })
      else (0, r.2)

/-- What publishing, subscribing and unsubscribing do with the packet they have built. -/
def sendBuilt (type : ControlPacketType) (packet : Option Buffer × Mallocs) (w : World σ) : Nat × World σ :=
  match packet with
  | (none, ms) => (failure, { w with mallocs := ms })
  | (some packet, ms) =>
    sendPacketItem xio packet.bytes { w with mallocs := ms, client := { w.client with packetState := type } }

def mqttClientPublish (msgHandle : Message) (w : World σ) : Nat × World σ :=
  sendBuilt xio .publish
    (mqttCodecPublish msgHandle.qosInfo msgHandle.isDuplicateMsg msgHandle.isMessageRetained msgHandle.packetId
      msgHandle.getTopicName msgHandle.payload w.mallocs) w

def mqttClientSubscribe (packetId : UInt16) (subscribeList : List SubscribePayload) (w : World σ) : Nat × World σ :=
  if subscribeList.length = 0 ∨ packetId = 0 then (failure, w)
  else sendBuilt xio .subscribe (mqttCodecSubscribe packetId subscribeList w.mallocs) w

def mqttClientUnsubscribe (packetId : UInt16) (unsubscribeList : List CString) (w : World σ) : Nat × World σ :=
  if unsubscribeList.length = 0 ∨ packetId = 0 then (failure, w)
  else sendBuilt xio .unsubscribe (mqttCodecUnsubscribe packetId unsubscribeList w.mallocs) w

def mqttClientDisconnect (callback : Option Nat) (w : World σ) : Nat × World σ :=
  if w.client.clientConnected then
    let r :=
      match mqttCodecDisconnect w.mallocs with
      | (none, ms) => (failure, { w with mallocs := ms, client := { w.client with packetState := .packetTypeError } })
      | (some packet, ms) =>
        sendPacketItem xio packet.bytes
          { w with mallocs := ms, client := { w.client with disconnectCb := callback, packetState := .disconnect } }
    (r.1, { r.2 with client := { r.2.client with
      mqttOptions := clearMqttOptions r.2.client.mqttOptions, xioHandle := none } })
  else
    let w := closeConnection xio app { w with client := { w.client with disconnectCb := callback } }
    (0, { w with client := { w.client with mqttOptions := clearMqttOptions w.client.mqttOptions } })

/-- The keep-alive part of `mqtt_client_dowork`. -/
def keepAlive (w : World σ) : World σ :=
  match w.currentMs with
  | (none, w) => w
  | (some currentMs, w) =>
    if 0 < w.client.timeSincePing ∧ w.client.maxPingRespTime.toUInt32 < (currentMs - w.client.timeSincePing) / 1000 then
      let w := setErrorCallback xio app .noPingResponse w
      { w with client := { w.client with timeSincePing := 0, packetSendTimeMs := 0, packetState := .unknown } }
    else if w.client.keepAliveInterval.toUInt32 ≤ (currentMs - w.client.packetSendTimeMs) / 1000 then
      match mqttCodecPing w.mallocs with
      | (none, ms) => { w with mallocs := ms }
      | (some pingPacket, ms) =>
        let w := (sendPacketItem xio pingPacket.bytes { w with mallocs := ms }).2
        match w.currentMs with
        | (none, w) => w
        | (some now, w) => { w with client := { w.client with timeSincePing := now } }
    else w

def mqttClientDowork (w : World σ) : World σ :=
  match w.client.xioHandle with
  | none => w
  | some h =>
    let w := xio.dowork h w
    if w.client.socketConnected ∧ w.client.clientConnected ∧ 0 < w.client.keepAliveInterval then keepAlive xio app w
    else w

end Calls

end UMqtt.Client

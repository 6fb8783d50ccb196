/-
Umqtt/NanoClient/Client.lean

The client with input and output (`nano_client.rs`).

Its operations run over a `World`: the client, the state of its platform, and a
record of the calls of the platform, which the code does not have and no
operation looks at.  The loops of `read_connack` and `next_notification` take a
bound on their turns, one more than there are free bytes in the receive buffer.
It never runs out, since every turn that goes on fills at least one byte
(`Receiving.lean`).
-/
import Umqtt.NanoClient.Buffer
import Umqtt.NanoClient.Notification
import Umqtt.NanoClient.Platform
import Umqtt.Packetview.SubscribeWriter

namespace Umqtt

open Effects Wire

/-- A nano MQTT client -/
structure NanoClient where
  transportClient : TransportClient
  txBuffer : List UInt8
  rxBuffer : Buffer
  deriving DecidableEq

namespace NanoClient

/-- Create a new `NanoClient` -/
def new (txBuffer rxBuffer : List UInt8) : NanoClient where
  transportClient := TransportClient.new rxBuffer.length
  txBuffer := txBuffer
  rxBuffer := Buffer.new rxBuffer

/-- Create a `NanoClient` from a `TransportClient`. -/
def fromTransportClient (transportClient : TransportClient) (txBuffer rxBuffer : List UInt8) :
    NanoClient where
  transportClient := transportClient
  txBuffer := txBuffer
  rxBuffer := Buffer.new rxBuffer

/-- Convert the `NanoClient` to a `TransportClient`. -/
def intoInner (self : NanoClient) : TransportClient := self.transportClient

/-- Check if the underlying transport client is disconnected. -/
def isDisconnected (self : NanoClient) : Bool := self.transportClient.isDisconnected

/-- A client on its platform, with the record of what it asked the platform. -/
structure World (σ E : Type) where
  client : NanoClient
  platform : σ
  log : List (Event E)

section Operations

variable {σ E : Type}

/-! ### The parts of the client -/

def onTransport {ε α : Type} (x : Act TransportClient ε α) : Act (World σ E) ε α :=
  x.zoom (fun w => w.client.transportClient)
    fun transportClient w => { w with client := { w.client with transportClient } }

def onTx {ε α : Type} (x : Act (List UInt8) ε α) : Act (World σ E) ε α :=
  x.zoom (fun w => w.client.txBuffer)
    fun txBuffer w => { w with client := { w.client with txBuffer } }

def onRx {ε α : Type} (x : Act Buffer ε α) : Act (World σ E) ε α :=
  x.zoom (fun w => w.client.rxBuffer)
    fun rxBuffer w => { w with client := { w.client with rxBuffer } }

/-- `self.rx_buffer.used_slice()` -/
def usedSlice : Act (World σ E) (Error E) (List UInt8) := fun w =>
  (w.client.rxBuffer.usedSlice, w)

/-- `self.transport_client.on_bytes_received(self.rx_buffer.used_slice())` -/
def onBytesReceived : Act (World σ E) (Error E) (Option (Notification × Nat)) := do
  let data ← usedSlice
  onTransport ((TransportClient.onBytesReceived data).mapErr .readError)

variable (p : Platform σ E)

/-! ### The methods of the platform -/

/-- `platform.write_all(buffer)` -/
def platformWriteAll (buffer : List UInt8) : Act (World σ E) (Error E) (Except E Unit) := fun w =>
  let r := p.writeAll buffer w.platform
  (.ok r.1, { w with
    platform := r.2
    log := w.log ++ [.wrote w.client.transportClient.state buffer r.1] })

/-- `platform.read_some(self.rx_buffer.unused_slice_mut(), timeout)` -/
def platformReadSome (timeout : Option Duration) :
    Act (World σ E) (Error E) (Except E (Option Nat)) := fun w =>
  match w.client.rxBuffer.unusedSlice with
  | .ok unused =>
      let r := p.readSome unused timeout w.platform
      (.ok r.1.1, {
        client := { w.client with rxBuffer := w.client.rxBuffer.storeUnused r.1.2 }
        platform := r.2
        log := w.log ++ [.read timeout r.1.1 r.1.2] })
  | .err e => (.err e, w)
  | .panic => (.panic, w)

/-- `platform.now()` -/
def platformNow : Act (World σ E) (Error E) Instant := fun w =>
  let r := p.now w.platform
  (.ok r.1, { w with platform := r.2, log := w.log ++ [.clock r.1] })

/-! ### Writing and reading -/

def writeBuffer (buffer : List UInt8) : Act (World σ E) (Error E) Unit := do
  if (← Act.gets fun w => w.client.isDisconnected) then
    Act.fail .connectionClosed
  else
    match ← platformWriteAll p buffer with
    | .ok () => do
        let now ← platformNow p
        onTransport (Act.modify fun t => t.onPacketSent now)
    | .error e => do
        onTransport (Act.modify fun t => t.onTransportClosed)
        Act.fail (.io e)

/-- Write the first `size` bytes of the tx buffer. -/
def writeAll (size : Nat) : Act (World σ E) (Error E) Unit := do
  let txBuffer ← Act.gets fun w => w.client.txBuffer
  let buffer ← Act.lift (slice txBuffer 0 size)
  writeBuffer p buffer

def readSomeWithTimeout (timeout : Option Duration) :
    Act (World σ E) (Error E) (Option Nat) := do
  match ← platformReadSome p timeout with
  | .ok none => pure none
  | .ok (some n) =>
      if n = 0 then do
        onTransport (Act.modify fun t => t.onTransportClosed)
        Act.fail .connectionClosed
      else do
        onRx (Act.modify fun b => b.advance n)
        pure (some n)
  | .error e => do
      onTransport (Act.modify fun t => t.onTransportClosed)
      Act.fail (.io e)

/-- One more turn than there are free bytes in the receive buffer. -/
def turns : Act (World σ E) (Error E) Nat :=
  Act.gets fun w => w.client.rxBuffer.capacity - w.client.rxBuffer.used + 1

/-- What `read_connack` makes of the received bytes. -/
def takeConnack : Act (World σ E) (Error E) (Option ConnAck) := do
  match ← onBytesReceived with
  | none => pure none
  | some (.connAck ack, taken) => do
      onRx (Buffer.removePrefix taken)
      pure (some ack)
  | some _ => Act.fail .unexpectedPacket

/-- One turn of the loop of `read_connack`, which ends with a CONNACK. -/
def readConnackTurn : Act (World σ E) (Error E) (Option ConnAck) := do
  match ← readSomeWithTimeout p none with
  | none => Act.panic -- `unwrap()`
  | some readResult => if readResult = 0 then Act.fail .connectionClosed else takeConnack

def readConnack : Act (World σ E) (Error E) ConnAck := do
  let n ← turns
  Act.loop (readConnackTurn p) n

/-! ### Connecting -/

/-- Connect to the MQTT broker. -/
def connect (connectOptions : ConnectOptions) : Act (World σ E) (Error E) ConnAck := do
  onTransport (Act.modify fun t => t.onTransportOpened connectOptions)
  onRx (Act.modify Buffer.reset)
  let outSize ← onTx (connectOptions.asConnect.write.mapErr .writeError)
  writeAll p outSize
  let connack ← readConnack p
  (if connack.code ≠ .success then
    onTransport (Act.modify fun t => t.onTransportClosed)
  else
    pure ())
  pure connack

/-- `header[i] = byte`: a panic when there is no such index. -/
def setIndex {ε : Type} (i : Nat) (byte : UInt8) : Act (List UInt8) ε Unit := fun header =>
  if i < header.length then (.ok (), header.set i byte) else (.panic, header)

/-- The first bytes of a SUBSCRIBE with a payload of `payloadLen` bytes, put
together in an array of seven. -/
def subscribeHeader (payloadLen : Nat) : Act (List UInt8) WriteError (List UInt8) := do
  setIndex 0 0x82
  let remainingLenLen ← Act.zoom (List.drop 1) (fun rest header => header.take 1 ++ rest)
    (onBuffer (writeRemainingLength (payloadLen + 2)))
  setIndex (remainingLenLen + 1) 0
  setIndex (remainingLenLen + 2) 1
  let header ← Act.gets id
  Act.lift (slice header 0 (remainingLenLen + 3))

def writeSubscribe (subscriptions : SubscribeFn) : Act (World σ E) (Error E) Unit := do
  let payloadLen ← onTx (Act.mapErr .writeError (onBuffer do
    subscriptions.run SubscribeWriter.answer
    Act.gets Filled.len))
  let header ← Act.lift (((subscribeHeader payloadLen) [0, 0, 0, 0, 0, 0, 0]).1.mapErr .writeError)
  writeBuffer p header
  writeAll p payloadLen

/-- Connect to the MQTT broker, and subscribe to what `subscriptions` adds. -/
def connectSubscribe (connectOptions : ConnectOptions) (subscriptions : SubscribeFn) :
    Act (World σ E) (Error E) ConnAck := do
  let connack ← connect p connectOptions
  (if connack.code.isSuccess then writeSubscribe p subscriptions else pure ())
  pure connack

/-! ### Receiving -/

/-- One turn of the loop of `next_notification`: it returns a notification, or
breaks, or goes on. -/
def nextNotificationTurn : Act (World σ E) (Error E) (Option (Option ClientNotification)) := do
  let now ← platformNow p
  let nextPing ← Act.gets fun w => w.client.transportClient.nextPingIn now
  match ← readSomeWithTimeout p nextPing with
  | none => pure (some (some .sendPing))
  | some _ => do
      let used ← usedSlice
      let capacity ← Act.gets fun w => w.client.rxBuffer.capacity
      match check used capacity with
      | .ok _ => pure (some none)
      | .err _ => pure none
      | .panic => Act.panic

/-- The end of `next_notification`, behind its loop. -/
def takeNotification : Act (World σ E) (Error E) ClientNotification := do
  match ← onBytesReceived with
  | none => Act.fail (.readError .malformedPacket)
  | some (notification, taken) => pure (.transportNotification { notification, taken })

/-- Read data until next notification -/
def nextNotification : Act (World σ E) (Error E) ClientNotification := do
  if (← Act.gets fun w => w.client.isDisconnected) then
    Act.fail .connectionClosed
  else do
    let n ← turns
    match ← Act.loop (nextNotificationTurn p) n with
    | some notification => pure notification
    | none => takeNotification

/-! ### Sending -/

/-- Encode a packet into the tx buffer, and write it. -/
def sendPacket (write : Act (List UInt8) WriteError Nat) : Act (World σ E) (Error E) Unit := do
  let outSize ← onTx (write.mapErr .writeError)
  writeAll p outSize

/-- Send a ping request. -/
def sendPingRequest : Act (World σ E) (Error E) Unit := sendPacket p PingReq.write

/-- Send an MQTT PubAck message with a given packet id. -/
def sendPubAck (packetId : UInt16) : Act (World σ E) (Error E) Unit :=
  sendPacket p (PubAck.mk packetId).write

/-- Send an MQTT PubRec message with a given packet id. -/
def sendPubRec (packetId : UInt16) : Act (World σ E) (Error E) Unit :=
  sendPacket p (PubRec.mk packetId).write

/-- Send an MQTT PubComp message with a given packet id. -/
def sendPubComp (packetId : UInt16) : Act (World σ E) (Error E) Unit :=
  sendPacket p (PubComp.mk packetId).write

/-- Send an MQTT publish message with the given flags. -/
def sendPublish (publish : OutPublish) (topic : TopicFn) (payload : PayloadFn) :
    Act (World σ E) (Error E) Unit := do
  let written ← onTx ((publish.write topic payload).mapErr .writeError)
  writeBuffer p written

/-- Send an MQTT publish message with QoS 0. -/
def sendPublishQos0 (topic : TopicFn) (payload : PayloadFn) : Act (World σ E) (Error E) Unit :=
  sendPublish p { pkid := 0, qos := .atMostOnce, retain := false, dup := false } topic payload

/-- Send an MQTT publish message with QoS 1. -/
def sendPublishQos1 (packetId : UInt16) (topic : TopicFn) (payload : PayloadFn) :
    Act (World σ E) (Error E) Unit :=
  sendPublish p { pkid := packetId, dup := false, retain := false, qos := .atLeastOnce } topic
    payload

/-- User calls this when a notification is done and should be completed. -/
def completeNotification (completion : NotificationCompletion) :
    Act (World σ E) (Error E) Unit := do
  (if completion.taken > 0 then
    onRx (Buffer.removePrefix completion.taken)
  else
    pure ())
  match completion.action with
  | .none => pure ()
  | .pingReq => sendPingRequest p
  | .pubAck packetId => sendPubAck p packetId
  | .pubRec packetId => sendPubRec p packetId
  | .pubComp packetId => sendPubComp p packetId

/-! ### Calls -/

/-- The operations that send a packet of the caller's. -/
inductive Send where
  | pingRequest
  | pubAck (packetId : UInt16)
  | pubRec (packetId : UInt16)
  | pubComp (packetId : UInt16)
  | publish (publish : OutPublish) (topic : TopicFn) (payload : PayloadFn)
  | publishQos0 (topic : TopicFn) (payload : PayloadFn)
  | publishQos1 (packetId : UInt16) (topic : TopicFn) (payload : PayloadFn)

/-- The public operations. -/
inductive Call where
  | connect (options : ConnectOptions)
  | connectSubscribe (options : ConnectOptions) (subscriptions : SubscribeFn)
  | nextNotification
  | completeNotification (completion : NotificationCompletion)
  | send (packet : Send)
  | isDisconnected

/-- What an operation returns when it does not fail. -/
inductive Value where
  | connAck (ack : ConnAck)
  | notification (n : ClientNotification)
  | unit
  | bool (b : Bool)
  deriving DecidableEq

def performSend : Send → Act (World σ E) (Error E) Unit
  | .pingRequest => sendPingRequest p
  | .pubAck packetId => sendPubAck p packetId
  | .pubRec packetId => sendPubRec p packetId
  | .pubComp packetId => sendPubComp p packetId
  | .publish publish topic payload => sendPublish p publish topic payload
  | .publishQos0 topic payload => sendPublishQos0 p topic payload
  | .publishQos1 packetId topic payload => sendPublishQos1 p packetId topic payload

def perform : Call → Act (World σ E) (Error E) Value
  | .connect options => do return .connAck (← connect p options)
  | .connectSubscribe options subscriptions => do
      return .connAck (← connectSubscribe p options subscriptions)
  | .nextNotification => do return .notification (← nextNotification p)
  | .completeNotification completion => do
      completeNotification p completion
      return .unit
  | .send packet => do
      performSend p packet
      return .unit
  | .isDisconnected => do return .bool (← Act.gets fun w => w.client.isDisconnected)

/-- The options of the operations that connect. -/
def Call.connects : Call → Option ConnectOptions
  | .connect options => some options
  | .connectSubscribe options _ => some options
  | _ => none

end Operations

end NanoClient

end Umqtt

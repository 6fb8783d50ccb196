/-
Umqtt/TransportClient.lean

The client without input and output (`transport_client.rs`): it is told what
happened to the transport, and says what the received bytes mean.

`Received` lists everything that one call on received bytes can do; what holds
of the inbound protocol follows from it.
-/
import Umqtt.Packetview.Packet
import Umqtt.Time

namespace Umqtt

open Effects

inductive Notification where
  | connAck (ack : ConnAck)
  | publish (publish : Publish)
  | pubAck (ack : PubAck)
  | pubRec (ack : PubRec)
  | pubRel (ack : PubRel)
  | pubComp (ack : PubComp)
  | subAck (ack : SubAck)
  | unsubAck (ack : UnsubAck)
  | pingResponse
  | disconnected
  deriving DecidableEq

/-- The notification of a packet that a server sends behind its CONNACK. -/
def Notification.ofPacket : Packet → Option Notification
  | .publish p => some (.publish p)
  | .pubAck ack => some (.pubAck ack)
  | .pubRec ack => some (.pubRec ack)
  | .pubRel ack => some (.pubRel ack)
  | .pubComp ack => some (.pubComp ack)
  | .subAck ack => some (.subAck ack)
  | .unsubAck ack => some (.unsubAck ack)
  | .pingResp => some .pingResponse
  | _ => none

inductive State where
  | disconnected
  | transportConnected
  | connected
  deriving DecidableEq, Repr

/-- A low level client that aims at handling the transport aspect of a full MQTT client -/
structure TransportClient where
  keepAlive : Duration
  state : State
  maxPacketSize : Nat
  packetSendAt : Instant
  deriving DecidableEq

namespace TransportClient

/-- Create a new transport client, with a maximum receive packet size set -/
def new (maxPacketSize : Nat) : TransportClient where
  keepAlive := Duration.fromSecs 0
  state := .disconnected
  maxPacketSize := maxPacketSize
  packetSendAt := Instant.epoch

/-- Signal to the client that a transport to a broker has been opened. -/
def onTransportOpened (self : TransportClient) (options : ConnectOptions) : TransportClient :=
  { self with
    keepAlive := Duration.fromSecs (UInt64.ofNat options.keepAlive.toNat)
    packetSendAt := Instant.epoch
    state := .transportConnected }

/-- Tell the client that a packet has been sent. -/
def onPacketSent (self : TransportClient) (now : Instant) : TransportClient :=
  if self.keepAlive.isPositive then { self with packetSendAt := now.add self.keepAlive } else self

/-- Tell the client that the transport has been closed. -/
def onTransportClosed (self : TransportClient) : TransportClient :=
  { self with state := .disconnected }

/-- `on_bytes_received` before the CONNACK. -/
def onHandshakeBytes (data : List UInt8) :
    Act TransportClient Error (Option (Notification × Nat)) := fun self =>
  match Packet.read data self.maxPacketSize with
  | .err (.needMoreData _) => (.ok none, self)
  | .err x => (.err x, { self with state := .disconnected })
  | .ok (.connAck c, taken) =>
      if c.code = .success then
        (.ok (some (.connAck c, taken)), { self with state := .connected })
      else
        (.ok (some (.disconnected, 0)), { self with state := .disconnected })
  | .ok (p, _) => (.err (.unexpectedPacket p.packetType), { self with state := .disconnected })
  | .panic => (.panic, self)

/-- `on_bytes_received` behind the CONNACK. -/
def onSessionBytes (data : List UInt8) :
    Act TransportClient Error (Option (Notification × Nat)) := fun self =>
  match Packet.read data self.maxPacketSize with
  | .err (.needMoreData _) => (.ok none, self)
  | .err x => (.err x, { self with state := .disconnected })
  | .ok (.connAck _, _) => (.err (.unexpectedPacket .connAck), { self with state := .disconnected })
  | .ok (.publish publish, taken) => (.ok (some (.publish publish, taken)), self)
  | .ok (.pubAck ack, taken) => (.ok (some (.pubAck ack, taken)), self)
  | .ok (.pubRec ack, taken) => (.ok (some (.pubRec ack, taken)), self)
  | .ok (.pubRel ack, taken) => (.ok (some (.pubRel ack, taken)), self)
  | .ok (.pubComp ack, taken) => (.ok (some (.pubComp ack, taken)), self)
  | .ok (.subAck ack, taken) => (.ok (some (.subAck ack, taken)), self)
  | .ok (.unsubAck ack, taken) => (.ok (some (.unsubAck ack, taken)), self)
  | .ok (.pingResp, taken) => (.ok (some (.pingResponse, taken)), self)
  | .ok _ => (.err .unsupportedPacket, { self with state := .disconnected })
  | .panic => (.panic, self)

/-- Call when new bytes have been received: the notification and the number of
bytes it takes, if the bytes hold a packet. -/
def onBytesReceived (data : List UInt8) :
    Act TransportClient Error (Option (Notification × Nat)) := fun self =>
  match self.state with
  | .disconnected => (.ok (some (.disconnected, 0)), self)
  | .transportConnected => onHandshakeBytes data self
  | .connected => onSessionBytes data self

def nextPingIn (self : TransportClient) (now : Instant) : Option Duration :=
  if self.keepAlive.isPositive then some (self.packetSendAt.since now) else none

def isDisconnected (self : TransportClient) : Bool :=
  match self.state with
  | .disconnected => true
  | _ => false

@[simp] theorem onPacketSent_state (self : TransportClient) (now : Instant) :
    (self.onPacketSent now).state = self.state := by
  unfold onPacketSent
  split <;> rfl

@[simp] theorem onPacketSent_maxPacketSize (self : TransportClient) (now : Instant) :
    (self.onPacketSent now).maxPacketSize = self.maxPacketSize := by
  unfold onPacketSent
  split <;> rfl

/-! ### What a call on received bytes does -/

/-- From `self`, a call with the bytes `data` may return the first argument and
leave the second. -/
inductive Received (self : TransportClient) (data : List UInt8) :
    Outcome Error (Option (Notification × Nat)) → TransportClient → Prop where
  | closed : self.state = .disconnected →
      Received self data (.ok (some (.disconnected, 0))) self
  | needMore {k : Nat} : self.state ≠ .disconnected →
      Packet.read data self.maxPacketSize = .err (.needMoreData k) →
      Received self data (.ok none) self
  | malformed {e : Error} : self.state ≠ .disconnected → Settled e →
      Packet.read data self.maxPacketSize = .err e →
      Received self data (.err e) self.onTransportClosed
  | accepted {ack : ConnAck} {taken : Nat} : self.state = .transportConnected →
      Packet.read data self.maxPacketSize = .ok (.connAck ack, taken) → ack.code = .success →
      Received self data (.ok (some (.connAck ack, taken))) { self with state := .connected }
  | refused {ack : ConnAck} {taken : Nat} : self.state = .transportConnected →
      Packet.read data self.maxPacketSize = .ok (.connAck ack, taken) → ack.code ≠ .success →
      Received self data (.ok (some (.disconnected, 0))) self.onTransportClosed
  | unexpected {p : Packet} {taken : Nat} {e : Error} : self.state ≠ .disconnected →
      Packet.read data self.maxPacketSize = .ok (p, taken) →
      (self.state = .transportConnected → ∀ ack, p ≠ .connAck ack) →
      (self.state = .connected → Notification.ofPacket p = none) → Settled e →
      Received self data (.err e) self.onTransportClosed
  | packet {p : Packet} {taken : Nat} {n : Notification} : self.state = .connected →
      Packet.read data self.maxPacketSize = .ok (p, taken) →
      Notification.ofPacket p = some n → Received self data (.ok (some (n, taken))) self

theorem received_handshake {self : TransportClient} (h : self.state = .transportConnected)
    (data : List UInt8) : Received self data (onHandshakeBytes data self).1
      (onHandshakeBytes data self).2 := by
  have hne : self.state ≠ .disconnected := by rw [h]; decide
  have hconn : ∀ {P : Prop}, self.state = .connected → P := fun hc => by rw [h] at hc; cases hc
  rcases hread : Packet.read data self.maxPacketSize with ⟨p, taken⟩ | e | _
  · cases p with
    | connAck ack =>
      simp only [onHandshakeBytes, hread]
      split
      · exact .accepted h hread ‹_›
      · exact .refused h hread ‹_›
    | _ =>
      simp only [onHandshakeBytes, hread]
      exact .unexpected hne hread (fun _ ack => by simp) hconn rfl
  · cases e with
    | needMoreData k =>
      simp only [onHandshakeBytes, hread]
      exact .needMore hne hread
    | _ =>
      simp only [onHandshakeBytes, hread]
      exact .malformed hne rfl hread
  · exact absurd hread (Packet.read_ne_panic _ _)

theorem received_session {self : TransportClient} (h : self.state = .connected)
    (data : List UInt8) : Received self data (onSessionBytes data self).1
      (onSessionBytes data self).2 := by
  have hne : self.state ≠ .disconnected := by rw [h]; decide
  have hconn : ∀ {P : Prop}, self.state = .transportConnected → P :=
    fun hc => by rw [h] at hc; cases hc
  rcases hread : Packet.read data self.maxPacketSize with ⟨p, taken⟩ | e | _
  · cases p <;> simp only [onSessionBytes, hread] <;> first
      | exact .packet h hread rfl
      | exact .unexpected hne hread hconn (fun _ => rfl) rfl
  · cases e with
    | needMoreData k =>
      simp only [onSessionBytes, hread]
      exact .needMore hne hread
    | _ =>
      simp only [onSessionBytes, hread]
      exact .malformed hne rfl hread
  · exact absurd hread (Packet.read_ne_panic _ _)

/-- A call on received bytes does one of the things listed. -/
theorem received (self : TransportClient) (data : List UInt8) :
    Received self data (onBytesReceived data self).1 (onBytesReceived data self).2 := by
  unfold onBytesReceived
  cases h : self.state with
  | disconnected => exact .closed h
  | transportConnected => exact received_handshake h data
  | connected => exact received_session h data

/-- A call on received bytes leaves the limit of the decoder alone. -/
theorem onBytesReceived_maxPacketSize (self : TransportClient) (data : List UInt8) :
    (onBytesReceived data self).2.maxPacketSize = self.maxPacketSize := by
  have h := received self data
  generalize (onBytesReceived data self).1 = r at h
  generalize (onBytesReceived data self).2 = t at h ⊢
  cases h <;> rfl

end TransportClient

end Umqtt

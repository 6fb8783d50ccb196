/-
Umqtt/Packetview/Types.lean

The vocabulary of `packetview/mod.rs`: the errors of the decoder and of the
encoders, quality of service, protocol versions and packet types.
-/
import Umqtt.Lib.Wire

namespace Umqtt

open Effects

/-! ### Packet types -/

/-- MQTT packet type -/
inductive PacketType where
  | connect
  | connAck
  | publish
  | pubAck
  | pubRec
  | pubRel
  | pubComp
  | subscribe
  | subAck
  | unsubscribe
  | unsubAck
  | pingReq
  | pingResp
  | disconnect
  deriving DecidableEq, Repr

/-! ### Errors -/

/-- What the decoder reports. -/
inductive Error where
  | needMoreData (n : Nat)
  | payloadSizeLimitExceeded (n : Nat)
  | invalidPacketType (num : UInt8)
  | malformedRemainingLength
  | malformedPacket
  | emptySubscription
  | badUtf8
  | invalidProtocol
  | invalidProtocolLevel (num : UInt8)
  | invalidQoS (num : UInt8)
  | invalidConnectReturnCode (num : UInt8)
  | packetIdZero
  | unsupportedPacket
  | invalidSubscribeReasonCode (num : UInt8)
  | unexpectedPacket (type : PacketType)
  deriving DecidableEq, Repr

/-- What the encoders report. -/
inductive WriteError where
  | malformedPacket
  | notEnoughCapacity
  | payloadTooLong
  deriving DecidableEq, Repr

/-- More bytes are needed: the only verdict of the decoder that later bytes
can change. -/
def Error.isNeedMoreData : Error → Bool
  | .needMoreData _ => true
  | _ => false

/-! ### Quality of service -/

/-- Quality of service -/
inductive QoS where
  | atMostOnce
  | atLeastOnce
  | exactlyOnce
  deriving DecidableEq, Repr

def QoS.toU8 : QoS → UInt8
  | .atMostOnce => 0
  | .atLeastOnce => 1
  | .exactlyOnce => 2

/-- Maps a number to QoS -/
def qos (num : UInt8) : Outcome Error QoS :=
  match num.toNat with
  | 0 => .ok .atMostOnce
  | 1 => .ok .atLeastOnce
  | 2 => .ok .exactlyOnce
  | _ => .err (.invalidQoS num)

@[simp] theorem qos_toU8 (q : QoS) : qos q.toU8 = .ok q := by
  cases q <;> rfl

theorem qos_eq_ok {num : UInt8} {q : QoS} : qos num = .ok q ↔ num = q.toU8 := by
  refine ⟨fun h => UInt8.toNat_inj.mp ?_, fun h => h ▸ qos_toU8 q⟩
  unfold qos at h
  split at h <;> first
    | (rename_i hnum; cases h; exact hnum)
    | cases h

/-- Protocol type -/
inductive Protocol where
  | v4
  | v5
  deriving DecidableEq, Repr

end Umqtt

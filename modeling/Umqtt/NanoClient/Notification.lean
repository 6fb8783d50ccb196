/-
Umqtt/NanoClient/Notification.lean

What `next_notification` returns and how it is completed
(`nano_client/notification.rs`).
-/
import Umqtt.TransportClient

namespace Umqtt

structure TransportNotification where
  /-- The underlying notification received from the transport client -/
  notification : Notification
  /-- The amount of data this notification takes in the RX buffer -/
  taken : Nat
  deriving DecidableEq

/-- The action to take when completing a notification -/
inductive NotificationAction where
  | none
  | pingReq
  | pubAck (packetId : UInt16)
  | pubRec (packetId : UInt16)
  | pubComp (packetId : UInt16)
  deriving DecidableEq

/-- Each notification should be completed to ensure buffers are handled correctly -/
structure NotificationCompletion where
  taken : Nat
  action : NotificationAction
  deriving DecidableEq

/-- A notification returned from `next_notification` -/
inductive ClientNotification where
  /-- The transport has completed a notification. -/
  | transportNotification (notification : TransportNotification)
  /-- The client wants the user to send a ping. -/
  | sendPing
  deriving DecidableEq

namespace ClientNotification

def taken : ClientNotification → Nat
  | transportNotification x => x.taken
  | sendPing => 0

/-- The action that `complete` takes for a notification of the transport. -/
def defaultAction : Notification → NotificationAction
  | .publish publish =>
      match publish.qos with
      | .atMostOnce => .none
      | .atLeastOnce => .pubAck publish.pkid
      | .exactlyOnce => .pubRec publish.pkid
  | .pubRel pubrel => .pubComp pubrel.pkid
  | _ => .none

/-- Complete a notification with a default completion token. -/
def complete : ClientNotification → NotificationCompletion
  | sendPing => { taken := 0, action := .pingReq }
  | transportNotification x => { taken := x.taken, action := defaultAction x.notification }

/-- Complete a notification with no action. -/
def completeNoAction (self : ClientNotification) : NotificationCompletion where
  taken := self.taken
  action := .none

/-- Complete a notification, and answer it only if it asks for a ping. -/
def completeNoPubAck : ClientNotification → NotificationCompletion
  | transportNotification x => { taken := x.taken, action := .none }
  | sendPing => { taken := 0, action := .pingReq }

end ClientNotification

/-- Create a `NotificationCompletion` with a specific action. -/
def NotificationCompletion.withAction (tickResult : ClientNotification)
    (action : NotificationAction) : NotificationCompletion where
  taken := tickResult.taken
  action := action

/-- The ways to complete a notification. -/
inductive ClientNotification.Completes (n : ClientNotification) :
    NotificationCompletion → Prop where
  | complete : n.Completes n.complete
  | noAction : n.Completes n.completeNoAction
  | noPubAck : n.Completes n.completeNoPubAck
  | withAction (action : NotificationAction) : n.Completes (.withAction n action)

/-- All ways to complete a notification take what the notification takes. -/
theorem ClientNotification.Completes.taken {n : ClientNotification}
    {completion : NotificationCompletion}
    (h : n.Completes completion) : completion.taken = n.taken := by
  cases h with
  | complete | noPubAck => cases n <;> rfl
  | noAction | withAction => rfl

end Umqtt

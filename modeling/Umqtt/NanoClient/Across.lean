/-
Umqtt/NanoClient/Across.lean

What holds across the operations because it holds across their parts.

The operations that write do nothing but encode into the tx buffer and write
from there.  A relation between worlds that is reflexive and transitive, and
holds across these two (`Across`), holds across all of them.  If it also holds
across what `connect` does with the bytes it reads (`AcrossConnect`), it holds
across the handshake too.
-/
import Umqtt.NanoClient.Handshake

namespace Umqtt

open Effects Wire

namespace NanoClient

variable {σ E : Type}

/-- `R` holds across the parts of the operations that write. -/
structure Across (p : Platform σ E) (R : World σ E → World σ E → Prop) : Prop where
  refl (w : World σ E) : R w w
  trans (w t u : World σ E) : R w t → R t u → R w u
  onTx {α : Type} (write : Act (List UInt8) WriteError α) :
    Act.Leads R (onTx (write.mapErr .writeError) : Act (World σ E) (Error E) α)
  writeBuffer (buf : List UInt8) : Act.Leads R (writeBuffer p buf)

namespace Across

variable {p : Platform σ E} {R : World σ E → World σ E → Prop} (h : Across p R)

include h

theorem writeAll (size : Nat) : Act.Leads R (writeAll p size) :=
  .bind h.trans (.gets h.refl _) fun _ => .bind h.trans h.refl fun _ => h.writeBuffer _

theorem sendPacket (write : Act (List UInt8) WriteError Nat) : Act.Leads R (sendPacket p write) :=
  .bind h.trans (h.onTx write) fun _ => h.writeAll _

theorem sendPublish (publish : OutPublish) (topic : TopicFn) (payload : PayloadFn) :
    Act.Leads R (sendPublish p publish topic payload) :=
  .bind h.trans (h.onTx _) fun _ => h.writeBuffer _

theorem performSend (packet : Send) : Act.Leads R (performSend p packet) := by
  cases packet with
  | pingRequest | pubAck | pubRec | pubComp => exact h.sendPacket _
  | publish | publishQos0 | publishQos1 => exact h.sendPublish _ _ _

theorem performAction (action : NotificationAction) : Act.Leads R (performAction p action) := by
  unfold NanoClient.performAction
  cases packetOf action with
  | none => exact .pure h.refl ()
  | some packet => exact h.performSend packet

theorem writeSubscribe (subscriptions : SubscribeFn) :
    Act.Leads R (writeSubscribe p subscriptions) :=
  .bind h.trans (h.onTx _) fun _ => .bind h.trans h.refl fun _ =>
    .bind h.trans (h.writeBuffer _) fun _ => h.writeAll _

theorem behindConnect (call : Call) (ack : ConnAck) :
    Act.Leads R (behindConnect p call ack) := by
  cases call with
  | connectSubscribe _ subscriptions =>
    exact .bind h.trans (.ite (h.writeSubscribe subscriptions) (.pure h.refl ()))
      fun _ => .pure h.refl _
  | connect | nextNotification | completeNotification | send | isDisconnected =>
    exact .pure h.refl _

end Across

/-- `R` holds across the parts of a handshake, too. -/
structure AcrossConnect (p : Platform σ E) (R : World σ E → World σ E → Prop) : Prop extends
    Across p R where
  read : Act.Leads R (readSomeWithTimeout p none)
  onBytesReceived : Act.Leads R (onBytesReceived : Act (World σ E) (Error E) _)
  removePrefix (len : Nat) :
    Act.Leads R (onRx (Buffer.removePrefix len) : Act (World σ E) (Error E) Unit)
  closed : Act.Leads R (onTransport (Act.modify fun t => t.onTransportClosed) :
    Act (World σ E) (Error E) Unit)

namespace AcrossConnect

variable {p : Platform σ E} {R : World σ E → World σ E → Prop} (h : AcrossConnect p R)

include h

theorem takeConnack : Act.Leads R (takeConnack : Act (World σ E) (Error E) (Option ConnAck)) := by
  refine .bind h.trans h.onBytesReceived fun received => ?_
  rcases received with - | ⟨⟨ack⟩ | _, taken⟩
  · exact .pure h.refl _
  · exact .bind h.trans (h.removePrefix taken) fun _ => .pure h.refl _
  all_goals exact .fail h.refl _

theorem readConnackTurn : Act.Leads R (readConnackTurn p) := by
  refine .bind h.trans h.read fun readResult => ?_
  cases readResult with
  | none => exact h.refl
  | some n => exact .ite (.fail h.refl _) h.takeConnack

theorem readConnack : Act.Leads R (readConnack p) :=
  .bind h.trans (.gets h.refl _) fun n => .loop h.refl h.trans h.readConnackTurn n

theorem awaitConnack : Act.Leads R (awaitConnack p) :=
  .bind h.trans h.readConnack fun _ =>
    .bind h.trans (.ite h.closed (.pure h.refl ())) fun _ => .pure h.refl _

theorem completeNotification (completion : NotificationCompletion) :
    Act.Leads R (completeNotification p completion) := by
  refine .bind h.trans (.ite (h.removePrefix _) (.pure h.refl ())) fun _ => ?_
  rcases completion with ⟨_, _ | _ | packetId | packetId | packetId⟩
  · exact .pure h.refl ()
  · exact h.performSend .pingRequest
  · exact h.performSend (.pubAck packetId)
  · exact h.performSend (.pubRec packetId)
  · exact h.performSend (.pubComp packetId)

end AcrossConnect

end NanoClient

end Umqtt

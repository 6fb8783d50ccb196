/-
Umqtt/NanoClient/Cancellation.lean

Calls for a notification that are dropped before they return.

`next_notification` waits in `read_some` and nowhere else, so that a caller who
drops it, say for a timer, drops it there.  `Dropped` says what it has done by
then: some turns that read bytes and went on, and a look at the clock.  The
platform is asked to be cancel-safe, so a read that is dropped has received
nothing; it may have scribbled over the free part of the receive buffer, and
changed the state of the platform in any way.

A session may be interrupted by dropped calls wherever no notification is
outstanding.  Its account is that of an uninterrupted one
(`interrupted_accounted`): what a dropped call has read is in the receive
buffer, for the next call.
-/
import Umqtt.NanoClient.Session

namespace Umqtt

open Effects Wire

namespace NanoClient

section Cancellation

variable {σ E : Type} {p : Platform σ E} {w₀ w₁ w w' : World σ E}

/-! ### Dropped calls -/

/-- The clock said `now`, and then a read was dropped that left `buf` in the free
part of the receive buffer. -/
def World.abandoned (w : World σ E) (now : Instant) (buf : List UInt8) (s : σ) : World σ E where
  client := { w.client with rxBuffer := w.client.rxBuffer.storeUnused buf }
  platform := s
  log := w.log ++ [.clock now]

/-- A call of `next_notification` from `w` is dropped while it waits for a read. -/
inductive Dropped (p : Platform σ E) : World σ E → World σ E → Prop where
  | waiting {w : World σ E} {buf : List UInt8} {s : σ} : w.state ≠ .disconnected →
      buf.length = w.capacity - w.client.rxBuffer.used →
      Dropped p w (w.abandoned (p.now w.platform).1 buf s)
  | turn {w t w' : World σ E} : w.state ≠ .disconnected →
      nextNotificationTurn p w = (.ok none, t) → Dropped p t w' → Dropped p w w'

theorem gathered_abandoned (hv : w.Valid) {now : Instant} {buf : List UInt8} {s : σ}
    (hlen : buf.length = w.capacity - w.client.rxBuffer.used) :
    Gathered w [.clock now] (w.abandoned now buf s) where
  log := rfl
  valid := Buffer.valid_storeUnused hv hlen
  capacity := Buffer.capacity_storeUnused hv hlen
  maxPacketSize := rfl
  content := (Buffer.content_storeUnused hv).trans (List.append_nil _).symm
  txLength := rfl
  quiet _ he := List.mem_singleton.mp he ▸ ⟨id, id⟩
  transportClient := rfl

/-- A dropped call has read some bytes, and done nothing else. -/
theorem Dropped.gathered (h : Dropped p w w') (hv : w.Valid) : ∃ evs, Gathered w evs w' := by
  induction h with
  | waiting _ hlen => exact ⟨_, gathered_abandoned hv hlen⟩
  | turn _ hturn _ ih =>
    have hnext := nextTurn p hv
    rw [hturn] at hnext
    cases hnext with
    | more hc _ =>
      obtain ⟨evs, hg⟩ := ih hc.valid
      exact ⟨_, hc.gathered.trans hg⟩

/-! ### Interrupted sessions -/

/-- A session in which calls for a notification were dropped, between sessions in
which none were. -/
inductive Interrupted (p : Platform σ E)
    (answers : ClientNotification → NotificationCompletion → Prop) (sends : Send → Prop)
    (w₁ : World σ E) : List Notification → Option TransportNotification → World σ E → Prop where
  | session {del : List Notification} {out : Option TransportNotification} {w : World σ E} :
      Session p answers sends w₁ del out w → Interrupted p answers sends w₁ del out w
  | resumed {del del' : List Notification} {out : Option TransportNotification}
      {w t w' : World σ E} : Interrupted p answers sends w₁ del none w → Dropped p w t →
      Session p answers sends t del' out w' → Interrupted p answers sends w₁ (del ++ del') out w'

variable {ack : ConnAck} {start : List (Event E)} {items : List (List UInt8 × Packet)}
  {del : List Notification} {out : Option TransportNotification}

theorem Interrupted.account {answers : ClientNotification → NotificationCompletion → Prop}
    {sends : Send → Prop}
    (hanswers : ∀ n completion, answers n completion → completion.taken = n.taken)
    (hv : w₁.Valid) (hs : w₁.state ≠ .transportConnected)
    (h₁ : Account w₀ ack start items [] [] none w₁) (h : Interrupted p answers sends w₁ del out w) :
    w.Valid ∧ w.state ≠ .transportConnected ∧
      ∃ evs items pending, Account w₀ ack (start ++ evs) items pending del out w := by
  induction h with
  | session h =>
    obtain ⟨evs, hcourse⟩ := h.course hv hs
    obtain ⟨hv', hs'⟩ := hcourse.settled hv hs
    exact ⟨hv', hs', evs, hcourse.account hanswers h₁⟩
  | resumed _ hdropped hsession ih =>
    obtain ⟨hv', hs', evs, items, pending, h⟩ := ih
    obtain ⟨got, hg⟩ := hdropped.gathered hv'
    have hsettled := hs'
    rw [← hg.state] at hsettled
    obtain ⟨evs', hcourse⟩ := hsession.course hg.valid hsettled
    obtain ⟨hv'', hs''⟩ := hcourse.settled hg.valid hsettled
    obtain rfl : pending = [] := h.outstanding
    -- what the dropped call has read is in the buffer
    have hbehind := hcourse.account_behind hanswers (h.trace hg.toTrace)
    rw [List.append_assoc, List.append_assoc] at hbehind
    exact ⟨hv'', hs'', _, hbehind⟩

/-- A session in which calls for a notification are dropped at any of their reads,
on a cancel-safe platform.  A dropped call writes nothing and moves no deadline.
At every point the bytes received since the `connect`, by dropped calls too, are
the frames consumed and behind them the receive buffer, and the packets
delivered are those that the decoder reads off these bytes one after the other:
none is lost, and none is delivered twice. -/
theorem interrupted_accounted {options : ConnectOptions}
    (hconnect : connect p options w₀ = (.ok ack, w₁))
    (hsession : Interrupted p ClientNotification.Completes (fun _ => True) w₁ del out w) :
    (∀ t, Dropped p w t → ∃ evs, t.log = w.log ++ evs ∧ (∀ e ∈ evs, ¬e.IsWrite) ∧
      t.client.transportClient = w.client.transportClient ∧ t.content = w.content ++ received evs) ∧
    ∃ evs items pending, w.log = w₀.log ++ evs ∧
      received evs = (items.map Prod.fst).flatten ++ w.content ∧
      Reads (Packet.next w₀.client.transportClient.maxPacketSize) (received evs) items w.content ∧
      (items.map Prod.snd ++ pending).map some =
        (Notification.connAck ack :: del).map Notification.packet ∧
      Outstanding w₀.client.transportClient.maxPacketSize w.content out pending := by
  obtain ⟨evs₁, chunk, n, ha⟩ := accepted_of_ok p hconnect
  obtain ⟨hv, -, evs, items, pending, h⟩ :=
    hsession.account (fun _ _ hc => hc.taken) ha.valid ha.settled ha.account
  refine ⟨fun t ht => ?_, _, items, pending, h.log, h.reads.eq_append, h.reads, h.delivered,
    h.outstanding⟩
  obtain ⟨got, hg⟩ := ht.gathered hv
  exact ⟨got, hg.log, fun e he => (hg.quiet e he).1, hg.transportClient, hg.content⟩

/-- A call that is dropped in its second turn has read the first bytes of a publish,
and the read that was dropped has scribbled over the rest of the buffer. -/
theorem interrupted_accounted_publish :
    let p := streamPlatform 4
    let options : ConnectOptions := ⟨"client", none, none, 10, true⟩
    let w₀ : World (List UInt8) Unit := ⟨new (List.replicate 32 0) (List.replicate 16 0),
      [0x20, 2, 0, 0, 0x32, 6, 0, 1, 97, 0, 10, 7], []⟩
    let w₁ := (connect p options w₀).2
    let t := (nextNotificationTurn p w₁).2.abandoned Instant.epoch (List.replicate 12 0xFF)
      [97, 0, 10, 7]
    let w₂ := (nextNotification p t).2
    let publish : Notification := .publish ⟨false, .atLeastOnce, false, "a", 10, [7]⟩
    ∃ evs items pending, w₂.log = w₀.log ++ evs ∧
      received evs = (items.map Prod.fst).flatten ++ w₂.content ∧
      Reads (Packet.next 16) (received evs) items w₂.content ∧
      (items.map Prod.snd ++ pending).map some =
        [Notification.connAck ⟨false, .success⟩, publish].map Notification.packet ∧
      Outstanding 16 w₂.content (some ⟨publish, 8⟩) pending := by
  intro p options w₀ w₁ t w₂ publish
  have hconnect : connect p options w₀ = (.ok ⟨false, .success⟩, w₁) :=
    Prod.ext (by decide +kernel) rfl
  have hturn : nextNotificationTurn p w₁ = (.ok none, (nextNotificationTurn p w₁).2) :=
    Prod.ext (by decide +kernel) rfl
  have hdropped : Dropped p w₁ t :=
    .turn (by decide +kernel) hturn (.waiting (by decide +kernel) (by decide +kernel))
  have hnext : nextNotification p t = (.ok (.transportNotification ⟨publish, 8⟩), w₂) :=
    Prod.ext (by decide +kernel) rfl
  exact (interrupted_accounted hconnect
    (.resumed (.session .start) hdropped (.delivered .start hnext))).2

end Cancellation

end NanoClient

end Umqtt

/-
Umqtt/NanoClient/Deliveries.lean

What a session delivers depends on the bytes it received, and on nothing else.

A notification that is not completed stays at the start of the receive buffer,
and is received again with every call (`Redelivering`).  It is the same each
time, and completed are the packets of the stream, one after the other
(`redelivered_until_completed`).

So two sessions that received the same stream, each as much of it as it did,
completed the same notifications, as far as both have come
(`deliveries_comparable`).  Their buffers may be of different sizes: a limit on
the size of a packet ends a session, and changes nothing before.
-/
import Mathlib.Data.List.Basic
import Umqtt.NanoClient.Cancellation

namespace Umqtt

open Effects Wire

namespace NanoClient

section Redelivery

variable {σ E : Type} {p : Platform σ E}
  {answers : ClientNotification → NotificationCompletion → Prop} {sends : Send → Prop}

/-- A session that may ask for a notification again before it completes it, and
drop any call for one: `done` were completed, and `out` was received since. -/
inductive Redelivering (p : Platform σ E)
    (answers : ClientNotification → NotificationCompletion → Prop) (sends : Send → Prop)
    (w₁ : World σ E) : List Notification → Option TransportNotification → World σ E → Prop where
  | start : Redelivering p answers sends w₁ [] none w₁
  | delivered {done : List Notification} {out : Option TransportNotification} {w w' : World σ E}
      {n : TransportNotification} : Redelivering p answers sends w₁ done out w →
      nextNotification p w = (.ok (.transportNotification n), w') →
      Redelivering p answers sends w₁ done (some n) w'
  | idle {done : List Notification} {out : Option TransportNotification} {w w' : World σ E} :
      Redelivering p answers sends w₁ done out w → nextNotification p w = (.ok .sendPing, w') →
      Redelivering p answers sends w₁ done out w'
  | failed {done : List Notification} {out : Option TransportNotification} {w w' : World σ E}
      {e : Error E} : Redelivering p answers sends w₁ done out w →
      nextNotification p w = (.err e, w') → Redelivering p answers sends w₁ done out w'
  | dropped {done : List Notification} {out : Option TransportNotification} {w w' : World σ E} :
      Redelivering p answers sends w₁ done out w → Dropped p w w' →
      Redelivering p answers sends w₁ done out w'
  | completed {done : List Notification} {w : World σ E} {n : TransportNotification}
      {completion : NotificationCompletion} : Redelivering p answers sends w₁ done (some n) w →
      answers (.transportNotification n) completion →
      Redelivering p answers sends w₁ (done ++ [n.notification]) none
        (completeNotification p completion w).2
  | pinged {done : List Notification} {out : Option TransportNotification} {w : World σ E}
      {completion : NotificationCompletion} : Redelivering p answers sends w₁ done out w →
      answers .sendPing completion →
      Redelivering p answers sends w₁ done out (completeNotification p completion w).2
  | sent {done : List Notification} {out : Option TransportNotification} {w : World σ E}
      {packet : Send} : Redelivering p answers sends w₁ done out w → sends packet →
      Redelivering p answers sends w₁ done out (performSend p packet w).2

variable {w₀ w₁ w w' : World σ E} {ack : ConnAck} {evs : List (Event E)}
  {items : List (List UInt8 × Packet)} {done : List Notification}
  {out : Option TransportNotification}

/-- The account of the notifications completed, and what was received since: it is
at the start of the receive buffer. -/
structure Holding (w₀ : World σ E) (ack : ConnAck) (evs : List (Event E))
    (items : List (List UInt8 × Packet)) (done : List Notification)
    (out : Option TransportNotification) (w : World σ E) : Prop extends
    Account w₀ ack evs items [] done none w where
  valid : w.Valid
  settled : w.state ≠ .transportConnected
  head : ∀ n, out = some n → ∃ q, Notification.ofPacket q = some n.notification ∧
    Packet.read w.content w₀.client.transportClient.maxPacketSize = .ok (q, n.taken)

/-- More bytes leave the start of the buffer as it is. -/
theorem Holding.trace {got : List (Event E)} (h : Holding w₀ ack evs items done out w)
    (ht : Trace w got w') (hs : w'.state ≠ .transportConnected) :
    Holding w₀ ack (evs ++ got) items done out w' where
  toAccount := h.toAccount.trace ht
  valid := ht.valid
  settled := hs
  head n hn := by
    obtain ⟨q, hq, hread⟩ := h.head n hn
    refine ⟨q, hq, ?_⟩
    rw [ht.content, Packet.read_append _ fun k hk => by cases hread.symm.trans hk]
    exact hread

theorem Holding.gathered {got : List (Event E)} (h : Holding w₀ ack evs items done out w)
    (hg : Gathered w got w') : Holding w₀ ack (evs ++ got) items done out w' :=
  h.trace hg.toTrace (by rw [hg.state]; exact h.settled)

theorem Holding.silent {sent : List (Event E)} (h : Holding w₀ ack evs items done out w)
    (hs : Silent w sent w') : Holding w₀ ack (evs ++ sent) items done out w' :=
  h.trace hs.toTrace (hs.settled h.settled)

/-- What is received while a notification is outstanding is that notification. -/
theorem Holding.again (h : Holding w₀ ack evs items done out w) {n : TransportNotification}
    (hnext : nextNotification p w = (.ok (.transportNotification n), w')) :
    (∃ got, Holding w₀ ack (evs ++ got) items done (some n) w') ∧ ∀ m, out = some m → n = m := by
  obtain ⟨got, chunk, t, q, hg, -, hc, -, hread, hq⟩ :=
    nextNotification_of_ok h.valid h.settled hnext
  have h' := h.gathered (hg.trans hc.gathered)
  rw [World.read, h'.maxPacketSize] at hread
  refine ⟨⟨_, { h' with head := ?_ }⟩, fun m hm => ?_⟩
  · rintro _ ⟨⟩
    exact ⟨q, hq, hread⟩
  · obtain ⟨q', hq', hread'⟩ := h'.head m hm
    obtain ⟨hsame, htaken⟩ := Prod.mk.inj (Outcome.ok.inj (hread.symm.trans hread'))
    rw [hsame, hq'] at hq
    obtain ⟨notification, taken⟩ := n
    obtain ⟨notification', taken'⟩ := m
    cases hq
    cases htaken
    rfl

/-- The bytes of the notification that is outstanding leave the buffer. -/
theorem Holding.complete {n : TransportNotification} {t : World σ E}
    (h : Holding w₀ ack evs items done (some n) w) (hc : Consumed n.taken w t) :
    ∃ items', Holding w₀ ack evs items' (done ++ [n.notification]) none t := by
  obtain ⟨q, hq, hread⟩ := h.head n rfl
  rw [← h.maxPacketSize] at hread
  obtain ⟨items', h'⟩ := (h.toAccount.deliver hread hq).complete hc
  exact ⟨items', { toAccount := h', valid := hc.valid, settled := hc.settled h.settled,
                   head := nofun }⟩

theorem Holding.untaken {t : World σ E} (h : Holding w₀ ack evs items done out w)
    (hc : Consumed 0 w t) : Holding w₀ ack evs items done out t where
  toAccount := h.toAccount.untaken hc
  valid := hc.valid
  settled := hc.settled h.settled
  head := by
    rw [hc.content, List.drop_zero]
    exact h.head

theorem Redelivering.holding
    (hanswers : ∀ n completion, answers n completion → completion.taken = n.taken)
    (h₁ : ∃ evs items, Holding w₀ ack evs items [] none w₁)
    (h : Redelivering p answers sends w₁ done out w) :
    ∃ evs items, Holding w₀ ack evs items done out w := by
  induction h with
  | start => exact h₁
  | delivered _ hnext ih =>
    obtain ⟨evs, items, h⟩ := ih
    obtain ⟨⟨got, h'⟩, -⟩ := h.again hnext
    exact ⟨_, items, h'⟩
  | idle _ hnext ih =>
    obtain ⟨evs, items, h⟩ := ih
    obtain ⟨got, waited, t, hg, -, hg', -⟩ := nextNotification_of_ping h.valid hnext
    exact ⟨_, items, h.gathered (hg.trans hg')⟩
  | failed _ hnext ih =>
    obtain ⟨evs, items, h⟩ := ih
    obtain ⟨got, ht, -, hclosed⟩ := nextNotification_of_err h.valid h.settled hnext
    exact ⟨_, items, h.trace ht (by rw [hclosed]; decide)⟩
  | dropped _ hdropped ih =>
    obtain ⟨evs, items, h⟩ := ih
    obtain ⟨got, hg⟩ := hdropped.gathered h.valid
    exact ⟨_, items, h.gathered hg⟩
  | @completed _ w n completion _ hanswer ih =>
    obtain ⟨evs, items, h⟩ := ih
    obtain ⟨t, sent, hc, ha⟩ := @completeNotification_answering _ _ p w completion h.valid
    rw [hanswers _ _ hanswer] at hc
    obtain ⟨items', h'⟩ := h.complete hc
    exact ⟨_, items', h'.silent (ha.silent hc.valid)⟩
  | @pinged _ _ w completion _ hanswer ih =>
    obtain ⟨evs, items, h⟩ := ih
    obtain ⟨t, sent, hc, ha⟩ := @completeNotification_answering _ _ p w completion h.valid
    rw [hanswers _ _ hanswer] at hc
    exact ⟨_, items, (h.untaken hc).silent (ha.silent hc.valid)⟩
  | @sent _ _ w packet _ _ ih =>
    obtain ⟨evs, items, h⟩ := ih
    obtain ⟨sent, hsend⟩ := @performSend_sending _ _ p w packet h.valid
    exact ⟨_, items, h.silent hsend.silent⟩

/-- A handshake holds its CONNACK as the packet consumed. -/
theorem Accepted.holding {options : ConnectOptions} {chunk : List (Event E)} {n : Nat}
    (h : Accepted options w₀ ack evs chunk n w) :
    Holding w₀ ack (.wrote .transportConnected (connectBytes options) (.ok ()) :: (evs ++ chunk))
      [((received (evs ++ chunk)).take n, .connAck ack)] [] none w :=
  { toAccount := h.account, valid := h.valid, settled := h.settled, head := nofun }

/-- At every point of a session that may ask for a notification again before it
completes it, or drop any call for one: the packets completed since the CONNACK
are those read off the received bytes, one after the other, and what is
outstanding is the next of them, at the start of the receive buffer.  As long as
it is not completed, it is what every call returns that returns a packet. -/
theorem redelivered_until_completed {options : ConnectOptions}
    (hconnect : connect p options w₀ = (.ok ack, w₁))
    (hsession : Redelivering p ClientNotification.Completes (fun _ => True) w₁ done out w) :
    (∃ evs items, w.log = w₀.log ++ evs ∧
      Reads (Packet.next w₀.client.transportClient.maxPacketSize) (received evs) items w.content ∧
      (items.map Prod.snd).map some =
        (Notification.connAck ack :: done).map Notification.packet ∧
      ∀ n, out = some n → ∃ q, Notification.ofPacket q = some n.notification ∧
        Packet.read w.content w₀.client.transportClient.maxPacketSize = .ok (q, n.taken)) ∧
    ∀ n m w', out = some n → nextNotification p w = (.ok (.transportNotification m), w') →
      m = n := by
  obtain ⟨got, chunk, k, ha⟩ := accepted_of_ok p hconnect
  obtain ⟨evs, items, h⟩ := hsession.holding (fun _ _ hc => hc.taken) ⟨_, _, ha.holding⟩
  have hdone := h.delivered
  rw [List.append_nil] at hdone
  refine ⟨⟨evs, items, h.log, h.reads, hdone, h.head⟩, fun n m w' hn hnext => ?_⟩
  exact (h.again hnext).2 n hn

/-- A publish that is received twice, while more bytes arrive, and completed then:
it is read off once, and the PINGRESPs behind it are left. -/
theorem redelivered_until_completed_publish :
    let p := streamPlatform 4
    let options : ConnectOptions := ⟨"client", none, none, 10, true⟩
    let w₀ : World (List UInt8) Unit := ⟨new (List.replicate 32 0) (List.replicate 16 0),
      [0x20, 2, 0, 0, 0x30, 4, 0, 1, 97, 7, 0xD0, 0, 0xD0, 0], []⟩
    let w₂ := (nextNotification p (connect p options w₀).2).2
    let w₃ := (nextNotification p w₂).2
    let publish : TransportNotification := ⟨.publish ⟨false, .atMostOnce, false, "a", 0, [7]⟩, 6⟩
    let w := (completeNotification p (ClientNotification.transportNotification publish).complete
      w₃).2
    nextNotification p (connect p options w₀).2 = (.ok (.transportNotification publish), w₂) ∧
      nextNotification p w₂ = (.ok (.transportNotification publish), w₃) ∧
      w.content = [0xD0, 0, 0xD0, 0] ∧
      ∃ items, Reads (Packet.next 16) (received w.log) items [0xD0, 0, 0xD0, 0] ∧
        (items.map Prod.snd).map some =
          [Notification.connAck ⟨false, .success⟩, publish.notification].map
            Notification.packet := by
  intro p options w₀ w₂ w₃ publish w
  have hconnect : connect p options w₀ = (.ok ⟨false, .success⟩, (connect p options w₀).2) :=
    Prod.ext (by decide +kernel) rfl
  have hnext : nextNotification p (connect p options w₀).2 =
      (.ok (.transportNotification publish), w₂) := Prod.ext (by decide +kernel) rfl
  have hagain : nextNotification p w₂ = (.ok (.transportNotification publish), w₃) :=
    Prod.ext (by decide +kernel) rfl
  have hcontent : w.content = [0xD0, 0, 0xD0, 0] := by decide +kernel
  obtain ⟨⟨evs, items, hlog, hreads, hitems, -⟩, -⟩ := redelivered_until_completed hconnect
    (.completed (.delivered (.delivered .start hnext) hagain) .complete)
  have hall : evs = w.log := hlog.symm
  rw [show (completeNotification p _ w₃).2.content = _ from hcontent, hall] at hreads
  exact ⟨hnext, hagain, hcontent, items, hreads, hitems⟩

end Redelivery

/-! ### Two sessions -/

theorem packet_injective : Function.Injective Notification.packet := by
  intro n m h
  cases n <;> cases m <;> cases h <;> rfl

/-- Fewer packets are fewer notifications. -/
theorem prefix_notifications {items items' : List (List UInt8 × Packet)}
    {ns ns' : List Notification} (h : (items.map Prod.snd).map some = ns.map Notification.packet)
    (h' : (items'.map Prod.snd).map some = ns'.map Notification.packet) (hpre : items <+: items') :
    ns <+: ns' := by
  have hpackets := (hpre.map Prod.snd).map some
  rw [h, h'] at hpackets
  exact (List.prefix_map_iff_of_injective packet_injective).mp hpackets

section Comparable

variable {σ₁ σ₂ E₁ E₂ : Type} {p₁ : Platform σ₁ E₁} {p₂ : Platform σ₂ E₂}

/-- Two sessions on one stream, of which the second has received as much as the
first or more.  Their platforms, buffers, reads, calls and writes may differ in
any way.  They found the same CONNACK, and one completed what the other did, and
perhaps more behind it.  If the decoder asks for more of what is in the second
one's receive buffer, it is the second that completed as much or more. -/
theorem deliveries_comparable {options₁ options₂ : ConnectOptions} {w₀ w₁ w : World σ₁ E₁}
    {u₀ u₁ u : World σ₂ E₂} {ack ack' : ConnAck} {done done' : List Notification}
    {out out' : Option TransportNotification}
    (hconnect : connect p₁ options₁ w₀ = (.ok ack, w₁))
    (hsession : Redelivering p₁ ClientNotification.Completes (fun _ => True) w₁ done out w)
    (hconnect' : connect p₂ options₂ u₀ = (.ok ack', u₁))
    (hsession' : Redelivering p₂ ClientNotification.Completes (fun _ => True) u₁ done' out' u)
    (hstream : received (w.log.drop w₀.log.length) <+: received (u.log.drop u₀.log.length)) :
    ack = ack' ∧ (done <+: done' ∨ done' <+: done) ∧
      ((∃ k, Packet.read u.content u₀.client.transportClient.maxPacketSize =
        .err (.needMoreData k)) → done <+: done') := by
  obtain ⟨⟨evs, items, hlog, hreads, hdone, -⟩, -⟩ :=
    redelivered_until_completed hconnect hsession
  obtain ⟨⟨evs', items', hlog', hreads', hdone', -⟩, -⟩ :=
    redelivered_until_completed hconnect' hsession'
  rw [hlog, List.drop_left, hlog', List.drop_left] at hstream
  obtain ⟨s, hs⟩ := hstream
  -- both are readings with the larger of the two limits
  have hall := hreads.mono (Packet.next_mono
    (Nat.le_max_left _ u₀.client.transportClient.maxPacketSize))
  have hall' := hreads'.mono (Packet.next_mono
    (Nat.le_max_right w₀.client.transportClient.maxPacketSize _))
  generalize max w₀.client.transportClient.maxPacketSize
    u₀.client.transportClient.maxPacketSize = limit at hall hall'
  rw [← hs] at hall'
  have hprefixed := Packet.prefixed_next limit
  have hdrained : (∃ k, Packet.read u.content u₀.client.transportClient.maxPacketSize =
      .err (.needMoreData k)) → items <+: items' := by
    rintro ⟨k, hk⟩
    rcases hall.comparable hprefixed hall' with hpre | ⟨more, rfl⟩
    · exact hpre
    · have hbehind := hall'.behind (hall.append hprefixed s)
      generalize w.content ++ s = rest at hbehind
      cases hbehind with
      | nil => exact ⟨[], by simp⟩
      | cons hnext _ =>
        obtain ⟨fh, hcheck⟩ := Packet.check_of_read (Packet.next_eq_some.mp hnext) (Nat.le_refl _)
        exact absurd hk (Packet.read_ne_needMoreData hcheck _ k)
  rcases hall.comparable hprefixed hall' with hpre | hpre
  · obtain ⟨hack, hpre⟩ := List.cons_prefix_cons.mp (prefix_notifications hdone hdone' hpre)
    exact ⟨Notification.connAck.inj hack, .inl hpre, fun _ => hpre⟩
  · obtain ⟨hack, hpre⟩ := List.cons_prefix_cons.mp (prefix_notifications hdone' hdone hpre)
    refine ⟨(Notification.connAck.inj hack).symm, .inr hpre, fun hk => ?_⟩
    exact (List.cons_prefix_cons.mp (prefix_notifications hdone hdone' (hdrained hk))).2

/-- Two clients on one stream, with buffers of different sizes, which read it in
chunks of different sizes: one has completed a publish, and the other what is
behind it, too. -/
theorem deliveries_comparable_publish :
    let p := streamPlatform 5
    let p' := streamPlatform 2
    let options : ConnectOptions := ⟨"client", none, none, 10, true⟩
    let stream : List UInt8 := [0x20, 2, 0, 0, 0x30, 4, 0, 1, 97, 7, 0xD0, 0]
    let publish : TransportNotification := ⟨.publish ⟨false, .atMostOnce, false, "a", 0, [7]⟩, 6⟩
    let w₀ : World (List UInt8) Unit :=
      ⟨new (List.replicate 32 0) (List.replicate 16 0), stream, []⟩
    let w₁ := (connect p options w₀).2
    let w₂ := (nextNotification p w₁).2
    let w₃ := (completeNotification p (ClientNotification.transportNotification publish).complete
      w₂).2
    let u₀ : World (List UInt8) Unit :=
      ⟨new (List.replicate 40 7) (List.replicate 8 7), stream, []⟩
    let u₁ := (connect p' options u₀).2
    let u₂ := (nextNotification p' u₁).2
    let u₃ := (completeNotification p' (ClientNotification.transportNotification publish).complete
      u₂).2
    let u₄ := (nextNotification p' u₃).2
    let u₅ := (completeNotification p'
      (ClientNotification.transportNotification ⟨.pingResponse, 2⟩).complete u₄).2
    received (w₃.log.drop w₀.log.length) = stream.take 10 ∧
      received (u₅.log.drop u₀.log.length) = stream ∧
      [publish.notification] <+: [publish.notification, .pingResponse] := by
  intro p p' options stream publish w₀ w₁ w₂ w₃ u₀ u₁ u₂ u₃ u₄ u₅
  have hconnect : connect p options w₀ = (.ok ⟨false, .success⟩, w₁) :=
    Prod.ext (by decide +kernel) rfl
  have hnext : nextNotification p w₁ = (.ok (.transportNotification publish), w₂) :=
    Prod.ext (by decide +kernel) rfl
  have hconnect' : connect p' options u₀ = (.ok ⟨false, .success⟩, u₁) :=
    Prod.ext (by decide +kernel) rfl
  have hnext' : nextNotification p' u₁ = (.ok (.transportNotification publish), u₂) :=
    Prod.ext (by decide +kernel) rfl
  have hlast : nextNotification p' u₃ = (.ok (.transportNotification ⟨.pingResponse, 2⟩), u₄) :=
    Prod.ext (by decide +kernel) rfl
  have hreceived : received (w₃.log.drop w₀.log.length) = stream.take 10 := by decide +kernel
  have hreceived' : received (u₅.log.drop u₀.log.length) = stream := by decide +kernel
  refine ⟨hreceived, hreceived', ?_⟩
  exact (deliveries_comparable hconnect
    (.completed (.delivered .start hnext) .complete) hconnect'
    (.completed (.delivered (.completed (.delivered .start hnext') .complete) hlast) .complete)
    (by rw [hreceived, hreceived']; exact List.take_prefix _ _)).2.2 ⟨2, by decide +kernel⟩

end Comparable

end NanoClient

end Umqtt

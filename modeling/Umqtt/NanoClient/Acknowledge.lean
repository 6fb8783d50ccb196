/-
Umqtt/NanoClient/Acknowledge.lean

The acknowledgements of a session in which the caller completes every
notification with `complete`.

`complete_notification` drops the bytes of a packet before it encodes the
acknowledgement.  The acknowledgement is not lost: a client that had room for
its CONNECT has room for every acknowledgement, and a write that fails closes
the client.  So a connected client has written exactly one acknowledgement for
each delivered packet that asks for one, in their order (`acknowledged`).
-/
import Umqtt.NanoClient.Session

namespace Umqtt

open Effects Wire

/-- The frame that acknowledges a packet, if it asks for one. -/
def Notification.acknowledgement : Notification → Option (List UInt8)
  | .publish p =>
      match p.qos with
      | .atMostOnce => none
      | .atLeastOnce => some (frame 0x40 (toBeBytes p.pkid))
      | .exactlyOnce => some (frame 0x50 (toBeBytes p.pkid))
  | .pubRel p => some (frame 0x70 (toBeBytes p.pkid))
  | _ => none

namespace NanoClient

/-- The bytes of a PUBACK, a PUBREC or a PUBCOMP: the kind of a packet is in the
upper half of its first byte. -/
def isAck : List UInt8 → Bool
  | [] => false
  | byte1 :: _ => byte1 >>> 4 == 4 || byte1 >>> 4 == 5 || byte1 >>> 4 == 7

/-- The packets other than acknowledgements. -/
def Send.IsPublishOrPing : Send → Prop
  | .pubAck _ | .pubRec _ | .pubComp _ => False
  | _ => True

/-! ### Packets as they are sent -/

theorem Send.Bytes.isPacket {packet : Send} {buf : List UInt8} (h : packet.Bytes buf) :
    ∃ byte1, IsPacket byte1 buf := by
  cases packet with
  | pingRequest => exact ⟨_, [], by decide, h⟩
  | pubAck | pubRec | pubComp => exact ⟨_, _, by simp, h⟩
  | publish | publishQos0 | publishQos1 => exact ⟨_, h⟩

theorem isAck_publish (dup : Bool) (qos : QoS) (retain : Bool) :
    isAck [Publish.byte1 dup qos retain] = false := by
  cases dup <;> cases qos <;> cases retain <;> rfl

theorem Send.Bytes.not_isAck {packet : Send} (hp : packet.IsPublishOrPing) {buf : List UInt8}
    (h : packet.Bytes buf) : isAck buf = false := by
  cases packet with
  | pingRequest => rw [show buf = _ from h]; rfl
  | pubAck | pubRec | pubComp => exact hp.elim
  | publish | publishQos0 | publishQos1 =>
    obtain ⟨body, -, rfl⟩ := h
    exact isAck_publish _ _ _

/-- A packet that acknowledges with `ack`. -/
structure Send.Acks (packet : Send) (ack : List UInt8) : Prop where
  bytes : ∀ {buf}, packet.Bytes buf → buf = ack
  isAck : isAck ack = true
  fits : ∀ {n}, 5 ≤ n → ¬packet.Short n

/-- What the default action of a notification sends is its acknowledgement. -/
theorem packetOf_defaultAction (n : Notification) :
    packetOf (ClientNotification.defaultAction n) = none ∧ n.acknowledgement = none ∨
    ∃ packet ack, packetOf (ClientNotification.defaultAction n) = some packet ∧
      n.acknowledgement = some ack ∧ packet.Acks ack := by
  -- an acknowledgement has four bytes, whatever its kind
  have hlen : ∀ (byte1 : UInt8) (pkid : UInt16), (frame byte1 (toBeBytes pkid)).length = 4 := by
    intro byte1 pkid
    rw [frame_of_lt (by simp)]
    simp
  have hshort : ∀ (byte1 : UInt8) (pkid : UInt16) {k : Nat}, 5 ≤ k →
      ¬k < (frame byte1 (toBeBytes pkid)).length := by
    intro byte1 pkid k hk
    rw [hlen]
    omega
  cases n with
  | publish publish =>
    rcases hqos : publish.qos with - | - | -
    · refine .inl ⟨?_, ?_⟩
      · rw [ClientNotification.defaultAction, hqos]
        rfl
      · rw [Notification.acknowledgement, hqos]
    · refine .inr ⟨.pubAck publish.pkid, _, ?_, ?_, id, rfl, hshort _ _⟩
      · rw [ClientNotification.defaultAction, hqos]
        rfl
      · rw [Notification.acknowledgement, hqos]
    · refine .inr ⟨.pubRec publish.pkid, _, ?_, ?_, id, rfl, hshort _ _⟩
      · rw [ClientNotification.defaultAction, hqos]
        rfl
      · rw [Notification.acknowledgement, hqos]
  | pubRel pubrel => exact .inr ⟨.pubComp pubrel.pkid, _, rfl, rfl, id, rfl, hshort _ _⟩
  | connAck | pubAck | pubRec | pubComp | subAck | unsubAck | pingResponse | disconnected =>
    exact .inl ⟨rfl, rfl⟩

section Acknowledged

variable {σ E : Type}

/-- The PUBACK, PUBREC and PUBCOMP frames that were written. -/
def acks (log : List (Event E)) : List (List UInt8) := (written log).filter isAck

theorem acks_append (log log' : List (Event E)) : acks (log ++ log') = acks log ++ acks log' := by
  rw [acks, written_append, List.filter_append]
  rfl

theorem acks_of_not_isWrite {evs : List (Event E)} (h : ∀ e ∈ evs, ¬e.IsWrite) : acks evs = [] := by
  rw [acks, written_of_not_isWrite h]
  rfl

/-! ### The acknowledgements of a session -/

/-- The acknowledgement that the notification outstanding asks for. -/
def owed (out : Option TransportNotification) : List (List UInt8) :=
  (out.bind fun n => n.notification.acknowledgement).toList

/-- Whole packets were written, and while the client is connected, the
acknowledgements among them, with the one that is owed, are those that the
delivered packets ask for. -/
structure Acknowledging (evs : List (Event E)) (del : List Notification)
    (out : Option TransportNotification) (w : World σ E) : Prop where
  packets : ∀ buf ∈ written evs, ∃ byte1, IsPacket byte1 buf
  txLength : 14 ≤ w.client.txBuffer.length
  acks : w.state = .connected → acks evs ++ owed out = del.filterMap Notification.acknowledgement

section Steps

variable {evs : List (Event E)} {del : List Notification} {out : Option TransportNotification}
  {w w' t : World σ E}

/-- Calls that write nothing. -/
theorem Acknowledging.trace {got : List (Event E)} (h : Acknowledging evs del out w)
    (ht : Trace w got w') (hreads : ∀ e ∈ got, ¬e.IsWrite)
    (hs : w'.state = .connected → w.state = .connected) :
    Acknowledging (evs ++ got) del out w' where
  packets := by
    rw [written_append, written_of_not_isWrite hreads, List.append_nil]
    exact h.packets
  txLength := h.txLength.trans_eq ht.txLength.symm
  acks hs' := by
    rw [acks_append, acks_of_not_isWrite hreads, List.append_nil]
    exact h.acks (hs hs')

theorem Acknowledging.consumed {taken : Nat} (h : Acknowledging evs del out w)
    (hc : Consumed taken w t) : Acknowledging evs del out t where
  packets := h.packets
  txLength := by rw [hc.txBuffer]; exact h.txLength
  acks hs := h.acks (hc.state.symm.trans hs)

theorem Sending.packets {sent : List (Event E)} {packet : Send} (h : Sending packet w sent w')
    (hall : ∀ buf ∈ NanoClient.written evs, ∃ byte1, IsPacket byte1 buf) :
    ∀ buf ∈ NanoClient.written (evs ++ sent), ∃ byte1, IsPacket byte1 buf := by
  intro buf hbuf
  rw [written_append] at hbuf
  rcases List.mem_append.mp hbuf with hbuf | hbuf
  · exact hall buf hbuf
  · cases h with
    | skipped => cases hbuf
    | written hbytes | broken hbytes =>
      rw [List.mem_singleton.mp hbuf]
      exact hbytes.isPacket

/-- A packet is sent that acknowledges nothing. -/
theorem Acknowledging.sending {sent : List (Event E)} {packet : Send}
    (h : Acknowledging evs del out w) (hsend : Sending packet w sent w')
    (hpacket : packet.IsPublishOrPing) : Acknowledging (evs ++ sent) del out w' where
  packets := hsend.packets h.packets
  txLength := h.txLength.trans_eq hsend.silent.txLength.symm
  acks hs := by
    have hw := h.acks (hsend.silent.connected hs)
    have hsent : NanoClient.acks sent = [] := by
      cases hsend with
      | skipped => rfl
      | @written buf _ _ hbytes | @broken buf _ _ hbytes =>
        show [buf].filter isAck = []
        exact List.filter_cons_of_neg (by rw [hbytes.not_isAck hpacket]; exact Bool.false_ne_true)
    rw [acks_append, hsent, List.append_nil]
    exact hw

/-- The acknowledgement that was owed is sent. -/
theorem Acknowledging.pays {sent : List (Event E)} {packet : Send} {n : TransportNotification}
    {ack : List UInt8} (h : Acknowledging evs del (some n) w) (hsend : Sending packet w sent w')
    (hn : n.notification.acknowledgement = some ack) (hacks : packet.Acks ack) :
    Acknowledging (evs ++ sent) del none w' where
  packets := hsend.packets h.packets
  txLength := h.txLength.trans_eq hsend.silent.txLength.symm
  acks hs := by
    have hconn := hsend.silent.connected hs
    have hw := h.acks hconn
    have howed : owed (some n) = [ack] := congrArg Option.toList hn
    rw [howed] at hw
    have hsent : NanoClient.acks sent = [ack] := by
      -- the client is connected and has room, so that the packet was not skipped
      have h14 := h.txLength
      cases hsend with
      | skipped hwhy =>
        rcases hwhy with hd | hlt | hshort
        · cases hconn.symm.trans hd
        · omega
        · exact absurd hshort (hacks.fits (by omega))
      | broken _ _ hd => cases hs.symm.trans hd
      | @written buf _ _ hbytes =>
        obtain rfl := hacks.bytes hbytes
        show [buf].filter isAck = [buf]
        exact List.filter_cons_of_pos hacks.isAck
    rw [acks_append, hsent, List.append_assoc]
    exact hw

/-- Completing the notification that is outstanding pays what it owes. -/
theorem Acknowledging.answering {sent : List (Event E)} {n : TransportNotification}
    (h : Acknowledging evs del (some n) w)
    (ha : Answering (ClientNotification.defaultAction n.notification) w sent w') :
    Acknowledging (evs ++ sent) del none w' := by
  rcases packetOf_defaultAction n.notification with ⟨hnone, hn⟩ | ⟨packet, ack, hsome, hn, hacks⟩
  · cases ha with
    | nothing =>
      rw [List.append_nil]
      refine { packets := h.packets, txLength := h.txLength, acks := fun hs => ?_ }
      have howed : owed (some n) = [] := congrArg Option.toList hn
      have hw := h.acks hs
      rwa [howed] at hw
    | packet hsome => cases hnone.symm.trans hsome
  · cases ha with
    | nothing hnone => cases hnone.symm.trans hsome
    | packet hsome' hsend =>
      cases hsome.symm.trans hsome'
      exact h.pays hsend hn hacks

end Steps

/-- The acknowledgements of a session in which every notification is completed
with `complete`. -/
theorem Course.acknowledging {w₁ w : World σ E} {start evs : List (Event E)}
    {del : List Notification} {out : Option TransportNotification}
    (h₁ : Acknowledging start [] none w₁)
    (h : Course (fun n completion => completion = n.complete) Send.IsPublishOrPing w₁ evs del out
      w) :
    Acknowledging (start ++ evs) del out w := by
  induction h with
  | start => rwa [List.append_nil]
  | @delivered evs got chunk del w t w' q n _ hconn hg _ hc _ _ ih =>
    have hall := hg.trans hc.gathered
    rw [← List.append_assoc]
    -- reads write nothing: the delivered packet now owes its acknowledgement
    have h' := ih.trace hall.toTrace (fun e he => (hall.quiet e he).1) fun _ => hconn
    refine { packets := h'.packets, txLength := h'.txLength, acks := fun hs => ?_ }
    have hw := h'.acks hs
    have hnone : owed none = [] := rfl
    rw [hnone, List.append_nil] at hw
    rw [hw, List.filterMap_append]
    rfl
  | idle _ hg _ hg' _ ih =>
    have hall := hg.trans hg'
    rw [← List.append_assoc]
    exact ih.trace hall.toTrace (fun e he => (hall.quiet e he).1) fun hs => hall.state.symm.trans hs
  | failed _ ht hreads hclosed ih =>
    rw [← List.append_assoc]
    exact ih.trace ht hreads fun hs => by cases hclosed.symm.trans hs
  -- the bytes are dropped before the acknowledgement is written, which cannot fail alone
  | completed _ hanswer hc ha ih =>
    subst hanswer
    rw [← List.append_assoc]
    exact (ih.consumed hc).answering ha
  | pinged _ hanswer hc ha ih =>
    subst hanswer
    rw [← List.append_assoc]
    cases ha with
    | nothing hnone => cases hnone
    | packet hsome hsend =>
      cases hsome
      exact (ih.consumed hc).sending hsend trivial
  | sent _ hpacket hsend ih =>
    rw [← List.append_assoc]
    exact ih.sending hsend hpacket

theorem Accepted.acknowledging {options : ConnectOptions} {ack : ConnAck} {w₀ w₁ : World σ E}
    {got chunk : List (Event E)} {n : Nat} (h : Accepted options w₀ ack got chunk n w₁) :
    Acknowledging (.wrote .transportConnected (connectBytes options) (.ok ()) :: (got ++ chunk))
      [] none w₁ := by
  have hwritten := h.wrote
  refine { packets := fun buf hbuf => ?_, txLength := h.fits.le.trans_eq h.txLength.symm,
           acks := fun _ => ?_ }
  · rw [hwritten] at hbuf
    rw [List.mem_singleton.mp hbuf]
    have hfits := h.fits.1
    rw [← Connect.length_body] at hfits
    exact ⟨0x10, _, hfits, rfl⟩
  · rw [acks, hwritten]
    rfl

/-- A client that had room for its CONNECT can encode what `complete` asks for. -/
theorem completeNotification_encodes (p : Platform σ E) {w : World σ E}
    (htx : 14 ≤ w.client.txBuffer.length) (n : ClientNotification) (e : WriteError) :
    (completeNotification p n.complete w).1 ≠ .err (.writeError e) := by
  have hfits : ∀ packet, packetOf n.complete.action = some packet →
      ¬packet.Short w.client.txBuffer.length := by
    intro packet hpacket
    cases n with
    | sendPing =>
      cases hpacket
      have hping : (frame 0xC0 []).length = 2 := congrArg List.length (frame_of_lt (by decide))
      show ¬_ < (frame 0xC0 []).length
      omega
    | transportNotification x =>
      rcases packetOf_defaultAction x.notification with ⟨hnone, -⟩ | ⟨packet', ack, hsome, -, hacks⟩
      · cases hnone.symm.trans hpacket
      · cases hsome.symm.trans hpacket
        exact hacks.fits (by omega)
  have haction : ∀ t : World σ E, t.client.txBuffer = w.client.txBuffer →
      (performAction p n.complete.action t).1 ≠ .err (.writeError e) := by
    intro t ht
    unfold performAction
    rcases hp : packetOf n.complete.action with - | packet
    · exact nofun
    · have hsent := performSend_sent p packet t
      show (performSend p packet t).1 ≠ _
      generalize (performSend p packet t).1 = r at hsent ⊢
      generalize (performSend p packet t).2 = t' at hsent
      cases hsent with
      | panicked => exact nofun
      | notEncoded hshort =>
        rw [ht] at hshort
        exact absurd hshort (hfits packet hp)
      | encoded _ _ hw => cases hw <;> exact nofun
  rcases completeNotification_cases p n.complete w with ⟨-, hc⟩ | ⟨b, -, hc⟩
  · rw [hc]
    exact nofun
  · rw [hc]
    exact haction _ rfl

/-- At every point of a session in which every notification is completed with
`complete`, and publishes and pings are sent besides: only whole packets have
been written since the `connect`; if the client is connected and no notification
is outstanding, the acknowledgements among them are those that the delivered
packets ask for; and no completion fails to encode its acknowledgement. -/
theorem acknowledged {p : Platform σ E} {options : ConnectOptions} {w₀ w₁ w : World σ E}
    {ack : ConnAck} {del : List Notification} {out : Option TransportNotification}
    (hconnect : connect p options w₀ = (.ok ack, w₁))
    (hsession : Session p (fun n completion => completion = n.complete) Send.IsPublishOrPing w₁
      del out w) :
    (∀ buf ∈ written (w.log.drop w₀.log.length), ∃ byte1, IsPacket byte1 buf) ∧
    (w.state = .connected → out = none → acks (w.log.drop w₀.log.length) =
      del.filterMap Notification.acknowledgement) ∧
    (∀ n e, (completeNotification p (ClientNotification.complete n) w).1 ≠
      .err (.writeError e)) := by
  obtain ⟨got, chunk, n, ha⟩ := accepted_of_ok p hconnect
  obtain ⟨evs, hcourse⟩ := hsession.course ha.valid ha.settled
  have hanswers : ∀ (n : ClientNotification) completion, completion = n.complete →
      completion.taken = n.taken := by
    rintro n _ rfl
    exact ClientNotification.Completes.complete.taken
  obtain ⟨items, pending, hacc⟩ := hcourse.account hanswers ha.account
  have h := hcourse.acknowledging ha.acknowledging
  rw [hacc.log, List.drop_left]
  refine ⟨h.packets, fun hs hout => ?_, completeNotification_encodes p h.txLength⟩
  subst hout
  have hw := h.acks hs
  have hnone : owed none = [] := rfl
  rwa [hnone, List.append_nil] at hw

/-- A QoS 1 publish that is completed. -/
theorem acknowledged_publish :
    let p := streamPlatform 4
    let options : ConnectOptions := ⟨"client", none, none, 10, true⟩
    let w₀ : World (List UInt8) Unit := ⟨new (List.replicate 32 0) (List.replicate 16 0),
      [0x20, 2, 0, 0, 0x32, 6, 0, 1, 97, 0, 10, 7], []⟩
    let publish : Notification := .publish ⟨false, .atLeastOnce, false, "a", 10, [7]⟩
    let notification : ClientNotification := .transportNotification ⟨publish, 8⟩
    let w₁ := (connect p options w₀).2
    let w₂ := (nextNotification p w₁).2
    let w₃ := (completeNotification p notification.complete w₂).2
    acks (w₃.log.drop 0) = [publish].filterMap Notification.acknowledgement := by
  intro p options w₀ publish notification w₁ w₂ w₃
  have hconnect : connect p options w₀ = (.ok ⟨false, .success⟩, w₁) :=
    Prod.ext (by decide +kernel) rfl
  have hnext : nextNotification p w₁ = (.ok notification, w₂) := Prod.ext (by decide +kernel) rfl
  have hs : w₃.state = .connected := by decide +kernel
  exact (acknowledged hconnect (.completed (.delivered .start hnext) rfl)).2.1 hs rfl

end Acknowledged

end NanoClient

end Umqtt

/-
Umqtt/NanoClient/RunClient.lean

The program that drives a client: `run_client`, in the documentation of
`nano_client.rs` and in `examples/basic.rs`.

It asks for a notification, completes it with `complete`, and begins again; it
returns only when one of the two calls fails.  So it is run for a number of
turns here, and what it comes to is `.ok ()` as long as it goes on.  `told` lists
the notifications that its turns were returned.

A turn that goes on leaves a connected client of which no notification is
outstanding (`Attended.turn`).  What it delivers is read off the received bytes in
their order and acknowledged at once, also in the turn in which a write fails:
its bytes are consumed, and the write was the one of its acknowledgement.
-/
import Umqtt.NanoClient.Acknowledge
import Umqtt.NanoClient.Bounded
import Umqtt.NanoClient.Outbound

namespace Umqtt

open Effects Wire

/-- The packet that a notification is about. -/
def ClientNotification.packet : ClientNotification → Option Notification
  | .sendPing => none
  | .transportNotification x => some x.notification

namespace NanoClient

section RunClient

variable {σ E : Type} (p : Platform σ E)

/-- One turn of the loop of `run_client`. -/
def runClientTurn : Act (World σ E) (Error E) Unit := do
  let tickResult ← nextNotification p
  let tickResult := tickResult.complete
  completeNotification p tickResult

/-- The first `n` turns of `run_client`. -/
def runClient : Nat → Act (World σ E) (Error E) Unit
  | 0 => pure ()
  | n + 1 => do
      runClientTurn p
      runClient n

/-- What a turn was told: the notification that `next_notification` returned. -/
def toldTurn (w : World σ E) : Option ClientNotification :=
  match (nextNotification p w).1 with
  | .ok notification => some notification
  | _ => none

/-- What the first `n` turns were told, the last one also if it failed then. -/
def told : Nat → World σ E → List ClientNotification
  | 0, _ => []
  | n + 1, w => (toldTurn p w).toList ++
      match runClientTurn p w with
      | (.ok (), t) => told n t
      | _ => []

variable {p} {w w' : World σ E}

theorem toldTurn_of_ok {n : ClientNotification} (h : nextNotification p w = (.ok n, w')) :
    toldTurn p w = some n := by
  rw [toldTurn, h]

theorem toldTurn_of_err {e : Error E} (h : nextNotification p w = (.err e, w')) :
    toldTurn p w = none := by
  rw [toldTurn, h]

theorem told_succ_of_ok {n : Nat} (h : runClientTurn p w = (.ok (), w')) :
    told p (n + 1) w = (toldTurn p w).toList ++ told p n w' := by
  rw [told, h]

theorem told_succ_of_err {n : Nat} {e : Error E} (h : runClientTurn p w = (.err e, w')) :
    told p (n + 1) w = (toldTurn p w).toList := by
  rw [told, h, List.append_nil]

/-! ### Completing a notification -/

/-- What became of bytes that a connected client hands to its platform. -/
inductive Paid (buf : List UInt8) (w : World σ E) :
    Outcome (Error E) Unit → List (Event E) → World σ E → Prop where
  | handed {now : Instant} {w' : World σ E} :
      Trace w [.wrote w.state buf (.ok ()), .clock now] w' → w'.state = w.state →
      Paid buf w (.ok ()) [.wrote w.state buf (.ok ()), .clock now] w'
  | broken {e : E} {w' : World σ E} :
      Trace w [.wrote w.state buf (.error e)] w' → w'.state = .disconnected →
      Paid buf w (.err (.io e)) [.wrote w.state buf (.error e)] w'

/-- A packet that has room in the tx buffer of an open client is handed over. -/
theorem performSend_paid {packet : Send} (hv : w.Valid) (hs : w.state ≠ .disconnected)
    (h5 : 5 ≤ w.client.txBuffer.length) (hfits : ¬packet.Short w.client.txBuffer.length) :
    ∃ buf evs, packet.Bytes buf ∧
      Paid buf w (performSend p packet w).1 evs (performSend p packet w).2 := by
  have h := performSend_sent p packet w
  generalize (performSend p packet w).1 = r at h ⊢
  generalize (performSend p packet w).2 = w' at h ⊢
  cases h with
  | panicked hlt => omega
  | notEncoded hshort => exact absurd hshort hfits
  | @encoded b buf _ _ hb hbytes hw =>
    have htx := Trace.withTx hv hb
    refine ⟨buf, ?_⟩
    cases hw with
    | closed hd => exact absurd hd hs
    | @sent s s' now =>
      have hwrote := Trace.wrote htx.valid buf (.ok ()) s
      have hsent := (hwrote.trans (.clocked hwrote.valid now s')).packetSent now
      exact ⟨_, hbytes, .handed (htx.trans hsent) (World.state_packetSent _ _)⟩
    | @broken e s =>
      have hwrote := Trace.wrote htx.valid buf (.error e) s
      exact ⟨_, hbytes, .broken (htx.trans hwrote.closed) rfl⟩

/-- What completing the notification `n` with `complete` writes. -/
def completionBytes : ClientNotification → Option (List UInt8)
  | .sendPing => some (frame 0xC0 [])
  | .transportNotification x => x.notification.acknowledgement

/-- Completing a notification with `complete` consumes its bytes, and hands over
what it asks for. -/
theorem completeNotification_paid (n : ClientNotification) (hv : w.Valid)
    (hs : w.state ≠ .disconnected) (h14 : 14 ≤ w.client.txBuffer.length) :
    ∃ t, Consumed n.taken w t ∧
      ((completionBytes n = none ∧ completeNotification p n.complete w = (.ok (), t)) ∨
      ∃ buf evs, completionBytes n = some buf ∧
        Paid buf t (completeNotification p n.complete w).1 evs
          (completeNotification p n.complete w).2) := by
  rcases completeNotification_cases p n.complete w with ⟨hno, -⟩ | ⟨b, hb, hc⟩
  · exact absurd hv hno
  obtain ⟨hvalid, hcontent, hcap⟩ := hb hv
  have htaken : n.complete.taken = n.taken := ClientNotification.Completes.complete.taken
  rw [htaken] at hcontent
  refine ⟨w.withRx b, ⟨rfl, hvalid, hcontent, hcap, rfl, rfl⟩, ?_⟩
  -- a packet of known bytes, which the tx buffer has room for
  have hsend : ∀ {packet : Send} {bytes : List UInt8}, packetOf n.complete.action = some packet →
      completionBytes n = some bytes → (∀ {buf}, packet.Bytes buf → buf = bytes) →
      ¬packet.Short w.client.txBuffer.length →
      ∃ buf evs, completionBytes n = some buf ∧ Paid buf (w.withRx b)
        (completeNotification p n.complete w).1 evs (completeNotification p n.complete w).2 := by
    intro packet bytes hpacket hbytes hall hfits
    have h5 : 5 ≤ (w.withRx b).client.txBuffer.length := by
      show 5 ≤ w.client.txBuffer.length
      omega
    obtain ⟨buf, evs, hbuf, hpaid⟩ := @performSend_paid _ _ p (w.withRx b) packet hvalid hs h5 hfits
    obtain rfl := hall hbuf
    rw [hc, performAction, hpacket]
    exact ⟨buf, evs, hbytes, hpaid⟩
  cases n with
  | sendPing =>
    have hping : (frame 0xC0 []).length = 2 := congrArg List.length (frame_of_lt (by decide))
    refine .inr (hsend rfl rfl id ?_)
    show ¬_ < (frame 0xC0 []).length
    omega
  | transportNotification x =>
    rcases packetOf_defaultAction x.notification with ⟨hnone, hack⟩ | ⟨packet, ack, hsome, hack, ha⟩
    · have haction : packetOf (ClientNotification.transportNotification x).complete.action = none :=
        hnone
      refine .inl ⟨hack, ?_⟩
      rw [hc, performAction, haction]
      rfl
    · exact .inr (hsend hsome hack ha.bytes (ha.fits (by omega)))

/-! ### Turns -/

/-- Between the turns: the account of the received bytes is settled, only whole
packets were written, and the acknowledgements among them are those that the
delivered packets ask for. -/
structure Attended (w₀ : World σ E) (ack : ConnAck) (evs : List (Event E))
    (items : List (List UInt8 × Packet)) (del : List Notification) (w : World σ E) : Prop extends
    Account w₀ ack evs items [] del none w where
  valid : w.Valid
  txLength : 14 ≤ w.client.txBuffer.length
  packets : ∀ buf ∈ written evs, ∃ byte1, IsPacket byte1 buf
  acks : acks evs = del.filterMap Notification.acknowledgement

/-- How `run_client` stands: it goes on with a connected client, or it returned an
error, which no encoder reported, and the client is closed. -/
inductive Standing (w : World σ E) : Outcome (Error E) Unit → Prop where
  | going : w.state = .connected → Standing w (.ok ())
  | returned {e : Error E} : w.state = .disconnected → (∀ x, e ≠ .writeError x) →
      Standing w (.err e)

section Turns

variable {w₀ t : World σ E} {ack : ConnAck} {evs : List (Event E)}
  {items : List (List UInt8 × Packet)} {del : List Notification}

/-- Calls that write nothing. -/
theorem Attended.trace {got : List (Event E)} (h : Attended w₀ ack evs items del w)
    (ht : Trace w got w') (hreads : ∀ e ∈ got, ¬e.IsWrite) :
    Attended w₀ ack (evs ++ got) items del w' where
  toAccount := h.toAccount.trace ht
  valid := ht.valid
  txLength := h.txLength.trans_eq ht.txLength.symm
  packets := by
    rw [written_append, written_of_not_isWrite hreads, List.append_nil]
    exact h.packets
  acks := by
    rw [acks_append, acks_of_not_isWrite hreads, List.append_nil]
    exact h.acks

/-- What a packet adds to the acknowledgements. -/
theorem Paid.attended {buf : List UInt8} {r : Outcome (Error E) Unit} {sent : List (Event E)}
    (hpaid : Paid buf t r sent w') (hacc : Account w₀ ack evs items [] del none t)
    (h14 : 14 ≤ t.client.txBuffer.length)
    (hall : ∀ buf ∈ written evs, ∃ byte1, IsPacket byte1 buf) (hbuf : ∃ byte1, IsPacket byte1 buf)
    (hacks : acks evs ++ [buf].filter isAck = del.filterMap Notification.acknowledgement) :
    Attended w₀ ack (evs ++ sent) items del w' := by
  have hsent : written sent = [buf] := by cases hpaid <;> rfl
  have htrace : Trace t sent w' := by cases hpaid <;> assumption
  refine { toAccount := hacc.trace htrace, valid := htrace.valid,
           txLength := h14.trans_eq htrace.txLength.symm, packets := ?_, acks := ?_ }
  · rw [written_append, hsent]
    exact List.forall_mem_append.mpr ⟨hall, List.forall_mem_singleton.mpr hbuf⟩
  · rw [acks_append, ← hacks]
    show _ ++ (written sent).filter isAck = _
    rw [hsent]

theorem Paid.standing {buf : List UInt8} {r : Outcome (Error E) Unit} {sent : List (Event E)}
    (h : Paid buf t r sent w') (hs : t.state = .connected) : Standing w' r := by
  cases h with
  | handed _ hstate => exact .going (hstate.trans hs)
  | broken _ hstate => exact .returned hstate nofun

theorem acknowledgement_isPacket {n : Notification} {ack : List UInt8}
    (h : n.acknowledgement = some ack) : (∃ byte1, IsPacket byte1 ack) ∧ isAck ack = true := by
  have hframe : ∀ (byte1 : UInt8) (pkid : UInt16),
      ∃ b, IsPacket b (frame byte1 (toBeBytes pkid)) := fun byte1 pkid =>
    ⟨byte1, _, by simp, rfl⟩
  cases n with
  | publish p =>
    rw [Notification.acknowledgement] at h
    rcases hq : p.qos with - | - | - <;> rw [hq] at h <;> cases h
    · exact ⟨hframe _ _, rfl⟩
    · exact ⟨hframe _ _, rfl⟩
  | pubRel p =>
    cases h
    exact ⟨hframe _ _, rfl⟩
  | connAck | pubAck | pubRec | pubComp | subAck | unsubAck | pingResponse | disconnected =>
    cases h

theorem completionBytes_isPacket {n : ClientNotification} {buf : List UInt8}
    (h : completionBytes n = some buf) : ∃ byte1, IsPacket byte1 buf := by
  cases n with
  | sendPing =>
    cases h
    exact ⟨0xC0, [], by decide, rfl⟩
  | transportNotification x => exact (acknowledgement_isPacket h).1

/-- Completing what a turn was told, from any world in which its bytes can be
consumed. -/
theorem completeNotification_attended {n : ClientNotification}
    (hacc : ∀ t, Consumed n.taken w t → ∃ items, Account w₀ ack evs items [] del none t)
    (hv : w.Valid) (hs : w.state = .connected) (h14 : 14 ≤ w.client.txBuffer.length)
    (hall : ∀ buf ∈ written evs, ∃ byte1, IsPacket byte1 buf)
    (hacks : acks evs ++ (completionBytes n).toList.filter isAck =
      del.filterMap Notification.acknowledgement) :
    ∃ evs' items, Attended w₀ ack (evs ++ evs') items del (completeNotification p n.complete w).2 ∧
      Standing (completeNotification p n.complete w).2 (completeNotification p n.complete w).1 := by
  have hopen : w.state ≠ .disconnected := by
    rw [hs]
    decide
  obtain ⟨t, hc, hpaid⟩ := @completeNotification_paid _ _ p w n hv hopen h14
  obtain ⟨items, hacc'⟩ := hacc t hc
  have h14' : 14 ≤ t.client.txBuffer.length := by rwa [hc.txBuffer]
  have hs' : t.state = .connected := hc.state.trans hs
  rcases hpaid with ⟨hnone, hrun⟩ | ⟨buf, sent, hsome, hpaid⟩
  · rw [hrun]
    rw [hnone] at hacks
    refine ⟨[], items, ?_, .going hs'⟩
    rw [List.append_nil]
    exact { toAccount := hacc', valid := hc.valid, txLength := h14', packets := hall,
            acks := (List.append_nil _).symm.trans hacks }
  · rw [hsome] at hacks
    exact ⟨sent, items, hpaid.attended hacc' h14' hall (completionBytes_isPacket hsome) hacks,
      hpaid.standing hs'⟩

/-- A turn delivers one packet, or asks for a ping and sends it, or is the last. -/
theorem Attended.turn (hp : p.Honest) (h : Attended w₀ ack evs items del w)
    (hs : w.state = .connected) :
    ∃ evs' items', Attended w₀ ack (evs ++ evs') items'
        (del ++ (toldTurn p w).toList.filterMap ClientNotification.packet) (runClientTurn p w).2 ∧
      Standing (runClientTurn p w).2 (runClientTurn p w).1 := by
  have hsettled : w.state ≠ .transportConnected := by
    rw [hs]
    decide
  rcases hnext : nextNotification p w with ⟨n | e | _, t⟩
  · rw [runClientTurn, Act.bind_of_ok hnext, toldTurn_of_ok hnext]
    cases n with
    | sendPing =>
      obtain ⟨got, waited, u, hg, -, hg', -⟩ := nextNotification_of_ping h.valid hnext
      have hall := hg.trans hg'
      have ht := h.trace hall.toTrace fun e he => (hall.quiet e he).1
      obtain ⟨sent, items', hattended, hstanding⟩ := @completeNotification_attended _ _ p t _ _
        (evs ++ (got ++ waited)) del .sendPing (fun _ hc => ⟨items, ht.toAccount.untaken hc⟩)
        ht.valid (hall.state.trans hs) ht.txLength ht.packets
        ((List.append_nil _).trans ht.acks)
      rw [List.append_assoc] at hattended
      refine ⟨(got ++ waited) ++ sent, items', ?_, hstanding⟩
      have hnothing : (Option.some ClientNotification.sendPing).toList.filterMap
          ClientNotification.packet = [] := rfl
      rwa [hnothing, List.append_nil]
    | transportNotification n =>
      obtain ⟨got, chunk, u, q, hg, -, hc, -, hread, hq⟩ :=
        nextNotification_of_ok h.valid hsettled hnext
      have hall := hg.trans hc.gathered
      have ht := h.trace hall.toTrace fun e he => (hall.quiet e he).1
      have hacks : NanoClient.acks (evs ++ (got ++ chunk)) ++
          (completionBytes (.transportNotification n)).toList.filter isAck =
            (del ++ [n.notification]).filterMap Notification.acknowledgement := by
        rw [ht.acks, List.filterMap_append]
        show _ ++ n.notification.acknowledgement.toList.filter isAck = _
        rcases hn : n.notification.acknowledgement with - | bytes
        · simp [hn]
        · simp [hn, (acknowledgement_isPacket hn).2]
      obtain ⟨sent, items', hattended, hstanding⟩ := @completeNotification_attended _ _ p t _ _
        (evs ++ (got ++ chunk)) (del ++ [n.notification]) (.transportNotification n)
        (fun _ hc => (ht.toAccount.deliver hread hq).complete hc)
        ht.valid (hall.state.trans hs) ht.txLength ht.packets hacks
      rw [List.append_assoc] at hattended
      exact ⟨_, items', hattended, hstanding⟩
  · obtain ⟨got, ht, hreads, hclosed⟩ := nextNotification_of_err h.valid hsettled hnext
    rw [runClientTurn, Act.bind_of_err hnext, toldTurn_of_err hnext]
    refine ⟨got, items, ?_, .returned hclosed ?_⟩
    · have hattended := h.trace ht hreads
      rwa [Option.toList_none, List.filterMap_nil, List.append_nil]
    · rintro x rfl
      exact nextNotification_ne_writeError h.valid hnext
  · have hne := nextNotification_ne_panic hp h.valid
    rw [hnext] at hne
    exact absurd rfl hne

/-- Any number of turns. -/
theorem Attended.run (hp : p.Honest) (n : Nat) : ∀ {evs : List (Event E)}
    {items : List (List UInt8 × Packet)} {del : List Notification} {w : World σ E},
    Attended w₀ ack evs items del w → w.state = .connected →
    ∃ evs' items', Attended w₀ ack (evs ++ evs') items'
        (del ++ (told p n w).filterMap ClientNotification.packet) (runClient p n w).2 ∧
      Standing (runClient p n w).2 (runClient p n w).1 := by
  induction n with
  | zero =>
    intro evs items del w h hs
    refine ⟨[], items, ?_, .going hs⟩
    rwa [told, List.filterMap_nil, List.append_nil, List.append_nil]
  | succ n ih =>
    intro evs items del w h hs
    obtain ⟨evs₁, items₁, h₁, hstanding⟩ := h.turn hp hs
    rcases hturn : runClientTurn p w with ⟨r, t⟩
    rw [hturn] at h₁ hstanding
    cases hstanding with
    | going hs' =>
      obtain ⟨evs₂, items₂, h₂, hstanding⟩ := ih h₁ hs'
      rw [runClient, Act.bind_of_ok hturn, told_succ_of_ok hturn, List.filterMap_append]
      rw [List.append_assoc, List.append_assoc] at h₂
      exact ⟨_, items₂, h₂, hstanding⟩
    | returned hs' hno =>
      rw [runClient, Act.bind_of_err hturn, told_succ_of_err hturn]
      exact ⟨evs₁, items₁, h₁, .returned hs' hno⟩

end Turns

theorem Accepted.attended {options : ConnectOptions} {ack : ConnAck} {w₀ w₁ : World σ E}
    {got chunk : List (Event E)} {n : Nat} (h : Accepted options w₀ ack got chunk n w₁) :
    Attended w₀ ack (.wrote .transportConnected (connectBytes options) (.ok ()) :: (got ++ chunk))
      [((received (got ++ chunk)).take n, .connAck ack)] [] w₁ where
  toAccount := h.account
  valid := h.valid
  txLength := h.acknowledging.txLength
  packets := h.acknowledging.packets
  acks := (List.append_nil _).symm.trans (h.acknowledging.acks h.state)

/-- `run_client` behind a `connect` that succeeded, for any number of turns.  It
does not panic; it goes on with a connected client, or returns an error and
leaves a closed one, and the error is none of an encoder.  The CONNACK, and the
packets that its turns were told, are those read off the received bytes one after
the other, up to the receive buffer: none is told that is not consumed.  Only
whole packets are written, and the acknowledgements among them are those that the
packets told ask for, in their order. -/
theorem run_client_attends {options : ConnectOptions} {w₀ w₁ : World σ E} {ack : ConnAck}
    (hp : p.Honest) (hconnect : connect p options w₀ = (.ok ack, w₁)) (n : Nat) :
    let run := runClient p n w₁
    let del := (told p n w₁).filterMap ClientNotification.packet
    (run.1 = .ok () ∧ run.2.state = .connected ∨
      ∃ e, run.1 = .err e ∧ run.2.state = .disconnected ∧ ∀ x, e ≠ .writeError x) ∧
    ∃ evs items, run.2.log = w₀.log ++ evs ∧
      Reads (Packet.next w₀.client.transportClient.maxPacketSize) (received evs) items
        run.2.content ∧
      (items.map Prod.snd).map some = (Notification.connAck ack :: del).map Notification.packet ∧
      (∀ buf ∈ written evs, ∃ byte1, IsPacket byte1 buf) ∧
      acks evs = del.filterMap Notification.acknowledgement := by
  intro run del
  obtain ⟨got, chunk, k, ha⟩ := accepted_of_ok p hconnect
  obtain ⟨evs, items, h, hstanding⟩ := ha.attended.run hp n ha.state
  refine ⟨?_, _, items, h.log, h.reads, ?_, h.packets, h.acks⟩
  · show (run.1 = _ ∧ _) ∨ _
    have hstanding' : Standing run.2 run.1 := hstanding
    generalize run.1 = r at hstanding'
    cases hstanding' with
    | going hs => exact .inl ⟨rfl, hs⟩
    | returned hs hno => exact .inr ⟨_, rfl, hs, hno⟩
  · have hdel := h.delivered
    rwa [List.append_nil] at hdel

/-- Three turns: a QoS 1 publish is told and acknowledged, and two pings are sent,
since the stream times out. -/
theorem run_client_attends_publish :
    let p := endingPlatform 4
    let options : ConnectOptions := ⟨"client", none, none, 10, true⟩
    let w₀ : World (List UInt8) Unit := ⟨new (List.replicate 32 0) (List.replicate 16 0),
      [0x20, 2, 0, 0, 0x32, 6, 0, 1, 97, 0, 10, 7], []⟩
    let w₁ := (connect p options w₀).2
    let publish : Notification := .publish ⟨false, .atLeastOnce, false, "a", 10, [7]⟩
    told p 3 w₁ = [.transportNotification ⟨publish, 8⟩, .sendPing, .sendPing] ∧
      (∃ items, Reads (Packet.next 16) (received (runClient p 3 w₁).2.log) items
          (runClient p 3 w₁).2.content ∧
        (items.map Prod.snd).map some =
          [Notification.connAck ⟨false, .success⟩, publish].map Notification.packet) ∧
      acks (runClient p 3 w₁).2.log = [frame 0x40 (toBeBytes 10)] := by
  intro p options w₀ w₁ publish
  have hconnect : connect p options w₀ = (.ok ⟨false, .success⟩, w₁) :=
    Prod.ext (by decide +kernel) rfl
  have htold : told p 3 w₁ = [.transportNotification ⟨publish, 8⟩, .sendPing, .sendPing] := by
    decide +kernel
  obtain ⟨-, evs, items, hlog, hreads, hitems, -, hacks⟩ :=
    run_client_attends (honest_endingPlatform 4) hconnect 3
  have hall : evs = (runClient p 3 w₁).2.log := hlog.symm
  rw [htold] at hitems hacks
  rw [hall] at hreads hacks
  exact ⟨htold, ⟨items, hreads, hitems⟩, hacks⟩

end RunClient

end NanoClient

end Umqtt

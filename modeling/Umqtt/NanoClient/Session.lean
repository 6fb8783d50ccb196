/-
Umqtt/NanoClient/Session.lean

What a client receives between two handshakes.

A `Session` begins behind a `connect` that succeeded, and goes on with any calls
in which the caller completes each notification before it asks for the next.
What its calls do is said once, by its `Course` (`Session.course`); what holds of
sessions follows by induction on that.

The bytes of a packet leave the receive buffer in another call than the one that
reads the packet off them: `Account` says which packets have been consumed,
which one is outstanding, and which bytes are still in the buffer.  Together
they are what was received since the handshake began (`session_accounted`), so
that no byte is lost, read twice or out of order.
-/
import Umqtt.Inbound
import Umqtt.NanoClient.Gate

namespace Umqtt

open Effects Wire

namespace NanoClient

section Steps

variable {σ E : Type} {p : Platform σ E} {w w' : World σ E}

/-! ### What the calls of a session do -/

/-- Calls that received nothing, and left the state alone or closed the client. -/
structure Silent (w : World σ E) (evs : List (Event E)) (w' : World σ E) : Prop extends
    Trace w evs w' where
  received : received evs = []
  state : w'.state = w.state ∨ w'.state = .disconnected

/-- What became of a packet that the caller sends: it was not written, or it was,
or the write failed. -/
inductive Sending (packet : Send) (w : World σ E) : List (Event E) → World σ E → Prop where
  | skipped {w' : World σ E} : (w.state = .disconnected ∨ w.client.txBuffer.length < 5 ∨
        packet.Short w.client.txBuffer.length) → Trace w [] w' → w'.state = w.state →
      Sending packet w [] w'
  | written {buf : List UInt8} {now : Instant} {w' : World σ E} : packet.Bytes buf →
      Trace w [.wrote w.state buf (.ok ()), .clock now] w' → w'.state = w.state →
      Sending packet w [.wrote w.state buf (.ok ()), .clock now] w'
  | broken {buf : List UInt8} {e : E} {w' : World σ E} : packet.Bytes buf →
      Trace w [.wrote w.state buf (.error e)] w' → w'.state = .disconnected →
      Sending packet w [.wrote w.state buf (.error e)] w'

theorem Sending.silent {packet : Send} {evs : List (Event E)} (h : Sending packet w evs w') :
    Silent w evs w' := by
  cases h with
  | skipped _ ht hs => exact ⟨ht, rfl, .inl hs⟩
  | written _ ht hs => exact ⟨ht, rfl, .inl hs⟩
  | broken _ ht hs => exact ⟨ht, rfl, .inr hs⟩

theorem performSend_sending (packet : Send) (hv : w.Valid) :
    ∃ evs, Sending packet w evs (performSend p packet w).2 := by
  have h := performSend_sent p packet w
  generalize (performSend p packet w).1 = r at h
  generalize (performSend p packet w).2 = w' at h ⊢
  cases h with
  | panicked h5 => exact ⟨[], .skipped (.inr (.inl h5)) (.refl hv) rfl⟩
  | notEncoded hshort hb => exact ⟨[], .skipped (.inr (.inr hshort)) (.withTx hv hb) rfl⟩
  | @encoded b buf _ _ hb hbytes hw =>
    have htx := Trace.withTx hv hb
    cases hw with
    | closed hs => exact ⟨[], .skipped (.inl hs) htx rfl⟩
    | @sent s s' now =>
      have hwrote := Trace.wrote htx.valid buf (.ok ()) s
      have hsent := (hwrote.trans (.clocked hwrote.valid now s')).packetSent now
      exact ⟨_, .written hbytes (htx.trans hsent) (World.state_packetSent _ _)⟩
    | @broken e s =>
      have hwrote := Trace.wrote htx.valid buf (.error e) s
      exact ⟨_, .broken hbytes (htx.trans hwrote.closed) rfl⟩

/-- A notification of the transport is the packet at the start of the receive
buffer. -/
theorem nextNotification_of_ok (hv : w.Valid) (hs : w.state ≠ .transportConnected)
    {n : TransportNotification}
    (h : nextNotification p w = (.ok (.transportNotification n), w')) :
    ∃ evs evs' t q, Gathered w evs t ∧ (t = w ∨ ¬Framed t.content t.capacity) ∧ Chunk t evs' w' ∧
      w.state = .connected ∧ w'.read = .ok (q, n.taken) ∧
      Notification.ofPacket q = some n.notification := by
  have hn := notified p hv
  rw [h] at hn
  generalize hok : (Outcome.ok (.transportNotification n) :
    Outcome (Error E) ClientNotification) = r at hn
  cases hn with
  | closed | panicked | broke | ping => cases hok
  | @decoded evs evs' t u hne hg hmore hc hf =>
    have hstate : u.client.transportClient.state = w.state := by
      rw [hc.transportClient, hg.transportClient]
      rfl
    have hr := TransportClient.received u.client.transportClient u.content
    generalize (TransportClient.onBytesReceived u.content u.client.transportClient).1 = r at hr hok
    generalize (TransportClient.onBytesReceived u.content u.client.transportClient).2 = c at hr
    cases hr with
    | needMore | malformed | unexpected => cases hok
    | closed hs' => exact absurd (hstate.symm.trans hs') hne
    -- these end a handshake, and none goes on
    | accepted hs' | refused hs' => exact absurd (hstate.symm.trans hs') hs
    | @packet q taken m hs' hread hq =>
      cases hok
      exact ⟨evs, evs', t, q, hg, hmore, hc, hstate.symm.trans hs', hread, hq⟩

/-- A call that asks for a ping has received nothing since it last looked. -/
theorem nextNotification_of_ping (hv : w.Valid)
    (h : nextNotification p w = (.ok .sendPing, w')) :
    ∃ evs evs' t, Gathered w evs t ∧ (t = w ∨ ¬Framed t.content t.capacity) ∧
      Gathered t evs' w' ∧ received evs' = [] := by
  have hn := notified p hv
  rw [h] at hn
  generalize hok : (Outcome.ok .sendPing : Outcome (Error E) ClientNotification) = r at hn
  cases hn with
  | closed | panicked | broke => cases hok
  | ping _ hg hmore hg' hnil _ => exact ⟨_, _, _, hg, hmore, hg', hnil⟩
  | decoded => exact absurd hok.symm (notify_ne_sendPing _)

/-- A call that fails leaves a closed client. -/
theorem nextNotification_of_err (hv : w.Valid) (hs : w.state ≠ .transportConnected) {e : Error E}
    (h : nextNotification p w = (.err e, w')) :
    ∃ evs, Trace w evs w' ∧ (∀ e ∈ evs, ¬e.IsWrite) ∧ w'.state = .disconnected := by
  have hn := notified p hv
  rw [h] at hn
  generalize herr : (Outcome.err e : Outcome (Error E) ClientNotification) = r at hn
  cases hn with
  | panicked | ping => cases herr
  | closed hs' => exact ⟨[], .refl hv, (fun _ h => nomatch h), hs'⟩
  | broke _ hb =>
    exact ⟨_, hb.toTrace, hb.not_isWrite, hb.state⟩
  | @decoded evs evs' t u hne hg _ hc hf =>
    have hall := hg.trans hc.gathered
    have hstate : u.client.transportClient.state = w.state := by
      rw [hall.transportClient]
      rfl
    have hr := TransportClient.received u.client.transportClient u.content
    generalize (TransportClient.onBytesReceived u.content u.client.transportClient).1 = r at hr herr
    generalize (TransportClient.onBytesReceived u.content u.client.transportClient).2 = c at hr
    cases hr with
    | closed hs' => exact absurd (hstate.symm.trans hs') hne
    -- the loop ends with a whole frame, of which the decoder does not ask for more
    | needMore _ hread =>
      obtain ⟨fh, hcheck⟩ := hf
      exact absurd hread (Packet.read_ne_needMoreData hcheck _ _)
    | malformed | unexpected => exact ⟨_, hall.closed, fun e he => (hall.quiet e he).1, rfl⟩
    | accepted hs' | refused hs' => exact absurd (hstate.symm.trans hs') hs
    | packet => cases herr

/-- What became of the action of a completion. -/
inductive Answering (action : NotificationAction) (w : World σ E) :
    List (Event E) → World σ E → Prop where
  | nothing : packetOf action = none → Answering action w [] w
  | packet {packet : Send} {evs : List (Event E)} {w' : World σ E} :
      packetOf action = some packet → Sending packet w evs w' → Answering action w evs w'

theorem Answering.silent {action : NotificationAction} {evs : List (Event E)} (hv : w.Valid)
    (h : Answering action w evs w') : Silent w evs w' := by
  cases h with
  | nothing => exact ⟨.refl hv, rfl, .inl rfl⟩
  | packet _ h => exact h.silent

theorem performAction_answering (action : NotificationAction) (hv : w.Valid) :
    ∃ evs, Answering action w evs (performAction p action w).2 := by
  unfold performAction
  cases haction : packetOf action with
  | none => exact ⟨[], .nothing haction⟩
  | some packet =>
    obtain ⟨evs, h⟩ := @performSend_sending _ _ p _ packet hv
    exact ⟨evs, .packet haction h⟩

/-- The first `taken` bytes have left the receive buffer. -/
structure Consumed (taken : Nat) (w t : World σ E) : Prop where
  log : t.log = w.log
  valid : t.Valid
  content : t.content = w.content.drop taken
  capacity : t.capacity = w.capacity
  transportClient : t.client.transportClient = w.client.transportClient
  txBuffer : t.client.txBuffer = w.client.txBuffer

/-- Completing a notification drops the bytes it took, and then answers it. -/
theorem completeNotification_answering (completion : NotificationCompletion) (hv : w.Valid) :
    ∃ t evs, Consumed completion.taken w t ∧
      Answering completion.action t evs (completeNotification p completion w).2 := by
  rcases completeNotification_cases p completion w with ⟨hno, -⟩ | ⟨b, hb, hc⟩
  · exact absurd hv hno
  · obtain ⟨hvalid, hcontent, hcap⟩ := hb hv
    obtain ⟨evs, h⟩ := @performAction_answering _ _ p (w.withRx b) completion.action hvalid
    rw [hc]
    exact ⟨w.withRx b, evs, ⟨rfl, hvalid, hcontent, hcap, rfl, rfl⟩, h⟩

end Steps

section Session

variable {σ E : Type}

/-! ### Sessions -/

/-- Calls behind a handshake that left the world `w₀`, with the notifications
they delivered and the one that the caller has not completed yet.  The caller
completes it as `answers` allows before it asks for the next; it may send what
`sends` allows, and answer a request for a ping, at any time. -/
inductive Session (p : Platform σ E) (answers : ClientNotification → NotificationCompletion → Prop)
    (sends : Send → Prop) (w₀ : World σ E) :
    List Notification → Option TransportNotification → World σ E → Prop where
  | start : Session p answers sends w₀ [] none w₀
  | delivered {del : List Notification} {w w' : World σ E} {n : TransportNotification} :
      Session p answers sends w₀ del none w →
      nextNotification p w = (.ok (.transportNotification n), w') →
      Session p answers sends w₀ (del ++ [n.notification]) (some n) w'
  | idle {del : List Notification} {w w' : World σ E} :
      Session p answers sends w₀ del none w → nextNotification p w = (.ok .sendPing, w') →
      Session p answers sends w₀ del none w'
  | failed {del : List Notification} {w w' : World σ E} {e : Error E} :
      Session p answers sends w₀ del none w → nextNotification p w = (.err e, w') →
      Session p answers sends w₀ del none w'
  | completed {del : List Notification} {w : World σ E} {n : TransportNotification}
      {completion : NotificationCompletion} : Session p answers sends w₀ del (some n) w →
      answers (.transportNotification n) completion →
      Session p answers sends w₀ del none (completeNotification p completion w).2
  | pinged {del : List Notification} {out : Option TransportNotification} {w : World σ E}
      {completion : NotificationCompletion} : Session p answers sends w₀ del out w →
      answers .sendPing completion →
      Session p answers sends w₀ del out (completeNotification p completion w).2
  | sent {del : List Notification} {out : Option TransportNotification} {w : World σ E}
      {packet : Send} : Session p answers sends w₀ del out w → sends packet →
      Session p answers sends w₀ del out (performSend p packet w).2

/-- What the calls of a session did: `evs` is what they asked of the platform. -/
inductive Course (answers : ClientNotification → NotificationCompletion → Prop)
    (sends : Send → Prop) (w₀ : World σ E) : List (Event E) → List Notification →
    Option TransportNotification → World σ E → Prop where
  | start : Course answers sends w₀ [] [] none w₀
  | delivered {evs got chunk : List (Event E)} {del : List Notification} {w t w' : World σ E}
      {q : Packet} {n : TransportNotification} : Course answers sends w₀ evs del none w →
      w.state = .connected → Gathered w got t → (t = w ∨ ¬Framed t.content t.capacity) →
      Chunk t chunk w' → w'.read = .ok (q, n.taken) →
      Notification.ofPacket q = some n.notification →
      Course answers sends w₀ (evs ++ (got ++ chunk)) (del ++ [n.notification]) (some n) w'
  | idle {evs got waited : List (Event E)} {del : List Notification} {w t w' : World σ E} :
      Course answers sends w₀ evs del none w → Gathered w got t →
      (t = w ∨ ¬Framed t.content t.capacity) → Gathered t waited w' → received waited = [] →
      Course answers sends w₀ (evs ++ (got ++ waited)) del none w'
  | failed {evs got : List (Event E)} {del : List Notification} {w w' : World σ E} :
      Course answers sends w₀ evs del none w → Trace w got w' → (∀ e ∈ got, ¬e.IsWrite) →
      w'.state = .disconnected →
      Course answers sends w₀ (evs ++ got) del none w'
  | completed {evs sent : List (Event E)} {del : List Notification} {w t w' : World σ E}
      {n : TransportNotification} {completion : NotificationCompletion} :
      Course answers sends w₀ evs del (some n) w →
      answers (.transportNotification n) completion → Consumed completion.taken w t →
      Answering completion.action t sent w' → Course answers sends w₀ (evs ++ sent) del none w'
  | pinged {evs sent : List (Event E)} {del : List Notification} {w t w' : World σ E}
      {out : Option TransportNotification} {completion : NotificationCompletion} :
      Course answers sends w₀ evs del out w → answers .sendPing completion →
      Consumed completion.taken w t → Answering completion.action t sent w' →
      Course answers sends w₀ (evs ++ sent) del out w'
  | sent {evs sent : List (Event E)} {del : List Notification} {w w' : World σ E}
      {out : Option TransportNotification} {packet : Send} :
      Course answers sends w₀ evs del out w → sends packet → Sending packet w sent w' →
      Course answers sends w₀ (evs ++ sent) del out w'

section Course

variable {answers : ClientNotification → NotificationCompletion → Prop} {sends : Send → Prop}
  {w₀ w w' : World σ E} {evs : List (Event E)} {del : List Notification}
  {out : Option TransportNotification}

theorem Silent.settled (h : Silent w evs w') (hs : w.state ≠ .transportConnected) :
    w'.state ≠ .transportConnected := by
  rcases h.state with hs' | hs'
  · rwa [hs']
  · rw [hs']
    decide

/-- The client was connected before calls that it is still connected behind. -/
theorem Silent.connected (h : Silent w evs w')
    (hs : w'.state = .connected) : w.state = .connected := by
  rcases h.state with hs' | hs'
  · exact hs'.symm.trans hs
  · cases hs'.symm.trans hs

theorem Consumed.state {taken : Nat} {t : World σ E} (h : Consumed taken w t) :
    t.state = w.state := congrArg TransportClient.state h.transportClient

theorem Consumed.settled {taken : Nat} {t : World σ E} (h : Consumed taken w t)
    (hs : w.state ≠ .transportConnected) : t.state ≠ .transportConnected := by
  rwa [h.state]

/-- Between the calls, the receive buffer is valid, and no handshake goes on. -/
theorem Course.settled (hv : w₀.Valid) (hs : w₀.state ≠ .transportConnected)
    (h : Course answers sends w₀ evs del out w) : w.Valid ∧ w.state ≠ .transportConnected := by
  induction h with
  | start => exact ⟨hv, hs⟩
  | delivered _ _ hg _ hc _ _ ih =>
    refine ⟨hc.valid, ?_⟩
    rw [hc.gathered.state, hg.state]
    exact ih.2
  | idle _ hg _ hg' _ ih =>
    refine ⟨hg'.valid, ?_⟩
    rw [hg'.state, hg.state]
    exact ih.2
  | failed _ ht _ hs' =>
    refine ⟨ht.valid, ?_⟩
    rw [hs']
    decide
  | completed _ _ hc ha ih | pinged _ _ hc ha ih =>
    have hsilent := ha.silent hc.valid
    exact ⟨hsilent.valid, hsilent.settled (hc.settled ih.2)⟩
  | sent _ _ hsend ih => exact ⟨hsend.silent.valid, hsend.silent.settled ih.2⟩

/-- The course of a session. -/
theorem Session.course {p : Platform σ E} (hv : w₀.Valid) (hs : w₀.state ≠ .transportConnected)
    (h : Session p answers sends w₀ del out w) : ∃ evs, Course answers sends w₀ evs del out w := by
  induction h with
  | start => exact ⟨[], .start⟩
  -- between the calls the client is settled, so that each call goes as its lemma says
  | delivered _ hnext ih =>
    obtain ⟨evs, h⟩ := ih
    obtain ⟨hv', hs'⟩ := h.settled hv hs
    obtain ⟨got, chunk, t, q, hg, hmore, hc, hconn, hread, hq⟩ :=
        nextNotification_of_ok hv' hs' hnext
    exact ⟨_, h.delivered hconn hg hmore hc hread hq⟩
  | idle _ hnext ih =>
    obtain ⟨evs, h⟩ := ih
    obtain ⟨got, waited, t, hg, hmore, hg', hnil⟩ :=
      nextNotification_of_ping (h.settled hv hs).1 hnext
    exact ⟨_, h.idle hg hmore hg' hnil⟩
  | failed _ hnext ih =>
    obtain ⟨evs, h⟩ := ih
    obtain ⟨hv', hs'⟩ := h.settled hv hs
    obtain ⟨got, ht, hreads, hclosed⟩ := nextNotification_of_err hv' hs' hnext
    exact ⟨_, h.failed ht hreads hclosed⟩
  | @completed _ _ _ completion _ hanswer ih =>
    obtain ⟨evs, h⟩ := ih
    obtain ⟨t, sent, hc, ha⟩ :=
      @completeNotification_answering _ _ p _ completion (h.settled hv hs).1
    exact ⟨_, h.completed hanswer hc ha⟩
  | @pinged _ _ _ completion _ hanswer ih =>
    obtain ⟨evs, h⟩ := ih
    obtain ⟨t, sent, hc, ha⟩ :=
      @completeNotification_answering _ _ p _ completion (h.settled hv hs).1
    exact ⟨_, h.pinged hanswer hc ha⟩
  | @sent _ _ _ packet _ hsends ih =>
    obtain ⟨evs, h⟩ := ih
    obtain ⟨sent, hsend⟩ := @performSend_sending _ _ p _ packet (h.settled hv hs).1
    exact ⟨_, h.sent hsends hsend⟩

end Course

/-! ### The account of a session -/

/-- The packet of the notification that is not completed, at the start of the
receive buffer. -/
def Outstanding (maxPacketSize : Nat) (content : List UInt8) :
    Option TransportNotification → List Packet → Prop
  | none, pending => pending = []
  | some n, pending => ∃ q, pending = [q] ∧ Packet.read content maxPacketSize = .ok (q, n.taken)

/-- From `w₀`, the calls `evs` were made.  Of the bytes they received the packets
`items` were consumed, and the rest is in the receive buffer.  Delivered were
the CONNACK and `del`: the packets consumed, and those pending. -/
structure Account (w₀ : World σ E) (ack : ConnAck) (evs : List (Event E))
    (items : List (List UInt8 × Packet)) (pending : List Packet) (del : List Notification)
    (out : Option TransportNotification) (w : World σ E) : Prop where
  log : w.log = w₀.log ++ evs
  maxPacketSize : w.client.transportClient.maxPacketSize = w₀.client.transportClient.maxPacketSize
  reads : Reads (Packet.next w₀.client.transportClient.maxPacketSize) (received evs) items w.content
  delivered : (items.map Prod.snd ++ pending).map some =
    (Notification.connAck ack :: del).map Notification.packet
  outstanding : Outstanding w₀.client.transportClient.maxPacketSize w.content out pending

section Account

variable {w₀ w w' : World σ E} {ack : ConnAck} {evs : List (Event E)}
  {items : List (List UInt8 × Packet)} {pending : List Packet} {del : List Notification}
  {out : Option TransportNotification}

theorem Outstanding.append {max : Nat} {content : List UInt8}
    (h : Outstanding max content out pending) (more : List UInt8) :
    Outstanding max (content ++ more) out pending := by
  cases out with
  | none => exact h
  | some n =>
    obtain ⟨q, hq, hread⟩ := h
    refine ⟨q, hq, ?_⟩
    rw [Packet.read_append more fun k hk => by cases hread.symm.trans hk]
    exact hread

/-- Calls that append what they receive to the buffer. -/
theorem Account.trace (h : Account w₀ ack evs items pending del out w) {evs' : List (Event E)}
    (ht : Trace w evs' w') : Account w₀ ack (evs ++ evs') items pending del out w' where
  log := by rw [ht.log, h.log, List.append_assoc]
  maxPacketSize := ht.maxPacketSize.trans h.maxPacketSize
  reads := by
    rw [received_append, ht.content]
    exact h.reads.append (Packet.prefixed_next _) _
  delivered := h.delivered
  outstanding := by
    rw [ht.content]
    exact h.outstanding.append _

/-- A packet at the start of the buffer is delivered. -/
theorem Account.deliver (h : Account w₀ ack evs items pending del none w) {q : Packet}
    {n : TransportNotification} (hread : w.read = .ok (q, n.taken))
    (hq : Notification.ofPacket q = some n.notification) :
    Account w₀ ack evs items [q] (del ++ [n.notification]) (some n) w := by
  obtain rfl : pending = [] := h.outstanding
  have hdel := h.delivered
  rw [List.append_nil] at hdel
  refine { h with delivered := ?_, outstanding := ⟨q, rfl, ?_⟩ }
  · rw [List.map_append, hdel, ← List.cons_append, List.map_append, List.map_singleton,
      List.map_singleton, Notification.packet_of_ofPacket hq]
  · rw [← h.maxPacketSize]
    exact hread

/-- The bytes of the packet that is outstanding leave the buffer. -/
theorem Account.complete {n : TransportNotification} {t : World σ E}
    (h : Account w₀ ack evs items pending del (some n) w) (hc : Consumed n.taken w t) :
    ∃ items', Account w₀ ack evs items' [] del none t := by
  obtain ⟨q, rfl, hread⟩ := h.outstanding
  -- what was pending is now the last packet consumed
  have hsnoc := h.reads.snoc (Packet.next_eq_some.mpr hread)
  refine ⟨items ++ [(w.content.take n.taken, q)], ?_⟩
  exact
    { log := hc.log.trans h.log
      maxPacketSize := by rw [hc.transportClient]; exact h.maxPacketSize
      reads := by rw [hc.content]; exact hsnoc
      delivered := by
        rw [List.append_nil, List.map_append]
        exact h.delivered
      outstanding := rfl }

/-- A completion that takes nothing leaves the account alone. -/
theorem Account.untaken {t : World σ E} (h : Account w₀ ack evs items pending del out w)
    (hc : Consumed 0 w t) : Account w₀ ack evs items pending del out t where
  log := hc.log.trans h.log
  maxPacketSize := by rw [hc.transportClient]; exact h.maxPacketSize
  reads := by rw [hc.content, List.drop_zero]; exact h.reads
  delivered := h.delivered
  outstanding := by rw [hc.content, List.drop_zero]; exact h.outstanding

/-- A handshake opens an account, with the CONNACK as the packet consumed. -/
theorem Accepted.account {options : ConnectOptions} {evs chunk : List (Event E)} {n : Nat}
    (h : Accepted options w₀ ack evs chunk n w) :
    Account w₀ ack (.wrote .transportConnected (connectBytes options) (.ok ()) :: (evs ++ chunk))
      [((received (evs ++ chunk)).take n, .connAck ack)] [] [] none w where
  log := h.log
  maxPacketSize := h.maxPacketSize
  reads := by
    rw [h.content]
    exact .cons (Packet.next_eq_some.mpr h.read) (.nil _)
  delivered := rfl
  outstanding := rfl

/-- The account of a session that goes on behind another. -/
theorem Course.account_behind {answers : ClientNotification → NotificationCompletion → Prop}
    {sends : Send → Prop} {w₁ : World σ E} {start : List (Event E)} {del₁ : List Notification}
    (hanswers : ∀ n completion, answers n completion → completion.taken = n.taken)
    (h₁ : Account w₀ ack start items [] del₁ none w₁) (h : Course answers sends w₁ evs del out w) :
    ∃ items pending, Account w₀ ack (start ++ evs) items pending (del₁ ++ del) out w := by
  induction h with
  | start =>
    rw [List.append_nil, List.append_nil]
    exact ⟨items, [], h₁⟩
  | delivered _ _ hg _ hc hread hq ih =>
    obtain ⟨items, pending, h⟩ := ih
    rw [← List.append_assoc start, ← List.append_assoc del₁]
    exact ⟨items, _, (h.trace (hg.trans hc.gathered).toTrace).deliver hread hq⟩
  | idle _ hg _ hg' _ ih =>
    obtain ⟨items, pending, h⟩ := ih
    rw [← List.append_assoc]
    exact ⟨items, pending, h.trace (hg.trans hg').toTrace⟩
  | failed _ ht _ _ ih =>
    obtain ⟨items, pending, h⟩ := ih
    rw [← List.append_assoc]
    exact ⟨items, pending, h.trace ht⟩
  | completed _ hanswer hc ha ih =>
    obtain ⟨items, pending, h⟩ := ih
    rw [hanswers _ _ hanswer] at hc
    obtain ⟨items', h'⟩ := h.complete hc
    rw [← List.append_assoc]
    exact ⟨items', [], h'.trace (ha.silent hc.valid).toTrace⟩
  | pinged _ hanswer hc ha ih =>
    obtain ⟨items, pending, h⟩ := ih
    rw [hanswers _ _ hanswer] at hc
    rw [← List.append_assoc]
    exact ⟨items, pending, (h.untaken hc).trace (ha.silent hc.valid).toTrace⟩
  | sent _ _ hsend ih =>
    obtain ⟨items, pending, h⟩ := ih
    rw [← List.append_assoc]
    exact ⟨items, pending, h.trace hsend.silent.toTrace⟩

/-- The account of a session, from the account that the handshake opened. -/
theorem Course.account {answers : ClientNotification → NotificationCompletion → Prop}
    {sends : Send → Prop} {w₁ : World σ E} {start : List (Event E)}
    (hanswers : ∀ n completion, answers n completion → completion.taken = n.taken)
    (h₁ : Account w₀ ack start items [] [] none w₁) (h : Course answers sends w₁ evs del out w) :
    ∃ items pending, Account w₀ ack (start ++ evs) items pending del out w :=
  h.account_behind hanswers h₁

end Account

/-- At every point of a session, the bytes received since the `connect` are the
frames consumed, and behind them the receive buffer.  The packets delivered are
those that the decoder reads off these bytes one after the other: those
consumed, and at most one that is outstanding, at the start of the buffer. -/
theorem session_accounted {p : Platform σ E} {options : ConnectOptions} {w₀ w₁ w : World σ E}
    {ack : ConnAck} {del : List Notification} {out : Option TransportNotification}
    (hconnect : connect p options w₀ = (.ok ack, w₁))
    (hsession : Session p ClientNotification.Completes (fun _ => True) w₁ del out w) :
    ∃ evs items pending used, w.log = w₀.log ++ evs ∧
      w.client.rxBuffer.usedSlice = (.ok used : Outcome (Error E) _) ∧
      received evs = (items.map Prod.fst).flatten ++ used ∧
      Reads (Packet.next w₀.client.transportClient.maxPacketSize) (received evs) items used ∧
      (items.map Prod.snd ++ pending).map some =
        (Notification.connAck ack :: del).map Notification.packet ∧
      Outstanding w₀.client.transportClient.maxPacketSize used out pending := by
  obtain ⟨evs₁, chunk, n, ha⟩ := accepted_of_ok p hconnect
  obtain ⟨evs, hcourse⟩ := hsession.course ha.valid ha.settled
  obtain ⟨items, pending, h⟩ := hcourse.account (fun _ _ hc => hc.taken) ha.account
  have hv := (hcourse.settled ha.valid ha.settled).1
  exact ⟨_, items, pending, w.content, h.log, Buffer.usedSlice_eq hv, h.reads.eq_append, h.reads,
    h.delivered, h.outstanding⟩

/-- A publish that arrives in pieces, the first of them behind the CONNACK. -/
theorem session_accounted_publish :
    let p := streamPlatform 7
    let options : ConnectOptions := ⟨"client", none, none, 10, true⟩
    let w₀ : World (List UInt8) Unit := ⟨new (List.replicate 32 0) (List.replicate 16 0),
      [0x20, 2, 0, 0, 0x32, 6, 0, 1, 97, 0, 10, 7], []⟩
    let w₁ := (connect p options w₀).2
    let w₂ := (nextNotification p w₁).2
    let publish : Notification := .publish ⟨false, .atLeastOnce, false, "a", 10, [7]⟩
    ∃ evs items pending used, w₂.log = w₀.log ++ evs ∧
      w₂.client.rxBuffer.usedSlice = (.ok used : Outcome (Error Unit) _) ∧
      received evs = (items.map Prod.fst).flatten ++ used ∧
      Reads (Packet.next w₀.client.transportClient.maxPacketSize) (received evs) items used ∧
      (items.map Prod.snd ++ pending).map some =
        [Notification.connAck ⟨false, .success⟩, publish].map Notification.packet ∧
      Outstanding w₀.client.transportClient.maxPacketSize used (some ⟨publish, 8⟩) pending := by
  intro p options w₀ w₁ w₂ publish
  have hconnect : connect p options w₀ = (.ok ⟨false, .success⟩, w₁) :=
    Prod.ext (by decide +kernel) rfl
  have hnext : nextNotification p w₁ = (.ok (.transportNotification ⟨publish, 8⟩), w₂) :=
    Prod.ext (by decide +kernel) rfl
  exact session_accounted hconnect (.delivered .start hnext)

end Session

end NanoClient

end Umqtt

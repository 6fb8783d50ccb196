/-
Umqtt/NanoClient/Refinement.lean

`NanoClient` and the driver of the client without input and output.

The documentation of `on_bytes_received` says how a `TransportClient` is driven:
append what has been received to a buffer, call it on the whole buffer, remove
what is taken.  A `NanoClient` is another such driver, which puts what it takes
off until the caller has completed the notification, and looks at its buffer
only when a call for a notification has read something.

In a session both deliver the same notifications from the received bytes, and
an error that the one finds in them is an error of the other
(`session_refines_driver`).  The driver may be ahead, by packets that are still
in the receive buffer.
-/
import Umqtt.NanoClient.Session

namespace Umqtt

open Effects Wire

namespace TransportClient

/-! ### What a verdict depends on -/

/-- The limit and the state, and nothing else. -/
theorem onBytesReceived_congr {self other : TransportClient} (hstate : self.state = other.state)
    (hmax : self.maxPacketSize = other.maxPacketSize) (data : List UInt8) :
    (onBytesReceived data self).1 = (onBytesReceived data other).1 := by
  rw [onBytesReceived, onBytesReceived, hstate]
  cases other.state with
  | disconnected => rfl
  | transportConnected =>
    simp only [onHandshakeBytes, hmax]
    split <;> try rfl
    split <;> rfl
  | connected =>
    simp only [onSessionBytes, hmax]
    split <;> rfl

variable {self : TransportClient} {data : List UInt8} {n : Nat}

theorem verdict_of_packet (hs : self.state = .connected) {q : Packet} {out : Notification}
    (hread : Packet.read data self.maxPacketSize = .ok (q, n))
    (hout : Notification.ofPacket q = some out) : verdict self data = .take n out self := by
  rw [verdict, onBytesReceived, hs]
  cases q <;> cases hout <;> simp only [onSessionBytes, hread]

theorem verdict_of_connAck (hs : self.state = .transportConnected) {ack : ConnAck}
    (hread : Packet.read data self.maxPacketSize = .ok (.connAck ack, n))
    (hcode : ack.code = .success) :
    verdict self data = .take n (.connAck ack) { self with state := .connected } := by
  rw [verdict, onBytesReceived, hs]
  simp only [onHandshakeBytes, hread, hcode, if_true]

theorem verdict_of_err {e : Error} (h : (onBytesReceived data self).1 = .err e) :
    ∃ client, verdict self data = .stop (.error e) client := by
  rcases hrun : onBytesReceived data self with ⟨r, client⟩
  rw [hrun] at h
  subst h
  exact ⟨client, by rw [verdict, hrun]⟩

theorem verdict_of_needMoreData (hs : self.state = .connected) {k : Nat}
    (hread : Packet.read data self.maxPacketSize = .err (.needMoreData k)) :
    verdict self data = .wait := by
  rw [verdict, onBytesReceived, hs]
  simp only [onSessionBytes, hread]

end TransportClient

namespace NanoClient

section Refinement

variable {σ E : Type} {p : Platform σ E} {w₀ w₁ w w' : World σ E} {ack : ConnAck}
  {evs : List (Event E)} {items : List (List UInt8 × Packet)} {pending : List Packet}
  {del : List Notification} {out : Option TransportNotification}

/-! ### From the account to the driver -/

/-- Every notification delivered is the one of some packet. -/
theorem Course.ofPacket {answers : ClientNotification → NotificationCompletion → Prop}
    {sends : Send → Prop} (h : Course answers sends w₁ evs del out w) :
    ∀ n ∈ del, ∃ q, Notification.ofPacket q = some n := by
  induction h with
  | start => exact nofun
  | delivered _ _ _ _ _ _ hq ih =>
    exact List.forall_mem_append.mpr ⟨ih, List.forall_mem_singleton.mpr ⟨_, hq⟩⟩
  | idle _ _ _ _ _ ih | failed _ _ _ _ ih | completed _ _ _ _ ih | pinged _ _ _ _ ih
  | sent _ _ _ ih => exact ih

/-- The packets that carry these notifications. -/
theorem map_ofPacket {packets : List Packet} : ∀ {ns : List Notification},
    (∀ n ∈ ns, ∃ q, Notification.ofPacket q = some n) →
    packets.map some = ns.map Notification.packet →
    packets.map Notification.ofPacket = ns.map some := by
  induction packets with
  | nil =>
    intro ns _ h
    obtain rfl := List.map_eq_nil_iff.mp h.symm
    rfl
  | cons q packets ih =>
    intro ns hns h
    cases ns with
    | nil => cases h
    | cons n ns =>
      obtain ⟨hq, hrest⟩ := List.cons.inj h
      obtain ⟨⟨q', hq'⟩, hns⟩ := List.forall_mem_cons.mp hns
      obtain rfl := Option.some.inj (hq.trans (Notification.packet_of_ofPacket hq'))
      rw [List.map_cons, List.map_cons, ih hns hrest, hq']

/-- The client of the driver behind the CONNACK. -/
def accepting (options : ConnectOptions) (w₀ : World σ E) : TransportClient :=
  { w₀.client.transportClient.onTransportOpened options with state := .connected }

/-- The packets delivered, read off the received bytes, and the bytes behind them. -/
theorem Account.reads_all (h : Account w₀ ack evs items pending del out w) :
    ∃ items', Reads (Packet.next w₀.client.transportClient.maxPacketSize) (received evs) items'
        (w.content.drop (out.elim 0 TransportNotification.taken)) ∧
      (items'.map Prod.snd).map some =
        (Notification.connAck ack :: del).map Notification.packet := by
  have hdel := h.delivered
  have hout := h.outstanding
  cases out with
  | none =>
    obtain rfl : pending = [] := hout
    rw [List.append_nil] at hdel
    exact ⟨items, h.reads, hdel⟩
  | some n =>
    obtain ⟨q, rfl, hread⟩ := hout
    refine ⟨_, h.reads.snoc (Packet.next_eq_some.mpr hread), ?_⟩
    rw [List.map_append]
    exact hdel

/-- What the driver makes of all received bytes, by what it makes of those behind
the packets that were delivered. -/
theorem Account.drains {options : ConnectOptions} {s' : TransportClient} {more : List Notification}
    {k : Nat} {fin : Option TransportClient.End}
    (h : Account w₀ ack evs items pending del out w) (hack : ack.code = .success)
    (hdel : ∀ n ∈ del, ∃ q, Notification.ofPacket q = some n)
    (hd : Drains TransportClient.verdict (accepting options w₀)
      (w.content.drop (out.elim 0 TransportNotification.taken)) more k s' fin) :
    ∃ k, Drains TransportClient.verdict (w₀.client.transportClient.onTransportOpened options)
      (received evs) (.connAck ack :: (del ++ more)) k s' fin := by
  obtain ⟨items', hreads, hitems⟩ := h.reads_all
  generalize w.content.drop _ = rest at hreads hd
  generalize received evs = data at hreads ⊢
  cases hreads with
  | nil => cases hitems
  | @cons _ _ q n items' hfirst hreads =>
    obtain ⟨hq, hrest⟩ := List.cons.inj hitems
    obtain rfl : q = .connAck ack := Option.some.inj hq
    have houts : items'.map (Notification.ofPacket ∘ Prod.snd) = del.map some := by
      rw [← List.map_map]
      exact map_ofPacket hdel hrest
    have htake : ∀ {data : List UInt8} {q : Packet} {n : Nat} {out : Notification},
        Packet.next w₀.client.transportClient.maxPacketSize data = some (q, n) →
        Notification.ofPacket q = some out →
        TransportClient.verdict (accepting options w₀) data =
          .take n out (accepting options w₀) := fun hread =>
      TransportClient.verdict_of_packet rfl (Packet.next_eq_some.mp hread)
    obtain ⟨k', hd'⟩ := Drains.of_reads htake hreads houts hd
    have hconnAck := @TransportClient.verdict_of_connAck
      (w₀.client.transportClient.onTransportOpened options) _ _ rfl _
      (Packet.next_eq_some.mp hfirst) hack
    exact ⟨_, .take hconnAck hd'⟩

/-- The driver, fed with the received bytes in any chunks. -/
theorem feed_of_drains {options : ConnectOptions} {client s' : TransportClient}
    {data : List UInt8} {outs : List Notification} {k : Nat} {fin : Option TransportClient.End}
    (hd : Drains TransportClient.verdict (client.onTransportOpened options) data outs k s' fin)
    {chunks : List (List UInt8)} (hchunks : chunks.flatten = data) :
    ∃ d, TransportClient.Driver.feed chunks (.start client options) = (.ok fin, d) ∧
      d.delivered = outs := by
  obtain ⟨outs', k', fin', d, hfeed, hfeeds, hdel, -⟩ :=
    TransportClient.Driver.feed_feeds chunks (.start client options)
  have hwait : TransportClient.verdict (client.onTransportOpened options) [] = .wait := rfl
  have hd' := hfeeds.drains TransportClient.incremental_verdict hwait
  obtain ⟨rfl, -, -, rfl⟩ := hd.unique (hchunks ▸ hd')
  exact ⟨d, hfeed, hdel⟩

/-! ### Errors -/

/-- An error of the decoder is what the transport client says to the received
bytes. -/
theorem nextNotification_of_readError (hv : w.Valid) (hs : w.state ≠ .transportConnected)
    {e : Umqtt.Error} (h : nextNotification p w = (.err (.readError e), w')) :
    ∃ got, Trace w got w' ∧ w.state = .connected ∧
      (TransportClient.onBytesReceived w'.content w.client.transportClient).1 = .err e := by
  have hn := notified p hv
  rw [h] at hn
  generalize herr : (Outcome.err (.readError e) : Outcome (Error E) ClientNotification) = r at hn
  cases hn with
  | closed | panicked | ping => cases herr
  | broke _ _ hgone =>
    cases herr
    rcases hgone with h | ⟨x, h⟩ <;> cases h
  | @decoded got got' t u hne hg _ hc hf =>
    have hall := hg.trans hc.gathered
    have htransport := hall.transportClient
    have hconn : w.state = .connected := by
      rcases hstate : w.state with - | - | -
      · exact absurd hstate hne
      · exact absurd hstate hs
      · rfl
    have hr := TransportClient.received u.client.transportClient u.content
    have hmax := TransportClient.onBytesReceived_maxPacketSize u.client.transportClient u.content
    rw [htransport] at herr hr hmax
    refine ⟨_, ⟨⟨hall.log, hall.valid, hall.capacity, ?_⟩, hall.content, hall.txLength⟩, hconn, ?_⟩
    · rw [htransport]
      exact hmax
    · show (TransportClient.onBytesReceived u.content w.client.transportClient).1 = _
      generalize (TransportClient.onBytesReceived u.content w.client.transportClient).1 = r
        at herr hr ⊢
      generalize (TransportClient.onBytesReceived u.content w.client.transportClient).2 = c at hr
      cases hr with
      | needMore _ hread =>
        obtain ⟨fh, hcheck⟩ := hf
        exact absurd hread (Packet.read_ne_needMoreData hcheck _ _)
      | malformed | unexpected =>
        cases herr
        rfl
      | closed | accepted | refused | packet => cases herr

/-- The driver of a `TransportClient`, told of the same transport and fed with the
bytes that a session received, in any chunks.  It delivers the CONNACK, the
notifications that the session delivered, and those that its client takes from
what is behind them in the receive buffer: none, if the decoder asks for more of
what is there.  A call for a notification that fails to decode what it received
fails with the error that the driver ends with, and the driver has delivered by
then what the session has. -/
theorem session_refines_driver {options : ConnectOptions}
    (hconnect : connect p options w₀ = (.ok ack, w₁))
    (hsession : Session p ClientNotification.Completes (fun _ => True) w₁ del out w) :
    let start := TransportClient.Driver.start w₀.client.transportClient options
    let max := w₀.client.transportClient.maxPacketSize
    let rest := w.content.drop (out.elim 0 TransportNotification.taken)
    ∃ evs more k client fin, w.log = w₀.log ++ evs ∧
      Drains TransportClient.verdict (accepting options w₀) rest more k client fin ∧
      ((∃ k, Packet.read rest max = .err (.needMoreData k)) → more = [] ∧ fin = none) ∧
      (∀ chunks, chunks.flatten = received evs → ∃ d,
        TransportClient.Driver.feed chunks start = (.ok fin, d) ∧
        d.delivered = .connAck ack :: (del ++ more)) ∧
      ∀ e w', out = none → nextNotification p w = (.err (.readError e), w') →
        ∃ got, w'.log = w.log ++ got ∧ ∀ chunks, chunks.flatten = received (evs ++ got) →
          ∃ d, TransportClient.Driver.feed chunks start = (.ok (some (.error e)), d) ∧
            d.delivered = .connAck ack :: del := by
  intro start max rest
  obtain ⟨evs₁, chunk, n, ha⟩ := accepted_of_ok p hconnect
  obtain ⟨evs, hcourse⟩ := hsession.course ha.valid ha.settled
  obtain ⟨items, pending, h⟩ := hcourse.account (fun _ _ hc => hc.taken) ha.account
  obtain ⟨hv, hs⟩ := hcourse.settled ha.valid ha.settled
  have hdel := hcourse.ofPacket
  generalize _ :: (evs₁ ++ chunk) ++ evs = all at h
  obtain ⟨more, k, client, fin, hd⟩ := exists_drains TransportClient.incremental_verdict
    (accepting options w₀) rest
  obtain ⟨k', hall⟩ := h.drains ha.success hdel hd
  refine ⟨all, more, k, client, fin, h.log, hd, ?_, fun chunks => feed_of_drains hall, ?_⟩
  · rintro ⟨n, hmore⟩
    have hwait := @TransportClient.verdict_of_needMoreData (accepting options w₀) _ rfl _ hmore
    obtain ⟨rfl, -, -, rfl⟩ := hd.unique (.wait hwait)
    exact ⟨rfl, rfl⟩
  · rintro e w' rfl hnext
    obtain ⟨got, ht, hconn, hbytes⟩ := nextNotification_of_readError hv hs hnext
    refine ⟨got, ht.log, fun chunks hchunks => ?_⟩
    have h' := h.trace ht
    -- the limit and the state are those of the client of the driver
    have hcongr := TransportClient.onBytesReceived_congr
      (show w.client.transportClient.state = (accepting options w₀).state from hconn)
      (show _ = (accepting options w₀).maxPacketSize from h.maxPacketSize) w'.content
    obtain ⟨client, hstop⟩ := TransportClient.verdict_of_err (hcongr.symm.trans hbytes)
    obtain ⟨k, hall⟩ := h'.drains ha.success hdel (.stop hstop)
    rw [List.append_nil] at hall
    exact feed_of_drains hall hchunks

/-- A publish is delivered and completed, and a PINGRESP has come along with it: the
driver, which gets the same bytes in three chunks, delivers that one, too.  What
comes behind them is a packet of no type, which both fail to decode. -/
theorem session_refines_driver_pingResp :
    let options : ConnectOptions := ⟨"client", none, none, 10, true⟩
    let start := TransportClient.Driver.start (TransportClient.new 16) options
    let p := streamPlatform 4
    let w₀ : World (List UInt8) Unit := ⟨new (List.replicate 32 0) (List.replicate 16 0),
      [0x20, 2, 0, 0, 0x30, 4, 0, 1, 97, 7, 0xD0, 0, 0xF0, 0, 0, 0, 0], []⟩
    let w₂ := (nextNotification p (connect p options w₀).2).2
    let publish : TransportNotification := ⟨.publish ⟨false, .atMostOnce, false, "a", 0, [7]⟩, 6⟩
    let w := (completeNotification p (ClientNotification.transportNotification publish).complete
      w₂).2
    let told : List Notification := [.connAck ⟨false, .success⟩, publish.notification,
      .pingResponse]
    w.content = [0xD0, 0] ∧
      (∃ d, TransportClient.Driver.feed [[0x20, 2, 0], [0, 0x30, 4, 0, 1, 97], [7, 0xD0, 0]]
        start = (.ok none, d) ∧ d.delivered = told) ∧
      ∃ d, TransportClient.Driver.feed [[0x20, 2, 0, 0, 0x30, 4, 0, 1, 97, 7, 0xD0],
        [0, 0xF0, 0, 0, 0], [0]] start = (.ok (some (.error (.invalidPacketType 15))), d) ∧
        d.delivered = told := by
  intro options start p w₀ w₂ publish w told
  let pingResponse : TransportNotification := ⟨.pingResponse, 2⟩
  let w₃ := (nextNotification p w).2
  let w₄ := (completeNotification p (ClientNotification.transportNotification
    pingResponse).complete w₃).2
  let w₅ := (nextNotification p w₄).2
  have hconnect : connect p options w₀ = (.ok ⟨false, .success⟩, (connect p options w₀).2) :=
    Prod.ext (by decide +kernel) rfl
  have hnext : nextNotification p (connect p options w₀).2 =
      (.ok (.transportNotification publish), w₂) := Prod.ext (by decide +kernel) rfl
  have hsession : Session p ClientNotification.Completes (fun _ => True) (connect p options w₀).2
      [publish.notification] none w := .completed (.delivered .start hnext) .complete
  have hcontent : w.content = [0xD0, 0] := by decide +kernel
  refine ⟨hcontent, ?_, ?_⟩
  · obtain ⟨evs, more, k, client, fin, hlog, hd, -, hfeed, -⟩ :=
      session_refines_driver hconnect hsession
    -- the client of the driver takes the PINGRESP and waits
    have hread : Packet.read [0xD0, 0] 16 = .ok (.pingResp, 2) := by decide +kernel
    have hwaits : Drains TransportClient.verdict (accepting options w₀) [0xD0, 0]
        [.pingResponse] 2 (accepting options w₀) none :=
      .take (TransportClient.verdict_of_packet rfl hread rfl) (.wait rfl)
    have hrest : w.content.drop ((none : Option TransportNotification).elim 0
        TransportNotification.taken) = [0xD0, 0] := hcontent
    rw [hrest] at hd
    obtain ⟨rfl, -, -, rfl⟩ := hd.unique hwaits
    refine hfeed _ ?_
    rw [show evs = w.log from hlog.symm]
    decide +kernel
  · have hping : nextNotification p w = (.ok (.transportNotification pingResponse), w₃) :=
      Prod.ext (by decide +kernel) rfl
    have herr : nextNotification p w₄ = (.err (.readError (.invalidPacketType 15)), w₅) :=
      Prod.ext (by decide +kernel) rfl
    obtain ⟨evs, -, -, -, -, hlog, -, -, -, herror⟩ := session_refines_driver hconnect
      (.completed (.delivered hsession hping) .complete)
    obtain ⟨got, hgot, hfeed⟩ := herror _ w₅ rfl herr
    refine hfeed _ ?_
    rw [hlog] at hgot
    rw [show evs ++ got = w₅.log from hgot.symm]
    decide +kernel

end Refinement

end NanoClient

end Umqtt

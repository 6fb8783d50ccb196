/-
Umqtt/NanoClient/Liveness.lean

Every packet is delivered.

`run_client_attends` says what `run_client` never does; here is what it does as
long as its platform does its part: writes succeed, and a read with a timeout brings some
bytes of the next frame, as many as it likes, or times out (`Platform.Brings`).
With a keep-alive all reads have a timeout.  Then each turn delivers the next
packet and sends what it asks for, or its read has timed out and it sends a ping
(`Waits.turn`), so that `n` turns with `k` pings among them serve `n - k` packets
(`run_client_serves`).

A timeout in the middle of a frame loses nothing: the start of the frame stays
in the receive buffer, and `Expects` relates it to the end that is still to come.
A read that also brings bytes of the frame behind is not one of `Brings`, since
`next_notification` reads before it looks at the buffer.
-/
import Umqtt.Limit
import Umqtt.Prefixes
import Umqtt.NanoClient.Deadline
import Umqtt.NanoClient.Polling
import Umqtt.NanoClient.RunClient

namespace Umqtt

open Effects Wire

/-! ### Platforms that do their part -/

/-- What is left of some frames, when `r` is left of the first. -/
def restOf (r : List UInt8) (fs : List (List UInt8)) : List (List UInt8) :=
  if r = [] then fs else r :: fs

/-- In a state that `D` relates to some frames, the platform has these to bring,
in this order.  A read with a timeout brings at least one byte of the first and
none of the others, or it times out, as it does when there are none.  All writes
succeed. -/
structure Platform.Brings {σ E : Type} (p : Platform σ E) (D : σ → List (List UInt8) → Prop) :
    Prop where
  idle : ∀ {s} buf (timeout : Duration), D s [] →
    ∃ buf' s', p.readSome buf (some timeout) s = ((.ok none, buf'), s') ∧ D s' []
  readSome : ∀ {s f fs buf} (timeout : Duration), D s (f :: fs) → f ≠ [] → buf ≠ [] →
    (∃ buf' s', p.readSome buf (some timeout) s = ((.ok none, buf'), s') ∧ D s' (f :: fs)) ∨
    ∃ k buf' s', p.readSome buf (some timeout) s = ((.ok (some k), buf'), s') ∧ 0 < k ∧
      k ≤ buf.length ∧ k ≤ f.length ∧ buf'.take k = f.take k ∧ D s' (restOf (f.drop k) fs)
  writeAll : ∀ {s fs} buf, D s fs → ∃ s', p.writeAll buf s = (.ok (), s') ∧ D s' fs
  now : ∀ {s fs}, D s fs → D (p.now s).2 fs

namespace NanoClient

/-- The read timed out. -/
def Event.timedOut {E : Type} : Event E → Bool
  | .read _ (.ok none) _ => true
  | _ => false

/-- How many reads of a record timed out. -/
def pauses {E : Type} (log : List (Event E)) : Nat := log.countP Event.timedOut

theorem pauses_append {E : Type} (log log' : List (Event E)) :
    pauses (log ++ log') = pauses log + pauses log' := List.countP_append

/-- A frame that is delivered as the notification `n`. -/
def Notifies (max cap : Nat) (f : List UInt8) (n : Notification) : Prop :=
  (∃ q, Packet.read f max = .ok (q, f.length) ∧ Notification.ofPacket q = some n) ∧
    f.length ≤ cap

section Notifies

variable {max cap : Nat} {f : List UInt8} {n : Notification}

theorem Notifies.ne_nil (h : Notifies max cap f n) : f ≠ [] := by
  obtain ⟨⟨q, hread, -⟩, -⟩ := h
  have h2 := (Packet.read_eq_ok hread).1
  exact List.ne_nil_of_length_pos (by omega)

theorem Notifies.framed (h : Notifies max cap f n) : Framed f cap := by
  obtain ⟨⟨q, hread, -⟩, hcap⟩ := h
  exact Packet.check_of_read hread hcap

/-- Before its last byte it is not a frame yet, whatever the limit. -/
theorem Notifies.unframed (h : Notifies max cap f n) {pre : List UInt8} (hpre : pre <+: f)
    (hne : pre ≠ f) : ¬Framed pre cap := by
  obtain ⟨⟨q, hread, -⟩, -⟩ := h
  rw [← List.take_length (l := f)] at hpre hne
  obtain ⟨k, hk⟩ := Packet.read_of_strict_prefix hread hpre hne
  have hmore := Packet.read_eq_needMoreData.mp hk
  rintro ⟨fh, hok⟩
  rcases Nat.le_total cap max with hle | hle
  · rcases check_limit hle pre with heq | ⟨fh', -, -, herr⟩
    · cases hok.symm.trans (heq.symm.trans hmore)
    · cases hok.symm.trans herr
  · rcases check_limit hle pre with heq | ⟨fh', -, -, herr⟩
    · cases hok.symm.trans (heq.trans hmore)
    · cases hmore.symm.trans herr

end Notifies

section Liveness

variable {σ E : Type} {p : Platform σ E} {D : σ → List (List UInt8) → Prop}

/-- The frames `fs` are still to come; the start of the first may be in the receive
buffer. -/
inductive Expects (D : σ → List (List UInt8) → Prop) (w : World σ E) :
    List (List UInt8) → Prop where
  | nothing : w.content = [] → D w.platform [] → Expects D w []
  | frame {r : List UInt8} {fs : List (List UInt8)} : r ≠ [] → D w.platform (r :: fs) →
      Expects D w ((w.content ++ r) :: fs)

theorem Expects.of_empty {w : World σ E} {fs : List (List UInt8)} (h : w.content = [])
    (hD : D w.platform fs) (hne : ∀ f ∈ fs, f ≠ []) : Expects D w fs := by
  cases fs with
  | nil => exact .nothing h hD
  | cons f fs =>
    have hframe := Expects.frame (hne f (List.mem_cons_self ..)) hD
    rwa [h, List.nil_append] at hframe

/-! ### Receiving -/

/-- With a keep-alive, a turn reads with a timeout. -/
theorem nextPingIn_of_isPositive {self : TransportClient} (h : self.keepAlive.isPositive = true)
    (now : Instant) : self.nextPingIn now = some (self.packetSendAt.since now) := if_pos h

/-- A turn while a frame is still to come. -/
theorem nextNotificationTurn_brings (hp : p.Brings D) {t : World σ E} {r : List UInt8}
    {fs : List (List UInt8)} (hv : t.Valid) (hkeep : t.keepAlive.isPositive = true) (hr : r ≠ [])
    (hD : D t.platform (r :: fs)) (hroom : t.content.length < t.capacity) :
    (∃ evs u, Gathered t evs u ∧ pauses evs = 1 ∧ u.content = t.content ∧
      D u.platform (r :: fs) ∧ nextNotificationTurn p t = (.ok (some (some .sendPing)), u)) ∨
    ∃ evs u k, Chunk t evs u ∧ pauses evs = 0 ∧ k ≤ r.length ∧
      u.content = t.content ++ r.take k ∧ D u.platform (restOf (r.drop k) fs) ∧
      nextNotificationTurn p t = checkUsed u := by
  rcases hn : p.now t.platform with ⟨now, s⟩
  have hD' : D s (r :: fs) := by
    have hnow := hp.now hD
    rwa [hn] at hnow
  -- there is room for the read, so that the platform has to bring something
  have hlen : (t.client.rxBuffer.buffer.drop t.client.rxBuffer.used).length =
      t.capacity - t.client.rxBuffer.used := List.length_drop
  have hbuf : t.client.rxBuffer.buffer.drop t.client.rxBuffer.used ≠ [] := by
    apply List.ne_nil_of_length_pos
    have hused := (length_content hv).1
    omega
  have htimeout := nextPingIn_of_isPositive hkeep now
  rcases hp.readSome (t.client.transportClient.packetSendAt.since now) hD' hr hbuf with
    ⟨buf, s', hread, hD''⟩ | ⟨k, buf, s', hread, hk, hle, hkr, htake, hD''⟩
  · rw [← htimeout] at hread
    obtain ⟨u, hg, hcontent, rfl, hrun⟩ := nextNotificationTurn_timedOut hv hn hread
    exact .inl ⟨_, u, hg, rfl, hcontent, hD'', hrun⟩
  · rw [← htimeout] at hread
    have hle' : k ≤ buf.length := by
      have hlength := p.length_readSome (t.client.rxBuffer.buffer.drop t.client.rxBuffer.used)
        (t.client.transportClient.nextPingIn now) s
      rw [hread] at hlength
      exact hle.trans_eq hlength.symm
    obtain ⟨u, hc, hcontent, hinbound, hrun⟩ :=
      nextNotificationTurn_received hv hn hread hk.ne' hle'
    obtain rfl : u.platform = s' := congrArg Prod.snd hinbound
    rw [htake] at hcontent
    exact .inr ⟨_, u, k, hc, rfl, hkr, hcontent, hD'', hrun⟩

/-- What the client makes of a packet behind the handshake. -/
theorem onBytesReceived_of_packet {self : TransportClient} {data : List UInt8} {q : Packet}
    {taken : Nat} {n : Notification} (hs : self.state = .connected)
    (hread : Packet.read data self.maxPacketSize = .ok (q, taken))
    (hn : Notification.ofPacket q = some n) :
    TransportClient.onBytesReceived data self = (.ok (some (n, taken)), self) := by
  rw [TransportClient.onBytesReceived, hs]
  cases q <;> cases hn <;> simp only [TransportClient.onSessionBytes, hread]

/-- The client that `run_client` has between two turns. -/
structure Waits (D : σ → List (List UInt8) → Prop) (max cap : Nat) (fs : List (List UInt8))
    (w : World σ E) : Prop where
  valid : w.Valid
  state : w.state = .connected
  keepAlive : w.keepAlive.isPositive = true
  txLength : 14 ≤ w.client.txBuffer.length
  maxPacketSize : w.client.transportClient.maxPacketSize = max
  capacity : w.capacity = cap
  expects : Expects D w fs

variable {max cap : Nat} {f : List UInt8} {fs : List (List UInt8)} {n : Notification}
  {w : World σ E}

/-- A turn of the loop brings more of the frame, or the end of it, or times out. -/
theorem Waits.poll (hp : p.Brings D) (hf : Notifies max cap f n) (h : Waits D max cap (f :: fs) w) :
    (∃ evs u, Gathered w evs u ∧ pauses evs = 1 ∧ Expects D u (f :: fs) ∧
      nextNotificationTurn p w = (.ok (some (some .sendPing)), u)) ∨
    (∃ evs u, Chunk w evs u ∧ pauses evs = 0 ∧ Expects D u (f :: fs) ∧
      nextNotificationTurn p w = (.ok none, u)) ∨
    ∃ evs u, Chunk w evs u ∧ pauses evs = 0 ∧ u.content = f ∧ D u.platform fs ∧
      nextNotificationTurn p w = (.ok (some none), u) := by
  obtain ⟨hv, -, hkeep, -, -, hcap, hexpects⟩ := h
  generalize hall : f :: fs = all at hexpects
  cases hexpects with
  | nothing => cases hall
  | @frame r _ hr hD =>
    cases hall
    have hroom : w.content.length < w.capacity := by
      have hle := hf.2
      have hpos := List.length_pos_iff.mpr hr
      rw [List.length_append] at hle
      omega
    rcases nextNotificationTurn_brings hp hv hkeep hr hD hroom with
      ⟨evs, u, hg, hpause, hcontent, hD', hrun⟩ | ⟨evs, u, k, hc, hpause, hk, hcontent, hD', hrun⟩
    · refine .inl ⟨evs, u, hg, hpause, ?_, hrun⟩
      rw [← hcontent]
      exact .frame hr hD'
    · have hwhole : u.content ++ r.drop k = w.content ++ r := by
        rw [hcontent, List.append_assoc, List.take_append_drop]
      have hcap' : u.capacity = cap := hc.capacity.trans hcap
      by_cases hdrop : r.drop k = []
      · -- the frame is whole
        rw [hdrop, List.append_nil] at hwhole
        rw [restOf, if_pos hdrop] at hD'
        refine .inr (.inr ⟨evs, u, hc, hpause, hwhole, hD', ?_⟩)
        rcases checkUsed_eq hc.valid with ⟨-, hcheck⟩ | ⟨hno, -⟩
        · exact hrun.trans hcheck
        · rw [hwhole, hcap'] at hno
          exact absurd hf.framed hno
      · -- there is more of it to come, and the check asks for that
        rw [restOf, if_neg hdrop] at hD'
        refine .inr (.inl ⟨evs, u, hc, hpause, ?_, ?_⟩)
        · rw [← hwhole]
          exact .frame hdrop hD'
        · rcases checkUsed_eq hc.valid with ⟨hframed, -⟩ | ⟨-, hcheck⟩
          · rw [hcap'] at hframed
            refine absurd hframed (hf.unframed ⟨r.drop k, hwhole⟩ fun heq => hdrop ?_)
            rw [← heq] at hwhole
            exact List.append_right_eq_self.mp hwhole
          · exact hrun.trans hcheck

/-- Calls that received bytes, and what is expected behind them. -/
theorem Waits.gathered {t : World σ E} {evs : List (Event E)} (h : Waits D max cap fs w)
    (hg : Gathered w evs t) {fs' : List (List UInt8)} (ht : Expects D t fs') :
    Waits D max cap fs' t where
  valid := hg.valid
  state := hg.state.trans h.state
  keepAlive := by
    rw [World.keepAlive, hg.transportClient]
    exact h.keepAlive
  txLength := h.txLength.trans_eq hg.txLength.symm
  maxPacketSize := hg.maxPacketSize.trans h.maxPacketSize
  capacity := hg.capacity.trans h.capacity
  expects := ht

/-- What `next_notification` does behind its loop. -/
theorem nextNotification_behind (hv : w.Valid) (hs : w.state = .connected)
    {notification : Option ClientNotification} {u : World σ E}
    (hloop : Act.loop (nextNotificationTurn p) (w.capacity - w.content.length + 1) w =
      (.ok notification, u)) :
    NanoClient.nextNotification p w = notification.elim takeNotification pure u := by
  have hopen : w.client.isDisconnected = false := by
    refine Bool.eq_false_iff.mpr fun hd => ?_
    cases hs.symm.trans (isDisconnected_iff.mp hd)
  rw [NanoClient.nextNotification, Act.bind_apply, Act.gets_apply]
  simp only [hopen, Bool.false_eq_true, if_false]
  rw [Act.bind_of_ok (turns_apply hv), Act.bind_of_ok hloop]
  cases notification <;> rfl

/-- `next_notification` delivers the next frame, unless a read times out. -/
theorem Waits.nextNotification (hp : p.Brings D) (hf : Notifies max cap f n)
    (h : Waits D max cap (f :: fs) w) :
    (∃ evs u, NanoClient.nextNotification p w = (.ok .sendPing, u) ∧ Gathered w evs u ∧
      pauses evs = 1 ∧ Expects D u (f :: fs)) ∨
    ∃ evs u, NanoClient.nextNotification p w =
        (.ok (.transportNotification ⟨n, f.length⟩), u) ∧ Gathered w evs u ∧ pauses evs = 0 ∧
      u.content = f ∧ D u.platform fs := by
  have hstep : ∀ t t', (∃ evs, Gathered w evs t ∧ pauses evs = 0 ∧ Expects D t (f :: fs)) →
      nextNotificationTurn p t = (.ok none, t') →
      (∃ evs, Gathered w evs t' ∧ pauses evs = 0 ∧ Expects D t' (f :: fs)) ∧
        t'.capacity - t'.content.length < t.capacity - t.content.length := by
    rintro t t' ⟨evs, hg, hpause, ht⟩ hturn
    rcases (h.gathered hg ht).poll hp hf with ⟨-, u, -, -, -, hrun⟩ |
      ⟨evs', u, hc, hpause', hu, hrun⟩ | ⟨-, u, -, -, -, -, hrun⟩
    · cases hturn.symm.trans hrun
    · cases hturn.symm.trans hrun
      refine ⟨⟨_, hg.trans hc.gathered, ?_, hu⟩, hc.room_lt⟩
      rw [pauses_append, hpause, hpause']
    · cases hturn.symm.trans hrun
  -- each turn that goes on leaves less room, so that there is a last one
  obtain ⟨t, ⟨evs, hg, hpause, ht⟩, hlast, hloop⟩ := Act.loop_ends hstep
    (w.capacity - w.content.length + 1) w ⟨[], .refl h.valid, rfl, h.expects⟩ (Nat.lt_succ_self _)
  have hwaits := h.gathered hg ht
  rcases hwaits.poll hp hf with ⟨evs', u, hg', hpause', hu, hturn⟩ | ⟨-, u, -, -, -, hturn⟩ |
    ⟨evs', u, hc, hpause', hcontent, hD, hturn⟩
  · rw [hturn] at hloop
    refine .inl ⟨evs ++ evs', u, nextNotification_behind h.valid h.state hloop, hg.trans hg', ?_,
      hu⟩
    rw [pauses_append, hpause, hpause']
  · exact absurd hturn (hlast u)
  · rw [hturn] at hloop
    have hall := hg.trans hc.gathered
    obtain ⟨⟨q, hread, hq⟩, -⟩ := hf
    have hread' : Packet.read f u.client.transportClient.maxPacketSize = .ok (q, f.length) := by
      rwa [hall.maxPacketSize.trans h.maxPacketSize]
    have htaken := takeNotification_eq hc.valid
    rw [hcontent, onBytesReceived_of_packet (hall.state.trans h.state) hread' hq] at htaken
    refine .inr ⟨evs ++ evs', u, (nextNotification_behind h.valid h.state hloop).trans htaken,
      hall, ?_, hcontent, hD⟩
    rw [pauses_append, hpause, hpause']

/-- With nothing to come, the read times out. -/
theorem Waits.idle (hp : p.Brings D) (h : Waits D max cap [] w) :
    ∃ evs u, NanoClient.nextNotification p w = (.ok .sendPing, u) ∧ Gathered w evs u ∧
      pauses evs = 1 ∧ Expects D u [] := by
  obtain ⟨hv, hs, hkeep, -, -, -, ⟨hempty, hD⟩⟩ := h
  rcases hn : p.now w.platform with ⟨now, s⟩
  have hnow := hp.now hD
  rw [hn] at hnow
  obtain ⟨buf, s', hread, hD'⟩ := hp.idle
    (w.client.rxBuffer.buffer.drop w.client.rxBuffer.used)
    (w.client.transportClient.packetSendAt.since now) hnow
  rw [← nextPingIn_of_isPositive hkeep now] at hread
  obtain ⟨u, hg, hcontent, rfl, hturn⟩ := nextNotificationTurn_timedOut hv hn hread
  have hlast : ∀ t, nextNotificationTurn p w ≠ (.ok none, t) := by
    rintro t ht
    cases ht.symm.trans hturn
  have hloop := @Act.loop_succ_of_last _ _ _ _ (w.capacity - w.content.length) w hlast
  rw [hturn] at hloop
  exact ⟨_, u, nextNotification_behind hv hs hloop, hg, rfl,
    .nothing (hcontent.trans hempty) hD'⟩

/-! ### Completing -/

/-- The platform still has the same to bring, and no write failed. -/
def Upholds (D : σ → List (List UInt8) → Prop) (w w' : World σ E) : Prop :=
  ∀ fs, D w.platform fs → D w'.platform fs ∧
    ∃ evs, w'.log = w.log ++ evs ∧ ∀ e ∈ evs, ¬e.WriteFails

theorem Upholds.refl (w : World σ E) : Upholds D w w := fun _ hD =>
  ⟨hD, [], (List.append_nil _).symm, nofun⟩

theorem Upholds.trans (w t u : World σ E) (h : Upholds D w t) (h' : Upholds D t u) :
    Upholds D w u := by
  intro fs hD
  obtain ⟨hD', evs, hlog, hevs⟩ := h fs hD
  obtain ⟨hD'', evs', hlog', hevs'⟩ := h' fs hD'
  refine ⟨hD'', evs ++ evs', ?_, List.forall_mem_append.mpr ⟨hevs, hevs'⟩⟩
  rw [hlog', hlog, List.append_assoc]

theorem upholds_writeBuffer (hp : p.Brings D) (buf : List UInt8) :
    Act.Leads (Upholds D) (writeBuffer p buf) := by
  intro w fs hD
  obtain ⟨s', hok, hD'⟩ := hp.writeAll buf hD
  have hw := bufferWritten p buf w
  generalize (writeBuffer p buf w).1 = r at hw
  generalize (writeBuffer p buf w).2 = w' at hw ⊢
  cases hw with
  | closed => exact Upholds.refl w fs hD
  | @sent s s'' now _ hwrite hnow =>
    cases hwrite.symm.trans hok
    have hD'' := hp.now hD'
    rw [hnow] at hD''
    exact ⟨hD'', _, List.append_assoc _ _ _,
      List.forall_mem_cons.mpr ⟨id, List.forall_mem_singleton.mpr id⟩⟩
  | broken _ hwrite => cases hwrite.symm.trans hok

theorem upholds (hp : p.Brings D) : Across p (Upholds D) where
  refl := Upholds.refl
  trans := Upholds.trans
  onTx _ w := Upholds.refl w
  writeBuffer := upholds_writeBuffer hp

theorem upholds_completeNotification (hp : p.Brings D) (completion : NotificationCompletion)
    (w : World σ E) : Upholds D w (completeNotification p completion w).2 := by
  rcases completeNotification_cases p completion w with ⟨-, hc⟩ | ⟨b, -, hc⟩
  · rw [hc]
    exact Upholds.refl w
  · rw [hc]
    exact (upholds hp).performAction completion.action (w.withRx b)

/-- What a notification asks for is written. -/
theorem completeNotification_brings (hp : p.Brings D) (n : ClientNotification) (hv : w.Valid)
    (hs : w.state = .connected) (h14 : 14 ≤ w.client.txBuffer.length) (hD : D w.platform fs) :
    ∃ t evs u, Consumed n.taken w t ∧ Trace t evs u ∧ u.state = .connected ∧ received evs = [] ∧
      pauses evs = 0 ∧ written evs = (completionBytes n).toList ∧ D u.platform fs ∧
      completeNotification p n.complete w = (.ok (), u) := by
  have hopen : w.state ≠ .disconnected := by
    rw [hs]
    decide
  obtain ⟨hD', evs, hlog, hevs⟩ := upholds_completeNotification hp n.complete w fs hD
  obtain ⟨t, hc, hpaid⟩ := @completeNotification_paid _ _ p w n hv hopen h14
  have hs' : t.state = .connected := hc.state.trans hs
  rcases hpaid with ⟨hnone, hrun⟩ | ⟨buf, evs', hsome, hpaid⟩
  · rw [hrun] at hD'
    exact ⟨t, [], t, hc, .refl hc.valid, hs', rfl, rfl, by rw [hnone]; rfl, hD', hrun⟩
  · generalize hrun : completeNotification p n.complete w = run at hpaid hD' hlog
    rcases run with ⟨r, u⟩
    cases hpaid with
    | handed htrace hstate =>
      exact ⟨t, _, u, hc, htrace, hstate.trans hs', rfl, rfl, by rw [hsome]; rfl, hD', rfl⟩
    | @broken e u htrace _ =>
      -- the failure would be in the record
      have heq : evs = [.wrote t.state buf (.error e)] := by
        rw [htrace.log, hc.log] at hlog
        exact (List.append_cancel_left hlog).symm
      refine absurd ?_ (hevs (.wrote t.state buf (.error e)) (heq ▸ List.mem_singleton_self _))
      trivial

/-! ### Turns -/

/-- Turns of `run_client` that all succeed, with what they were told. -/
inductive Ran (p : Platform σ E) : World σ E → List ClientNotification → World σ E → Prop where
  | nil {w : World σ E} : Ran p w [] w
  | turn {w t u w' : World σ E} {n : ClientNotification} {ns : List ClientNotification} :
      NanoClient.nextNotification p w = (.ok n, t) →
      completeNotification p n.complete t = (.ok (), u) → Ran p u ns w' → Ran p w (n :: ns) w'

theorem Ran.runClient {heard : List ClientNotification} {w' : World σ E} (h : Ran p w heard w') :
    NanoClient.runClient p heard.length w = (.ok (), w') := by
  induction h with
  | nil => rfl
  | turn hnext hcomplete _ ih =>
    have hturn : runClientTurn p _ = (.ok (), _) := (Act.bind_of_ok hnext).trans hcomplete
    exact (Act.bind_of_ok hturn).trans ih

theorem Ran.told {heard : List ClientNotification} {w' : World σ E} (h : Ran p w heard w') :
    NanoClient.told p heard.length w = heard := by
  induction h with
  | nil => rfl
  | turn hnext hcomplete _ ih =>
    have hturn : runClientTurn p _ = (.ok (), _) := (Act.bind_of_ok hnext).trans hcomplete
    rw [List.length_cons, told_succ_of_ok hturn, toldTurn_of_ok hnext, ih]
    rfl

theorem Ran.append {heard heard' : List ClientNotification} {t u : World σ E} (h : Ran p w heard t)
    (h' : Ran p t heard' u) : Ran p w (heard ++ heard') u := by
  induction h with
  | nil => exact h'
  | turn hnext hcomplete _ ih => exact .turn hnext hcomplete (ih h')

/-- The calls `evs` of some turns that were told `heard`, and the frames and packets
still to come behind them. -/
structure Stretch (p : Platform σ E) (D : σ → List (List UInt8) → Prop) (max cap : Nat)
    (w : World σ E) (ns : List Notification) (heard : List ClientNotification)
    (evs : List (Event E)) (ns' : List Notification) (w' : World σ E) : Prop where
  ran : Ran p w heard w'
  log : w'.log = w.log ++ evs
  pauses : pauses evs = heard.count .sendPing
  written : written evs = heard.filterMap completionBytes
  packets : ns = heard.filterMap ClientNotification.packet ++ ns'
  waits : ∃ fs, List.Forall₂ (Notifies max cap) fs ns' ∧ Waits D max cap fs w'

/-- What the platform has to bring, and what it takes for the client to expect the
same. -/
theorem Expects.brought {t : World σ E} (h : Expects D t fs) : ∃ gs, D t.platform gs ∧
    ∀ u : World σ E, u.content = t.content → D u.platform gs → Expects D u fs := by
  cases h with
  | nothing hempty hD => exact ⟨[], hD, fun u hu hD' => .nothing (hu.trans hempty) hD'⟩
  | frame hr hD =>
    refine ⟨_, hD, fun u hu hD' => ?_⟩
    rw [← hu]
    exact .frame hr hD'

/-- A notification is completed, and what it leaves is expected. -/
theorem Waits.complete (hp : p.Brings D) {t : World σ E} {n : ClientNotification}
    {ns ns' : List Notification} {evs : List (Event E)} {fs' gs : List (List UInt8)}
    (h : Waits D max cap fs w) (hnext : NanoClient.nextNotification p w = (.ok n, t))
    (hg : Gathered w evs t) (hpause : pauses evs = [n].count .sendPing) (hD : D t.platform gs)
    (hexpects : ∀ u : World σ E, u.content = t.content.drop n.taken → D u.platform gs →
      Expects D u fs')
    (hfs : List.Forall₂ (Notifies max cap) fs' ns') (hns : ns = n.packet.toList ++ ns') :
    ∃ evs' u, Stretch p D max cap w ns [n] evs' ns' u := by
  have h14 : 14 ≤ t.client.txBuffer.length := h.txLength.trans_eq hg.txLength.symm
  obtain ⟨t', sent, u, hc, htrace, hstate, hreceived, hpause', hwritten, hD', hcomplete⟩ :=
    completeNotification_brings hp n hg.valid (hg.state.trans h.state) h14 hD
  refine ⟨evs ++ sent, u, .turn hnext hcomplete .nil, ?_, ?_, ?_, ?_, fs', hfs, ?_⟩
  · rw [htrace.log, hc.log, hg.log, List.append_assoc]
  · rw [pauses_append, hpause, hpause', Nat.add_zero]
  · rw [written_append, written_of_not_isWrite fun e he => (hg.quiet e he).1, hwritten]
    cases hn : completionBytes n with
    | none => rw [List.filterMap_cons_none hn]; rfl
    | some buf => rw [List.filterMap_cons_some hn]; rfl
  · rw [hns]
    cases hn : n.packet with
    | none => rw [List.filterMap_cons_none hn]; rfl
    | some q => rw [List.filterMap_cons_some hn]; rfl
  · refine ⟨htrace.valid, hstate, ?_, ?_, ?_, ?_, hexpects u ?_ hD'⟩
    · have hkept := @keepAlive_completeNotification _ _ p n.complete t
      rw [hcomplete] at hkept
      rw [hkept, World.keepAlive, hg.transportClient]
      exact h.keepAlive
    · rw [htrace.txLength, hc.txBuffer]
      exact h14
    · rw [htrace.maxPacketSize, hc.transportClient, hg.maxPacketSize, h.maxPacketSize]
    · rw [htrace.capacity, hc.capacity, hg.capacity, h.capacity]
    · rw [htrace.content, hreceived, List.append_nil, hc.content]

theorem ne_nil_of_notifies {ns : List Notification}
    (h : List.Forall₂ (Notifies max cap) fs ns) : ∀ f ∈ fs, f ≠ [] := by
  induction h with
  | nil => exact fun _ hf => nomatch hf
  | cons hf _ ih => exact List.forall_mem_cons.mpr ⟨hf.ne_nil, ih⟩

/-- Each turn delivers the next packet, or sends a ping because a read timed out. -/
theorem Waits.turn (hp : p.Brings D) {ns : List Notification}
    (hfs : List.Forall₂ (Notifies max cap) fs ns) (h : Waits D max cap fs w) :
    ∃ n evs ns' u, Stretch p D max cap w ns [n] evs ns' u := by
  -- a turn that sends a ping
  have hping : ∀ evs t, NanoClient.nextNotification p w = (.ok .sendPing, t) → Gathered w evs t →
      pauses evs = 1 → Expects D t fs → ∃ n evs ns' u, Stretch p D max cap w ns [n] evs ns' u := by
    intro evs t hnext hg hpause hexpects
    obtain ⟨gs, hD, hbrought⟩ := hexpects.brought
    obtain ⟨evs', u, hstretch⟩ := h.complete hp hnext hg hpause hD hbrought hfs rfl
    exact ⟨_, evs', ns, u, hstretch⟩
  cases hfs with
  | nil =>
    obtain ⟨evs, t, hnext, hg, hpause, hexpects⟩ := h.idle hp
    exact hping evs t hnext hg hpause hexpects
  | @cons f n fs ns hf hfs =>
    rcases h.nextNotification hp hf with ⟨evs, t, hnext, hg, hpause, hexpects⟩ |
      ⟨evs, t, hnext, hg, hpause, hcontent, hD⟩
    · exact hping evs t hnext hg hpause hexpects
    · obtain ⟨evs', u, hstretch⟩ := h.complete hp hnext hg hpause hD (fun u hu hD' =>
        .of_empty (hu.trans (hcontent ▸ List.drop_length)) hD' (ne_nil_of_notifies hfs)) hfs rfl
      exact ⟨_, evs', ns, u, hstretch⟩

theorem Stretch.append {ns ns₁ ns₂ : List Notification} {heard heard' : List ClientNotification}
    {evs evs' : List (Event E)} {t u : World σ E} (h : Stretch p D max cap w ns heard evs ns₁ t)
    (h' : Stretch p D max cap t ns₁ heard' evs' ns₂ u) :
    Stretch p D max cap w ns (heard ++ heard') (evs ++ evs') ns₂ u where
  ran := h.ran.append h'.ran
  log := by rw [h'.log, h.log, List.append_assoc]
  pauses := by rw [pauses_append, h.pauses, h'.pauses, List.count_append]
  written := by rw [written_append, h.written, h'.written, List.filterMap_append]
  packets := by rw [h.packets, h'.packets, List.filterMap_append, List.append_assoc]
  waits := h'.waits

/-- Any number of turns. -/
theorem Waits.run (hp : p.Brings D) (n : Nat) : ∀ {fs : List (List UInt8)}
    {ns : List Notification} {w : World σ E}, List.Forall₂ (Notifies max cap) fs ns →
    Waits D max cap fs w →
    ∃ heard evs ns' u, heard.length = n ∧ Stretch p D max cap w ns heard evs ns' u := by
  induction n with
  | zero =>
    intro fs ns w hfs h
    exact ⟨[], [], ns, w, rfl, .nil, (List.append_nil _).symm, rfl, rfl, rfl, fs, hfs, h⟩
  | succ n ih =>
    intro fs ns w hfs h
    obtain ⟨heard, evs, ns', u, hturn⟩ := h.turn hp hfs
    obtain ⟨fs', hfs', h'⟩ := hturn.waits
    obtain ⟨heard', evs', ns'', u', rfl, hrun⟩ := ih hfs' h'
    exact ⟨_, _, _, _, rfl, hturn.append hrun⟩

end Liveness

end NanoClient

end Umqtt
